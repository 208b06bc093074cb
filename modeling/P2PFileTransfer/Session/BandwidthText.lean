import P2PFileTransfer.Core.ParseBandwidth

/-!
# Which bandwidth strings are taken

The number parser takes infinity and no number for numbers, every copy of the unit is taken
away, and a number of bytes below one is cut to zero, which is no limit.  In all other cases
the texts that are taken are the documented ones.
-/

namespace P2PFileTransfer.Session.BandwidthText

open P2PFileTransfer.Foundation.NumberText
open P2PFileTransfer.Foundation.TextSearch
open P2PFileTransfer.Foundation.Utf8 (Text)
open P2PFileTransfer.Core.ParseBandwidth

/-- The documented texts. -/
inductive Numeral : Text → Prop where
  | unlimited : Numeral unlimited
  | plain {text : Text} {bytes : Nat} (hparse : parseU64 text = some bytes) : Numeral text
  | unit {number suffix : Text} {letter : Letter} {value : ℚ}
      (hsuffix : suffix = letter.short ∨ suffix = letter.long)
      (hparse : parseF64 number = some (.finite value)) (hsign : 0 ≤ value) :
      Numeral (number ++ suffix)

/-- The documented texts that mean no limit. -/
inductive MeansNoLimit : Text → Prop where
  | unlimited : MeansNoLimit unlimited
  | plain {text : Text} (hparse : parseU64 text = some 0) : MeansNoLimit text
  | unit {number suffix : Text} {letter : Letter}
      (hsuffix : suffix = letter.short ∨ suffix = letter.long)
      (hparse : parseF64 number = some (.finite 0)) : MeansNoLimit (number ++ suffix)

/-- What is to be made of a string. -/
structure AsDocumented (toLowercase : Text → Text) (text : Text) : Prop where
  accepts : (∃ bytes, parseBandwidth toLowercase text = .ok bytes) ↔
    Numeral (toLowercase (trim text))
  noLimit : parseBandwidth toLowercase text = .ok 0 → MeansNoLimit (toLowercase (trim text))

/-- A text in front of copies of a unit, first short ones and then long ones. -/
structure Spelled (text number : Text) (letter : Letter) (short long : Nat) : Prop where
  text_eq : text = number ++ repeated letter.short short ++ repeated letter.long long
  pos : 0 < short + long

/-- A number that is not negative, with copies of a unit; it is no finite number, or the unit
is repeated, or the number of bytes is positive and below one. -/
def Misread (text : Text) : Prop :=
  ∃ number letter short long num, Spelled text number letter short long ∧
    parseF64 number = some num ∧ num.isNegative = false ∧
    ((∀ value, num ≠ .finite value) ∨ 1 < short + long ∨
      ∃ value, num = .finite value ∧ 0 < value ∧ value * letter.multiplier < 1)

variable {text number front : Text} {letter other : Letter} {short long : Nat} {num : F64}

/-! ## Units at the end -/

theorem char_inj (hsame : letter.char = other.char) : letter = other := by
  cases letter <;> cases other <;> first | rfl | exact absurd hsame (by decide)

theorem char_ne_b (letter : Letter) : letter.char ≠ 'b' := by
  cases letter <;> decide

theorem short_ne_nil (letter : Letter) : letter.short ≠ [] := List.cons_ne_nil _ _

theorem long_ne_nil (letter : Letter) : letter.long ≠ [] := List.cons_ne_nil _ _

theorem foreign_char (letter : Letter) : Foreign letter.char := by
  cases letter <;> decide

/-- The last two characters decide what a text ends with. -/
theorem ends_iff {last : Char} :
    letter.ends (front ++ [last]) = true ↔
      last = 'b' ∧ letter.short <:+ front ∨ letter.char = last := by
  rw [Letter.ends, Bool.or_eq_true, List.isSuffixOf_iff_suffix, List.isSuffixOf_iff_suffix]
  have hlong : letter.long <:+ front ++ [last] ↔ last = 'b' ∧ letter.short <:+ front := by
    change letter.short ++ ['b'] <:+ front ++ [last] ↔ _
    rw [List.suffix_concat_iff]
    constructor
    · rintro (hnil | ⟨rest, hrest, hsuffix⟩)
      · cases hnil
      · obtain ⟨rfl, hlast⟩ := List.append_inj' hrest rfl
        exact ⟨(List.singleton_inj.mp hlast).symm, hsuffix⟩
    · rintro ⟨rfl, hsuffix⟩
      exact Or.inr ⟨letter.short, rfl, hsuffix⟩
  have hshort : letter.short <:+ front ++ [last] ↔ letter.char = last := by
    change [] ++ [letter.char] <:+ front ++ [last] ↔ _
    rw [List.suffix_concat_iff]
    constructor
    · rintro (hnil | ⟨rest, hrest, _⟩)
      · cases hnil
      · exact List.singleton_inj.mp (List.append_inj' hrest rfl).2
    · rintro rfl
      exact Or.inr ⟨[], rfl, List.nil_suffix⟩
  rw [hlong, hshort]

theorem repeated_concat (piece : Text) (count : Nat) :
    repeated piece (count + 1) = repeated piece count ++ piece := by
  rw [repeated, List.replicate_succ', List.flatten_concat, repeated]

/-- A spelled text ends with its unit and with no other. -/
theorem Spelled.ends_iff (hspelled : Spelled text number letter short long) :
    other.ends text = true ↔ other = letter := by
  obtain ⟨rfl, hpos⟩ := hspelled
  cases long with
  | zero =>
      cases short with
      | zero => exact absurd hpos (by decide)
      | succ short =>
          have htext : number ++ repeated letter.short (short + 1) ++ repeated letter.long 0 =
              (number ++ repeated letter.short short) ++ [letter.char] := by
            rw [repeated_concat]
            simp [repeated, Letter.short]
          rw [htext, BandwidthText.ends_iff]
          constructor
          · rintro (⟨hb, _⟩ | hsame)
            · exact absurd hb (char_ne_b letter)
            · exact char_inj hsame
          · rintro rfl
            exact Or.inr rfl
  | succ long =>
      have htext : number ++ repeated letter.short short ++ repeated letter.long (long + 1) =
          (number ++ repeated letter.short short ++ repeated letter.long long ++ letter.short) ++
            ['b'] := by
        rw [repeated_concat]
        simp [Letter.long, Letter.short]
      rw [htext, BandwidthText.ends_iff]
      constructor
      · rintro (⟨_, hsuffix⟩ | hb)
        · have hsame := List.suffix_of_suffix_length_le hsuffix (List.suffix_append _ _) (Nat.le_refl 1)
          exact char_inj (List.singleton_inj.mp (hsame.eq_of_length rfl))
        · exact absurd hb (char_ne_b other)
      · rintro rfl
        exact Or.inl ⟨rfl, List.suffix_append _ _⟩

theorem Spelled.unitOf (hspelled : Spelled text number letter short long) :
    unitOf text = some letter := by
  have hends := fun other => @Spelled.ends_iff text number letter other short long hspelled
  have hself := (hends letter).mpr rfl
  have hother : ∀ other, other ≠ letter → other.ends text = false := fun other hne =>
    Bool.eq_false_iff.mpr fun hends' => hne ((hends other).mp hends')
  rw [Core.ParseBandwidth.unitOf]
  cases letter with
  | g => rw [if_pos hself]
  | m => rw [hother .g (by decide), if_neg Bool.false_ne_true, if_pos hself]
  | k =>
      rw [hother .g (by decide), hother .m (by decide), if_neg Bool.false_ne_true,
        if_neg Bool.false_ne_true, if_pos hself]

theorem ends_of_unitOf (hunit : unitOf text = some letter) : letter.ends text = true := by
  rw [Core.ParseBandwidth.unitOf] at hunit
  split at hunit
  · rename_i hends
    cases hunit
    exact hends
  · split at hunit
    · rename_i hends
      cases hunit
      exact hends
    · obtain ⟨hends, hletter⟩ := Option.ite_none_right_eq_some.mp hunit
      cases hletter
      exact hends

/-- A text with a unit is spelled with what is left of it for the number. -/
theorem exists_spelled (hunit : unitOf text = some letter) :
    ∃ short long, Spelled text (numStr letter text) letter short long := by
  obtain ⟨long, htext, hlong⟩ := trimEndMatches_spec (long_ne_nil letter) text
  obtain ⟨short, hinner, hshort⟩ := trimEndMatches_spec (short_ne_nil letter)
    (trimEndMatches letter.long text)
  refine ⟨short, long, ?_, Nat.pos_of_ne_zero fun hzero => ?_⟩
  · rw [numStr, ← hinner]
    exact htext
  · obtain ⟨rfl, rfl⟩ := Nat.add_eq_zero_iff.mp hzero
    have hkept : trimEndMatches letter.long text = text := by
      rw [repeated, List.replicate_zero, List.flatten_nil, List.append_nil] at htext
      exact htext.symm
    have hkept' : trimEndMatches letter.short text = text := by
      rw [hkept, repeated, List.replicate_zero, List.flatten_nil, List.append_nil] at hinner
      exact hinner.symm
    rw [hkept] at hlong hshort
    rw [hkept'] at hshort
    have hends := ends_of_unitOf hunit
    rw [Letter.ends, Bool.or_eq_true, List.isSuffixOf_iff_suffix, List.isSuffixOf_iff_suffix] at hends
    exact hends.elim hlong hshort

/-! ## Numbers before units -/

/-- No literal has the characters of a unit in it. -/
theorem not_mem_of_literal (hparse : parseF64 number = some num) (letter : Letter) :
    letter.char ∉ number ∧ 'b' ∉ number :=
  ⟨not_mem_of_parseF64 (foreign_char letter) hparse,
    not_mem_of_parseF64 (by decide) hparse⟩

theorem Spelled.numStr (hspelled : Spelled text number letter short long)
    (hparse : parseF64 number = some num) : numStr letter text = number := by
  obtain ⟨rfl, _⟩ := hspelled
  obtain ⟨hchar, hb⟩ := not_mem_of_literal hparse letter
  have hshort : ¬letter.short <:+ number := fun hsuffix =>
    hchar (hsuffix.subset List.mem_cons_self)
  have hlong : ¬letter.long <:+ number ++ repeated letter.short short := by
    intro hsuffix
    have hmem : 'b' ∈ number ++ repeated letter.short short :=
      hsuffix.subset (List.mem_cons_of_mem _ List.mem_cons_self)
    rcases List.mem_append.mp hmem with hnumber | hunits
    · exact hb hnumber
    · obtain ⟨piece, hpiece, hmem⟩ := List.mem_flatten.mp hunits
      rw [List.eq_of_mem_replicate hpiece] at hmem
      exact char_ne_b letter (List.mem_singleton.mp hmem).symm
  rw [Core.ParseBandwidth.numStr, trimEndMatches_append (long_ne_nil letter) hlong,
    trimEndMatches_append (short_ne_nil letter) hshort]

/-- The number of copies can be read off the text. -/
theorem Spelled.count (hspelled : Spelled text number letter short long)
    (hparse : parseF64 number = some num) : text.count letter.char = short + long := by
  obtain ⟨rfl, _⟩ := hspelled
  have hchar := List.count_eq_zero.mpr (not_mem_of_literal hparse letter).1
  have hself : letter.short.count letter.char = 1 := List.count_singleton_self
  have hlong : letter.long.count letter.char = 1 := by
    rw [Letter.long, List.count_cons_self, List.count_singleton, if_neg]
    simpa using (char_ne_b letter).symm
  rw [List.count_append, List.count_append, hchar, count_repeated, count_repeated, hself, hlong]
  omega

theorem mem_of_unitOf (hunit : unitOf text = some letter) : letter.char ∈ text := by
  have hends := ends_of_unitOf hunit
  rw [Letter.ends, Bool.or_eq_true, List.isSuffixOf_iff_suffix, List.isSuffixOf_iff_suffix] at hends
  rcases hends with hsuffix | hsuffix
  · exact hsuffix.subset List.mem_cons_self
  · exact hsuffix.subset List.mem_cons_self

theorem parseU64_of_unit (hunit : unitOf text = some letter) : parseU64 text = none := by
  cases hparse : parseU64 text with
  | none => rfl
  | some bytes =>
      exact absurd (mem_of_unitOf hunit) (not_mem_of_parseU64 (foreign_char letter) hparse)

theorem ne_unlimited_of_unit (hunit : unitOf text = some letter) : text ≠ unlimited := by
  rintro rfl
  cases hunit

theorem exists_spelled_once {suffix : Text} (hsuffix : suffix = letter.short ∨ suffix = letter.long)
    (number : Text) :
    ∃ short long, Spelled (number ++ suffix) number letter short long ∧ short + long = 1 := by
  rcases hsuffix with rfl | rfl
  · exact ⟨1, 0, ⟨by simp [repeated], by decide⟩, rfl⟩
  · exact ⟨0, 1, ⟨by simp [repeated], by decide⟩, rfl⟩

/-- A literal with its unit written once. -/
theorem once_iff (hunit : unitOf text = some letter) :
    (∃ number suffix other, (suffix = Letter.short other ∨ suffix = other.long) ∧
      parseF64 number = some num ∧ text = number ++ suffix) ↔
      parseF64 (numStr letter text) = some num ∧ text.count letter.char = 1 := by
  constructor
  · rintro ⟨number, suffix, other, hsuffix, hparse, rfl⟩
    obtain ⟨short, long, hspelled, honce⟩ := exists_spelled_once hsuffix number
    have hletter := hspelled.unitOf
    rw [hunit] at hletter
    cases hletter
    rw [hspelled.numStr hparse, hspelled.count hparse]
    exact ⟨hparse, honce⟩
  · rintro ⟨hparse, honce⟩
    obtain ⟨short, long, hspelled⟩ := exists_spelled hunit
    have hcount := hspelled.count hparse
    have htext := hspelled.text_eq
    cases short with
    | zero =>
        obtain rfl : long = 1 := by omega
        exact ⟨_, letter.long, letter, Or.inr rfl, hparse, by simpa [repeated] using htext⟩
    | succ short =>
        obtain rfl : long = 0 := by omega
        obtain rfl : short = 0 := by omega
        exact ⟨_, letter.short, letter, Or.inl rfl, hparse, by simpa [repeated] using htext⟩

theorem numeral_iff (hunit : unitOf text = some letter) :
    Numeral text ↔ ∃ value, 0 ≤ value ∧ parseF64 (numStr letter text) = some (.finite value) ∧
      text.count letter.char = 1 := by
  constructor
  · intro hnumeral
    cases hnumeral with
    | unlimited => exact absurd rfl (ne_unlimited_of_unit hunit)
    | plain hparse =>
        rw [parseU64_of_unit hunit] at hparse
        cases hparse
    | unit hsuffix hparse hsign =>
        exact ⟨_, hsign, (once_iff hunit).mp ⟨_, _, _, hsuffix, hparse, rfl⟩⟩
  · rintro ⟨value, hsign, honce⟩
    obtain ⟨number, suffix, other, hsuffix, hparse, rfl⟩ := (once_iff hunit).mpr honce
    exact .unit hsuffix hparse hsign

theorem meansNoLimit_iff (hunit : unitOf text = some letter) :
    MeansNoLimit text ↔ parseF64 (numStr letter text) = some (.finite 0) ∧
      text.count letter.char = 1 := by
  constructor
  · intro hmeans
    cases hmeans with
    | unlimited => exact absurd rfl (ne_unlimited_of_unit hunit)
    | plain hparse =>
        rw [parseU64_of_unit hunit] at hparse
        cases hparse
    | unit hsuffix hparse => exact (once_iff hunit).mp ⟨_, _, _, hsuffix, hparse, rfl⟩
  · intro honce
    obtain ⟨number, suffix, other, hsuffix, hparse, rfl⟩ := (once_iff hunit).mpr honce
    exact .unit hsuffix hparse

theorem misread_iff (hunit : unitOf text = some letter) :
    Misread text ↔ ∃ num, parseF64 (numStr letter text) = some num ∧ num.isNegative = false ∧
      ((∀ value, num ≠ .finite value) ∨ 1 < text.count letter.char ∨
        ∃ value, num = .finite value ∧ 0 < value ∧ value * letter.multiplier < 1) := by
  constructor
  · rintro ⟨number, other, short, long, num, hspelled, hparse, hsign, hwrong⟩
    have hletter := hspelled.unitOf
    rw [hunit] at hletter
    cases hletter
    rw [hspelled.numStr hparse, hspelled.count hparse]
    exact ⟨num, hparse, hsign, hwrong⟩
  · rintro ⟨num, hparse, hsign, hwrong⟩
    obtain ⟨short, long, hspelled⟩ := exists_spelled hunit
    rw [hspelled.count hparse] at hwrong
    exact ⟨_, letter, short, long, num, hspelled, hparse, hsign, hwrong⟩

/-! ## What the parser makes of a text -/

theorem parseLowered_unit (hunit : unitOf text = some letter) :
    parseLowered text = match parseF64 (numStr letter text) with
      | none => .error [.text "Invalid number in bandwidth: ", .text (String.ofList text)]
      | some num =>
          if num.isNegative then .error [.text "Bandwidth cannot be negative"]
          else .ok (num.timesAsU64 letter.multiplier) := by
  have hzero : text ≠ ['0'] := by
    rintro rfl
    cases hunit
  rw [parseLowered, if_neg (not_or.mpr ⟨ne_unlimited_of_unit hunit, hzero⟩), parseU64_of_unit hunit]
  cases hparsed : parseF64 (numStr letter text) <;> simp only [hunit, hparsed]

theorem timesAsU64_eq_zero_iff (value : ℚ) (factor : Nat) :
    (F64.finite value).timesAsU64 factor = 0 ↔ value * factor < 1 := by
  rw [F64.timesAsU64, ← Nat.floor_eq_zero]
  omega

/-- What is to be made of a text that is trimmed and in lower case. -/
structure Documented (text : Text) : Prop where
  accepts : (∃ bytes, parseLowered text = .ok bytes) ↔ Numeral text
  noLimit : parseLowered text = .ok 0 → MeansNoLimit text

theorem documented_of_error {message : Message} (herror : parseLowered text = .error message)
    (hnot : ¬Numeral text) : Documented text := by
  refine ⟨iff_of_false ?_ hnot, fun hok => ?_⟩
  · rintro ⟨bytes, hok⟩
    rw [herror] at hok
    cases hok
  · rw [herror] at hok
    cases hok

/-- A finite number that is not negative, before its unit. -/
theorem documented_finite_iff {value : ℚ} (hunit : unitOf text = some letter)
    (hparse : parseF64 (numStr letter text) = some (.finite value)) (hvalue : 0 ≤ value)
    (hlowered : parseLowered text = .ok ((F64.finite value).timesAsU64 letter.multiplier)) :
    Documented text ↔ text.count letter.char = 1 ∧ (value * letter.multiplier < 1 → value = 0) := by
  have hzero := timesAsU64_eq_zero_iff value letter.multiplier
  constructor
  · intro hdocumented
    obtain ⟨_, _, _, honce⟩ := (numeral_iff hunit).mp (hdocumented.accepts.mp ⟨_, hlowered⟩)
    refine ⟨honce, fun hsmall => ?_⟩
    have hmeans := hdocumented.noLimit (hlowered.trans (congrArg Except.ok (hzero.mpr hsmall)))
    have hnumber := ((meansNoLimit_iff hunit).mp hmeans).1
    rw [hparse] at hnumber
    cases hnumber
    rfl
  · rintro ⟨honce, hsmall⟩
    refine ⟨iff_of_true ⟨_, hlowered⟩ ((numeral_iff hunit).mpr ⟨value, hvalue, hparse, honce⟩),
      fun hok => (meansNoLimit_iff hunit).mpr ⟨?_, honce⟩⟩
    rw [hlowered] at hok
    rw [hparse, hsmall (hzero.mp (Except.ok.inj hok))]

theorem documented_unit_iff (hunit : unitOf text = some letter) :
    Documented text ↔ ¬Misread text := by
  have hlowered := parseLowered_unit hunit
  rw [misread_iff hunit]
  cases hparse : parseF64 (numStr letter text) with
  | none =>
      rw [hparse] at hlowered
      refine iff_of_true (documented_of_error hlowered fun hnumeral => ?_) ?_
      · obtain ⟨_, _, hfinite, _⟩ := (numeral_iff hunit).mp hnumeral
        rw [hparse] at hfinite
        cases hfinite
      · rintro ⟨num, hnum, _⟩
        cases hnum
  | some num =>
      rw [hparse] at hlowered
      dsimp only at hlowered
      cases hsign : num.isNegative with
      | true =>
          rw [hsign, if_pos rfl] at hlowered
          refine iff_of_true (documented_of_error hlowered fun hnumeral => ?_) ?_
          · obtain ⟨value, hvalue, hfinite, _⟩ := (numeral_iff hunit).mp hnumeral
            rw [hparse] at hfinite
            cases hfinite
            exact absurd (of_decide_eq_true hsign) (not_lt.mpr hvalue)
          · rintro ⟨other, hother, hfalse, _⟩
            cases hother
            rw [hsign] at hfalse
            cases hfalse
      | false =>
          rw [hsign, if_neg Bool.false_ne_true] at hlowered
          cases num with
          | finite value =>
              have hvalue : 0 ≤ value := not_lt.mp (of_decide_eq_false hsign)
              have hcount := List.count_pos_iff.mpr (mem_of_unitOf hunit)
              rw [documented_finite_iff hunit hparse hvalue hlowered]
              constructor
              · rintro ⟨honce, hsmall⟩ ⟨num, hnum, _, hwrong⟩
                cases hnum
                rcases hwrong with hfinite | hseveral | ⟨other, hother, hpos, hless⟩
                · exact hfinite value rfl
                · omega
                · cases hother
                  exact absurd (hsmall hless) (ne_of_gt hpos)
              · intro hright
                refine ⟨?_, fun hsmall => ?_⟩
                · by_contra hseveral
                  exact hright ⟨_, rfl, hsign, Or.inr (Or.inl (by omega))⟩
                · by_contra hne
                  exact hright ⟨_, rfl, hsign, Or.inr (Or.inr
                    ⟨value, rfl, lt_of_le_of_ne hvalue (Ne.symm hne), hsmall⟩)⟩
          | nan =>
              refine iff_of_false (fun hdocumented => ?_) fun hright =>
                hright ⟨_, rfl, hsign, Or.inl fun value heq => nomatch heq⟩
              obtain ⟨_, _, hfinite, _⟩ :=
                (numeral_iff hunit).mp (hdocumented.accepts.mp ⟨_, hlowered⟩)
              rw [hparse] at hfinite
              cases hfinite
          | infinite negative =>
              refine iff_of_false (fun hdocumented => ?_) fun hright =>
                hright ⟨_, rfl, hsign, Or.inl fun value heq => nomatch heq⟩
              obtain ⟨_, _, hfinite, _⟩ :=
                (numeral_iff hunit).mp (hdocumented.accepts.mp ⟨_, hlowered⟩)
              rw [hparse] at hfinite
              cases hfinite

/-- A text without a unit is a plain number, the word for no limit, or nothing. -/
theorem documented_of_no_unit (hunit : unitOf text = none) : Documented text := by
  by_cases hword : text = unlimited ∨ text = ['0']
  · have hok : parseLowered text = .ok 0 := if_pos hword
    rcases hword with rfl | rfl
    · exact ⟨iff_of_true ⟨0, hok⟩ .unlimited, fun _ => .unlimited⟩
    · exact ⟨iff_of_true ⟨0, hok⟩ (.plain rfl), fun _ => .plain rfl⟩
  · have hlowered : parseLowered text = _ := if_neg hword
    cases hparse : parseU64 text with
    | some bytes =>
        rw [hparse] at hlowered
        refine ⟨iff_of_true ⟨bytes, hlowered⟩ (.plain hparse), fun hok => ?_⟩
        rw [hlowered] at hok
        exact .plain (hparse.trans (congrArg some (Except.ok.inj hok)))
    | none =>
        rw [hparse] at hlowered
        dsimp only at hlowered
        rw [hunit] at hlowered
        refine documented_of_error hlowered fun hnumeral => ?_
        cases hnumeral with
        | unlimited => exact hword (Or.inl rfl)
        | plain hsome =>
            rw [hparse] at hsome
            cases hsome
        | unit hsuffix _ _ =>
            obtain ⟨short, long, hspelled, _⟩ := exists_spelled_once hsuffix _
            rw [hspelled.unitOf] at hunit
            cases hunit

theorem asDocumented_iff_documented (toLowercase : Text → Text) (text : Text) :
    AsDocumented toLowercase text ↔ Documented (toLowercase (trim text)) :=
  ⟨fun has => ⟨has.accepts, has.noLimit⟩, fun hdoc => ⟨hdoc.accepts, hdoc.noLimit⟩⟩

/-- Exactly the strings that are not misread are treated as documented. -/
theorem asDocumented_iff (toLowercase : Text → Text) (text : Text) :
    AsDocumented toLowercase text ↔ ¬Misread (toLowercase (trim text)) := by
  rw [asDocumented_iff_documented]
  cases hunit : unitOf (toLowercase (trim text)) with
  | some letter => exact documented_unit_iff hunit
  | none =>
      refine iff_of_true (documented_of_no_unit hunit) ?_
      rintro ⟨_, _, _, _, _, hspelled, _⟩
      rw [hspelled.unitOf] at hunit
      cases hunit

example : parseBandwidth (List.map Char.toLower) [' ', '1', '0', 'M', 'B'] =
    .ok (10 * 1024 * 1024) := by decide +kernel

/-- A text that is taken for a rate, and otherwise than documented. -/
def TakenWrongly (text : Text) (rate : Nat) : Prop :=
  parseBandwidth (List.map Char.toLower) text = .ok rate ∧ ¬AsDocumented (List.map Char.toLower) text

/-- No number, infinity, a unit that is written three times, and a ten-thousandth of a
kilobyte; the first and the last become no limit. -/
theorem misreads :
    TakenWrongly ['n', 'a', 'n', 'k'] 0 ∧ TakenWrongly ['i', 'n', 'f', 'm', 'b'] (2 ^ 64 - 1) ∧
      TakenWrongly ['5', 'k', 'k', 'k'] 5120 ∧ TakenWrongly ['0', '.', '0', '0', '0', '1', 'k'] 0 := by
  simp only [TakenWrongly, asDocumented_iff_documented]
  refine ⟨?_, ?_, ?_, ?_⟩
  · refine ⟨by decide +kernel, fun hdocumented => ?_⟩
    have hunit : unitOf ['n', 'a', 'n', 'k'] = some .k := by decide
    exact (documented_unit_iff hunit).mp hdocumented ⟨['n', 'a', 'n'], .k, 1, 0, .nan,
      ⟨rfl, by decide⟩, rfl, rfl, Or.inl fun value heq => nomatch heq⟩
  · refine ⟨by decide +kernel, fun hdocumented => ?_⟩
    have hunit : unitOf ['i', 'n', 'f', 'm', 'b'] = some .m := by decide
    exact (documented_unit_iff hunit).mp hdocumented ⟨['i', 'n', 'f'], .m, 0, 1, .infinite false,
      ⟨rfl, by decide⟩, rfl, rfl, Or.inl fun value heq => nomatch heq⟩
  · refine ⟨by decide +kernel, fun hdocumented => ?_⟩
    have hunit : unitOf ['5', 'k', 'k', 'k'] = some .k := by decide
    exact (documented_unit_iff hunit).mp hdocumented ⟨['5'], .k, 3, 0, .finite 5,
      ⟨rfl, by decide⟩, by decide +kernel, by decide +kernel, Or.inr (Or.inl (by decide))⟩
  · refine ⟨by decide +kernel, fun hdocumented => ?_⟩
    have hunit : unitOf ['0', '.', '0', '0', '0', '1', 'k'] = some .k := by decide
    have hparse : parseF64 ['0', '.', '0', '0', '0', '1'] = some (.finite (1 / 10000)) := by
      decide +kernel
    exact (documented_unit_iff hunit).mp hdocumented ⟨['0', '.', '0', '0', '0', '1'], .k, 1, 0, _,
      ⟨rfl, by decide⟩, hparse, by decide +kernel,
      Or.inr (Or.inr ⟨1 / 10000, rfl, by decide +kernel, by decide +kernel⟩)⟩

end P2PFileTransfer.Session.BandwidthText
