import P2PFileTransfer.Core.IdentityFiles

/-!
# What the PEM reader makes of a text

What the writer made is read back, since no footer begins inside a header or inside the
symbols.  In another text the first footer may begin before the first header ends; there is
nothing between them then, and the reader panics.
-/

namespace P2PFileTransfer.Session.PemText

open P2PFileTransfer.Foundation.Base64 (Engine InAlphabet standard)
open P2PFileTransfer.Foundation.Blocks
open P2PFileTransfer.Foundation.ByteFile
open P2PFileTransfer.Foundation.TextSearch
open P2PFileTransfer.Foundation.Utf8
open P2PFileTransfer.Core.IdentityFiles

/-- Capital letters and spaces. -/
def IsLabel (label : Text) : Prop := ∀ char ∈ label, 'A' ≤ char ∧ char ≤ 'Z' ∨ char = ' '

/-- The first footer begins before the first header ends. -/
def FooterFirst (label text : Text) : Prop :=
  ∃ front back, FirstAt (header label) text front ∧ FirstAt (footer label) text back ∧
    back.length < (front ++ header label).length

/-- What the reader is to do with a text of its own and with any other. -/
structure Robust (engine : Engine) (label text : Text) : Prop where
  roundTrip : ∀ der, pemToDer engine (derToPem engine der label) label = .ok der
  noPanic : pemToDer engine text label ≠ .panicked

variable {engine : Engine} {label text front back inner : Text} {char : Char}

/-! ## The parts of a PEM text -/

theorem not_dash_of_isLabel (hlabel : IsLabel label) : '-' ∉ label := by
  intro hmem
  rcases hlabel '-' hmem with hcapital | hspace
  · exact absurd hcapital (by decide)
  · exact absurd hspace (by decide)

theorem code_of_inAlphabet (hchar : InAlphabet char) :
    43 ≤ char.toNat ∧ char.toNat ≤ 122 ∧ char.toNat ≠ 45 := by
  have hle : ∀ low high : Char, low ≤ char ∧ char ≤ high →
      low.toNat ≤ char.toNat ∧ char.toNat ≤ high.toNat := fun _ _ hrange => hrange
  rcases hchar with hrange | hrange | hrange | rfl | rfl | rfl
  · have hbounds := hle _ _ hrange
    simp only [Char.reduceToNat] at hbounds
    omega
  · have hbounds := hle _ _ hrange
    simp only [Char.reduceToNat] at hbounds
    omega
  · have hbounds := hle _ _ hrange
    simp only [Char.reduceToNat] at hbounds
    omega
  all_goals decide

theorem not_whitespace_of_inAlphabet (hchar : InAlphabet char) : isWhitespace char = false := by
  obtain ⟨hlow, hhigh, _⟩ := code_of_inAlphabet hchar
  have hne : ∀ code, 122 < code ∨ code < 43 → (char.toNat == code) = false := fun code hcode =>
    beq_false_of_ne (by omega)
  have hle : ∀ code, 122 < code → decide (code ≤ char.toNat) = false := fun code hcode =>
    decide_eq_false (by omega)
  have hspace : decide (char.toNat ≤ 13) = false := decide_eq_false (by omega)
  simp only [isWhitespace, hspace, hne 32 (by omega), hne 133 (by omega), hne 160 (by omega),
    hne 5760 (by omega), hle 8192 (by omega), hne 8232 (by omega), hne 8233 (by omega),
    hne 8239 (by omega), hne 8287 (by omega), hne 12288 (by omega), Bool.and_false,
    Bool.false_and, Bool.or_false]

theorem dash_notMem_wrapped (symbols : Text) (hsymbols : ∀ char ∈ symbols, InAlphabet char) :
    '-' ∉ wrapped symbols := by
  intro hmem
  obtain ⟨line, hline, hdash⟩ := List.mem_flatMap.mp hmem
  rcases List.mem_append.mp hdash with hinside | hend
  · have hsymbol : '-' ∈ (chunks 64 symbols).flatten := List.mem_flatten.mpr ⟨line, hline, hinside⟩
    rw [flatten_chunks symbols (by decide)] at hsymbol
    exact absurd (hsymbols _ hsymbol) (by decide)
  · exact absurd (List.mem_singleton.mp hend) (by decide)

/-- Without the white space the lines are the symbols again. -/
theorem filter_wrapped (symbols : Text) (hsymbols : ∀ char ∈ symbols, InAlphabet char) :
    (wrapped symbols).filter (fun char => !isWhitespace char) = symbols := by
  have hlines : ∀ lines : List Text, (∀ char ∈ lines.flatten, InAlphabet char) →
      (lines.flatMap fun line => line ++ ['\n']).filter (fun char => !isWhitespace char) =
        lines.flatten := by
    intro lines
    induction lines with
    | nil => exact fun _ => rfl
    | cons line rest ih =>
        intro hall
        have hline : line.filter (fun char => !isWhitespace char) = line := by
          apply List.filter_eq_self.mpr
          intro char hchar
          rw [not_whitespace_of_inAlphabet (hall char (List.mem_append_left _ hchar))]
          rfl
        have hrest := ih fun char hchar => hall char (List.mem_append_right _ hchar)
        rw [List.flatMap_cons, List.filter_append, List.filter_append, hline, hrest]
        exact congrArg (fun front => front ++ rest.flatten) (List.append_nil line)
  rw [wrapped, hlines _ (by rwa [flatten_chunks symbols (by decide)]),
    flatten_chunks symbols (by decide)]

/-! ## Where the markers are -/

theorem find_header (rest : Text) : find (header label) (header label ++ rest) = some 0 :=
  find_start (List.prefix_append _ _)

/-- No footer begins in a header. -/
theorem find_footer_header (hlabel : '-' ∉ label) (hinner : '-' ∉ inner) (rest : Text) :
    find (footer label) (header label ++ ('\n' :: inner ++ rest)) =
      (find (footer label) rest).map fun offset =>
        utf8Len (header label ++ ('\n' :: inner)) + offset := by
  have hword : '-' ∉ ['B', 'E', 'G', 'I', 'N', ' '] ++ label := by
    simpa using hlabel
  have hline : '-' ∉ '\n' :: inner := by
    simpa using hinner
  have hdashes : ∀ char : Char, char ≠ '-' → char ≠ 'E' → ∀ rest : Text,
      find (footer label) (dashes ++ char :: rest) =
        (find (footer label) (char :: rest)).map fun offset => utf8Len dashes + offset :=
    fun char hdash hletter rest => find_replicate (Nat.le_refl 5) hdash hletter _ rest
  have hskip : ∀ front : Text, '-' ∉ front → ∀ rest : Text, find (footer label) (front ++ rest) =
      (find (footer label) rest).map fun offset => utf8Len front + offset :=
    fun front hfront rest => find_append hfront rest
  have htext : header label ++ ('\n' :: inner ++ rest) = dashes ++
      'B' :: (['E', 'G', 'I', 'N', ' '] ++ label ++ (dashes ++ '\n' :: (inner ++ rest))) := by
    simp [header]
  have hbegin : 'B' :: (['E', 'G', 'I', 'N', ' '] ++ label ++ (dashes ++ '\n' :: (inner ++ rest))) =
      (['B', 'E', 'G', 'I', 'N', ' '] ++ label) ++ (dashes ++ '\n' :: (inner ++ rest)) := rfl
  rw [htext, hdashes 'B' (by decide) (by decide), hbegin, hskip _ hword,
    hdashes '\n' (by decide) (by decide), ← List.cons_append, hskip _ hline]
  simp only [Option.map_map]
  refine congrFun (congrArg Option.map (funext fun offset => ?_)) _
  simp only [Function.comp_apply, header, utf8Len_append]
  omega

/-- The first footer is the one behind the symbols. -/
theorem find_footer (hlabel : '-' ∉ label) (hinner : '-' ∉ inner) (rest : Text) :
    find (footer label) (header label ++ ('\n' :: inner ++ (footer label ++ rest))) =
      some (utf8Len (header label ++ ('\n' :: inner))) := by
  rw [find_footer_header hlabel hinner, find_start (List.prefix_append _ _), Option.map_some,
    Nat.add_zero]

/-- What stands behind the footer does not matter. -/
theorem pemToDer_written (engine : Engine) (hlabel : '-' ∉ label) (der : Bytes) (rest : Text) :
    pemToDer engine
      (header label ++ ('\n' :: wrapped (engine.encode der) ++ (footer label ++ rest))) label =
      .ok der := by
  have hsymbols := engine.alphabet der
  have hinner := dash_notMem_wrapped (engine.encode der) hsymbols
  have hbody : ('\n' :: wrapped (engine.encode der)).filter (fun char => !isWhitespace char) =
      engine.encode der := by
    rw [List.filter_cons_of_neg (by decide), filter_wrapped _ hsymbols]
  simp only [pemToDer, find_header, find_footer hlabel hinner, Nat.zero_add, range_append, hbody,
    engine.decode_encode]

theorem pemToDer_derToPem (engine : Engine) (hlabel : '-' ∉ label) (der : Bytes) :
    pemToDer engine (derToPem engine der label) label = .ok der :=
  pemToDer_written engine hlabel der ['\n']

/-- What is read has both markers in it. -/
theorem markers_of_ok {der : Bytes} (hok : pemToDer engine text label = .ok der) :
    ∃ front back, FirstAt (header label) text front ∧ FirstAt (footer label) text back := by
  rw [pemToDer] at hok
  split at hok
  · cases hok
  · rename_i position hfind
    obtain ⟨front, hfront, _⟩ := find_eq_some_iff.mp hfind
    dsimp only at hok
    split at hok
    · cases hok
    · rename_i stop hstop
      obtain ⟨back, hback, _⟩ := find_eq_some_iff.mp hstop
      exact ⟨front, back, hfront, hback⟩

/-! ## When the reader panics -/

theorem pemToDer_eq_panicked_iff :
    pemToDer engine text label = .panicked ↔ FooterFirst label text := by
  constructor
  · intro hpanic
    rw [pemToDer] at hpanic
    split at hpanic
    · cases hpanic
    · rename_i position hfind
      obtain ⟨front, hfront, rfl⟩ := find_eq_some_iff.mp hfind
      dsimp only at hpanic
      split at hpanic
      · cases hpanic
      · rename_i stop hstop
        obtain ⟨back, hback, rfl⟩ := find_eq_some_iff.mp hstop
        split at hpanic
        · rename_i hrange
          rw [← utf8Len_append, range_eq_none_iff hfront.occurs
            ((List.prefix_append back _).trans hback.occurs)] at hrange
          exact ⟨front, back, hfront, hback, hrange⟩
        · split at hpanic <;> cases hpanic
  · rintro ⟨front, back, hfront, hback, hlength⟩
    have hnone := (range_eq_none_iff hfront.occurs
      ((List.prefix_append back _).trans hback.occurs)).mpr hlength
    rw [utf8Len_append] at hnone
    rw [pemToDer, find_eq_some_iff.mpr ⟨front, hfront, rfl⟩]
    dsimp only
    rw [find_eq_some_iff.mpr ⟨back, hback, rfl⟩]
    dsimp only
    rw [hnone]

/-- The reader does what it is to do except where the first footer begins before the first
header ends. -/
theorem robust_iff (engine : Engine) (hlabel : IsLabel label) (text : Text) :
    Robust engine label text ↔ ¬FooterFirst label text := by
  constructor
  · exact fun hrobust hfooter => hrobust.noPanic (pemToDer_eq_panicked_iff.mpr hfooter)
  · exact fun hfooter => {
      roundTrip := pemToDer_derToPem engine (not_dash_of_isLabel hlabel)
      noPanic := fun hpanic => hfooter (pemToDer_eq_panicked_iff.mp hpanic) }

theorem isLabel_certificate : IsLabel certificate := by
  intro char hmem
  have hall : (certificate.all fun char => decide ('A' ≤ char ∧ char ≤ 'Z' ∨ char = ' ')) = true := by
    decide
  exact of_decide_eq_true (List.all_eq_true.mp hall char hmem)

/-- Three zero bytes as the writer puts them. -/
def threeZeros : Text := derToPem (standard fun _ => []) [0, 0, 0] certificate

theorem robust_iff_threeZeros : Robust (standard fun _ => []) certificate threeZeros := by
  refine (robust_iff (standard fun _ => []) isLabel_certificate threeZeros).mpr fun hfooter => ?_
  have hpanic : pemToDer (standard fun _ => []) threeZeros certificate = .panicked :=
    pemToDer_eq_panicked_iff.mpr hfooter
  rw [threeZeros, pemToDer_derToPem _ (not_dash_of_isLabel isLabel_certificate)] at hpanic
  cases hpanic

/-- The footer in front of the header. -/
def misplaced : Text := footer certificate ++ header certificate

/-- The two with the same five dashes. -/
def overlapping : Text := header certificate ++ (footer certificate).drop 5

theorem panics_on_misplaced :
    ¬Robust (standard fun _ => []) certificate misplaced ∧
      ¬Robust (standard fun _ => []) certificate overlapping :=
  ⟨fun hrobust => hrobust.noPanic rfl, fun hrobust => hrobust.noPanic rfl⟩

end P2PFileTransfer.Session.PemText
