import P2PFileTransfer.Core.ChecksumHex

/-!
# Which strings a hex field takes

The decoder measures the string in bytes, cuts it in bytes and leaves the signs to the
integer parser.  It goes wrong on two kinds of strings of sixty-four bytes: those with a
plus sign where a high digit belongs, and those with a wide character in a place that a
cut falls into.
-/

namespace P2PFileTransfer.Session.HexFields

open P2PFileTransfer.Foundation.Hex
open P2PFileTransfer.Foundation.Utf8
open P2PFileTransfer.Core.Protocol (FixedBytes FixedBytes.filled)
open P2PFileTransfer.Core.ChecksumHex

/-- Exactly sixty-four hexadecimal digits of either case. -/
structure IsHex (text : Text) : Prop where
  length : text.length = 64
  digits : ∀ char ∈ text, (digitValue char).isSome = true

/-- What a hex field is to do with a string. -/
structure DecodedExactly (text : Text) : Prop where
  ok_iff : (∃ bytes, deserialize text = .ok bytes) ↔ IsHex text
  lower : ∀ bytes, deserialize text = .ok bytes → serialize bytes = text.map Char.toLower
  refused : ¬IsHex text → ∃ error, deserialize text = .failed error

/-- The right length, and behind the pairs that the parser takes there is either nothing,
with a sign among them, or a character across the next cut. -/
def Misread (text : Text) : Prop :=
  utf8Len text = 64 ∧
    (afterPairs text = [] ∧ '+' ∈ text ∨
      afterPairs text ≠ [] ∧ isCharBoundary (afterPairs text) 2 = false)

variable {first second : Char} {front rest text : Text} {index count : Nat}

/-! ## The accepted pairs -/

theorem narrow_of_isSome {char : Char} (hdigit : (digitValue char).isSome = true) :
    char.utf8Size = 1 := by
  obtain ⟨value, hvalue⟩ := Option.isSome_iff_exists.mp hdigit
  exact (digit_of_digitValue hvalue).2.2

theorem narrow_of_accepted (haccepted : accepted first second = true) :
    first.utf8Size = 1 ∧ second.utf8Size = 1 := by
  obtain ⟨hfirst, hsecond⟩ := Bool.and_eq_true_iff.mp haccepted
  refine ⟨?_, narrow_of_isSome hsecond⟩
  rcases Bool.or_eq_true_iff.mp hfirst with hplus | hdigit
  · rw [beq_iff_eq.mp hplus]
    rfl
  · exact narrow_of_isSome hdigit

theorem afterPairs_cons (haccepted : accepted first second = true) :
    afterPairs (first :: second :: rest) = afterPairs rest := by
  rw [afterPairs, if_pos haccepted]

theorem afterPairs_self (hrefused : accepted first second = false) :
    afterPairs (first :: second :: rest) = first :: second :: rest := by
  rw [afterPairs, if_neg (Bool.eq_false_iff.mp hrefused)]

/-- A wide character is in no pair. -/
theorem afterPairs_of_wide (hwide : first.utf8Size ≠ 1) :
    afterPairs (first :: rest) = first :: rest := by
  cases rest with
  | nil => rfl
  | cons second rest =>
      apply afterPairs_self
      apply Bool.eq_false_iff.mpr
      exact fun haccepted => hwide (narrow_of_accepted haccepted).1

/-- Pairs without a sign are pairs of digits. -/
theorem digits_of_afterPairs (hpairs : afterPairs text = []) (hplus : '+' ∉ text) :
    ∀ char ∈ text, (digitValue char).isSome = true := by
  induction text using afterPairs.induct with
  | case1 first second rest haccepted ih =>
      rw [afterPairs_cons haccepted] at hpairs
      have hdigits := ih hpairs fun hmem =>
        hplus (List.mem_cons_of_mem _ (List.mem_cons_of_mem _ hmem))
      obtain ⟨hfirst, hsecond⟩ := Bool.and_eq_true_iff.mp haccepted
      intro char hchar
      rcases List.mem_cons.mp hchar with rfl | hlater
      · rcases Bool.or_eq_true_iff.mp hfirst with hsign | hdigit
        · exact absurd (beq_iff_eq.mp hsign ▸ List.mem_cons_self) hplus
        · exact hdigit
      · rcases List.mem_cons.mp hlater with rfl | hrest
        · exact hsecond
        · exact hdigits char hrest
  | case2 first second rest hrefused =>
      rw [afterPairs_self (Bool.eq_false_iff.mpr hrefused)] at hpairs
      cases hpairs
  | case3 text hshort =>
      intro char hchar
      rw [afterPairs] at hpairs
      · rw [hpairs] at hchar
        exact absurd hchar List.not_mem_nil
      · exact hshort

/-- Digits of an even number are pairs. -/
theorem afterPairs_of_digits (count : Nat) (hlength : text.length = 2 * count)
    (hdigits : ∀ char ∈ text, (digitValue char).isSome = true) : afterPairs text = [] := by
  induction count generalizing text with
  | zero =>
      rw [List.eq_nil_of_length_eq_zero hlength]
      rfl
  | succ count ih =>
      match text with
      | [] => rfl
      | [first] =>
          rw [List.length_singleton] at hlength
          omega
      | first :: second :: rest =>
          have hfirst := hdigits first List.mem_cons_self
          have hsecond := hdigits second (List.mem_cons_of_mem _ List.mem_cons_self)
          have haccepted : accepted first second = true := by
            rw [accepted, hfirst, hsecond, Bool.or_true]
            rfl
          rw [afterPairs_cons haccepted]
          apply ih
          · simp only [List.length_cons] at hlength
            omega
          · exact fun char hchar =>
              hdigits char (List.mem_cons_of_mem _ (List.mem_cons_of_mem _ hchar))

theorem utf8Len_of_digits (hdigits : ∀ char ∈ text, (digitValue char).isSome = true) :
    utf8Len text = text.length := by
  induction text with
  | nil => rfl
  | cons char rest ih =>
      rw [utf8Len_cons, narrow_of_isSome (hdigits char List.mem_cons_self),
        ih fun other hother => hdigits other (List.mem_cons_of_mem _ hother), List.length_cons,
        Nat.add_comm]

/-! ## The loop -/

/-- What the loop makes of the pieces that are left. -/
inductive Decoded (rest : Text) : Outcome (FixedBytes count) → Prop where
  | ok (bytes : FixedBytes count) (hpairs : afterPairs rest = [])
      (hlower : '+' ∉ rest → encode bytes.val = rest.map Char.toLower) : Decoded rest (.ok bytes)
  | failed (kind : IntErrorKind) (hleft : afterPairs rest ≠ [])
      (hboundary : isCharBoundary (afterPairs rest) 2 = true) :
      Decoded rest (.failed (.invalidHex kind))
  | panicked (hleft : afterPairs rest ≠ [])
      (hboundary : isCharBoundary (afterPairs rest) 2 = false) : Decoded rest .panicked

/-- One round: the next two bytes. -/
theorem decodeFrom_succ (hfront : utf8Len front = index * 2) (rest : Text) (count : Nat) :
    decodeFrom (front ++ rest) index (count + 1) =
      match (splitAtByte rest 2).map fun parts => parts.1 with
      | none => .panicked
      | some piece =>
          match fromStrRadix piece with
          | .error kind => .failed (.invalidHex kind)
          | .ok byte => (decodeFrom (front ++ rest) (index + 1) count).map (cons byte) := by
  change (match slice (front ++ rest) (index * 2) (index * 2 + 2) with
    | none => Outcome.panicked
    | some piece =>
        match fromStrRadix piece with
        | .error kind => Outcome.failed (.invalidHex kind)
        | .ok byte => (decodeFrom (front ++ rest) (index + 1) count).map (cons byte)) = _
  rw [← hfront, slice_append]

theorem splitAtByte_pair (hfirst : first.utf8Size = 1) (hsecond : second.utf8Size = 1)
    (rest : Text) : splitAtByte (first :: second :: rest) 2 = some ([first, second], rest) := by
  have hlength : utf8Len [first, second] = 2 := by
    simp only [utf8Len_cons, utf8Len_nil, hfirst, hsecond]
  rw [← hlength]
  exact splitAtByte_append [first, second] rest

theorem splitAtByte_wide (hfirst : first.utf8Size = 2) (rest : Text) :
    splitAtByte (first :: rest) 2 = some ([first], rest) := by
  have hlength : utf8Len [first] = 2 := by
    simp only [utf8Len_cons, utf8Len_nil, hfirst]
  rw [← hlength]
  exact splitAtByte_append [first] rest

/-- The first two bytes are a pair, or some other piece, or cut a character. -/
inductive FirstPiece : Text → Prop where
  | pair {first second : Char} (rest : Text) (haccepted : accepted first second = true) :
      FirstPiece (first :: second :: rest)
  | refused {text piece rest : Text} {kind : IntErrorKind} (hself : afterPairs text = text)
      (hsplit : splitAtByte text 2 = some (piece, rest)) (hpiece : fromStrRadix piece = .error kind) :
      FirstPiece text
  | cut {text : Text} (hself : afterPairs text = text) (hsplit : splitAtByte text 2 = none) :
      FirstPiece text

theorem firstPiece (htwo : 2 ≤ utf8Len text) : FirstPiece text := by
  match text with
  | [] => exact absurd htwo (Nat.not_succ_le_zero 1)
  | first :: rest =>
      have hpos := first.utf8Size_pos
      rcases Nat.lt_trichotomy first.utf8Size 2 with hless | hequal | hmore
      · have hfirst : first.utf8Size = 1 := by omega
        match rest with
        | [] =>
            rw [utf8Len_cons, hfirst, utf8Len_nil] at htwo
            omega
        | second :: rest =>
            by_cases hsecond : second.utf8Size = 1
            · rcases fromStrRadix_pair first second with ⟨haccepted, _⟩ | ⟨hrefused, kind, hkind⟩
              · exact .pair rest haccepted
              · exact .refused (afterPairs_self hrefused) (splitAtByte_pair hfirst hsecond rest) hkind
            · have hwide : 1 < second.utf8Size := by
                have hsecondPos := second.utf8Size_pos
                omega
              refine .cut (afterPairs_self ?_) ?_
              · apply Bool.eq_false_iff.mpr
                exact fun haccepted => hsecond (narrow_of_accepted haccepted).2
              · rw [splitAtByte_cons (by omega), hfirst, splitAtByte_cons_of_lt (by omega) hwide]
                rfl
      · have hwide : first.utf8Size ≠ 1 := by omega
        exact .refused (afterPairs_of_wide hwide) (splitAtByte_wide hequal rest)
          (fromStrRadix_wide hwide)
      · have hwide : first.utf8Size ≠ 1 := by omega
        exact .cut (afterPairs_of_wide hwide) (splitAtByte_cons_of_lt (by omega) hmore)

/-- A pair without a sign is written again in lower case. -/
theorem encodeByte_of_pair {byte : UInt8} (haccepted : accepted first second = true)
    (hplus : first ≠ '+') (hbyte : fromStrRadix [first, second] = .ok byte) :
    encodeByte byte = [first.toLower, second.toLower] := by
  obtain ⟨hfirst, hsecond⟩ := Bool.and_eq_true_iff.mp haccepted
  obtain ⟨high, hhigh⟩ := Option.isSome_iff_exists.mp
    ((Bool.or_eq_true_iff.mp hfirst).resolve_left fun hsign => hplus (beq_iff_eq.mp hsign))
  obtain ⟨low, hlow⟩ := Option.isSome_iff_exists.mp hsecond
  obtain ⟨other, hother, hencoded⟩ := fromStrRadix_digits hhigh hlow
  rw [hbyte] at hother
  cases hother
  exact hencoded

/-- The pieces from a character boundary on. -/
theorem decoded_decodeFrom (count : Nat) {front rest : Text} {index : Nat}
    (hfront : utf8Len front = index * 2) (hrest : utf8Len rest = count * 2) :
    Decoded rest (decodeFrom (front ++ rest) index count) := by
  induction count generalizing front rest index with
  | zero =>
      have hnil : rest = [] := by
        cases rest with
        | nil => rfl
        | cons char rest =>
            have hpos := char.utf8Size_pos
            rw [utf8Len_cons] at hrest
            omega
      rw [hnil]
      exact .ok ⟨[], rfl⟩ rfl fun _ => rfl
  | succ count ih =>
      rw [decodeFrom_succ hfront]
      have hsome : rest ≠ [] := by
        rintro rfl
        rw [utf8Len_nil] at hrest
        omega
      have htwo : 2 ≤ utf8Len rest := by omega
      cases firstPiece htwo with
      | @pair first second rest haccepted =>
          obtain ⟨hfirst, hsecond⟩ := narrow_of_accepted haccepted
          obtain ⟨byte, hbyte⟩ : ∃ byte, fromStrRadix [first, second] = .ok byte := by
            rcases fromStrRadix_pair first second with ⟨_, hok⟩ | ⟨hrefused, _⟩
            · exact hok
            · rw [haccepted] at hrefused
              cases hrefused
          have hlater : Decoded rest
              (decodeFrom (front ++ first :: second :: rest) (index + 1) count) := by
            have hnext : utf8Len (front ++ [first, second]) = (index + 1) * 2 := by
              simp only [utf8Len_append, utf8Len_cons, utf8Len_nil, hfront, hfirst, hsecond]
              omega
            have hless : utf8Len rest = count * 2 := by
              simp only [utf8Len_cons, hfirst, hsecond] at hrest
              omega
            have hdecoded := ih hnext hless
            rw [List.append_assoc] at hdecoded
            exact hdecoded
          have hsame := @afterPairs_cons first second rest haccepted
          rw [splitAtByte_pair hfirst hsecond]
          simp only [Option.map_some, hbyte]
          generalize decodeFrom (front ++ first :: second :: rest) (index + 1) count = result at hlater ⊢
          cases hlater with
          | ok bytes hpairs hlower =>
              refine .ok (cons byte bytes) (hsame.trans hpairs) ?_
              intro hplus
              have hhead := encodeByte_of_pair haccepted
                (fun heq => hplus (heq ▸ List.mem_cons_self)) hbyte
              have htail := hlower fun hmem =>
                hplus (List.mem_cons_of_mem _ (List.mem_cons_of_mem _ hmem))
              change encode (byte :: bytes.val) = _
              rw [encode_cons, hhead, htail]
              rfl
          | failed kind hleft hboundary => exact .failed kind (hsame ▸ hleft) (hsame ▸ hboundary)
          | panicked hleft hboundary => exact .panicked (hsame ▸ hleft) (hsame ▸ hboundary)
      | @refused _ piece tail kind hself hsplit hpiece =>
          simp only [hsplit, Option.map_some, hpiece]
          refine .failed kind (hself.symm ▸ hsome) ?_
          rw [hself, isCharBoundary, hsplit]
          rfl
      | cut hself hsplit =>
          simp only [hsplit, Option.map_none]
          refine .panicked (hself.symm ▸ hsome) ?_
          rw [hself, isCharBoundary, hsplit]
          rfl

/-! ## The field -/

theorem utf8Len_of_isHex (hhex : IsHex text) : utf8Len text = 64 :=
  (utf8Len_of_digits hhex.digits).trans hhex.length

theorem afterPairs_of_isHex (hhex : IsHex text) : afterPairs text = [] ∧ '+' ∉ text := by
  refine ⟨afterPairs_of_digits 32 hhex.length hhex.digits, ?_⟩
  intro hplus
  have hdigit := hhex.digits '+' hplus
  rw [digitValue_plus] at hdigit
  cases hdigit

theorem isHex_of_afterPairs (hlength : utf8Len text = 64) (hpairs : afterPairs text = [])
    (hplus : '+' ∉ text) : IsHex text := by
  have hdigits := digits_of_afterPairs hpairs hplus
  exact ⟨(utf8Len_of_digits hdigits).symm.trans hlength, hdigits⟩

theorem decoded_deserialize (hlength : utf8Len text = 64) : Decoded text (deserialize text) := by
  rw [deserialize, if_neg (not_not.mpr hlength)]
  exact @decoded_decodeFrom 32 [] text 0 rfl hlength

theorem deserialize_of_length (hlength : utf8Len text ≠ 64) :
    deserialize text = .failed (.length (utf8Len text)) := if_pos hlength

/-- A string is handled as it should be unless it is one of the two kinds. -/
theorem decodedExactly_iff (text : Text) : DecodedExactly text ↔ ¬Misread text := by
  by_cases hlength : utf8Len text = 64
  · have hdecoded := decoded_deserialize hlength
    generalize hresult : deserialize text = result at hdecoded
    cases hdecoded with
    | ok bytes hpairs hlower =>
        by_cases hplus : '+' ∈ text
        · have hnot : ¬IsHex text := fun hhex => (afterPairs_of_isHex hhex).2 hplus
          have hmisread : Misread text := ⟨hlength, Or.inl ⟨hpairs, hplus⟩⟩
          exact ⟨fun hexact => absurd (hexact.ok_iff.mp ⟨bytes, hresult⟩) hnot,
            fun hfine => absurd hmisread hfine⟩
        · have hhex := isHex_of_afterPairs hlength hpairs hplus
          constructor
          · rintro _ ⟨_, ⟨_, hsign⟩ | ⟨hleft, _⟩⟩
            · exact hplus hsign
            · exact hleft hpairs
          · intro _
            refine ⟨⟨fun _ => hhex, fun _ => ⟨bytes, hresult⟩⟩, ?_, fun hnot => absurd hhex hnot⟩
            intro other hother
            rw [hresult] at hother
            cases hother
            exact hlower hplus
    | failed kind hleft hboundary =>
        have hnot : ¬IsHex text := fun hhex => hleft (afterPairs_of_isHex hhex).1
        constructor
        · rintro _ ⟨_, ⟨hpairs, _⟩ | ⟨_, hcut⟩⟩
          · exact hleft hpairs
          · rw [hboundary] at hcut
            cases hcut
        · intro _
          refine ⟨⟨?_, fun hhex => absurd hhex hnot⟩, ?_, fun _ => ⟨_, hresult⟩⟩
          · rintro ⟨bytes, hbytes⟩
            rw [hresult] at hbytes
            cases hbytes
          · intro bytes hbytes
            rw [hresult] at hbytes
            cases hbytes
    | panicked hleft hboundary =>
        have hnot : ¬IsHex text := fun hhex => hleft (afterPairs_of_isHex hhex).1
        constructor
        · intro hexact
          obtain ⟨error, herror⟩ := hexact.refused hnot
          rw [hresult] at herror
          cases herror
        · exact fun hfine => absurd ⟨hlength, Or.inr ⟨hleft, hboundary⟩⟩ hfine
  · have hresult := deserialize_of_length hlength
    have hnot : ¬IsHex text := fun hhex => hlength (utf8Len_of_isHex hhex)
    constructor
    · exact fun _ hmisread => hlength hmisread.1
    · intro _
      refine ⟨⟨?_, fun hhex => absurd hhex hnot⟩, ?_, fun _ => ⟨_, hresult⟩⟩
      · rintro ⟨bytes, hbytes⟩
        rw [hresult] at hbytes
        cases hbytes
      · intro bytes hbytes
        rw [hresult] at hbytes
        cases hbytes

theorem isHex_serialize (bytes : FixedBytes 32) : IsHex (serialize bytes) := by
  constructor
  · rw [serialize, length_encode, bytes.property]
  · exact fun char hchar => (of_mem_encode hchar).1

theorem lower_serialize (bytes : FixedBytes 32) :
    (serialize bytes).map Char.toLower = serialize bytes := by
  have hsame : (serialize bytes).map Char.toLower = (serialize bytes).map id :=
    List.map_congr_left fun char hchar => (of_mem_encode hchar).2
  rw [hsame, List.map_id]

/-- What is written is read back. -/
theorem deserialize_serialize (bytes : FixedBytes 32) :
    deserialize (serialize bytes) = .ok bytes := by
  have hhex := isHex_serialize bytes
  obtain ⟨hpairs, hplus⟩ := afterPairs_of_isHex hhex
  have hdecoded := decoded_deserialize (utf8Len_of_isHex hhex)
  generalize deserialize (serialize bytes) = result at hdecoded
  cases hdecoded with
  | ok other _ hlower =>
      have hsame := (hlower hplus).trans (lower_serialize bytes)
      rw [Subtype.ext (encode_inj hsame)]
  | failed kind hleft _ => exact absurd hpairs hleft
  | panicked hleft _ => exact absurd hpairs hleft

/-- Every byte array comes back, and exactly the misread strings are not handled as they
should be. -/
theorem hex_fields (bytes : FixedBytes 32) (text : Text) :
    deserialize (serialize bytes) = .ok bytes ∧ (DecodedExactly text ↔ ¬Misread text) :=
  ⟨deserialize_serialize bytes, decodedExactly_iff text⟩

/-- Sixty-four bytes, and the first cut is inside the second character. -/
def euroText : Text := 'a' :: '€' :: List.replicate 60 'a'

/-- Sixty-four bytes, in which every byte has a sign. -/
def signedText : Text := (List.replicate 32 ['+', '1']).flatten

/-- A wide character makes the decoder panic, and signs make it accept what is not hex. -/
theorem hex_fields_misread :
    deserialize euroText = .panicked ∧
      deserialize signedText = .ok (FixedBytes.filled 32 1) ∧
      ¬ ∀ text, DecodedExactly text := by
  have hpanicked : deserialize euroText = .panicked := by decide +kernel
  have hsigned : deserialize signedText = .ok (FixedBytes.filled 32 1) := by decide +kernel
  refine ⟨hpanicked, hsigned, ?_⟩
  intro hclaim
  have hnot : ¬IsHex signedText := fun hhex =>
    (afterPairs_of_isHex hhex).2 List.mem_cons_self
  exact hnot ((hclaim signedText).ok_iff.mp ⟨_, hsigned⟩)

end P2PFileTransfer.Session.HexFields
