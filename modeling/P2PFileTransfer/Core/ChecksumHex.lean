import P2PFileTransfer.Core.Protocol
import P2PFileTransfer.Foundation.Hex
import P2PFileTransfer.Foundation.Utf8

/-!
# Fixed-size byte arrays as hex strings

Checksums and fingerprints travel as strings.  The string that arrives is any text; the
decoder cuts it every two bytes and parses each piece as an integer.
-/

namespace P2PFileTransfer.Core.ChecksumHex

open P2PFileTransfer.Foundation.Hex
open P2PFileTransfer.Foundation.Utf8
open P2PFileTransfer.Core.Protocol (FixedBytes)

inductive IntErrorKind where
  | empty
  | invalidDigit
  | posOverflow
  deriving DecidableEq, Repr

inductive HexError where
  | length (got : Nat)
  | invalidHex (kind : IntErrorKind)
  deriving DecidableEq, Repr

/-- A slice inside a character panics. -/
inductive Outcome (α : Type) where
  | ok (value : α)
  | failed (error : HexError)
  | panicked
  deriving DecidableEq, Repr

def Outcome.map {α β : Type} (next : α → β) : Outcome α → Outcome β
  | .ok value => .ok (next value)
  | .failed error => .failed error
  | .panicked => .panicked

def parseDigits : Nat → Text → Except IntErrorKind UInt8
  | value, [] => .ok (UInt8.ofNat value)
  | value, char :: rest =>
      match digitValue char with
      | none => .error .invalidDigit
      | some digit =>
          if value * 16 + digit < 256 then parseDigits (value * 16 + digit) rest
          else .error .posOverflow

/-- `u8::from_str_radix(text, 16)`: one leading plus sign is allowed. -/
def fromStrRadix : Text → Except IntErrorKind UInt8
  | [] => .error .empty
  | first :: rest =>
      if rest = [] ∧ (first = '+' ∨ first = '-') then .error .invalidDigit
      else if first = '+' then parseDigits 0 rest
      else parseDigits 0 (first :: rest)

def cons {count : Nat} (byte : UInt8) (bytes : FixedBytes count) : FixedBytes (count + 1) :=
  ⟨byte :: bytes.val, congrArg Nat.succ bytes.property⟩

/-- The loop over the pieces, from `index` on. -/
def decodeFrom (text : Text) (index : Nat) : (count : Nat) → Outcome (FixedBytes count)
  | 0 => .ok ⟨[], rfl⟩
  | count + 1 =>
      match slice text (index * 2) (index * 2 + 2) with
      | none => .panicked
      | some piece =>
          match fromStrRadix piece with
          | .error kind => .failed (.invalidHex kind)
          | .ok byte => (decodeFrom text (index + 1) count).map (cons byte)

def serialize (bytes : FixedBytes 32) : Text := encode bytes.val

def deserialize (text : Text) : Outcome (FixedBytes 32) :=
  if utf8Len text ≠ 64 then .failed (.length (utf8Len text)) else decodeFrom text 0 32

/-! ## Two characters -/

/-- What the parser takes for two digits. -/
def accepted (first second : Char) : Bool :=
  (first == '+' || (digitValue first).isSome) && (digitValue second).isSome

/-- What is left behind the pairs that the parser takes. -/
def afterPairs : Text → Text
  | first :: second :: rest =>
      if accepted first second then afterPairs rest else first :: second :: rest
  | text => text

variable {first second : Char} {high low : Nat}

theorem parseDigits_eq_ok (hlow : digitValue second = some low) :
    parseDigits high [second] =
      if high * 16 + low < 256 then .ok (UInt8.ofNat (high * 16 + low)) else .error .posOverflow := by
  simp only [parseDigits, hlow]

theorem parseDigits_error (hnone : digitValue first = none) (value : Nat) (rest : Text) :
    parseDigits value (first :: rest) = .error .invalidDigit := by
  simp only [parseDigits, hnone]

theorem parseDigits_cons (hhigh : digitValue first = some high) (rest : Text) :
    parseDigits 0 (first :: rest) = parseDigits high rest := by
  have hsmall := (digit_of_digitValue hhigh).1
  simp only [parseDigits, hhigh, Nat.zero_mul, Nat.zero_add]
  exact if_pos (by omega)

theorem digitValue_plus : digitValue '+' = none := rfl

/-- Two characters, the second of which is no digit. -/
theorem fromStrRadix_of_low_none (hnone : digitValue second = none) (first : Char) :
    fromStrRadix [first, second] = .error .invalidDigit := by
  rw [fromStrRadix, if_neg (fun hsign => List.cons_ne_nil _ _ hsign.1)]
  split
  · exact parseDigits_error hnone 0 []
  · cases hhigh : digitValue first with
    | none => exact parseDigits_error hhigh 0 [second]
    | some high =>
        rw [parseDigits_cons hhigh]
        exact parseDigits_error hnone high []

/-- Two digits are the byte that is written as them, in lower case. -/
theorem fromStrRadix_digits (hhigh : digitValue first = some high)
    (hlow : digitValue second = some low) :
    ∃ byte, fromStrRadix [first, second] = .ok byte ∧
      encodeByte byte = [first.toLower, second.toLower] := by
  obtain ⟨hfirst, hfirstLower, _⟩ := digit_of_digitValue hhigh
  obtain ⟨hsecond, hsecondLower, _⟩ := digit_of_digitValue hlow
  have hplus : first ≠ '+' := by
    rintro rfl
    cases hhigh
  refine ⟨UInt8.ofNat (high * 16 + low), ?_, ?_⟩
  · rw [fromStrRadix, if_neg (fun hsign => List.cons_ne_nil _ _ hsign.1), if_neg hplus,
      parseDigits_cons hhigh, parseDigits_eq_ok hlow, if_pos (by omega)]
  · have hvalue : (UInt8.ofNat (high * 16 + low)).toNat = high * 16 + low :=
      Nat.mod_eq_of_lt (by omega)
    have hdiv : (high * 16 + low) / 16 = high := by omega
    have hmod : (high * 16 + low) % 16 = low := by omega
    rw [encodeByte, hvalue, hdiv, hmod, hfirstLower, hsecondLower]

/-- A sign and a digit are taken as well. -/
theorem fromStrRadix_plus (hlow : digitValue second = some low) :
    fromStrRadix ['+', second] = .ok (UInt8.ofNat low) := by
  have hsmall := (digit_of_digitValue hlow).1
  rw [fromStrRadix, if_neg (fun hsign => List.cons_ne_nil _ _ hsign.1), if_pos rfl,
    parseDigits_eq_ok hlow, if_pos (by omega), Nat.zero_mul, Nat.zero_add]

/-- A character of two bytes is no digit. -/
theorem fromStrRadix_wide (hwide : first.utf8Size ≠ 1) :
    fromStrRadix [first] = .error .invalidDigit := by
  rw [fromStrRadix]
  have hnone : digitValue first = none := by
    cases hdigit : digitValue first with
    | none => rfl
    | some value => exact absurd (digit_of_digitValue hdigit).2.2 hwide
  split
  · rfl
  · split
    · rename_i hplus
      rw [hplus] at hwide
      exact absurd rfl hwide
    · exact parseDigits_error hnone 0 []

/-- Two characters are taken exactly when they are accepted. -/
theorem fromStrRadix_pair (first second : Char) :
    (accepted first second = true ∧ ∃ byte, fromStrRadix [first, second] = .ok byte) ∨
      accepted first second = false ∧ ∃ kind, fromStrRadix [first, second] = .error kind := by
  cases hlow : digitValue second with
  | none =>
      refine Or.inr ⟨?_, _, fromStrRadix_of_low_none hlow first⟩
      rw [accepted, hlow, Option.isSome_none, Bool.and_false]
  | some low =>
      by_cases hplus : first = '+'
      · rw [hplus]
        refine Or.inl ⟨?_, _, fromStrRadix_plus hlow⟩
        rw [accepted, hlow]
        rfl
      · cases hhigh : digitValue first with
        | none =>
            refine Or.inr ⟨?_, .invalidDigit, ?_⟩
            · rw [accepted, hhigh, beq_false_of_ne hplus]
              rfl
            · rw [fromStrRadix, if_neg (fun hsign => List.cons_ne_nil _ _ hsign.1), if_neg hplus]
              exact parseDigits_error hhigh 0 [second]
        | some high =>
            obtain ⟨byte, hbyte, _⟩ := fromStrRadix_digits hhigh hlow
            refine Or.inl ⟨?_, byte, hbyte⟩
            rw [accepted, hhigh, hlow, Option.isSome_some, Option.isSome_some, Bool.or_true]
            rfl

end P2PFileTransfer.Core.ChecksumHex
