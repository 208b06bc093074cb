import Mathlib.Data.List.Basic
import Mathlib.Tactic.Common
import Mathlib.Tactic.IntervalCases

/-!
# Hexadecimal digits

A byte is written as two lower-case digits, the high one first.  Upper-case digits are read
as well.
-/

namespace P2PFileTransfer.Foundation.Hex

/-- The lower-case digit of a value below sixteen. -/
def digit (value : Nat) : Char :=
  if value < 10 then Char.ofNat (48 + value) else Char.ofNat (87 + value)

/-- The value of a hexadecimal digit of either case. -/
def digitValue (char : Char) : Option Nat :=
  if '0' ≤ char ∧ char ≤ '9' then some (char.toNat - 48)
  else if 'a' ≤ char ∧ char ≤ 'f' then some (char.toNat - 87)
  else if 'A' ≤ char ∧ char ≤ 'F' then some (char.toNat - 55)
  else none

def encodeByte (byte : UInt8) : List Char := [digit (byte.toNat / 16), digit (byte.toNat % 16)]

def encode (bytes : List UInt8) : List Char := bytes.flatMap encodeByte

/-- Pairs of digits of either case; nothing else is read. -/
def decode : List Char → Option (List UInt8)
  | [] => some []
  | [_] => none
  | high :: low :: rest =>
      match digitValue high, digitValue low, decode rest with
      | some high, some low, some bytes => some (UInt8.ofNat (high * 16 + low) :: bytes)
      | _, _, _ => none

theorem digitValue_digit {value : Nat} (hvalue : value < 16) :
    digitValue (digit value) = some value := by
  interval_cases value <;> rfl

/-- The digits of either case, with their values. -/
theorem digitValue_cases {char : Char} {value : Nat} (hdigit : digitValue char = some value) :
    char.toNat = 48 + value ∧ value < 10 ∨
      (char.toNat = 87 + value ∨ char.toNat = 55 + value) ∧ 10 ≤ value ∧ value < 16 := by
  have hle : ∀ low high : Char, low ≤ char ∧ char ≤ high →
      low.toNat ≤ char.toNat ∧ char.toNat ≤ high.toNat := fun _ _ hrange => hrange
  rw [digitValue] at hdigit
  split at hdigit
  · rename_i hrange
    have hbounds := hle _ _ hrange
    cases hdigit
    simp only [Char.reduceToNat] at hbounds
    omega
  · split at hdigit
    · rename_i hrange
      have hbounds := hle _ _ hrange
      cases hdigit
      simp only [Char.reduceToNat] at hbounds
      omega
    · split at hdigit
      · rename_i hrange
        have hbounds := hle _ _ hrange
        cases hdigit
        simp only [Char.reduceToNat] at hbounds
        omega
      · cases hdigit

theorem eq_of_toNat {char : Char} {code : Nat} (hcode : char.toNat = code) :
    char = Char.ofNat code := by
  rw [← hcode, Char.ofNat_toNat]

/-- A digit is written again in lower case. -/
theorem digit_of_digitValue {char : Char} {value : Nat} (hdigit : digitValue char = some value) :
    value < 16 ∧ digit value = char.toLower ∧ char.utf8Size = 1 := by
  rcases digitValue_cases hdigit with ⟨hcode, hvalue⟩ | ⟨hcode | hcode, hlow, hvalue⟩
  all_goals
    rw [eq_of_toNat hcode]
    interval_cases value <;> exact ⟨by decide, rfl, rfl⟩

theorem toLower_digit {value : Nat} (hvalue : value < 16) : (digit value).toLower = digit value := by
  interval_cases value <;> rfl

theorem digit_inj {first second : Nat} (hfirst : first < 16) (hsecond : second < 16)
    (hsame : digit first = digit second) : first = second := by
  have hvalue := digitValue_digit hfirst
  rw [hsame, digitValue_digit hsecond] at hvalue
  exact (Option.some.inj hvalue).symm

/-! ## Encoded bytes -/

theorem halves_lt (byte : UInt8) : byte.toNat / 16 < 16 ∧ byte.toNat % 16 < 16 := by
  have hbyte := byte.toNat_lt
  omega

theorem encode_cons (byte : UInt8) (bytes : List UInt8) :
    encode (byte :: bytes) = encodeByte byte ++ encode bytes := rfl

theorem length_encode (bytes : List UInt8) : (encode bytes).length = 2 * bytes.length := by
  induction bytes with
  | nil => rfl
  | cons byte bytes ih =>
      rw [encode_cons, List.length_append, ih, List.length_cons]
      simp only [encodeByte, List.length_cons, List.length_nil]
      omega

theorem decode_encode (bytes : List UInt8) : decode (encode bytes) = some bytes := by
  induction bytes with
  | nil => rfl
  | cons byte bytes ih =>
      obtain ⟨hhigh, hlow⟩ := halves_lt byte
      have hbyte : byte.toNat / 16 * 16 + byte.toNat % 16 = byte.toNat := Nat.div_add_mod' _ _
      rw [encode_cons, encodeByte, List.cons_append, List.cons_append, List.nil_append, decode]
      simp only [digitValue_digit hhigh, digitValue_digit hlow, ih, hbyte, UInt8.ofNat_toNat]

/-- Only lower-case digits are written. -/
theorem of_mem_encode {bytes : List UInt8} {char : Char} (hmem : char ∈ encode bytes) :
    (digitValue char).isSome = true ∧ char.toLower = char := by
  obtain ⟨byte, _, hchar⟩ := List.mem_flatMap.mp hmem
  obtain ⟨hhigh, hlow⟩ := halves_lt byte
  rcases List.mem_cons.mp hchar with rfl | hrest
  · exact ⟨by rw [digitValue_digit hhigh]; rfl, toLower_digit hhigh⟩
  · rw [List.mem_singleton.mp hrest]
    exact ⟨by rw [digitValue_digit hlow]; rfl, toLower_digit hlow⟩

theorem encodeByte_inj {first second : UInt8} (hsame : encodeByte first = encodeByte second) :
    first = second := by
  obtain ⟨hhigh, hrest⟩ := List.cons.inj hsame
  obtain ⟨hlow, _⟩ := List.cons.inj hrest
  have hdiv := digit_inj (halves_lt first).1 (halves_lt second).1 hhigh
  have hmod := digit_inj (halves_lt first).2 (halves_lt second).2 hlow
  apply UInt8.toNat_inj.mp
  omega

/-- Different bytes are written differently. -/
theorem encode_inj {first second : List UInt8} (hsame : encode first = encode second) :
    first = second := by
  induction first generalizing second with
  | nil =>
      cases second with
      | nil => rfl
      | cons byte bytes => cases hsame
  | cons byte bytes ih =>
      cases second with
      | nil => cases hsame
      | cons other others =>
          rw [encode_cons, encode_cons] at hsame
          obtain ⟨hbyte, hbytes⟩ := List.append_inj hsame rfl
          rw [encodeByte_inj hbyte, ih hbytes]

end P2PFileTransfer.Foundation.Hex
