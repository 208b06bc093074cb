import P2PFileTransfer.Foundation.ByteFile
import P2PFileTransfer.Foundation.Utf8

/-!
# Base64

Three bytes are written as four symbols of six bits; one or two bytes at the end are filled
up with `=`.  The decoder takes only what the encoder writes.
-/

namespace P2PFileTransfer.Foundation.Base64

open P2PFileTransfer.Foundation.ByteFile
open P2PFileTransfer.Foundation.Utf8

/-- A symbol or the filler. -/
def InAlphabet (char : Char) : Prop :=
  'A' ≤ char ∧ char ≤ 'Z' ∨ 'a' ≤ char ∧ char ≤ 'z' ∨ '0' ≤ char ∧ char ≤ '9' ∨
    char = '+' ∨ char = '/' ∨ char = '='

instance : DecidablePred InAlphabet := fun _ => inferInstanceAs (Decidable (_ ∨ _))

/-- A coder of byte strings: what it writes it reads again.  An error is a text. -/
structure Engine where
  encode : Bytes → Text
  decode : Text → Except Text Bytes
  decode_encode : ∀ bytes, decode (encode bytes) = .ok bytes
  alphabet : ∀ bytes, ∀ char ∈ encode bytes, InAlphabet char

/-- The symbol of a value below sixty-four. -/
def symbol (value : Nat) : Char :=
  if value < 26 then Char.ofNat (65 + value)
  else if value < 52 then Char.ofNat (71 + value)
  else if value < 62 then Char.ofNat (value - 4)
  else if value = 62 then '+'
  else '/'

def symbolValue (char : Char) : Option Nat :=
  if 'A' ≤ char ∧ char ≤ 'Z' then some (char.toNat - 65)
  else if 'a' ≤ char ∧ char ≤ 'z' then some (char.toNat - 71)
  else if '0' ≤ char ∧ char ≤ '9' then some (char.toNat + 4)
  else if char = '+' then some 62
  else if char = '/' then some 63
  else none

def encode : Bytes → Text
  | first :: second :: third :: rest =>
      symbol (first.toNat / 4) :: symbol (first.toNat % 4 * 16 + second.toNat / 16) ::
        symbol (second.toNat % 16 * 4 + third.toNat / 64) :: symbol (third.toNat % 64) ::
          encode rest
  | [first, second] =>
      [symbol (first.toNat / 4), symbol (first.toNat % 4 * 16 + second.toNat / 16),
        symbol (second.toNat % 16 * 4), '=']
  | [first] => [symbol (first.toNat / 4), symbol (first.toNat % 4 * 16), '=', '=']
  | [] => []

/-- The last symbols, whose left-over bits are to be zero. -/
def decodeLast (first second third : Char) : Option Bytes := do
  let high ← symbolValue first
  let middle ← symbolValue second
  if third = '=' then
    if middle % 16 = 0 then some [UInt8.ofNat (high * 4 + middle / 16)] else none
  else
    let low ← symbolValue third
    if low % 4 = 0 then
      some [UInt8.ofNat (high * 4 + middle / 16), UInt8.ofNat (middle % 16 * 16 + low / 4)]
    else none

def decodeFour (first second third fourth : Char) : Option Bytes := do
  let high ← symbolValue first
  let middle ← symbolValue second
  let low ← symbolValue third
  let last ← symbolValue fourth
  return [UInt8.ofNat (high * 4 + middle / 16), UInt8.ofNat (middle % 16 * 16 + low / 4),
    UInt8.ofNat (low % 4 * 64 + last)]

def decode : Text → Option Bytes
  | [] => some []
  | first :: second :: third :: fourth :: rest =>
      if rest = [] ∧ fourth = '=' then decodeLast first second third
      else do
        let bytes ← decodeFour first second third fourth
        let more ← decode rest
        return bytes ++ more
  | _ => none

theorem symbolValue_symbol {value : Nat} (hvalue : value < 64) :
    symbolValue (symbol value) = some value := by
  revert value
  decide

theorem inAlphabet_symbol {value : Nat} (hvalue : value < 64) : InAlphabet (symbol value) := by
  revert value
  decide

theorem symbol_ne_filler {value : Nat} (hvalue : value < 64) : symbol value ≠ '=' := by
  revert value
  decide

theorem eq_of_bits (byte : UInt8) {value : Nat} (hvalue : value = byte.toNat) :
    UInt8.ofNat value = byte := by
  rw [hvalue, UInt8.ofNat_toNat]

theorem decode_encode (bytes : Bytes) : decode (encode bytes) = some bytes := by
  induction bytes using encode.induct with
  | case1 first second third rest ih =>
      have hfirst := first.toNat_lt
      have hsecond := second.toNat_lt
      have hthird := third.toNat_lt
      have hfour : decodeFour (symbol (first.toNat / 4))
          (symbol (first.toNat % 4 * 16 + second.toNat / 16))
          (symbol (second.toNat % 16 * 4 + third.toNat / 64)) (symbol (third.toNat % 64)) =
            some [first, second, third] := by
        simp only [decodeFour, symbolValue_symbol (show first.toNat / 4 < 64 by omega),
          symbolValue_symbol (show first.toNat % 4 * 16 + second.toNat / 16 < 64 by omega),
          symbolValue_symbol (show second.toNat % 16 * 4 + third.toNat / 64 < 64 by omega),
          symbolValue_symbol (show third.toNat % 64 < 64 by omega), Option.bind_eq_bind,
          Option.bind_some, Option.pure_def]
        rw [eq_of_bits first (by omega), eq_of_bits second (by omega),
          eq_of_bits third (by omega)]
      have hfiller := symbol_ne_filler (show third.toNat % 64 < 64 by omega)
      rw [encode, decode, if_neg fun hlast => hfiller hlast.2, hfour, ih]
      rfl
  | case2 first second =>
      have hfirst := first.toNat_lt
      have hsecond := second.toNat_lt
      have hfiller := symbol_ne_filler (show second.toNat % 16 * 4 < 64 by omega)
      rw [encode, decode, if_pos ⟨rfl, rfl⟩, decodeLast]
      simp only [symbolValue_symbol (show first.toNat / 4 < 64 by omega),
        symbolValue_symbol (show first.toNat % 4 * 16 + second.toNat / 16 < 64 by omega),
        symbolValue_symbol (show second.toNat % 16 * 4 < 64 by omega), Option.bind_eq_bind,
        Option.bind_some, if_neg hfiller, if_pos (show second.toNat % 16 * 4 % 4 = 0 by omega)]
      rw [eq_of_bits first (by omega), eq_of_bits second (by omega)]
  | case3 first =>
      have hfirst := first.toNat_lt
      rw [encode, decode, if_pos ⟨rfl, rfl⟩, decodeLast]
      simp only [symbolValue_symbol (show first.toNat / 4 < 64 by omega),
        symbolValue_symbol (show first.toNat % 4 * 16 < 64 by omega), Option.bind_eq_bind,
        Option.bind_some, if_true, if_pos (show first.toNat % 4 * 16 % 16 = 0 by omega)]
      rw [eq_of_bits first (by omega)]
  | case4 => rfl

theorem inAlphabet_encode (bytes : Bytes) : ∀ char ∈ encode bytes, InAlphabet char := by
  induction bytes using encode.induct with
  | case1 first second third rest ih =>
      have hfirst := first.toNat_lt
      have hsecond := second.toNat_lt
      have hthird := third.toNat_lt
      simp only [encode, List.forall_mem_cons]
      exact ⟨inAlphabet_symbol (by omega), inAlphabet_symbol (by omega),
        inAlphabet_symbol (by omega), inAlphabet_symbol (by omega), ih⟩
  | case2 first second =>
      have hfirst := first.toNat_lt
      have hsecond := second.toNat_lt
      simp only [encode, List.forall_mem_cons]
      exact ⟨inAlphabet_symbol (by omega), inAlphabet_symbol (by omega),
        inAlphabet_symbol (by omega), by decide, fun _ hmem => absurd hmem List.not_mem_nil⟩
  | case3 first =>
      have hfirst := first.toNat_lt
      simp only [encode, List.forall_mem_cons]
      exact ⟨inAlphabet_symbol (by omega), inAlphabet_symbol (by omega), by decide, by decide,
        fun _ hmem => absurd hmem List.not_mem_nil⟩
  | case4 => exact fun _ hmem => absurd hmem List.not_mem_nil

/-- The standard alphabet with fillers; `explain` puts a refusal into words. -/
def standard (explain : Text → Text) : Engine where
  encode := encode
  decode := fun text => (decode text).elim (.error (explain text)) .ok
  decode_encode := fun bytes => by rw [decode_encode]; rfl
  alphabet := inAlphabet_encode

end P2PFileTransfer.Foundation.Base64
