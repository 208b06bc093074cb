import Mathlib.Algebra.Order.Field.Rat
import Mathlib.Algebra.Order.Floor.Semiring
import Mathlib.Data.Rat.Floor
import P2PFileTransfer.Foundation.Utf8

/-!
# Numbers in texts

The literals of unsigned integers of 64 bits and of floating point numbers.  A finite number
has its exact value; its digits and its exponent are not limited.
-/

namespace P2PFileTransfer.Foundation.NumberText

open P2PFileTransfer.Foundation.Utf8

def isDigit (char : Char) : Bool := '0' ≤ char && char ≤ '9'

/-- The value of digits, the first of which counts most. -/
def value (digits : Text) : Nat :=
  digits.foldl (fun value char => 10 * value + (char.toNat - 48)) 0

def dropPlus : Text → Text
  | '+' :: rest => rest
  | text => text

/-- `text.parse::<u64>()`: one plus sign is allowed. -/
def parseU64 (text : Text) : Option Nat :=
  let digits := dropPlus text
  if digits ≠ [] ∧ digits.all isDigit ∧ value digits < 2 ^ 64 then some (value digits) else none

inductive F64 where
  | nan
  | infinite (negative : Bool)
  | finite (value : ℚ)
  deriving DecidableEq

/-- A sign and what follows it. -/
def splitSign : Text → Bool × Text
  | '-' :: rest => (true, rest)
  | '+' :: rest => (false, rest)
  | text => (false, text)

/-- The exponent behind the digits, if there is one. -/
def parseExponent : Text → Option Int
  | [] => some 0
  | first :: rest =>
      let signed := splitSign rest
      if first.toLower = 'e' ∧ signed.2 ≠ [] ∧ signed.2.all isDigit then
        some (if signed.1 then -(value signed.2 : Int) else value signed.2)
      else none

/-- The digits behind a point, and what follows them. -/
def splitFraction : Text → Text × Text
  | '.' :: rest => (rest.takeWhile isDigit, rest.dropWhile isDigit)
  | text => ([], text)

def parseNumber (text : Text) : Option ℚ :=
  let whole := text.takeWhile isDigit
  let fraction := splitFraction (text.dropWhile isDigit)
  if whole = [] ∧ fraction.1 = [] then none
  else
    (parseExponent fraction.2).map fun exponent =>
      (value (whole ++ fraction.1) : ℚ) * 10 ^ (exponent - (fraction.1.length : Int))

def parseInfNan (text : Text) (negative : Bool) : Option F64 :=
  let lower := text.map Char.toLower
  if lower = ['n', 'a', 'n'] then some .nan
  else if lower = ['i', 'n', 'f'] ∨ lower = ['i', 'n', 'f', 'i', 'n', 'i', 't', 'y'] then
    some (.infinite negative)
  else none

/-- `text.parse::<f64>()`. -/
def parseF64 (text : Text) : Option F64 :=
  let signed := splitSign text
  match parseNumber signed.2 with
  | some number => some (.finite (if signed.1 then -number else number))
  | none => parseInfNan signed.2 signed.1

/-- `number < 0.0`. -/
def F64.isNegative : F64 → Bool
  | .nan => false
  | .infinite negative => negative
  | .finite value => value < 0

/-- `(number * factor) as u64` of a positive factor, which saturates. -/
def F64.timesAsU64 (number : F64) (factor : Nat) : Nat :=
  match number with
  | .nan => 0
  | .infinite negative => if negative then 0 else 2 ^ 64 - 1
  | .finite value => min ⌊value * factor⌋₊ (2 ^ 64 - 1)

example : parseU64 ['+', '1', '0'] = some 10 := by decide

/-! ## The characters of a literal -/

/-- What is in literals beside digits. -/
def literalChars : Text := ['.', '+', '-', 'e', 'n', 'a', 'i', 'f', 't', 'y']

/-- A character that is in no literal. -/
def Foreign (char : Char) : Prop := isDigit char = false ∧ char.toLower ∉ literalChars

instance : DecidablePred Foreign := fun _ => inferInstanceAs (Decidable (_ ∧ _))

variable {text : Text} {char : Char}

theorem not_mem_of_all (hforeign : Foreign char) (hall : text.all isDigit = true) :
    char ∉ text := by
  intro hmem
  have hdigit := List.all_eq_true.mp hall char hmem
  rw [hforeign.1] at hdigit
  cases hdigit

theorem ne_of_foreign (hforeign : Foreign char) :
    char ≠ '.' ∧ char ≠ '+' ∧ char ≠ '-' ∧ char.toLower ≠ 'e' := by
  refine ⟨?_, ?_, ?_, fun heq => hforeign.2 ?_⟩
  · rintro rfl
    exact absurd hforeign (by decide)
  · rintro rfl
    exact absurd hforeign (by decide)
  · rintro rfl
    exact absurd hforeign (by decide)
  · rw [heq]
    decide

theorem mem_splitSign (hforeign : Foreign char) (hmem : char ∈ text) :
    char ∈ (splitSign text).2 := by
  obtain ⟨_, hplus, hminus, _⟩ := ne_of_foreign hforeign
  unfold splitSign
  split
  · exact (List.mem_cons.mp hmem).resolve_left hminus
  · exact (List.mem_cons.mp hmem).resolve_left hplus
  · exact hmem

theorem mem_dropWhile (hforeign : Foreign char) (hmem : char ∈ text) :
    char ∈ text.dropWhile isDigit := by
  rw [← List.takeWhile_append_dropWhile (p := isDigit) (l := text)] at hmem
  rcases List.mem_append.mp hmem with hdigits | hrest
  · exact absurd hdigits (not_mem_of_all hforeign (List.all_takeWhile))
  · exact hrest

theorem mem_splitFraction (hforeign : Foreign char) (hmem : char ∈ text) :
    char ∈ (splitFraction text).2 := by
  unfold splitFraction
  split
  · exact mem_dropWhile hforeign
      ((List.mem_cons.mp hmem).resolve_left (ne_of_foreign hforeign).1)
  · exact hmem

theorem not_mem_of_parseExponent {exponent : Int} (hforeign : Foreign char)
    (hparse : parseExponent text = some exponent) : char ∉ text := by
  intro hmem
  cases text with
  | nil => cases hmem
  | cons first rest =>
      rw [parseExponent] at hparse
      obtain ⟨⟨hletter, _, hdigits⟩, _⟩ := Option.ite_none_right_eq_some.mp hparse
      rcases List.mem_cons.mp hmem with rfl | hrest
      · exact (ne_of_foreign hforeign).2.2.2 hletter
      · exact not_mem_of_all hforeign hdigits (mem_splitSign hforeign hrest)

theorem not_mem_of_parseNumber {number : ℚ} (hforeign : Foreign char)
    (hparse : parseNumber text = some number) : char ∉ text := by
  intro hmem
  rw [parseNumber] at hparse
  split at hparse
  · cases hparse
  · obtain ⟨exponent, hexponent, _⟩ := Option.map_eq_some_iff.mp hparse
    exact not_mem_of_parseExponent hforeign hexponent
      (mem_splitFraction hforeign (mem_dropWhile hforeign hmem))

theorem not_mem_of_lower {word : Text} (hforeign : Foreign char) (hword : word ⊆ literalChars)
    (hlower : text.map Char.toLower = word) : char ∉ text := by
  intro hmem
  exact hforeign.2 (hword (hlower ▸ List.mem_map_of_mem hmem))

theorem not_mem_of_parseInfNan {negative : Bool} {number : F64} (hforeign : Foreign char)
    (hparse : parseInfNan text negative = some number) : char ∉ text := by
  rw [parseInfNan] at hparse
  split at hparse
  · rename_i hnan
    exact not_mem_of_lower hforeign (by decide) hnan
  · obtain ⟨hinf, _⟩ := Option.ite_none_right_eq_some.mp hparse
    rcases hinf with hshort | hlong
    · exact not_mem_of_lower hforeign (by decide) hshort
    · exact not_mem_of_lower hforeign (by decide) hlong

/-- Other letters are in no literal. -/
theorem not_mem_of_parseF64 {number : F64} (hforeign : Foreign char)
    (hparse : parseF64 text = some number) : char ∉ text := by
  intro hmem
  have hrest := mem_splitSign hforeign hmem
  rw [parseF64] at hparse
  split at hparse
  · rename_i hnumber
    exact not_mem_of_parseNumber hforeign hnumber hrest
  · exact not_mem_of_parseInfNan hforeign hparse hrest

theorem not_mem_of_parseU64 {number : Nat} (hforeign : Foreign char)
    (hparse : parseU64 text = some number) : char ∉ text := by
  intro hmem
  rw [parseU64] at hparse
  obtain ⟨⟨_, hdigits, _⟩, _⟩ := Option.ite_none_right_eq_some.mp hparse
  refine not_mem_of_all hforeign hdigits ?_
  unfold dropPlus
  split
  · exact (List.mem_cons.mp hmem).resolve_left (ne_of_foreign hforeign).2.1
  · exact hmem

end P2PFileTransfer.Foundation.NumberText
