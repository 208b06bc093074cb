import Mathlib.Data.List.Basic
import Mathlib.Tactic.Ring

/-!
# Text measured in bytes

A text is a list of Unicode scalar values.  Its length is the number of its UTF-8 bytes,
and a cut at a byte offset is only possible between two characters.
-/

namespace P2PFileTransfer.Foundation.Utf8

abbrev Text := List Char

def utf8Len (text : Text) : Nat := (text.map Char.utf8Size).sum

/-- Cut a text at a byte offset, unless that is inside a character or behind the end. -/
def splitAtByte : Text → Nat → Option (Text × Text)
  | text, 0 => some ([], text)
  | [], _ + 1 => none
  | char :: rest, offset + 1 =>
      if char.utf8Size ≤ offset + 1 then
        (splitAtByte rest (offset + 1 - char.utf8Size)).map fun parts => (char :: parts.1, parts.2)
      else none

def isCharBoundary (text : Text) (offset : Nat) : Bool := (splitAtByte text offset).isSome

/-- `&text[start..stop]`, which panics where there is no such slice. -/
def slice (text : Text) (start stop : Nat) : Option Text :=
  (splitAtByte text start).bind fun parts =>
    (splitAtByte parts.2 (stop - start)).map fun inner => inner.1

variable {text front rest : Text} {char other : Char} {offset : Nat}

@[simp]
theorem utf8Len_nil : utf8Len [] = 0 := rfl

@[simp]
theorem utf8Len_cons (char : Char) (rest : Text) :
    utf8Len (char :: rest) = char.utf8Size + utf8Len rest := by
  simp [utf8Len]

@[simp]
theorem utf8Len_append (front rest : Text) :
    utf8Len (front ++ rest) = utf8Len front + utf8Len rest := by
  simp [utf8Len]

@[simp]
theorem splitAtByte_zero (text : Text) : splitAtByte text 0 = some ([], text) := by
  cases text <;> rfl

theorem splitAtByte_cons (hfits : char.utf8Size ≤ offset) :
    splitAtByte (char :: rest) offset =
      (splitAtByte rest (offset - char.utf8Size)).map fun parts => (char :: parts.1, parts.2) := by
  cases offset with
  | zero => exact absurd (Nat.le_zero.mp hfits) (Nat.pos_iff_ne_zero.mp char.utf8Size_pos)
  | succ offset => exact if_pos hfits

theorem splitAtByte_cons_of_lt (hpos : 0 < offset) (hinside : offset < char.utf8Size) :
    splitAtByte (char :: rest) offset = none := by
  cases offset with
  | zero => exact absurd hpos (Nat.lt_irrefl 0)
  | succ offset => exact if_neg (Nat.not_le.mpr hinside)

/-- Between two parts of a text there is a character boundary. -/
theorem splitAtByte_append (front rest : Text) :
    splitAtByte (front ++ rest) (utf8Len front) = some (front, rest) := by
  induction front with
  | nil => exact splitAtByte_zero rest
  | cons char front ih =>
      rw [List.cons_append, utf8Len_cons, splitAtByte_cons (Nat.le_add_right _ _),
        Nat.add_sub_cancel_left, ih, Option.map_some]

/-- A slice behind a whole part of the text is one of the rest. -/
theorem slice_append (front rest : Text) (count : Nat) :
    slice (front ++ rest) (utf8Len front) (utf8Len front + count) =
      (splitAtByte rest count).map fun parts => parts.1 := by
  rw [slice, splitAtByte_append, Option.bind_some, Nat.add_sub_cancel_left]

end P2PFileTransfer.Foundation.Utf8
