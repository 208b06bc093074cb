import P2PFileTransfer.Foundation.ByteFile
import P2PFileTransfer.Foundation.FixedWidth

/-!
# Slices of a byte string

A slice out of range has no value.  Slices up to some bound do not depend on the bytes after
it.  Numbers are read from slices in network order, and masking a number is masking its
bytes.
-/

namespace P2PFileTransfer.Foundation.Slices

open P2PFileTransfer.Foundation.ByteFile
open P2PFileTransfer.Foundation.FixedWidth

/-- The bytes from `first` up to `last`, which is not among them. -/
def slice (data : Bytes) (first last : Nat) : Option Bytes :=
  if first ≤ last ∧ last ≤ data.length then some ((data.drop first).take (last - first)) else none

def readBigEndian (count : Nat) (data : Bytes) (offset : Nat) : Option Nat :=
  (slice data offset (offset + count)).map fromBigEndian

/-- Each byte with the byte of the key at its place. -/
def unmask (key data : Bytes) : Bytes := List.zipWith (fun left right => left ^^^ right) data key

variable {data front middle rest key : Bytes} {first last stop offset count : Nat}

/-! ## Slices -/

theorem slice_eq_some (hle : first ≤ last) (hlast : last ≤ data.length) :
    slice data first last = some ((data.drop first).take (last - first)) := if_pos ⟨hle, hlast⟩

/-- The part between two others. -/
theorem slice_append (hfirst : first = front.length)
    (hlast : last = front.length + middle.length) :
    slice (front ++ (middle ++ rest)) first last = some middle := by
  subst hfirst hlast
  rw [slice_eq_some (Nat.le_add_right _ _) (by simp), List.drop_left]
  simp

/-- What comes after the slice does not matter. -/
theorem slice_take (hlast : last ≤ stop) : slice (data.take stop) first last =
    slice data first last := by
  by_cases hinside : first ≤ last ∧ last ≤ data.length
  · obtain ⟨hle, hlength⟩ := hinside
    have htaken : last ≤ (data.take stop).length := by
      rw [List.length_take]
      omega
    rw [slice_eq_some hle htaken, slice_eq_some hle hlength, List.drop_take, List.take_take,
      Nat.min_eq_left (by omega)]
  · have houtside : ¬ (first ≤ last ∧ last ≤ (data.take stop).length) := by
      rw [List.length_take]
      omega
    rw [slice, slice, if_neg houtside, if_neg hinside]

theorem length_of_slice {bytes : Bytes} (hslice : slice data first last = some bytes) :
    bytes.length = last - first := by
  obtain ⟨⟨hle, hlast⟩, hbytes⟩ := Option.ite_none_right_eq_some.mp hslice
  rw [← Option.some.inj hbytes, List.length_take, List.length_drop]
  omega

theorem readBigEndian_eq_some (hlast : offset + count ≤ data.length) :
    ∃ value, readBigEndian count data offset = some value := by
  refine ⟨fromBigEndian ((data.drop offset).take (offset + count - offset)), ?_⟩
  rw [readBigEndian, slice_eq_some (Nat.le_add_right _ _) hlast, Option.map_some]

theorem readBigEndian_take (hlast : offset + count ≤ stop) :
    readBigEndian count (data.take stop) offset = readBigEndian count data offset := by
  rw [readBigEndian, readBigEndian, slice_take hlast]

/-- A number that was written between two other parts. -/
theorem readBigEndian_append {value : Nat} (hoffset : offset = front.length)
    (hfits : value < 256 ^ count) :
    readBigEndian count (front ++ (toBigEndian count value ++ rest)) offset = some value := by
  rw [readBigEndian, slice_append hoffset (by rw [length_toBigEndian, hoffset]), Option.map_some,
    fromBigEndian_toBigEndian hfits]

/-! ## Numbers and their bytes -/

theorem toLittleEndian_fromLittleEndian (bytes : Bytes) :
    toLittleEndian bytes.length (fromLittleEndian bytes) = bytes := by
  induction bytes with
  | nil => rfl
  | cons byte rest ih =>
      have hbyte : byte.toNat < 256 := byte.toNat_lt
      have hdiv : (byte.toNat + 256 * fromLittleEndian rest) / 256 = fromLittleEndian rest := by
        omega
      rw [List.length_cons, toLittleEndian, fromLittleEndian, hdiv, ih]
      congr 1
      apply UInt8.toNat_inj.mp
      rw [UInt8.toNat_ofNat']
      omega

theorem toBigEndian_fromBigEndian (bytes : Bytes) :
    toBigEndian bytes.length (fromBigEndian bytes) = bytes := by
  have hreverse := toLittleEndian_fromLittleEndian bytes.reverse
  rw [List.length_reverse] at hreverse
  rw [toBigEndian, fromBigEndian, hreverse, List.reverse_reverse]

/-- Masking one digit and the digits above it. -/
theorem xor_digit {low other : Nat} (hlow : low < 256) (hother : other < 256) (high rest : Nat) :
    (low + 256 * high) ^^^ (other + 256 * rest) = (low ^^^ other) + 256 * (high ^^^ rest) := by
  have hdigit : ((low + 256 * high) ^^^ (other + 256 * rest)) % 2 ^ 8 = low ^^^ other := by
    rw [Nat.xor_mod_two_pow]
    congr 1 <;> omega
  have habove : ((low + 256 * high) ^^^ (other + 256 * rest)) / 2 ^ 8 = high ^^^ rest := by
    rw [Nat.xor_div_two_pow]
    congr 1 <;> omega
  omega

theorem fromLittleEndian_unmask (hlength : data.length = key.length) :
    fromLittleEndian (unmask key data) = fromLittleEndian data ^^^ fromLittleEndian key := by
  induction data generalizing key with
  | nil =>
      cases key with
      | nil => rfl
      | cons mask masks => cases hlength
  | cons byte rest ih =>
      cases key with
      | nil => cases hlength
      | cons mask masks =>
          have hrest := ih (Nat.succ.inj hlength)
          change (byte ^^^ mask).toNat + 256 * fromLittleEndian (unmask masks rest) =
            (byte.toNat + 256 * fromLittleEndian rest) ^^^
              (mask.toNat + 256 * fromLittleEndian masks)
          rw [hrest, xor_digit byte.toNat_lt mask.toNat_lt, UInt8.toNat_xor]

theorem fromBigEndian_unmask (hlength : data.length = key.length) :
    fromBigEndian (unmask key data) = fromBigEndian data ^^^ fromBigEndian key := by
  have hreverse : (unmask key data).reverse = unmask key.reverse data.reverse :=
    List.reverse_zipWith hlength
  rw [fromBigEndian, hreverse]
  exact fromLittleEndian_unmask (by simpa using hlength)

theorem length_unmask (hlength : data.length = key.length) :
    (unmask key data).length = data.length := by
  rw [unmask, List.length_zipWith, hlength, Nat.min_self]

/-- Only the first bytes of a key are used. -/
theorem unmask_append (hlength : data.length ≤ key.length) :
    unmask (key ++ rest) data = unmask key data := by
  induction data generalizing key with
  | nil => rfl
  | cons byte bytes ih =>
      cases key with
      | nil => cases hlength
      | cons mask masks =>
          exact congrArg (List.cons (byte ^^^ mask)) (ih (Nat.le_of_succ_le_succ hlength))

theorem unmask_zeros (hlength : data.length ≤ count) :
    unmask (List.replicate count 0) data = data := by
  induction data generalizing count with
  | nil => rfl
  | cons byte bytes ih =>
      cases count with
      | zero => cases hlength
      | succ count =>
          change (byte ^^^ 0) :: unmask (List.replicate count 0) bytes = byte :: bytes
          rw [ih (Nat.le_of_succ_le_succ hlength), UInt8.xor_zero]

/-- The bytes of a masked number are the masked bytes. -/
theorem toBigEndian_xor (hlength : data.length = key.length) (hcount : data.length = count) :
    toBigEndian count (fromBigEndian data ^^^ fromBigEndian key) = unmask key data := by
  rw [← fromBigEndian_unmask hlength, ← hcount, ← length_unmask hlength]
  exact toBigEndian_fromBigEndian _

end P2PFileTransfer.Foundation.Slices
