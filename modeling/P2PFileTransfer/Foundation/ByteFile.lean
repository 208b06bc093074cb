import Mathlib.Data.List.Basic
import Mathlib.Tactic.Ring

/-!
# Byte files written at absolute offsets

A file is the list of its bytes.  A positioned write replaces the bytes it
covers, extends the file when it ends past its length, and fills a gap before
its offset with zeros; an empty write does nothing.  A file cut into chunks of a
fixed size gives every index a slot, and a write that fits one slot leaves every
other slot alone.
-/

namespace P2PFileTransfer.Foundation.ByteFile

abbrev Bytes := List UInt8

/-- Write `data` at `offset`, as a seek followed by a complete write does. -/
def writeAt (file : Bytes) (offset : Nat) (data : Bytes) : Bytes :=
  if data = [] then file
  else (file ++ List.replicate (offset - file.length) 0).take offset ++ data ++
    file.drop (offset + data.length)

/-- Cut a file that is longer than `length`; a shorter one stays as it is. -/
def shrinkTo (file : Bytes) (length : Nat) : Bytes := file.take length

/-- The bytes of slot `index` when the file is cut every `size` bytes. -/
def chunkAt (file : Bytes) (size index : Nat) : Bytes :=
  (file.drop (index * size)).take size

/-- The two files hold the same bytes in slot `index` of the second one. -/
def SlotAgrees (file source : Bytes) (size index : Nat) : Prop :=
  ∀ position, index * size ≤ position → position < (index + 1) * size →
    position < source.length → file[position]? = source[position]?

@[simp]
theorem writeAt_nil (file : Bytes) (offset : Nat) : writeAt file offset [] = file := if_pos rfl

theorem length_writeAt {data : Bytes} (hdata : data ≠ []) (file : Bytes) (offset : Nat) :
    (writeAt file offset data).length = max file.length (offset + data.length) := by
  rw [writeAt, if_neg hdata]
  simp only [List.length_append, List.length_take, List.length_replicate, List.length_drop]
  omega

theorem length_writeAt_le (file data : Bytes) (offset : Nat) :
    (writeAt file offset data).length ≤ max file.length (offset + data.length) := by
  by_cases hdata : data = []
  · rw [hdata, writeAt_nil]
    exact Nat.le_max_left _ _
  · exact Nat.le_of_eq (length_writeAt hdata file offset)

/-- A write at the end appends. -/
theorem writeAt_length (file data : Bytes) : writeAt file file.length data = file ++ data := by
  by_cases hdata : data = []
  · rw [hdata, writeAt_nil, List.append_nil]
  · rw [writeAt, if_neg hdata]
    simp

/-- The zero-filled prefix in front of the written bytes has length `offset`. -/
theorem length_prefix (file : Bytes) (offset : Nat) :
    ((file ++ List.replicate (offset - file.length) 0).take offset).length = offset := by
  simp only [List.length_take, List.length_append, List.length_replicate]
  omega

theorem getElem?_writeAt_inside {file data : Bytes} {offset position : Nat}
    (hlow : offset ≤ position) (hhigh : position < offset + data.length) :
    (writeAt file offset data)[position]? = data[position - offset]? := by
  have hdata : data ≠ [] := by
    intro hempty
    rw [hempty] at hhigh
    simp only [List.length_nil] at hhigh
    omega
  have hprefix := length_prefix file offset
  rw [writeAt, if_neg hdata, List.append_assoc, List.getElem?_append_right (by omega), hprefix,
    List.getElem?_append_left (by omega)]

theorem getElem?_writeAt_before {file data : Bytes} {offset position : Nat}
    (hbefore : position < offset) (hold : position < file.length) :
    (writeAt file offset data)[position]? = file[position]? := by
  by_cases hdata : data = []
  · rw [hdata, writeAt_nil]
  · have hprefix := length_prefix file offset
    rw [writeAt, if_neg hdata, List.append_assoc, List.getElem?_append_left (by omega),
      List.getElem?_take, if_pos hbefore, List.getElem?_append_left hold]

/-- A gap between the old end of the file and the write reads as zeros. -/
theorem getElem?_writeAt_gap {file data : Bytes} {offset position : Nat}
    (hdata : data ≠ []) (hbefore : position < offset) (hnew : file.length ≤ position) :
    (writeAt file offset data)[position]? = some 0 := by
  have hprefix := length_prefix file offset
  rw [writeAt, if_neg hdata, List.append_assoc, List.getElem?_append_left (by omega),
    List.getElem?_take, if_pos hbefore, List.getElem?_append_right hnew,
    List.getElem?_replicate, if_pos (by omega)]

theorem getElem?_writeAt_after {file data : Bytes} {offset position : Nat}
    (hafter : offset + data.length ≤ position) :
    (writeAt file offset data)[position]? = file[position]? := by
  by_cases hdata : data = []
  · rw [hdata, writeAt_nil]
  · have hprefix := length_prefix file offset
    rw [writeAt, if_neg hdata, List.append_assoc, List.getElem?_append_right (by omega), hprefix,
      List.getElem?_append_right (by omega), List.getElem?_drop]
    congr 1
    omega

/-- Every byte the file already had outside the written range is kept. -/
theorem getElem?_writeAt_outside {file data : Bytes} {offset position : Nat}
    (hold : position < file.length)
    (houtside : position < offset ∨ offset + data.length ≤ position) :
    (writeAt file offset data)[position]? = file[position]? := by
  rcases houtside with hbefore | hafter
  · exact getElem?_writeAt_before hbefore hold
  · exact getElem?_writeAt_after hafter

theorem length_chunkAt (file : Bytes) (size index : Nat) :
    (chunkAt file size index).length = min size (file.length - index * size) := by
  rw [chunkAt, List.length_take, List.length_drop]

theorem length_chunkAt_le (file : Bytes) (size index : Nat) :
    (chunkAt file size index).length ≤ size := by
  rw [length_chunkAt]
  exact Nat.min_le_left _ _

/-- Cutting a file at or behind the end of the slot keeps the slot. -/
theorem SlotAgrees.shrinkTo {file source : Bytes} {size index length : Nat}
    (hagrees : SlotAgrees file source size index) (hlength : (index + 1) * size ≤ length) :
    SlotAgrees (shrinkTo file length) source size index := by
  intro position hlow hhigh hsource
  rw [ByteFile.shrinkTo, List.getElem?_take, if_pos (by omega)]
  exact hagrees position hlow hhigh hsource

/-- Writing a source chunk at its own offset makes that slot agree. -/
theorem slotAgrees_writeAt_self (file source : Bytes) (size index : Nat) :
    SlotAgrees (writeAt file (index * size) (chunkAt source size index)) source size index := by
  intro position hlow hhigh hsource
  have hslot : (index + 1) * size = index * size + size := Nat.succ_mul index size
  have hinside : position < index * size + (chunkAt source size index).length := by
    rw [length_chunkAt]
    omega
  rw [getElem?_writeAt_inside hlow hinside, chunkAt, List.getElem?_take, if_pos (by omega),
    List.getElem?_drop]
  congr 1
  omega

/-- A write that fits its own slot keeps the agreement of every other slot. -/
theorem SlotAgrees.writeAt_ne {file source data : Bytes} {size index other : Nat}
    (hagrees : SlotAgrees file source size other) (hne : index ≠ other)
    (hfits : data.length ≤ size) :
    SlotAgrees (writeAt file (index * size) data) source size other := by
  intro position hlow hhigh hsource
  have hkept := hagrees position hlow hhigh hsource
  have hold : position < file.length := by
    by_contra hshort
    rw [List.getElem?_eq_none (by omega), List.getElem?_eq_getElem hsource] at hkept
    cases hkept
  have houtside : position < index * size ∨ index * size + data.length ≤ position := by
    rcases Nat.lt_or_gt_of_ne hne with hless | hgreater
    · have hslots := Nat.mul_le_mul_right size (Nat.succ_le_of_lt hless)
      rw [Nat.succ_mul] at hslots
      exact Or.inr (by omega)
    · have hslots := Nat.mul_le_mul_right size (Nat.succ_le_of_lt hgreater)
      rw [Nat.succ_mul] at hslots
      rw [Nat.succ_mul] at hhigh
      exact Or.inl (by omega)
  rw [getElem?_writeAt_outside hold houtside]
  exact hkept

/-- A file that agrees with the source in every slot begins like it. -/
theorem getElem?_of_slotAgrees {file source : Bytes} {size count position : Nat} (hsize : 0 < size)
    (hcover : source.length ≤ count * size)
    (hagrees : ∀ index, index < count → SlotAgrees file source size index)
    (hinside : position < source.length) : file[position]? = source[position]? := by
  have hslot : position / size < count :=
    (Nat.div_lt_iff_lt_mul hsize).mpr (Nat.lt_of_lt_of_le hinside hcover)
  have hlow : position / size * size ≤ position := Nat.div_mul_le_self position size
  have hhigh : position < (position / size + 1) * size := by
    rw [Nat.mul_comm]
    exact Nat.lt_mul_div_succ position hsize
  exact hagrees _ hslot position hlow hhigh hinside

/-- A file that is no longer than the source and agrees with it in every slot is the
source. -/
theorem eq_of_slotAgrees {file source : Bytes} {size count : Nat} (hsize : 0 < size)
    (hcover : source.length ≤ count * size) (hlength : file.length ≤ source.length)
    (hagrees : ∀ index, index < count → SlotAgrees file source size index) : file = source := by
  apply List.ext_getElem?
  intro position
  by_cases hinside : position < source.length
  · exact getElem?_of_slotAgrees hsize hcover hagrees hinside
  · have houtside : source.length ≤ position := Nat.le_of_not_lt hinside
    rw [List.getElem?_eq_none (Nat.le_trans hlength houtside), List.getElem?_eq_none houtside]

/-- Writing a source chunk at its own offset does not make the file longer than the
source. -/
theorem length_writeAt_chunkAt_le {file source : Bytes} {size index : Nat}
    (hlength : file.length ≤ source.length) (hindex : index * size ≤ source.length) :
    (writeAt file (index * size) (chunkAt source size index)).length ≤ source.length := by
  have hwritten := length_writeAt_le file (chunkAt source size index) (index * size)
  rw [length_chunkAt] at hwritten
  omega

end P2PFileTransfer.Foundation.ByteFile
