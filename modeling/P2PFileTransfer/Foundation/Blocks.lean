import Mathlib.Data.List.Basic

/-!
# Consecutive blocks of a list

A list that is put together from one block for each number of a range.  The position of
an entry is the length of the blocks before its own plus its place there.
-/

namespace P2PFileTransfer.Foundation.Blocks

variable {Entry : Type}

/-- The blocks of `count` numbers from `first` on, one after the other. -/
def blocks (block : Nat → List Entry) (first count : Nat) : List Entry :=
  (List.range' first count).flatMap block

variable (block : Nat → List Entry) (first : Nat)

@[simp]
theorem blocks_zero : blocks block first 0 = [] := rfl

theorem blocks_succ (count : Nat) :
    blocks block first (count + 1) = blocks block first count ++ block (first + count) := by
  rw [blocks, List.range'_concat, List.flatMap_append, Nat.one_mul, List.flatMap_singleton, blocks]

theorem blocks_append (count more : Nat) :
    blocks block first (count + more) =
      blocks block first count ++ blocks block (first + count) more := by
  rw [blocks, ← List.range'_append_1, List.flatMap_append, blocks, blocks]

theorem length_blocks_succ (count : Nat) :
    (blocks block first (count + 1)).length =
      (blocks block first count).length + (block (first + count)).length := by
  rw [blocks_succ, List.length_append]

theorem blocks_initial {count total : Nat} (hle : count ≤ total) :
    blocks block first count <+: blocks block first total := by
  obtain ⟨more, rfl⟩ := Nat.exists_eq_add_of_le hle
  induction more with
  | zero => exact List.prefix_rfl
  | succ more ih =>
      rw [← Nat.add_assoc, blocks_succ]
      exact List.IsPrefix.trans (ih (Nat.le_add_right _ _)) (List.prefix_append _ _)

theorem length_blocks_le {count total : Nat} (hle : count ≤ total) :
    (blocks block first count).length ≤ (blocks block first total).length :=
  (blocks_initial block first hle).length_le

/-- The entry at a place of a block. -/
theorem getElem?_blocks {count total place : Nat} (hcount : count < total)
    (hplace : place < (block (first + count)).length) :
    (blocks block first total)[(blocks block first count).length + place]? =
      (block (first + count))[place]? := by
  have hprefix := blocks_initial block first (Nat.succ_le_of_lt hcount)
  have hinside : (blocks block first count).length + place <
      (blocks block first (count + 1)).length := by
    rw [length_blocks_succ]
    exact Nat.add_lt_add_left hplace _
  obtain ⟨rest, hrest⟩ := hprefix
  rw [← hrest, List.getElem?_append_left hinside, blocks_succ,
    List.getElem?_append_right (Nat.le_add_right _ _), Nat.add_sub_cancel_left]

/-! ## Cutting a list -/

/-- The list cut every `size` entries; the last piece may be shorter. -/
def chunks (size : Nat) (entries : List Entry) : List (List Entry) :=
  (List.range ((entries.length + size - 1) / size)).map fun index =>
    (entries.drop (index * size)).take size

variable {size : Nat} (entries : List Entry)

theorem flatten_pieces (size count : Nat) :
    ((List.range count).map fun index => (entries.drop (index * size)).take size).flatten =
      entries.take (count * size) := by
  induction count with
  | zero => simp
  | succ count ih =>
      rw [List.range_succ, List.map_append, List.flatten_append, ih, List.map_singleton,
        List.flatten_singleton, Nat.succ_mul, List.take_add]

/-- The pieces put together are the list again. -/
theorem flatten_chunks (hsize : 0 < size) : (chunks size entries).flatten = entries := by
  rw [chunks, flatten_pieces]
  apply List.take_of_length_le
  have hdiv := Nat.div_add_mod (entries.length + size - 1) size
  have hmod := Nat.mod_lt (entries.length + size - 1) hsize
  rw [Nat.mul_comm]
  omega

/-! ## A list around one of its entries -/

theorem exists_around {entries : List Entry} {index : Nat} {entry : Entry}
    (hentry : entries[index]? = some entry) :
    ∃ before after, entries = before ++ entry :: after ∧
      entries.eraseIdx index = before ++ after ∧
      ∀ other, entries.set index other = before ++ other :: after := by
  obtain ⟨hlt, rfl⟩ := List.getElem?_eq_some_iff.mp hentry
  refine ⟨entries.take index, entries.drop (index + 1), ?_, List.eraseIdx_eq_take_drop_succ _ _,
    fun other => ?_⟩
  · rw [← List.drop_eq_getElem_cons hlt, List.take_append_drop]
  · rw [List.set_eq_take_append_cons_drop, if_pos hlt]

end P2PFileTransfer.Foundation.Blocks
