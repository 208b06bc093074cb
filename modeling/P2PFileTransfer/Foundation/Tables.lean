import Mathlib.Data.List.AList
import Mathlib.Logic.Function.Basic

/-!
# Tables

A table gives each of finitely many keys one value.  What a table holds after an
operation is said by what a lookup returns.  Where every key has a value, a table is a
function, and a change at one key is followed property by property.
-/

namespace P2PFileTransfer.Foundation.Tables

variable {Key Value : Type} [DecidableEq Key]

abbrev Table (Key Value : Type) := AList fun _ : Key => Value

/-- Drop every entry that is not to be kept. -/
def retain (keep : Key → Value → Bool) (table : Table Key Value) : Table Key Value where
  entries := table.entries.filter fun entry => keep entry.1 entry.2
  nodupKeys := List.Nodup.sublist (List.Sublist.map _ List.filter_sublist) table.nodupKeys

theorem lookup_insert_ite (table : Table Key Value) (key other : Key) (value : Value) :
    (table.insert key value).lookup other =
      if other = key then some value else table.lookup other := by
  by_cases heq : other = key
  · rw [if_pos heq, heq, AList.lookup_insert]
  · rw [if_neg heq, AList.lookup_insert_ne heq]

theorem lookup_erase_ite (table : Table Key Value) (key other : Key) :
    (table.erase key).lookup other = if other = key then none else table.lookup other := by
  by_cases heq : other = key
  · rw [if_pos heq, heq, AList.lookup_erase]
  · rw [if_neg heq, AList.lookup_erase_ne heq]

theorem lookup_reinsert (table : Table Key Value) (key other : Key) (value : Value) :
    ((table.erase key).insert key value).lookup other =
      if other = key then some value else table.lookup other := by
  rw [lookup_insert_ite, lookup_erase_ite]
  split <;> rfl

theorem lookup_eq_some_iff {table : Table Key Value} {key : Key} {value : Value} :
    table.lookup key = some value ↔ (⟨key, value⟩ : Sigma fun _ : Key => Value) ∈ table.entries :=
  AList.mem_lookup_iff

/-- A key that is kept keeps its value. -/
theorem lookup_retain (keep : Key → Value → Bool) (table : Table Key Value) (key : Key) :
    (retain keep table).lookup key = (table.lookup key).filter (keep key) := by
  apply Option.ext
  intro value
  have hentry : (⟨key, value⟩ : Sigma fun _ : Key => Value) ∈ (retain keep table).entries ↔
      (⟨key, value⟩ : Sigma fun _ : Key => Value) ∈ table.entries ∧ keep key value = true :=
    List.mem_filter
  rw [lookup_eq_some_iff, hentry, ← lookup_eq_some_iff, Option.filter_eq_some_iff]

/-- A key has one entry. -/
theorem filter_entries {table : Table Key Value} {key : Key} {value : Value}
    (hlookup : table.lookup key = some value) :
    table.entries.filter (fun entry => decide (entry.1 = key)) = [⟨key, value⟩] := by
  have hnodup : (table.entries.filter fun entry => decide (entry.1 = key)).Nodup :=
    table.nodupKeys.nodup.filter _
  have hall : ∀ entry ∈ table.entries.filter (fun entry => decide (entry.1 = key)),
      entry = ⟨key, value⟩ := by
    rintro ⟨other, found⟩ hentry
    obtain ⟨hmem, hkey⟩ := List.mem_filter.mp hentry
    have hfound := lookup_eq_some_iff.mpr hmem
    obtain rfl : other = key := of_decide_eq_true hkey
    rw [hlookup] at hfound
    rw [Option.some.inj hfound]
  have hmem : (⟨key, value⟩ : Sigma fun _ : Key => Value) ∈
      table.entries.filter fun entry => decide (entry.1 = key) :=
    List.mem_filter.mpr ⟨lookup_eq_some_iff.mp hlookup, decide_eq_true rfl⟩
  have hpos := List.length_pos_of_mem hmem
  have hreplicate := List.eq_replicate_of_mem hall
  rw [hreplicate, List.nodup_replicate] at hnodup
  rw [hreplicate, Nat.le_antisymm hnodup hpos]
  rfl

/-! ## A change at one key -/

variable {table : Key → Value} {key other : Key} {value : Value}

theorem of_update (property : Value → Prop)
    (hafter : property (Function.update table key value other)) :
    other = key ∧ property value ∨ other ≠ key ∧ property (table other) := by
  by_cases heq : other = key
  · rw [heq, Function.update_self] at hafter
    exact Or.inl ⟨heq, hafter⟩
  · rw [Function.update_of_ne heq] at hafter
    exact Or.inr ⟨heq, hafter⟩

/-- What the new value keeps, every key keeps. -/
theorem keep_update (property : Value → Prop) (hkey : property (table key) → property value)
    (hbefore : property (table other)) : property (Function.update table key value other) := by
  by_cases heq : other = key
  · rw [heq] at hbefore ⊢
    rw [Function.update_self]
    exact hkey hbefore
  · rw [Function.update_of_ne heq]
    exact hbefore

/-- What the new value had before, every key had before. -/
theorem before_update (property : Value → Prop) (hkey : property value → property (table key))
    (hafter : property (Function.update table key value other)) : property (table other) := by
  rcases of_update property hafter with ⟨rfl, hnew⟩ | ⟨_, hold⟩
  · exact hkey hnew
  · exact hold

end P2PFileTransfer.Foundation.Tables
