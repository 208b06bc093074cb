import P2PFileTransfer.Foundation.ByteFile
import P2PFileTransfer.Foundation.UnixPath

/-!
# Regular files addressed by lexical location

The store maps a location to the bytes of the regular file there.  Directories
carry no contents and are left implicit: whatever a real system checks about
them can make a call fail, and every call may fail, so a directory adds no
behaviour to a successful one.  An operation names every location it touches and
changes the contents of no other.
-/

namespace P2PFileTransfer.Foundation.FileSystem

open P2PFileTransfer.Foundation.ByteFile
open P2PFileTransfer.Foundation.UnixPath

abbrev Store := Location → Option Bytes

inductive Operation where
  /-- Create a directory and its missing ancestors. -/
  | createDirAll (directory : Location)
  /-- Open for reading and writing, creating an empty file when there is none. -/
  | openCreate (file : Location)
  /-- Read the length and cut the file when it is longer than `length`. -/
  | shrink (file : Location) (length : Nat)
  | write (file : Location) (offset : Nat) (data : Bytes)
  | rename (source target : Location)
  | readAll (file : Location)
  /-- Open for reading and ask for the length. -/
  | stat (file : Location)
  /-- Read exactly `length` bytes. -/
  | readAt (file : Location) (offset length : Nat)
  deriving DecidableEq, Repr

/-- What a successful call returns. -/
inductive Value where
  | unit
  | size (length : Nat)
  | bytes (data : Bytes)
  deriving DecidableEq, Repr

/-- Every location the operation creates, opens, cuts, writes, moves or reads. -/
def Operation.touched : Operation → List Location
  | .createDirAll directory => [directory]
  | .openCreate file | .shrink file _ | .write file _ _ => [file]
  | .rename source target => [source, target]
  | .readAll file | .stat file | .readAt file _ _ => [file]

/-- The locations among them whose contents may change. -/
def Operation.written : Operation → List Location
  | .openCreate file | .shrink file _ | .write file _ _ => [file]
  | .rename source target => [source, target]
  | .createDirAll _ | .readAll _ | .stat _ | .readAt _ _ _ => []

def set (store : Store) (file : Location) (contents : Option Bytes) : Store :=
  fun other => if other = file then contents else store other

/-- The store after a successful call and the value it returns; `none` when the
call finds no file to work on or too few bytes to read. -/
def Operation.run : Operation → Store → Option (Store × Value)
  | .createDirAll _, store => some (store, .unit)
  | .openCreate file, store => some (set store file (some ((store file).getD [])), .unit)
  | .shrink file length, store =>
      some (set store file ((store file).map fun bytes => shrinkTo bytes length), .unit)
  | .write file offset data, store =>
      some (set store file ((store file).map fun bytes => writeAt bytes offset data), .unit)
  | .rename source target, store =>
      (store source).map fun bytes => (set (set store source none) target (some bytes), .unit)
  | .readAll file, store => (store file).map fun bytes => (store, .bytes bytes)
  | .stat file, store => (store file).map fun bytes => (store, .size bytes.length)
  | .readAt file offset length, store =>
      match store file with
      | none => none
      | some bytes =>
          if offset + length ≤ bytes.length then
            some (store, .bytes ((bytes.drop offset).take length))
          else none

/-- What a failing call may leave behind: a write that stops after some bytes. -/
def Operation.interrupted (written : Nat) : Operation → Store → Store
  | .write file offset data, store =>
      set store file ((store file).map fun bytes => writeAt bytes offset (data.take written))
  | _, store => store

@[simp]
theorem set_self (store : Store) (file : Location) (contents : Option Bytes) :
    set store file contents file = contents := if_pos rfl

theorem set_ne (store : Store) {file other : Location} (contents : Option Bytes)
    (hne : other ≠ file) : set store file contents other = store other := if_neg hne

/-- A successful call keeps the contents of every location it does not write. -/
theorem Operation.run_frame {operation : Operation} {store after : Store} {value : Value}
    (hrun : operation.run store = some (after, value)) {other : Location}
    (hother : other ∉ operation.written) : after other = store other := by
  cases operation with
  | createDirAll directory =>
      cases hrun
      rfl
  | openCreate file =>
      cases hrun
      exact set_ne _ _ (by simpa [written] using hother)
  | shrink file length =>
      cases hrun
      exact set_ne _ _ (by simpa [written] using hother)
  | write file offset data =>
      cases hrun
      exact set_ne _ _ (by simpa [written] using hother)
  | rename source target =>
      obtain ⟨bytes, _, hmoved⟩ := Option.map_eq_some_iff.mp hrun
      cases hmoved
      obtain ⟨hsource, htarget⟩ : other ≠ source ∧ other ≠ target := by
        simpa [written] using hother
      rw [set_ne _ _ htarget, set_ne _ _ hsource]
  | readAll file =>
      obtain ⟨bytes, _, hread⟩ := Option.map_eq_some_iff.mp hrun
      cases hread
      rfl
  | stat file =>
      obtain ⟨bytes, _, hread⟩ := Option.map_eq_some_iff.mp hrun
      cases hread
      rfl
  | readAt file offset length =>
      rw [run] at hrun
      split at hrun
      · cases hrun
      · split at hrun
        · cases hrun
          rfl
        · cases hrun

/-- An interrupted call keeps them as well. -/
theorem Operation.interrupted_frame (operation : Operation) (count : Nat) (store : Store)
    {other : Location} (hother : other ∉ operation.written) :
    operation.interrupted count store other = store other := by
  cases operation with
  | write file offset data => exact set_ne _ _ (by simpa [written] using hother)
  | createDirAll _ | openCreate _ | shrink _ _ | rename _ _ => rfl
  | readAll _ | stat _ | readAt _ _ _ => rfl

/-! ## Files cut into slots -/

/-- There is a file, and it agrees with the source in its first slots. -/
def HoldsSlots (store : Store) (file : Location) (source : Bytes) (size count : Nat) : Prop :=
  ∃ contents, store file = some contents ∧
    ∀ index, index < count → SlotAgrees contents source size index

namespace HoldsSlots

variable {store after : Store} {file : Location} {source : Bytes} {size count : Nat}

theorem frame (hholds : HoldsSlots store file source size count)
    (hsame : after file = store file) : HoldsSlots after file source size count := by
  obtain ⟨contents, hcontents, hslots⟩ := hholds
  exact ⟨contents, hsame.trans hcontents, hslots⟩

theorem mono (hholds : HoldsSlots store file source size count) {fewer : Nat}
    (hfewer : fewer ≤ count) : HoldsSlots store file source size fewer := by
  obtain ⟨contents, hcontents, hslots⟩ := hholds
  exact ⟨contents, hcontents, fun index hindex => hslots index (Nat.lt_of_lt_of_le hindex hfewer)⟩

/-- Opening creates a file only where there is none. -/
theorem openCreate {value : Value} (hholds : 0 < count → HoldsSlots store file source size count)
    (hrun : (Operation.openCreate file).run store = some (after, value)) :
    HoldsSlots after file source size count := by
  cases hrun
  rcases Nat.eq_zero_or_pos count with rfl | hpos
  · exact ⟨_, set_self _ _ _, nofun⟩
  · obtain ⟨contents, hcontents, hslots⟩ := hholds hpos
    refine ⟨contents, ?_, hslots⟩
    rw [set_self, hcontents, Option.getD_some]

theorem shrink {value : Value} {length : Nat} (hholds : HoldsSlots store file source size count)
    (hlength : count * size ≤ length)
    (hrun : (Operation.shrink file length).run store = some (after, value)) :
    HoldsSlots after file source size count := by
  cases hrun
  obtain ⟨contents, hcontents, hslots⟩ := hholds
  refine ⟨shrinkTo contents length, ?_, fun index hindex => ?_⟩
  · rw [set_self, hcontents, Option.map_some]
  · have hslot := Nat.mul_le_mul_right size (Nat.succ_le_of_lt hindex)
    exact (hslots index hindex).shrinkTo (Nat.le_trans hslot hlength)

/-- A write into a later slot, complete or not. -/
theorem writeAt_later (hholds : HoldsSlots store file source size count) {index : Nat}
    (hlater : count ≤ index) {data : Bytes} (hfits : data.length ≤ size) :
    HoldsSlots (set store file ((store file).map fun bytes => writeAt bytes (index * size) data))
      file source size count := by
  obtain ⟨contents, hcontents, hslots⟩ := hholds
  refine ⟨writeAt contents (index * size) data, ?_, fun other hother => ?_⟩
  · rw [set_self, hcontents, Option.map_some]
  · exact (hslots other hother).writeAt_ne
      (Nat.ne_of_gt (Nat.lt_of_lt_of_le hother hlater)) hfits

/-- Writing the next chunk of the source. -/
theorem writeAt_next (hholds : HoldsSlots store file source size count) :
    HoldsSlots (set store file ((store file).map fun bytes =>
      writeAt bytes (count * size) (chunkAt source size count))) file source size (count + 1) := by
  have hfits := length_chunkAt_le source size count
  obtain ⟨contents, hcontents, hslots⟩ := hholds
  refine ⟨writeAt contents (count * size) (chunkAt source size count), ?_, fun other hother => ?_⟩
  · rw [set_self, hcontents, Option.map_some]
  · rcases Nat.lt_succ_iff_lt_or_eq.mp hother with hearlier | rfl
    · exact (hslots other hearlier).writeAt_ne (Nat.ne_of_gt hearlier) hfits
    · exact slotAgrees_writeAt_self contents source size other

end HoldsSlots

end P2PFileTransfer.Foundation.FileSystem
