import P2PFileTransfer.Core.FolderReceiver
import P2PFileTransfer.Core.FolderSender
import P2PFileTransfer.Foundation.Blocks

/-!
# The streams a manifest stands for

Both sides of an attempt derive from its manifest which chunk streams it consists of:
for every item behind the finished ones, the chunks the resume point does not list, in
order.  Streams carry no item, so what belongs to which item is a matter of position in
this schedule.
-/

namespace P2PFileTransfer.Transfer.Schedule

open P2PFileTransfer.Foundation.Blocks
open P2PFileTransfer.Foundation.FixedWidth
open P2PFileTransfer.Foundation.Process
open P2PFileTransfer.Core
open P2PFileTransfer.Core.Protocol
open P2PFileTransfer.Core.TransferFile
open P2PFileTransfer.Core.TransferFolder
open P2PFileTransfer.Core.FolderReceiver (alreadySent)
open P2PFileTransfer.Core.FolderSender (Orderly remaining remaining_initial mem_remaining)

/-- The first item that is still to be received. -/
def firstItem (info : TransferInfo) : Nat := info.completedFiles.length

/-- The chunks of an item that count as delivered. -/
def startChunks (info : TransferInfo) (index : Nat) : List Nat :=
  match info.resumeFrom with
  | none => []
  | some point => if point.fileIndex = index then point.completedChunks else []

/-- A manifest as an orderly sender announces it. -/
structure WellFormed (chunkSize : Nat) (info : TransferInfo) : Prop where
  nonempty : info.items ≠ []
  length_lt : info.items.length < 2 ^ 32
  completed : info.completedFiles = List.range (firstItem info)
  first_le : firstItem info ≤ info.items.length
  resumes : ∀ point, info.resumeFrom = some point → point.fileIndex = firstItem info
  nodup : (startChunks info (firstItem info)).Nodup
  bounded : ∀ chunk ∈ startChunks info (firstItem info),
    ∃ file, info.items[firstItem info]? = some file ∧ chunk < chunksOf file.size chunkSize

/-- The chunks of an item that travel. -/
def expected (chunkSize : Nat) (info : TransferInfo) (index : Nat) : List Nat :=
  match info.items[index]? with
  | none => []
  | some file => remaining (startChunks info index) (chunksOf file.size chunkSize)

def tagged (chunkSize : Nat) (info : TransferInfo) (index : Nat) : List (Nat × Nat) :=
  (expected chunkSize info index).map fun chunk => (index, chunk)

/-- All streams of an attempt, each as its item and its chunk. -/
def schedule (chunkSize : Nat) (info : TransferInfo) : List (Nat × Nat) :=
  blocks (tagged chunkSize info) (firstItem info) (info.items.length - firstItem info)

/-- How many streams belong to the items before `index`. -/
def offset (chunkSize : Nat) (info : TransferInfo) (index : Nat) : Nat :=
  (blocks (tagged chunkSize info) (firstItem info) (index - firstItem info)).length

theorem length_startChunks (info : TransferInfo) (index : Nat) :
    (startChunks info index).length = alreadySent info index := by
  rw [startChunks, alreadySent]
  cases info.resumeFrom with
  | none => rfl
  | some point =>
      by_cases hindex : point.fileIndex = index
      · simp only [if_pos hindex]
      · simp only [if_neg hindex]
        rfl

/-- The chunks still to be sent number all minus those already there. -/
theorem length_remaining {completed : List Nat} {total : Nat} (hnodup : completed.Nodup)
    (hbounded : ∀ chunk ∈ completed, chunk < total) :
    (remaining completed total).length = total - completed.length := by
  have hsplit := (List.filter_append_perm (fun chunk => decide (chunk ∈ completed))
    (List.range total)).length_eq
  have hpresent : ((List.range total).filter fun chunk => decide (chunk ∈ completed)).Perm
      completed := by
    refine (List.perm_ext_iff_of_nodup (List.nodup_range.filter _) hnodup).mpr fun chunk => ?_
    rw [List.mem_filter, List.mem_range, decide_eq_true_iff]
    exact ⟨And.right, fun hmem => ⟨hbounded chunk hmem, hmem⟩⟩
  have habsent : remaining completed total =
      (List.range total).filter fun chunk => !decide (chunk ∈ completed) := by
    rw [remaining]
    congr
    funext chunk
    exact decide_not
  rw [List.length_append, List.length_range, hpresent.length_eq, ← habsent] at hsplit
  exact (Nat.sub_eq_of_eq_add' hsplit.symm).symm

theorem nodup_remaining (completed : List Nat) (total : Nat) :
    (remaining completed total).Nodup := List.nodup_range.filter _

section WellFormed

variable {chunkSize : Nat} {info : TransferInfo} (hinfo : WellFormed chunkSize info)

include hinfo

theorem startChunks_of_ne {index : Nat} (hne : index ≠ firstItem info) :
    startChunks info index = [] := by
  rw [startChunks]
  cases hresume : info.resumeFrom with
  | none => rfl
  | some point => exact if_neg fun heq => hne (heq.symm.trans (hinfo.resumes point hresume))

theorem startChunks_nodup (index : Nat) : (startChunks info index).Nodup := by
  by_cases hfirst : index = firstItem info
  · rw [hfirst]
    exact hinfo.nodup
  · rw [startChunks_of_ne hinfo hfirst]
    exact List.nodup_nil

theorem startChunks_lt {index : Nat} {file : FileMetadata} (hfile : info.items[index]? = some file) :
    ∀ chunk ∈ startChunks info index, chunk < chunksOf file.size chunkSize := by
  intro chunk hchunk
  by_cases hfirst : index = firstItem info
  · rw [hfirst] at hchunk hfile
    obtain ⟨other, hother, hless⟩ := hinfo.bounded chunk hchunk
    rw [hfile] at hother
    cases hother
    exact hless
  · rw [startChunks_of_ne hinfo hfirst] at hchunk
    cases hchunk

/-- The receiver's count of an item is the length of its part of the schedule. -/
theorem length_expected {index : Nat} {file : FileMetadata}
    (hfile : info.items[index]? = some file) :
    (expected chunkSize info index).length =
      chunksOf file.size chunkSize - alreadySent info index := by
  rw [expected, hfile]
  dsimp only
  rw [length_remaining (startChunks_nodup hinfo index) (startChunks_lt hinfo hfile),
    length_startChunks]

theorem skips_iff_lt {index : Nat} (hindex : index < info.items.length) :
    FolderReceiver.skips info index = true ↔ index < firstItem info := by
  have hwidth : index < 2 ^ 32 := Nat.lt_trans hindex hinfo.length_lt
  rw [FolderReceiver.skips, truncate_eq_self hwidth, hinfo.completed]
  simp

end WellFormed

section Positions

variable (chunkSize : Nat) (info : TransferInfo)

theorem offset_of_le {index : Nat} (hle : index ≤ firstItem info) :
    offset chunkSize info index = 0 := by
  rw [offset, Nat.sub_eq_zero_of_le hle]
  rfl

theorem offset_succ {index : Nat} (hfirst : firstItem info ≤ index) :
    offset chunkSize info (index + 1) =
      offset chunkSize info index + (expected chunkSize info index).length := by
  obtain ⟨count, rfl⟩ := Nat.exists_eq_add_of_le hfirst
  rw [offset, offset, Nat.add_assoc, Nat.add_sub_cancel_left, Nat.add_sub_cancel_left,
    length_blocks_succ, tagged, List.length_map]

/-- The streams of one item stand together, in the order of its chunks. -/
theorem getElem?_schedule {index place : Nat} (hfirst : firstItem info ≤ index)
    (hindex : index < info.items.length) (hplace : place < (expected chunkSize info index).length) :
    (schedule chunkSize info)[offset chunkSize info index + place]? =
      some (index, (expected chunkSize info index)[place]) := by
  obtain ⟨count, rfl⟩ := Nat.exists_eq_add_of_le hfirst
  have hcount : count < info.items.length - firstItem info := by
    rw [Nat.add_comm] at hindex
    exact Nat.lt_sub_of_add_lt hindex
  have hinside : place < (tagged chunkSize info (firstItem info + count)).length := by
    rw [tagged, List.length_map]
    exact hplace
  rw [schedule, offset, Nat.add_sub_cancel_left,
    getElem?_blocks (tagged chunkSize info) (firstItem info) hcount hinside, tagged,
    List.getElem?_map, List.getElem?_eq_getElem hplace]
  rfl

theorem offset_mono {index other : Nat} (hle : index ≤ other) :
    offset chunkSize info index ≤ offset chunkSize info other :=
  length_blocks_le _ _ (Nat.sub_le_sub_right hle _)

theorem item_of_blocks {first count : Nat} {entry : Nat × Nat}
    (hentry : entry ∈ blocks (tagged chunkSize info) first count) :
    first ≤ entry.1 ∧ entry.1 < first + count := by
  obtain ⟨index, hindex, hmem⟩ := List.mem_flatMap.mp hentry
  obtain ⟨chunk, _, rfl⟩ := List.mem_map.mp hmem
  exact List.mem_range'_1.mp hindex

/-- The schedule before an item, at the item and behind it. -/
theorem schedule_split {index : Nat} (hfirst : firstItem info ≤ index)
    (hindex : index < info.items.length) :
    schedule chunkSize info =
      blocks (tagged chunkSize info) (firstItem info) (index - firstItem info) ++
        tagged chunkSize info index ++
        blocks (tagged chunkSize info) (index + 1) (info.items.length - (index + 1)) := by
  have hcount : info.items.length - firstItem info =
      index - firstItem info + 1 + (info.items.length - (index + 1)) := by omega
  rw [schedule, hcount, blocks_append, blocks_succ, Nat.add_sub_cancel' hfirst, ← Nat.add_assoc,
    Nat.add_sub_cancel' hfirst]

theorem length_through {index : Nat} (hfirst : firstItem info ≤ index) :
    (blocks (tagged chunkSize info) (firstItem info) (index - firstItem info) ++
      tagged chunkSize info index).length = offset chunkSize info (index + 1) := by
  rw [List.length_append, offset_succ _ _ hfirst, tagged, List.length_map]
  rfl

/-- A stream stands before the streams of later items. -/
theorem lt_offset_of_schedule {place item chunk : Nat}
    (hentry : (schedule chunkSize info)[place]? = some (item, chunk)) :
    place < offset chunkSize info (item + 1) := by
  obtain ⟨hfirst, hitem⟩ := item_of_blocks chunkSize info (List.mem_of_getElem? hentry)
  dsimp only at hfirst hitem
  have hindex : item < info.items.length := by omega
  refine Nat.lt_of_not_le fun hbehind => ?_
  have hlength := length_through chunkSize info hfirst
  rw [schedule_split chunkSize info hfirst hindex,
    List.getElem?_append_right (hlength.symm ▸ hbehind)] at hentry
  have hlater := (item_of_blocks chunkSize info (List.mem_of_getElem? hentry)).1
  exact Nat.lt_irrefl _ hlater

/-- Once the schedule is followed past an item, it has had all its streams. -/
theorem count_schedule {index taken : Nat} (hfirst : firstItem info ≤ index)
    (hindex : index < info.items.length) (hall : offset chunkSize info (index + 1) ≤ taken) :
    (((schedule chunkSize info).take taken).map Prod.fst).count index =
      (expected chunkSize info index).length := by
  have hlength := length_through chunkSize info hfirst
  have hbefore : ((blocks (tagged chunkSize info) (firstItem info)
      (index - firstItem info)).map Prod.fst).count index = 0 := by
    refine List.count_eq_zero.mpr fun hmem => ?_
    obtain ⟨entry, hentry, rfl⟩ := List.mem_map.mp hmem
    have hless := (item_of_blocks chunkSize info hentry).2
    omega
  have hbehind : ∀ left, (((blocks (tagged chunkSize info) (index + 1)
      (info.items.length - (index + 1))).take left).map Prod.fst).count index = 0 := by
    intro left
    refine List.count_eq_zero.mpr fun hmem => ?_
    obtain ⟨entry, hentry, rfl⟩ := List.mem_map.mp hmem
    have hlater := (item_of_blocks chunkSize info (List.mem_of_mem_take hentry)).1
    omega
  have hown : ((tagged chunkSize info index).map Prod.fst).count index =
      (expected chunkSize info index).length := by
    rw [tagged, List.map_map]
    exact List.count_eq_length.mpr (by simp) |>.trans (List.length_map _)
  rw [schedule_split chunkSize info hfirst hindex, List.take_append,
    List.take_of_length_le (hlength.symm ▸ hall), List.map_append, List.map_append,
    List.count_append, List.count_append, hbefore, hown, hbehind, Nat.zero_add, Nat.add_zero]

end Positions

/-! ## The manifest of a sender's state -/

variable {chunkSize : Nat} {memory : FolderTransferState}

/-- What an orderly state puts into its manifest. -/
theorem resumePoint_of_orderly (horderly : Orderly chunkSize memory) (transferId : Uuid) :
    memory.resumePoint transferId = none ∧ memory.fileChunks memory.completedFiles.length = [] ∨
      memory.resumePoint transferId = some
          { transferId := transferId
            fileIndex := truncate 32 memory.completedFiles.length
            completedChunks := memory.fileChunks memory.completedFiles.length } ∧
        memory.completedFiles.length < memory.files.length := by
  have hnext := FolderTransferState.nextFile_of_prefix horderly.finished
  by_cases hunfinished : memory.completedFiles.length < memory.files.length
  · rw [if_pos hunfinished] at hnext
    by_cases hnone : memory.fileChunks memory.completedFiles.length = []
    · refine Or.inl ⟨?_, hnone⟩
      rw [FolderTransferState.resumePoint, hnext]
      exact if_pos hnone
    · refine Or.inr ⟨?_, hunfinished⟩
      rw [FolderTransferState.resumePoint, hnext]
      exact if_neg hnone
  · rw [if_neg hunfinished] at hnext
    refine Or.inl ⟨?_, ?_⟩
    · rw [FolderTransferState.resumePoint, hnext]
    · refine List.eq_nil_iff_forall_not_mem.mpr fun chunk hchunk => ?_
      obtain ⟨file, hfile, _⟩ := horderly.bounded chunk hchunk
      exact hunfinished (List.getElem?_eq_some_iff.mp hfile).1

theorem completedChunks_ne_nil {transferId : Uuid} {point : ResumePoint}
    (hresume : memory.resumePoint transferId = some point) : point.completedChunks ≠ [] := by
  unfold FolderTransferState.resumePoint at hresume
  split at hresume
  · cases hresume
  · split at hresume
    · cases hresume
    · rename_i hsome
      cases hresume
      exact hsome

/-- The manifest a state is announced with. -/
def manifestOf (memory : FolderTransferState) (transferId : Uuid) : TransferInfo :=
  memory.transferInfo transferId (memory.resumePoint transferId)

theorem firstItem_manifestOf (memory : FolderTransferState) (transferId : Uuid) :
    firstItem (manifestOf memory transferId) = memory.completedFiles.length := by
  rw [firstItem, manifestOf, FolderTransferState.transferInfo, List.length_map]

theorem startChunks_manifestOf (horderly : Orderly chunkSize memory) (transferId : Uuid)
    (hlength : memory.files.length < 2 ^ 32) :
    startChunks (manifestOf memory transferId) memory.completedFiles.length =
      memory.fileChunks memory.completedFiles.length := by
  rw [startChunks, manifestOf, FolderTransferState.transferInfo]
  rcases resumePoint_of_orderly horderly transferId with ⟨hnone, hempty⟩ | ⟨hsome, hunfinished⟩
  · rw [hnone]
    exact hempty.symm
  · rw [hsome]
    exact if_pos (truncate_eq_self (Nat.lt_trans hunfinished hlength))

theorem wellFormed_manifestOf (horderly : Orderly chunkSize memory) (transferId : Uuid)
    (hfiles : memory.files ≠ []) (hlength : memory.files.length < 2 ^ 32) :
    WellFormed chunkSize (manifestOf memory transferId) := by
  have hfirst := firstItem_manifestOf memory transferId
  have hstart := startChunks_manifestOf horderly transferId hlength
  refine ⟨hfiles, hlength, ?_, ?_, ?_, ?_, ?_⟩
  · rw [hfirst]
    change memory.completedFiles.map (truncate 32) = _
    rw [horderly.finished, List.length_range]
    refine (List.map_congr_left fun index hindex => ?_).trans (List.map_id _)
    have hbound := Nat.lt_of_lt_of_le (List.mem_range.mp hindex) horderly.finished_le
    exact truncate_eq_self (Nat.lt_trans hbound hlength)
  · rw [hfirst]
    exact horderly.finished_le
  · intro point hpoint
    rw [hfirst]
    change memory.resumePoint transferId = some point at hpoint
    rcases resumePoint_of_orderly horderly transferId with ⟨hnone, _⟩ | ⟨hsome, hunfinished⟩
    · rw [hnone] at hpoint
      cases hpoint
    · rw [hsome] at hpoint
      cases hpoint
      exact truncate_eq_self (Nat.lt_trans hunfinished hlength)
  · rw [hfirst, hstart]
    exact horderly.nodup
  · rw [hfirst, hstart]
    exact horderly.bounded

end P2PFileTransfer.Transfer.Schedule
