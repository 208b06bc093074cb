import Mathlib.Algebra.Order.BigOperators.Group.List
import Mathlib.Data.List.Dedup
import Mathlib.Data.List.Perm.Subperm
import P2PFileTransfer.Core.ChunkBitmap
import P2PFileTransfer.Core.Progress

/-!
# What a transfer state says after marks

A mark sets a bit, adds the size of its chunk and then looks at the status.  The bytes are
added for a chunk that was marked before too, and a file is seen to be complete only by a
mark that finds it in progress, so never by its first.
-/

namespace P2PFileTransfer.Transfer.Marking

open P2PFileTransfer.Foundation.FixedWidth
open P2PFileTransfer.Core.Protocol
open P2PFileTransfer.Core.TransferFile
open P2PFileTransfer.Core.ChunkBitmap
open P2PFileTransfer.Core.Progress (chunkLength sum_chunkLength_chunksOf)

/-- A call of `mark_chunk_complete`. -/
structure Mark where
  fileIndex : UInt32
  chunkIndex : UInt64
  size : Nat

/-- A file and one of its chunks. -/
abbrev Place := Nat × Nat

def Mark.place (mark : Mark) : Place := (mark.fileIndex.toNat, mark.chunkIndex.toNat)

def markAll (state : TransferState) (marks : List Mark) : Checked TransferState :=
  marks.foldlM (fun state mark =>
    state.markChunkComplete mark.fileIndex mark.chunkIndex mark.size) state

section Places

variable (files : List FileMetadata) (chunkSize : UInt32)

def chunksIn (index : Nat) : Nat :=
  (files[index]?.map fun file => chunksOf file.size chunkSize.toNat).getD 0

def sizeAt (place : Place) : Nat :=
  (files[place.1]?.map fun file => chunkLength chunkSize.toNat file.size place.2).getD 0

/-- The marks that meet a chunk, in their order. -/
def places (marks : List Mark) : List Place :=
  (marks.map Mark.place).filter fun place => decide (place.2 < chunksIn files chunkSize place.1)

/-- A mark passes the size of its chunk, if there is one. -/
def TrueSize (mark : Mark) : Prop :=
  mark.place.2 < chunksIn files chunkSize mark.place.1 → mark.size = sizeAt files chunkSize mark.place

/-- The first chunk that is not marked of the first file that has one. -/
def firstOpen (marked : List Place) : Option Place :=
  files.zipIdx.findSome? fun (file, index) =>
    ((List.range (chunksOf file.size chunkSize.toNat)).find? fun chunk =>
      decide ((index, chunk) ∉ marked)).map fun chunk => (index, chunk)

/-- What the state is to say. -/
structure Faithful (marks : List Mark) (state : TransferState) : Prop where
  transferred : state.transferredBytes =
    ((places files chunkSize marks).dedup.map (sizeAt files chunkSize)).sum
  transferred_le : state.transferredBytes ≤ state.totalBytes
  complete : ∀ index file, state.files[index]? = some file → 0 < chunksIn files chunkSize index →
    (file.status = .complete ↔
      ∀ chunk < chunksIn files chunkSize index, (index, chunk) ∈ places files chunkSize marks)
  next : state.nextChunk = firstOpen files chunkSize (places files chunkSize marks)

/-! ## The state after marks -/

def bitsAt (marked : List Place) (index count : Nat) : List Bool :=
  (List.range count).map fun chunk => decide ((index, chunk) ∈ marked)

def statusAt (marked : List Place) (index count : Nat) : FileStatus :=
  if marked.countP (fun place => place.1 = index) = 0 then .pending
  else if 2 ≤ marked.countP (fun place => place.1 = index) ∧
      ∀ chunk < count, (index, chunk) ∈ marked then .complete
  else .inProgress

def fileAt (marked : List Place) (index : Nat) (metadata : FileMetadata) : FileState where
  fileIndex := truncate 32 index
  metadata := metadata
  totalChunks := chunksOf metadata.size chunkSize.toNat
  completedChunks := bitsAt marked index (chunksOf metadata.size chunkSize.toNat)
  status := statusAt marked index (chunksOf metadata.size chunkSize.toNat)

def stateAt (transferId : Uuid) (marked : List Place) : TransferState where
  transferId := transferId
  files := files.mapIdx (fileAt chunkSize marked)
  totalBytes := (files.map FileMetadata.size).sum
  transferredBytes := (marked.map (sizeAt files chunkSize)).sum

end Places

variable {files : List FileMetadata} {chunkSize : UInt32} {marked : List Place} {marks : List Mark}
  {transferId : Uuid}

theorem length_bitsAt (marked : List Place) (index count : Nat) :
    (bitsAt marked index count).length = count := by
  rw [bitsAt, List.length_map, List.length_range]

theorem getElem?_bitsAt {index count chunk : Nat} (hchunk : chunk < count) :
    (bitsAt marked index count)[chunk]? = some (decide ((index, chunk) ∈ marked)) := by
  rw [bitsAt, List.getElem?_map, List.getElem?_range hchunk]
  rfl

theorem all_bitsAt_iff {index count : Nat} :
    (bitsAt marked index count).all id = true ↔ ∀ chunk < count, (index, chunk) ∈ marked := by
  simp [bitsAt]

theorem set_bitsAt (index count chunk : Nat) :
    (bitsAt marked index count).set chunk true = bitsAt (marked ++ [(index, chunk)]) index count := by
  refine List.ext_getElem? fun other => ?_
  by_cases hother : other < count
  · by_cases hsame : chunk = other
    · subst hsame
      rw [List.getElem?_set_self (by rwa [length_bitsAt]), getElem?_bitsAt hother]
      simp
    · rw [List.getElem?_set_ne hsame, getElem?_bitsAt hother, getElem?_bitsAt hother]
      simp [Ne.symm hsame]
  · rw [List.getElem?_eq_none, List.getElem?_eq_none]
    · rw [length_bitsAt]
      exact Nat.le_of_not_lt hother
    · rw [List.length_set, length_bitsAt]
      exact Nat.le_of_not_lt hother

theorem countP_concat (marked : List Place) (index chunk : Nat) :
    (marked ++ [(index, chunk)]).countP (fun place => place.1 = index) =
      marked.countP (fun place => place.1 = index) + 1 := by
  simp [List.countP_append]

/-- The status after one more mark of the file. -/
theorem nextStatus_statusAt (index count chunk : Nat) :
    nextStatus (bitsAt (marked ++ [(index, chunk)]) index count) (statusAt marked index count) =
      statusAt (marked ++ [(index, chunk)]) index count := by
  have hgrow : (∀ other < count, (index, other) ∈ marked) →
      ∀ other < count, (index, other) ∈ marked ++ [(index, chunk)] :=
    fun hall other hother => List.mem_append_left _ (hall other hother)
  simp only [nextStatus, all_bitsAt_iff]
  by_cases hzero : marked.countP (fun place => place.1 = index) = 0
  · simp [statusAt, hzero]
  · have hafter : statusAt (marked ++ [(index, chunk)]) index count =
        if ∀ other < count, (index, other) ∈ marked ++ [(index, chunk)] then .complete
        else .inProgress := by
      have htwo : 2 ≤ marked.countP (fun place => place.1 = index) + 1 := by omega
      rw [statusAt, countP_concat, if_neg (Nat.succ_ne_zero _)]
      simp only [htwo, true_and]
    rw [hafter]
    by_cases hbefore : 2 ≤ marked.countP (fun place => place.1 = index) ∧
        ∀ other < count, (index, other) ∈ marked
    · have hstatus : statusAt marked index count = .complete := by
        rw [statusAt, if_neg hzero, if_pos hbefore]
      rw [hstatus, if_pos (hgrow hbefore.2)]
      simp
    · have hstatus : statusAt marked index count = .inProgress := by
        rw [statusAt, if_neg hzero, if_neg hbefore]
      rw [hstatus]
      by_cases hall : ∀ other < count, (index, other) ∈ marked ++ [(index, chunk)]
      · rw [if_pos ⟨hall, rfl⟩, if_pos hall]
      · rw [if_neg (fun hboth => hall hboth.1), if_neg hall, if_neg (by decide)]

theorem mark_fileAt (index chunk : Nat) (metadata : FileMetadata) :
    (fileAt chunkSize marked index metadata).mark chunk =
      fileAt chunkSize (marked ++ [(index, chunk)]) index metadata := by
  simp only [FileState.mark, fileAt, set_bitsAt, nextStatus_statusAt]

/-- A mark of another file. -/
theorem fileAt_concat {index other chunk : Nat} (hne : other ≠ index) (metadata : FileMetadata) :
    fileAt chunkSize (marked ++ [(index, chunk)]) other metadata =
      fileAt chunkSize marked other metadata := by
  have hmem (place : Nat) : (other, place) ∈ marked ++ [(index, chunk)] ↔ (other, place) ∈ marked := by
    simp [hne]
  have hcount : (marked ++ [(index, chunk)]).countP (fun place => place.1 = other) =
      marked.countP (fun place => place.1 = other) := by
    simp [List.countP_append, Ne.symm hne]
  simp only [fileAt, bitsAt, statusAt, hmem, hcount]

/-! ## Runs -/

theorem chunksIn_of_getElem? {index : Nat} {file : FileMetadata} (hfile : files[index]? = some file) :
    chunksIn files chunkSize index = chunksOf file.size chunkSize.toNat := by
  rw [chunksIn, hfile]
  rfl

theorem set_mapIdx_fileAt {index : Nat} (chunk : Nat) {file : FileMetadata}
    (hfile : files[index]? = some file) :
    (files.mapIdx (fileAt chunkSize marked)).set index
        ((fileAt chunkSize marked index file).mark chunk) =
      files.mapIdx (fileAt chunkSize (marked ++ [(index, chunk)])) := by
  have hindex := (List.getElem?_eq_some_iff.mp hfile).1
  refine List.ext_getElem? fun other => ?_
  by_cases hother : index = other
  · subst hother
    rw [List.getElem?_set_self (by rwa [List.length_mapIdx]), List.getElem?_mapIdx, hfile,
      mark_fileAt]
    rfl
  · rw [List.getElem?_set_ne hother, List.getElem?_mapIdx, List.getElem?_mapIdx]
    cases files[other]? with
    | none => rfl
    | some metadata => exact congrArg some (fileAt_concat (Ne.symm hother) metadata).symm

/-- A mark that meets a chunk either adds it or runs past the width of the counter. -/
theorem markChunkComplete_stateAt {mark : Mark}
    (hplace : mark.place.2 < chunksIn files chunkSize mark.place.1)
    (hsize : mark.size = sizeAt files chunkSize mark.place) :
    (stateAt files chunkSize transferId marked).markChunkComplete mark.fileIndex mark.chunkIndex
        mark.size =
      (add 64 (marked.map (sizeAt files chunkSize)).sum mark.size).map fun _ =>
        stateAt files chunkSize transferId (marked ++ [mark.place]) := by
  cases hfile : files[mark.place.1]? with
  | none =>
      rw [chunksIn, hfile] at hplace
      exact absurd hplace (Nat.not_lt_zero _)
  | some file =>
      rw [chunksIn_of_getElem? hfile] at hplace
      have hget : (stateAt files chunkSize transferId marked).files[mark.fileIndex.toNat]? =
          some (fileAt chunkSize marked mark.place.1 file) := by
        change (files.mapIdx _)[mark.place.1]? = _
        rw [List.getElem?_mapIdx, hfile]
        rfl
      rw [TransferState.markChunkComplete, hget]
      dsimp only
      rw [if_pos (show mark.chunkIndex.toNat < (fileAt chunkSize marked mark.place.1 file).totalChunks
        from hplace)]
      change (add 64 (marked.map (sizeAt files chunkSize)).sum mark.size >>= _) = _
      cases hadd : add 64 (marked.map (sizeAt files chunkSize)).sum mark.size with
      | error fault => rfl
      | ok total =>
          have hfiles := @set_mapIdx_fileAt files chunkSize marked mark.place.1 mark.place.2 file hfile
          have htotal : total = ((marked ++ [mark.place]).map (sizeAt files chunkSize)).sum := by
            rw [(add_eq_ok_iff.mp hadd).2, hsize, List.map_append, List.sum_append]
            simp
          simp only [stateAt, ← htotal, ← hfiles]
          rfl

/-- A mark that meets no chunk is ignored. -/
theorem markChunkComplete_ignored {mark : Mark}
    (hplace : ¬mark.place.2 < chunksIn files chunkSize mark.place.1) :
    (stateAt files chunkSize transferId marked).markChunkComplete mark.fileIndex mark.chunkIndex
        mark.size = .ok (stateAt files chunkSize transferId marked) := by
  have hget : (stateAt files chunkSize transferId marked).files[mark.fileIndex.toNat]? =
      files[mark.place.1]?.map (fileAt chunkSize marked mark.place.1) := List.getElem?_mapIdx
  rw [TransferState.markChunkComplete, hget]
  cases hfile : files[mark.place.1]? with
  | none => rfl
  | some file =>
      rw [chunksIn_of_getElem? hfile] at hplace
      exact if_neg hplace

theorem places_cons (mark : Mark) (marks : List Mark) :
    places files chunkSize (mark :: marks) =
      if mark.place.2 < chunksIn files chunkSize mark.place.1 then
        mark.place :: places files chunkSize marks
      else places files chunkSize marks := by
  rw [places, List.map_cons, List.filter_cons]
  simp only [decide_eq_true_eq]
  rfl

theorem markAll_eq_ok_iff (htrue : ∀ mark ∈ marks, TrueSize files chunkSize mark)
    (hfits : (marked.map (sizeAt files chunkSize)).sum < 2 ^ 64) {state : TransferState} :
    markAll (stateAt files chunkSize transferId marked) marks = .ok state ↔
      ((marked ++ places files chunkSize marks).map (sizeAt files chunkSize)).sum < 2 ^ 64 ∧
        state = stateAt files chunkSize transferId (marked ++ places files chunkSize marks) := by
  induction marks generalizing marked with
  | nil =>
      rw [show places files chunkSize [] = [] from rfl, List.append_nil]
      constructor
      · intro hrun
        cases hrun
        exact ⟨hfits, rfl⟩
      · rintro ⟨_, rfl⟩
        rfl
  | cons mark rest ih =>
      have hrest : ∀ other ∈ rest, TrueSize files chunkSize other :=
        fun other hother => htrue other (List.mem_cons_of_mem _ hother)
      rw [markAll, List.foldlM_cons, places_cons]
      split
      · rename_i hplace
        have hsize := htrue mark List.mem_cons_self hplace
        have hsum : ((marked ++ [mark.place]).map (sizeAt files chunkSize)).sum =
            (marked.map (sizeAt files chunkSize)).sum + mark.size := by
          rw [List.map_append, List.sum_append, hsize]
          simp
        rw [markChunkComplete_stateAt hplace hsize, List.append_cons marked mark.place (places files chunkSize rest)]
        cases hadd : add 64 (marked.map (sizeAt files chunkSize)).sum mark.size with
        | ok total => exact ih hrest (hsum.symm ▸ (add_eq_ok_iff.mp hadd).1)
        | error fault =>
            refine iff_of_false (fun hrun => by cases hrun) ?_
            rintro ⟨hall, _⟩
            rw [List.map_append, List.sum_append, hsum] at hall
            rw [add_eq_ok (Nat.lt_of_le_of_lt (Nat.le_add_right _ _) hall)] at hadd
            cases hadd
      · rename_i hplace
        rw [markChunkComplete_ignored hplace]
        exact ih hrest hfits

theorem newFiles_eq_ok_iff (hpos : chunkSize ≠ 0) {index : Nat} {states : List FileState} :
    newFiles chunkSize index files = .ok states ↔
      (∀ file ∈ files, file.size + chunkSize.toNat < 2 ^ 64) ∧
        states = files.mapIdx fun offset => fileAt chunkSize [] (index + offset) := by
  have hbits (index count : Nat) : bitsAt [] index count = List.replicate count false := by
    simp [bitsAt, List.map_const']
  induction files generalizing index states with
  | nil =>
      constructor
      · intro hnew
        cases hnew
        exact ⟨nofun, rfl⟩
      · rintro ⟨_, rfl⟩
        rfl
  | cons file rest ih =>
      rw [newFiles, FileState.new]
      by_cases hfits : file.size + chunkSize.toNat < 2 ^ 64
      · rw [chunkCount_eq_ok hpos hfits]
        change (newFiles chunkSize (index + 1) rest >>= _) = _ ↔ _
        constructor
        · intro hnew
          cases hlater : newFiles chunkSize (index + 1) rest with
          | error fault =>
              rw [hlater] at hnew
              cases hnew
          | ok later =>
              rw [hlater] at hnew
              cases hnew
              obtain ⟨hall, rfl⟩ := ih.mp hlater
              refine ⟨List.forall_mem_cons.mpr ⟨hfits, hall⟩, ?_⟩
              rw [List.mapIdx_cons]
              simp only [fileAt, hbits, Nat.add_zero, Nat.add_assoc, Nat.add_comm 1]
              rfl
        · rintro ⟨hall, rfl⟩
          rw [ih.mpr ⟨(List.forall_mem_cons.mp hall).2, rfl⟩, List.mapIdx_cons]
          simp only [fileAt, hbits, Nat.add_zero, Nat.add_assoc, Nat.add_comm 1]
          rfl
      · refine iff_of_false ?_ fun hall => hfits ((List.forall_mem_cons.mp hall.1).1)
        rw [chunkCount, add, fit, if_neg hfits]
        intro hnew
        cases hnew

theorem new_eq_ok_iff (hpos : chunkSize ≠ 0) {state : TransferState} :
    TransferState.new transferId files chunkSize = .ok state ↔
      ((files.map FileMetadata.size).sum < 2 ^ 64 ∧
        ∀ file ∈ files, file.size + chunkSize.toNat < 2 ^ 64) ∧
        state = stateAt files chunkSize transferId [] := by
  have hzero (offset : Nat) : 0 + offset = offset := Nat.zero_add offset
  rw [TransferState.new]
  by_cases hsum : (files.map FileMetadata.size).sum < 2 ^ 64
  · rw [sum_eq_ok ((Nat.zero_add _).symm ▸ hsum)]
    change (newFiles chunkSize 0 files >>= _) = _ ↔ _
    cases hnew : newFiles chunkSize 0 files with
    | error fault =>
        refine iff_of_false (fun hstate => by cases hstate) ?_
        rintro ⟨⟨_, hfits⟩, _⟩
        cases hnew.symm.trans ((newFiles_eq_ok_iff hpos).mpr ⟨hfits, rfl⟩)
    | ok states =>
        obtain ⟨hfits, rfl⟩ := (newFiles_eq_ok_iff hpos).mp hnew
        simp only [Nat.zero_add]
        constructor
        · intro hstate
          cases hstate
          exact ⟨⟨hsum, hfits⟩, rfl⟩
        · rintro ⟨_, rfl⟩
          rfl
  · refine iff_of_false ?_ fun hall => hsum hall.1.1
    intro hstate
    cases htotal : sum 64 0 (files.map FileMetadata.size) with
    | error fault =>
        rw [htotal] at hstate
        cases hstate
    | ok total =>
        have htotal' := eq_of_sum_eq_ok htotal
        rw [Nat.zero_add] at htotal'
        exact hsum (htotal' ▸ lt_of_sum_eq_ok (Nat.two_pow_pos 64) htotal)

/-! ## What the state says -/

/-- The first bit that is not set is the first chunk that is not marked. -/
theorem findIdx?_bitsAt (marked : List Place) (index count : Nat) :
    (bitsAt marked index count).findIdx? (fun bit => !bit) =
      (List.range count).find? fun chunk => decide ((index, chunk) ∉ marked) := by
  cases hfind : (List.range count).find? fun chunk => decide ((index, chunk) ∉ marked) with
  | none =>
      rw [List.find?_range_eq_none] at hfind
      rw [List.findIdx?_eq_none_iff]
      intro bit hbit
      obtain ⟨chunk, hchunk, rfl⟩ := List.mem_map.mp hbit
      simpa using hfind chunk (List.mem_range.mp hchunk)
  | some chunk =>
      obtain ⟨hopen, hchunk, hbefore⟩ := List.find?_range_eq_some.mp hfind
      have hlength : chunk < (bitsAt marked index count).length := by
        rw [length_bitsAt]
        exact List.mem_range.mp hchunk
      rw [List.findIdx?_eq_some_iff_getElem]
      refine ⟨hlength, by simpa [bitsAt] using hopen, fun other hother => ?_⟩
      simpa [bitsAt] using hbefore other hother

theorem statusAt_eq_complete_iff (index count : Nat) :
    statusAt marked index count = .complete ↔
      2 ≤ marked.countP (fun place => place.1 = index) ∧ ∀ chunk < count, (index, chunk) ∈ marked := by
  rw [statusAt]
  split
  · rename_i hzero
    refine iff_of_false (by decide) fun hboth => ?_
    omega
  · split
    · rename_i hboth
      exact iff_of_true rfl hboth
    · rename_i hboth
      exact iff_of_false (by decide) hboth

/-- The status keeps no file with an open chunk back. -/
theorem nextChunk_fileAt (index : Nat) (file : FileMetadata) :
    (fileAt chunkSize marked index file).nextChunk =
      ((List.range (chunksOf file.size chunkSize.toNat)).find? fun chunk =>
        decide ((index, chunk) ∉ marked)).map fun chunk => (truncate 32 index, chunk) := by
  have hbits := findIdx?_bitsAt marked index (chunksOf file.size chunkSize.toNat)
  rw [FileState.nextChunk]
  change (if statusAt marked index _ = .pending ∨ statusAt marked index _ = .inProgress then
    ((bitsAt marked index _).findIdx? _).map _ else none) = _
  rw [hbits]
  split
  · rfl
  · rename_i hstatus
    have hcomplete : statusAt marked index (chunksOf file.size chunkSize.toNat) = .complete := by
      rw [statusAt] at hstatus ⊢
      split
      · rename_i hzero
        exact absurd (Or.inl (if_pos hzero)) hstatus
      · rename_i hsome
        split
        · rfl
        · rename_i hopen
          exact absurd (Or.inr (by rw [if_neg hsome, if_neg hopen])) hstatus
    have hall := ((statusAt_eq_complete_iff _ _).mp hcomplete).2
    have hnone : (List.range (chunksOf file.size chunkSize.toNat)).find? (fun chunk =>
        decide ((index, chunk) ∉ marked)) = none := by
      rw [List.find?_range_eq_none]
      intro chunk hchunk
      simpa using hall chunk hchunk
    rw [hnone]
    rfl

theorem nextChunk_stateAt (marked : List Place) :
    (stateAt files chunkSize transferId marked).nextChunk =
      (firstOpen files chunkSize marked).map fun place => (truncate 32 place.1, place.2) := by
  rw [TransferState.nextChunk, stateAt, List.mapIdx_eq_zipIdx_map, List.findSome?_map, firstOpen,
    List.map_findSome?]
  refine congrArg (fun found => files.zipIdx.findSome? found) (funext fun item => ?_)
  obtain ⟨file, index⟩ := item
  dsimp only [Function.comp]
  rw [nextChunk_fileAt, Option.map_map]
  rfl

/-! ## Sums -/

theorem sum_dedup_le (weight : Place → Nat) (marked : List Place) :
    (marked.dedup.map weight).sum ≤ (marked.map weight).sum :=
  ((List.dedup_sublist marked).map weight).sum_le_sum fun _ _ => Nat.zero_le _

/-- Counting every place once gives the same only if none comes twice. -/
theorem sum_dedup_eq_iff {weight : Place → Nat} (hpos : ∀ place ∈ marked, 0 < weight place) :
    (marked.map weight).sum = (marked.dedup.map weight).sum ↔ marked.Nodup := by
  induction marked with
  | nil => simp
  | cons place rest ih =>
      have hrest := ih fun other hother => hpos other (List.mem_cons_of_mem _ hother)
      by_cases hmem : place ∈ rest
      · rw [List.dedup_cons_of_mem hmem, List.map_cons, List.sum_cons, List.nodup_cons]
        refine iff_of_false ?_ fun hboth => hboth.1 hmem
        have hplace := hpos place List.mem_cons_self
        have hle := sum_dedup_le weight rest
        omega
      · rw [List.dedup_cons_of_notMem hmem, List.nodup_cons, ← hrest]
        simp [hmem]

section Totals

variable (hpos : chunkSize ≠ 0)

include hpos

theorem sizeAt_pos {place : Place} (hplace : place.2 < chunksIn files chunkSize place.1) :
    0 < sizeAt files chunkSize place := by
  cases hfile : files[place.1]? with
  | none =>
      rw [chunksIn, hfile] at hplace
      exact absurd hplace (Nat.not_lt_zero _)
  | some file =>
      rw [chunksIn_of_getElem? hfile] at hplace
      have hless := mul_lt_of_lt_chunksOf (chunkSize_pos hpos) hplace
      have hchunk := chunkSize_pos hpos
      rw [sizeAt, hfile]
      change 0 < min (file.size - place.2 * chunkSize.toNat) chunkSize.toNat
      omega

/-- The chunks of a file make up its size. -/
theorem sum_sizeAt_file (index : Nat) :
    ((List.range (chunksIn files chunkSize index)).map fun chunk =>
      sizeAt files chunkSize (index, chunk)).sum = (files[index]?.map FileMetadata.size).getD 0 := by
  cases hfile : files[index]? with
  | none =>
      rw [chunksIn, hfile]
      rfl
  | some file =>
      have hsum := sum_chunkLength_chunksOf (chunkSize_pos hpos) file.size
      rw [chunksIn_of_getElem? hfile]
      simp only [sizeAt, hfile]
      exact hsum

/-- Distinct chunks are never more than all of them. -/
theorem sum_sizeAt_le {marked : List Place} (hnodup : marked.Nodup)
    (hplaces : ∀ place ∈ marked, place.2 < chunksIn files chunkSize place.1) :
    (marked.map (sizeAt files chunkSize)).sum ≤ (files.map FileMetadata.size).sum := by
  let every : List Place := (List.range files.length).flatMap fun index =>
    (List.range (chunksIn files chunkSize index)).map fun chunk => (index, chunk)
  have hsubset : marked ⊆ every := by
    intro place hmem
    have hchunk := hplaces place hmem
    have hindex : place.1 < files.length := by
      by_contra hlarge
      rw [chunksIn, List.getElem?_eq_none (Nat.le_of_not_lt hlarge)] at hchunk
      exact Nat.not_lt_zero _ hchunk
    exact List.mem_flatMap.mpr ⟨place.1, List.mem_range.mpr hindex,
      List.mem_map.mpr ⟨place.2, List.mem_range.mpr hchunk, rfl⟩⟩
  have hevery : (every.map (sizeAt files chunkSize)).sum = (files.map FileMetadata.size).sum := by
    have hfiles : files.map FileMetadata.size = (List.range files.length).map fun index =>
        (files[index]?.map FileMetadata.size).getD 0 := by
      refine List.ext_getElem (by simp) fun index hleft hright => ?_
      rw [List.length_map] at hleft
      simp [List.getElem?_eq_getElem hleft]
    rw [hfiles, List.map_flatMap, List.flatMap, List.sum_flatten, List.map_map]
    refine congrArg List.sum (List.map_congr_left fun index _ => ?_)
    rw [Function.comp_apply, List.map_map]
    exact sum_sizeAt_file hpos index
  obtain ⟨part, hperm, hpart⟩ := hnodup.subperm hsubset
  rw [← hevery, ← (hperm.map _).sum_eq]
  exact (hpart.map _).sum_le_sum fun _ _ => Nat.zero_le _

end Totals

theorem lt_of_mem_places {place : Place} (hmem : place ∈ places files chunkSize marks) :
    place.2 < chunksIn files chunkSize place.1 := by
  rw [places, List.mem_filter, decide_eq_true_iff] at hmem
  exact hmem.2

/-! ## When the state is right -/

/-- No sum runs past the width of its counter, no chunk is marked twice, no file of one
chunk is marked, and the next chunk belongs to a file whose index fits. -/
structure Tame (files : List FileMetadata) (chunkSize : UInt32) (marks : List Mark) : Prop where
  total_fits : (files.map FileMetadata.size).sum < 2 ^ 64
  count_fits : ∀ file ∈ files, file.size + chunkSize.toNat < 2 ^ 64
  once : (places files chunkSize marks).Nodup
  several : ∀ place ∈ places files chunkSize marks, chunksIn files chunkSize place.1 ≠ 1
  index_fits : ∀ place, firstOpen files chunkSize (places files chunkSize marks) = some place →
    place.1 < 2 ^ 32

/-- A file of several chunks that are all marked was marked more than once. -/
theorem two_le_countP {index count : Nat} (hmany : 2 ≤ count)
    (hall : ∀ chunk < count, (index, chunk) ∈ marked) :
    2 ≤ marked.countP (fun place => place.1 = index) := by
  have hsubset : [(index, 0), (index, 1)] ⊆ marked.filter fun place => place.1 = index := by
    intro place hplace
    simp only [List.mem_cons, List.not_mem_nil, or_false] at hplace
    rcases hplace with rfl | rfl
    · exact List.mem_filter.mpr ⟨hall 0 (by omega), decide_eq_true rfl⟩
    · exact List.mem_filter.mpr ⟨hall 1 (by omega), decide_eq_true rfl⟩
  have hnodup : [(index, 0), (index, 1)].Nodup := by simp
  have hlength := (hnodup.subperm hsubset).length_le
  rw [List.countP_eq_length_filter]
  exact hlength

/-- A place that comes once is counted once. -/
theorem countP_eq_one (hnodup : marked.Nodup) {index : Nat}
    (hsingle : ∀ place ∈ marked, place.1 = index → place.2 = 0) (hmem : (index, 0) ∈ marked) :
    marked.countP (fun place => place.1 = index) = 1 := by
  have hsame : marked.countP (fun place => place.1 = index) = marked.count (index, 0) := by
    rw [List.count, List.countP_congr]
    intro place hplace
    simp only [decide_eq_true_eq, beq_iff_eq]
    constructor
    · intro hindex
      exact Prod.ext hindex (hsingle place hplace hindex)
    · rintro rfl
      rfl
  rw [hsame]
  exact List.count_eq_one_of_mem hnodup hmem

section Iff

variable (hpos : chunkSize ≠ 0)

include hpos

/-- The condition is enough. -/
theorem faithful_of_tame (htame : Tame files chunkSize marks) :
    Faithful files chunkSize marks
      (stateAt files chunkSize transferId (places files chunkSize marks)) := by
  have hdedup := List.dedup_eq_self.mpr htame.once
  refine ⟨?_, ?_, ?_, ?_⟩
  · rw [hdedup]
    rfl
  · exact sum_sizeAt_le hpos htame.once fun _ => lt_of_mem_places
  · intro index state hstate hsome
    change (files.mapIdx _)[index]? = _ at hstate
    rw [List.getElem?_mapIdx] at hstate
    obtain ⟨file, hfile, rfl⟩ := Option.map_eq_some_iff.mp hstate
    have hcount := @chunksIn_of_getElem? files chunkSize _ _ hfile
    change statusAt _ index (chunksOf file.size chunkSize.toNat) = .complete ↔ _
    rw [statusAt_eq_complete_iff, ← hcount]
    refine ⟨fun hboth => hboth.2, fun hall => ⟨?_, hall⟩⟩
    have hseveral : chunksIn files chunkSize index ≠ 1 := htame.several (index, 0) (hall 0 hsome)
    have hmany : 2 ≤ chunksIn files chunkSize index := by omega
    exact two_le_countP hmany hall
  · rw [nextChunk_stateAt]
    cases hopen : firstOpen files chunkSize (places files chunkSize marks) with
    | none => rfl
    | some place =>
        rw [Option.map_some, truncate_eq_self (htame.index_fits place hopen)]

/-- And it is needed. -/
theorem tame_of_faithful (htotal : (files.map FileMetadata.size).sum < 2 ^ 64)
    (hcount : ∀ file ∈ files, file.size + chunkSize.toNat < 2 ^ 64)
    (hfaithful : Faithful files chunkSize marks
      (stateAt files chunkSize transferId (places files chunkSize marks))) :
    Tame files chunkSize marks := by
  have honce : (places files chunkSize marks).Nodup :=
    (sum_dedup_eq_iff fun place hmem => sizeAt_pos hpos (lt_of_mem_places hmem)).mp
      hfaithful.transferred
  refine ⟨htotal, hcount, honce, ?_, ?_⟩
  · rintro ⟨index, chunk⟩ hmem hone
    dsimp only at hone
    have hzero : ∀ place ∈ places files chunkSize marks, place.1 = index → place.2 = 0 := by
      rintro place hplace rfl
      have hless := lt_of_mem_places hplace
      omega
    have hchunk := hzero (index, chunk) hmem rfl
    dsimp only at hchunk
    subst hchunk
    cases hfile : files[index]? with
    | none =>
        rw [chunksIn, hfile] at hone
        cases hone
    | some file =>
        have hstate : (stateAt files chunkSize transferId (places files chunkSize marks)).files[index]? =
            some (fileAt chunkSize (places files chunkSize marks) index file) := by
          change (files.mapIdx _)[index]? = _
          rw [List.getElem?_mapIdx, hfile]
          rfl
        have hcomplete := (hfaithful.complete index _ hstate (by omega)).mpr fun other hother => by
          rw [hone, Nat.lt_one_iff] at hother
          exact hother ▸ hmem
        have htwo := ((statusAt_eq_complete_iff _ _).mp hcomplete).1
        rw [countP_eq_one honce hzero hmem] at htwo
        exact absurd htwo (by decide)
  · intro place hopen
    have hnext := hfaithful.next
    rw [nextChunk_stateAt, hopen, Option.map_some] at hnext
    have hindex := congrArg Prod.fst (Option.some.inj hnext)
    rw [← hindex]
    exact Nat.mod_lt _ (Nat.two_pow_pos 32)

/-- The state that marks lead to is right exactly when they are tame. -/
theorem faithful_iff (transferId : Uuid) (htrue : ∀ mark ∈ marks, TrueSize files chunkSize mark) :
    (∃ start state, TransferState.new transferId files chunkSize = .ok start ∧
      markAll start marks = .ok state ∧ Faithful files chunkSize marks state) ↔
      Tame files chunkSize marks := by
  have hrun {state : TransferState} := @markAll_eq_ok_iff files chunkSize [] marks transferId htrue
    (Nat.two_pow_pos 64) state
  rw [List.nil_append] at hrun
  constructor
  · rintro ⟨start, state, hnew, hmarks, hfaithful⟩
    obtain ⟨⟨htotal, hcount⟩, rfl⟩ := (new_eq_ok_iff hpos).mp hnew
    obtain ⟨_, rfl⟩ := hrun.mp hmarks
    exact tame_of_faithful hpos htotal hcount hfaithful
  · intro htame
    have hsum := sum_sizeAt_le hpos htame.once fun _ => lt_of_mem_places
    exact ⟨_, _, (new_eq_ok_iff hpos).mpr ⟨⟨htame.total_fits, htame.count_fits⟩, rfl⟩,
      hrun.mpr ⟨Nat.lt_of_le_of_lt hsum htame.total_fits, rfl⟩, faithful_of_tame hpos htame⟩

end Iff

/-! ## Files of three chunks and of one -/

def fileOf (size : Nat) : FileMetadata where
  path := [102]
  size := size
  modified := 0
  checksum := FixedBytes.filled 32 0

/-- Three marks of 100 bytes each, in a file of 300. -/
def inOrder : List Mark := [⟨0, 0, 100⟩, ⟨0, 1, 100⟩, ⟨0, 2, 100⟩]

theorem faithful_iff_inOrder :
    ∃ start state, TransferState.new (FixedBytes.filled 16 0) [fileOf 300] 100 = .ok start ∧
      markAll start inOrder = .ok state ∧ Faithful [fileOf 300] 100 inOrder state := by
  refine (@faithful_iff [fileOf 300] 100 inOrder (by decide) (FixedBytes.filled 16 0) ?_).mpr ?_
  · intro mark hmark _
    simp only [inOrder, List.mem_cons, List.not_mem_nil, or_false] at hmark
    rcases hmark with rfl | rfl | rfl <;> rfl
  · refine ⟨by decide, ?_, by decide, by decide, ?_⟩
    · intro file hfile
      rw [List.mem_singleton.mp hfile]
      decide
    · intro place hopen
      cases hopen

def onlyChunk : List Mark := [⟨0, 0, 50⟩]

def twice : List Mark := [⟨0, 0, 100⟩, ⟨0, 0, 100⟩]

/-- Marks with the sizes of their chunks after which the counts are wrong. -/
def Miscounted (size : Nat) (marks : List Mark) : Prop :=
  (∀ mark ∈ marks, TrueSize [fileOf size] 100 mark) ∧
    ∃ start state, TransferState.new (FixedBytes.filled 16 0) [fileOf size] 100 = .ok start ∧
      markAll start marks = .ok state ∧ ¬Faithful [fileOf size] 100 marks state

/-- A file of one chunk is not complete after its mark, and a repeated mark counts its bytes
twice. -/
theorem marks_miscounted : Miscounted 50 onlyChunk ∧ Miscounted 300 twice := by
  constructor
  · refine ⟨?_, _, _, rfl, rfl, fun hfaithful => ?_⟩
    · intro mark hmark _
      rw [List.mem_singleton.mp hmark]
      rfl
    · have hcomplete := (hfaithful.complete 0 _ rfl (by decide)).mpr (by decide)
      cases hcomplete
  · refine ⟨?_, _, _, rfl, rfl, fun hfaithful => ?_⟩
    · intro mark hmark _
      simp only [twice, List.mem_cons, List.not_mem_nil, or_false, or_self] at hmark
      rw [hmark]
      rfl
    · have htransferred := hfaithful.transferred
      revert htransferred
      decide

end P2PFileTransfer.Transfer.Marking
