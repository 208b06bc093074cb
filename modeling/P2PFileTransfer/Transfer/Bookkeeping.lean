import P2PFileTransfer.Transfer.Honesty
import P2PFileTransfer.Transfer.StateFile

/-!
# The books of a sender

Whatever the peer answers and wherever an attempt breaks off, the state a sender works on
or finds in its state file counts the files it has finished, in order, and lists for each of
the files it has begun chunks that the file has, each once.
-/

namespace P2PFileTransfer.Transfer.Bookkeeping

open P2PFileTransfer.Foundation
open P2PFileTransfer.Foundation.ByteFile
open P2PFileTransfer.Foundation.FileSystem
open P2PFileTransfer.Foundation.Process
open P2PFileTransfer.Foundation.UnixPath
open P2PFileTransfer.Core
open P2PFileTransfer.Core.Protocol
open P2PFileTransfer.Core.TransferFile
open P2PFileTransfer.Core.TransferFolder
open P2PFileTransfer.Core.FolderSender
open P2PFileTransfer.Core.SendPath
open P2PFileTransfer.Transfer.Honesty (statusMemory memory?_sending)
open P2PFileTransfer.Transfer.StateFile

/-- What a state records, as the size of a file counts: `count` files are finished. -/
structure Books (chunkSize : UInt32) (memory : FolderTransferState) (count : Nat) : Prop where
  completed_nodup : memory.completedFiles.Nodup
  completed : ∀ index, index ∈ memory.completedFiles ↔ index < count
  count_le : count ≤ memory.files.length
  next : memory.nextFile = if count < memory.files.length then some count else none
  transferred : memory.transferredBytes = (memory.completedFiles.map fun index =>
    (memory.files[index]?.map FileMetadata.size).getD 0).sum
  transferred_le : memory.transferredBytes ≤ memory.totalBytes
  chunks_nodup : ∀ index, (memory.fileChunks index).Nodup
  chunks_lt : ∀ index, ∀ chunk ∈ memory.fileChunks index, ∃ file total,
    memory.files[index]? = some file ∧ chunkCount file.size chunkSize = .ok total ∧ chunk < total
  later : ∀ index, count < index → memory.fileChunks index = []

/-! ## What every step keeps -/

/-- The size of the first `count` files. -/
def sizeOfFirst (files : List FileMetadata) (count : Nat) : Nat :=
  ((files.take count).map FileMetadata.size).sum

/-- The file is in the list and has the chunk. -/
def HasChunk (chunkSize : UInt32) (files : List FileMetadata) (index chunk : Nat) : Prop :=
  ∃ file total, files[index]? = some file ∧ chunkCount file.size chunkSize = .ok total ∧ chunk < total

structure Kept (chunkSize : UInt32) (memory : FolderTransferState) : Prop where
  finished : memory.completedFiles = List.range memory.completedFiles.length
  finished_le : memory.completedFiles.length ≤ memory.files.length
  total : memory.totalBytes = sizeOfFirst memory.files memory.files.length
  transferred : memory.transferredBytes = sizeOfFirst memory.files memory.completedFiles.length
  nodup : ∀ index, (memory.fileChunks index).Nodup
  bounded : ∀ index, ∀ chunk ∈ memory.fileChunks index, HasChunk chunkSize memory.files index chunk
  later : ∀ index, memory.completedFiles.length < index → memory.fileChunks index = []

variable {chunkSize : UInt32} {memory : FolderTransferState} {files : List FileMetadata}

theorem sizeOfFirst_mono {fewer more : Nat} (hle : fewer ≤ more) :
    sizeOfFirst files fewer ≤ sizeOfFirst files more := by
  obtain ⟨rest, rfl⟩ := Nat.exists_eq_add_of_le hle
  rw [sizeOfFirst, sizeOfFirst, List.take_add, List.map_append, List.sum_append]
  exact Nat.le_add_right _ _

theorem sizeOfFirst_succ (files : List FileMetadata) (count : Nat) :
    sizeOfFirst files (count + 1) =
      sizeOfFirst files count + (files[count]?.map FileMetadata.size).getD 0 := by
  rw [sizeOfFirst, sizeOfFirst, List.take_add_one, List.map_append, List.sum_append]
  cases files[count]? <;> simp

theorem sizeOfFirst_eq_sum (files : List FileMetadata) (count : Nat) :
    sizeOfFirst files count = ((List.range count).map fun index =>
      (files[index]?.map FileMetadata.size).getD 0).sum := by
  induction count with
  | zero => rfl
  | succ count ih =>
      rw [sizeOfFirst_succ, ih, List.range_succ, List.map_append, List.sum_append]
      simp

/-- Books that are kept say what they are to say. -/
theorem books_of_kept (hkept : Kept chunkSize memory) :
    Books chunkSize memory memory.completedFiles.length := by
  refine ⟨?_, ?_, hkept.finished_le, FolderTransferState.nextFile_of_prefix hkept.finished, ?_, ?_,
    hkept.nodup, hkept.bounded, hkept.later⟩
  · rw [hkept.finished]
    exact List.nodup_range
  · intro index
    rw [hkept.finished, List.mem_range, List.length_range]
  · rw [hkept.transferred, sizeOfFirst_eq_sum, ← hkept.finished]
  · rw [hkept.transferred, hkept.total]
    exact sizeOfFirst_mono hkept.finished_le

theorem kept_new (transferId : Uuid) (name : OsStr) (files : List FileMetadata)
    (config : ConfigMessage) :
    Kept chunkSize (FolderTransferState.new transferId name files config) := by
  refine ⟨rfl, Nat.zero_le _, ?_, rfl, fun _ => List.nodup_nil, ?_, fun _ _ => rfl⟩
  · change _ = sizeOfFirst files files.length
    rw [sizeOfFirst, List.take_length]
    rfl
  · intro index chunk hchunk
    cases hchunk

/-- Recording a chunk of the file at hand. -/
theorem Kept.markChunkComplete (hkept : Kept chunkSize memory) {chunk : Nat}
    (hhas : HasChunk chunkSize memory.files memory.completedFiles.length chunk)
    (hfresh : chunk ∉ memory.fileChunks memory.completedFiles.length) :
    Kept chunkSize (memory.markChunkComplete memory.completedFiles.length chunk) := by
  have hself := memory.markChunkComplete_fileChunks_self memory.completedFiles.length chunk
  have hother {index : Nat} (hne : index ≠ memory.completedFiles.length) :=
    memory.markChunkComplete_fileChunks_ne chunk hne
  refine ⟨hkept.finished, hkept.finished_le, hkept.total, hkept.transferred, ?_, ?_, ?_⟩
  · intro index
    by_cases hindex : index = memory.completedFiles.length
    · rw [hindex, hself]
      refine List.nodup_append.mpr ⟨hkept.nodup _, List.pairwise_singleton _ _, ?_⟩
      rintro before hbefore last hlast rfl
      exact hfresh (List.mem_singleton.mp hlast ▸ hbefore)
    · rw [hother hindex]
      exact hkept.nodup index
  · intro index other hmem
    by_cases hindex : index = memory.completedFiles.length
    · subst hindex
      rw [hself, List.mem_append, List.mem_singleton] at hmem
      rcases hmem with hbefore | rfl
      · exact hkept.bounded _ other hbefore
      · exact hhas
    · rw [hother hindex] at hmem
      exact hkept.bounded index other hmem
  · intro index hless
    exact (hother (Nat.ne_of_gt hless)).trans (hkept.later index hless)

/-- Finishing the file at hand. -/
theorem Kept.finishFile (hkept : Kept chunkSize memory)
    (hunfinished : memory.completedFiles.length < memory.files.length) :
    Kept chunkSize (finishFile memory memory.completedFiles.length) := by
  have hfiles := finishFile_files memory memory.completedFiles.length
  have hchunks := finishFile_fileChunks memory memory.completedFiles.length
  have hcompleted := FolderTransferState.markFileComplete_completedFiles hkept.finished
  have hcount : (FolderSender.finishFile memory
      memory.completedFiles.length).completedFiles.length = memory.completedFiles.length + 1 := by
    have hlength := congrArg List.length hcompleted
    rw [List.length_range] at hlength
    exact hlength
  have hfresh : memory.completedFiles.length ∉ memory.completedFiles := by
    rw [hkept.finished, List.mem_range, List.length_range]
    exact Nat.lt_irrefl _
  have hbytes : (FolderSender.finishFile memory memory.completedFiles.length).transferredBytes =
      memory.transferredBytes +
        (memory.files[memory.completedFiles.length]?.map FileMetadata.size).getD 0 := by
    rw [FolderSender.finishFile, FolderTransferState.markFileComplete, if_neg hfresh]
  have htotal : (FolderSender.finishFile memory memory.completedFiles.length).totalBytes =
      memory.totalBytes := by
    rw [FolderSender.finishFile, FolderTransferState.markFileComplete, if_neg hfresh]
  refine ⟨?_, ?_, ?_, ?_, ?_, ?_, ?_⟩
  · rw [hcount]
    exact hcompleted
  · rw [hcount, hfiles]
    exact hunfinished
  · rw [htotal, hfiles]
    exact hkept.total
  · rw [hbytes, hfiles, hcount, sizeOfFirst_succ, hkept.transferred]
  · rw [hchunks]
    exact hkept.nodup
  · rw [hchunks, hfiles]
    exact hkept.bounded
  · intro index hless
    rw [hcount] at hless
    rw [hchunks]
    exact hkept.later index (Nat.lt_of_succ_lt hless)

/-! ## One call -/

/-- The file at hand is the first unfinished one, and its recorded chunks are those of the
beginning of the call and those sent since. -/
structure Working (chunkSize : UInt32) (memory : FolderTransferState) (task : FileTask)
    (file : FileMetadata) : Prop where
  index : task.index = memory.completedFiles.length
  item : memory.files[memory.completedFiles.length]? = some file
  totalChunks : chunkCount file.size chunkSize = .ok task.totalChunks
  recorded : memory.fileChunks memory.completedFiles.length =
    task.completed ++ remaining task.completed task.next

def StageKept (chunkSize : UInt32) (memory : FolderTransferState) : Stage → Prop
  | .fileHead index => index ≤ memory.completedFiles.length
  | .openSource index | .sendChecksum index _ | .recvChecksum index _ =>
      index = memory.completedFiles.length ∧ memory.completedFiles.length < memory.files.length
  | .chunkHead task => ∃ file, Working chunkSize memory task file
  | .readChunk task _ _ =>
      (∃ file, Working chunkSize memory task file) ∧ task.next < task.totalChunks
  | .openStream task _ | .awaitStopped task =>
      (∃ file, Working chunkSize memory task file) ∧ task.next < task.totalChunks ∧
        task.next ∉ task.completed
  | .begin | .scan | .sendInfo _ | .recvReady | .sendComplete => True

/-- The state lists files as they are, and its books are kept. -/
structure MemoryKept (basePath : OsStr) (chunkSize : UInt32) (source : Store)
    (memory : FolderTransferState) : Prop where
  honest : HonestFiles basePath source memory.files
  kept : Kept chunkSize memory

/-- The files and the chunk size of a call. -/
abbrev SessionKept (session : Session) (source : Store) (memory : FolderTransferState) : Prop :=
  MemoryKept session.basePath session.config.chunkSize source memory

def KeptStatus (session : Session) (source : Store) : PointStatus → Prop
  | .running point =>
      SessionKept session source point.memory ∧
        StageKept session.config.chunkSize point.memory point.stage
  | .returned memory => SessionKept session source memory
  | .failed point _ | .panicked point _ => SessionKept session source point.memory

variable {session : Session} {source : Store}

theorem memoryKept_of_status {status : PointStatus} (hkept : KeptStatus session source status) :
    SessionKept session source (statusMemory status) := by
  cases status with
  | running point => exact hkept.1
  | returned memory => exact hkept
  | failed point error | panicked point fault => exact hkept

theorem kept_announce (hmemory : SessionKept session source memory) (stage : Stage)
    (resumeFrom : Option ResumePoint) :
    KeptStatus session source (announce session stage memory resumeFrom) := by
  rw [announce]
  cases writeMessage (manifest session memory resumeFrom) with
  | error error => exact hmemory
  | ok done => exact ⟨hmemory, trivial⟩

theorem kept_openTransfer (hmemory : SessionKept session source memory) :
    KeptStatus session source (openTransfer session memory) := by
  rw [openTransfer]
  split
  · exact ⟨hmemory, trivial⟩
  · exact kept_announce hmemory .begin _

theorem kept_startTransfer (hmemory : SessionKept session source memory) {scan : Scan}
    (hscan : HonestScan session.basePath source scan) :
    KeptStatus session source (startTransfer session memory scan) := by
  rw [startTransfer]
  cases hfound : readScan scan with
  | error error => exact hmemory
  | ok found => exact kept_announce ⟨hscan found hfound, kept_new _ _ _ _⟩ .scan none

theorem kept_readReady (hmemory : SessionKept session source memory) (message : Message) :
    KeptStatus session source (readReady memory message) := by
  unfold readReady
  split
  · exact ⟨hmemory, Nat.zero_le _⟩
  · exact hmemory
  · exact hmemory

theorem kept_visitFile (hmemory : SessionKept session source memory) {index : Nat}
    (hindex : index ≤ memory.completedFiles.length) :
    KeptStatus session source (visitFile memory index) := by
  have hmem : index ∈ memory.completedFiles ↔ index < memory.completedFiles.length := by
    rw [hmemory.kept.finished, List.mem_range, List.length_range]
  rw [visitFile]
  split
  · rename_i hlength
    split
    · rename_i hskip
      exact ⟨hmemory, hmem.mp hskip⟩
    · rename_i hskip
      have hhere := Nat.le_antisymm hindex (Nat.le_of_not_lt fun hless => hskip (hmem.mpr hless))
      exact ⟨hmemory, hhere, hhere ▸ hlength⟩
  · exact ⟨hmemory, trivial⟩

/-- The file is as long as the manifest says. -/
theorem kept_stat (hmemory : SessionKept session source memory) {index : Nat} {after : Store}
    {value : Value} (hindex : index = memory.completedFiles.length)
    (hunfinished : memory.completedFiles.length < memory.files.length)
    (hrun : (Operation.stat (components
      ((memory.files[index]?.map (sourcePath session.basePath)).getD []))).run source =
        some (after, value)) :
    KeptStatus session source (resume session ⟨memory, .openSource index⟩ (.value value)) := by
  subst hindex
  have hfile := List.getElem?_eq_getElem hunfinished
  obtain ⟨bytes, hbytes⟩ := hmemory.honest _ (List.getElem_mem hunfinished)
  obtain ⟨found, hfound, hvalue⟩ := Option.map_eq_some_iff.mp hrun
  cases hvalue
  rw [hfile] at hfound
  cases hfound.symm.trans hbytes.contents
  change KeptStatus session source (openReader session memory _ bytes.length)
  rw [openReader, hbytes.length]
  cases hcount : chunkCount _ session.config.chunkSize with
  | error fault => exact hmemory
  | ok total => exact ⟨hmemory, _, rfl, hfile, hcount, (List.append_nil _).symm⟩

theorem kept_visitChunk (hmemory : SessionKept session source memory) {task : FileTask}
    {file : FileMetadata} (htask : Working session.config.chunkSize memory task file) :
    KeptStatus session source (visitChunk session memory task) := by
  rw [visitChunk]
  split
  · rename_i hmore
    cases FixedWidth.mul 64 task.next session.config.chunkSize.toNat with
    | error fault => exact hmemory
    | ok offset =>
        change KeptStatus session source (.ofChecked _ (FixedWidth.sub task.fileSize offset) _)
        cases FixedWidth.sub task.fileSize offset with
        | error fault => exact hmemory
        | ok rest => exact ⟨hmemory, ⟨file, htask⟩, hmore⟩
  · exact ⟨hmemory, htask.index, (List.getElem?_eq_some_iff.mp htask.item).1⟩

theorem kept_handleChunk (hmemory : SessionKept session source memory) {task : FileTask}
    {file : FileMetadata} (htask : Working session.config.chunkSize memory task file)
    (hnext : task.next < task.totalChunks) (offset length : Nat) (data : Bytes) :
    KeptStatus session source (handleChunk session memory task offset length data) := by
  rw [handleChunk]
  split
  · rename_i hskip
    refine ⟨hmemory, file, htask.index, htask.item, htask.totalChunks, ?_⟩
    rw [htask.recorded, remaining_succ_of_mem hskip]
  · rename_i hfresh
    cases prepareChunk session.codec task.compressor data with
    | error error => exact hmemory
    | ok prepared =>
        exact ⟨hmemory, ⟨file, htask.index, htask.item, htask.totalChunks, htask.recorded⟩, hnext,
          hfresh⟩

theorem kept_recordChunk (hmemory : SessionKept session source memory) {task : FileTask}
    {file : FileMetadata} (htask : Working session.config.chunkSize memory task file)
    (hnext : task.next < task.totalChunks) (hfresh : task.next ∉ task.completed) :
    KeptStatus session source (.running (recordChunk memory task)) := by
  have hunrecorded : task.next ∉ memory.fileChunks memory.completedFiles.length := by
    rw [htask.recorded, List.mem_append, mem_remaining]
    rintro (hbefore | ⟨hless, _⟩)
    · exact hfresh hbefore
    · exact Nat.lt_irrefl _ hless
  have hkept := hmemory.kept.markChunkComplete
    ⟨file, task.totalChunks, htask.item, htask.totalChunks, hnext⟩ hunrecorded
  have hself := memory.markChunkComplete_fileChunks_self memory.completedFiles.length task.next
  rw [htask.recorded, List.append_assoc, ← remaining_succ_of_not_mem hfresh] at hself
  rw [← htask.index] at hkept
  refine ⟨⟨hmemory.honest, hkept⟩, file, htask.index, htask.item, htask.totalChunks, ?_⟩
  change (memory.markChunkComplete task.index task.next).fileChunks memory.completedFiles.length = _
  rw [htask.index]
  exact hself

theorem kept_compareChecksum (hmemory : SessionKept session source memory) {index : Nat}
    (hindex : index = memory.completedFiles.length)
    (hunfinished : memory.completedFiles.length < memory.files.length) (checksum : Digest)
    (message : Message) :
    KeptStatus session source (compareChecksum memory index checksum message) := by
  subst hindex
  unfold compareChecksum
  split
  · split
    · exact hmemory
    · have hkept := hmemory.kept.finishFile hunfinished
      refine ⟨⟨?_, hkept⟩, ?_⟩
      · rw [finishFile_files]
        exact hmemory.honest
      · change memory.completedFiles.length + 1 ≤ (FolderSender.finishFile memory
          memory.completedFiles.length).completedFiles.length
        have hlength := congrArg List.length
          (FolderTransferState.markFileComplete_completedFiles hmemory.kept.finished)
        rw [List.length_range] at hlength
        exact Nat.le_of_eq hlength.symm
  · exact hmemory

/-- The steps of a call whose source files stay as they are, whatever the peer says. -/
theorem keptStatus_step {state next : SenderState} {input : SenderInput}
    (hstore : state.store = source)
    (hscan : ∀ scan, input = .answer scan → HonestScan session.basePath source scan)
    (hkept : KeptStatus session source state.status)
    (hstep : (machine session).step state input = some next) :
    next.store = source ∧ KeptStatus session source next.status := by
  have hsame : next.store = source := by
    rw [← hstore]
    funext location
    refine step_frame hstep fun point _ => ?_
    change location ∉ (action session point).written
    rw [action_written]
    exact List.not_mem_nil
  refine ⟨hsame, ?_⟩
  cases stepped_of_step hstep with
  | fail hstatus _ hnext =>
      rw [hstatus] at hkept
      rw [hnext]
      exact hkept.1
  | resume hstatus hreply hnext =>
      rename_i point reply after
      rw [hstatus] at hkept
      rw [hnext]
      have hfits := Action.fits_of_reply hreply
      rw [hstore] at hreply
      obtain ⟨memory, stage⟩ := point
      obtain ⟨hmemory, hstage⟩ := hkept
      change KeptStatus session source (resume session ⟨memory, stage⟩ reply)
      dsimp only at hmemory hstage
      cases stage <;> cases reply <;> try exact hfits.elim
      case begin.done => exact kept_openTransfer hmemory
      case scan.answer scan =>
          cases input with
          | answer found =>
              cases hreply
              exact kept_startTransfer hmemory (hscan scan rfl)
          | proceed | message _ | stream _ | fail _ _ => cases hreply
      case sendInfo.done => exact ⟨hmemory, trivial⟩
      case recvReady.message message => exact kept_readReady hmemory message
      case fileHead.done index => exact kept_visitFile hmemory hstage
      case openSource.value index value =>
          obtain ⟨_, found, hvalue, hrun⟩ := Action.performed hreply
          cases hvalue
          exact kept_stat hmemory hstage.1 hstage.2 hrun
      case chunkHead.done task =>
          obtain ⟨file, htask⟩ := hstage
          exact kept_visitChunk hmemory htask
      case readChunk.value task offset length value =>
          obtain ⟨⟨file, htask⟩, hmore⟩ := hstage
          cases value with
          | bytes data => exact kept_handleChunk hmemory htask hmore offset length data
          | unit | size _ => exact ⟨hmemory, ⟨file, htask⟩, hmore⟩
      case openStream.done task _ => exact ⟨hmemory, hstage⟩
      case awaitStopped.done task =>
          obtain ⟨⟨file, htask⟩, hmore, hfresh⟩ := hstage
          exact kept_recordChunk hmemory htask hmore hfresh
      case sendChecksum.done index checksum => exact ⟨hmemory, hstage⟩
      case recvChecksum.message index checksum message =>
          exact kept_compareChecksum hmemory hstage.1 hstage.2 checksum message
      case sendComplete.done => exact hmemory

/-! ## Calls, kills and the state file -/

/-- The scans of a run find files as they are. -/
def HonestEvent (settings : Settings) (source : Store) : StateFile.Event → Prop
  | .path (.attempt (.answer scan)) => HonestScan settings.basePath source scan
  | _ => True

structure AllKept (settings : Settings) (source : Store) (state : StateFile.State) : Prop where
  source_eq : state.source = source
  sending : ∀ call attempt status, state.phase = .sending call attempt status →
    KeptStatus (settings.session call) source status
  memory : ∀ memory, state.phase.memory? = some memory →
    MemoryKept settings.basePath settings.config.chunkSize source memory
  stored : ∀ memory, state.file = .stored memory →
    MemoryKept settings.basePath settings.config.chunkSize source memory

variable {settings : Settings} {state next : StateFile.State}

/-- A phase that works on a state with kept books. -/
theorem allKept_of_memory {phase : Phase} {work : FileWork} {file : SavedState}
    (hmemory : ∀ memory, phase.memory? = some memory →
      MemoryKept settings.basePath settings.config.chunkSize source memory)
    (hstage : ∀ call attempt point, phase = .sending call attempt (.running point) →
      StageKept settings.config.chunkSize point.memory point.stage)
    (hstored : ∀ memory, file = .stored memory →
      MemoryKept settings.basePath settings.config.chunkSize source memory) :
    AllKept settings source ⟨phase, work, file, source⟩ := by
  refine ⟨rfl, ?_, hmemory, hstored⟩
  rintro call attempt status rfl
  have hkept := hmemory (statusMemory status) (memory?_sending call attempt status)
  cases status with
  | running point => exact ⟨hkept, hstage call attempt point rfl⟩
  | returned memory | failed point _ | panicked point _ => exact hkept

theorem memoryKept_loadState (hstored : ∀ memory, state.file = .stored memory →
      MemoryKept settings.basePath settings.config.chunkSize source memory) (freshId : Uuid) :
    MemoryKept settings.basePath settings.config.chunkSize source (loadState state.file freshId settings.config) := by
  cases hfile : state.file with
  | stored memory => exact hstored memory hfile
  | absent | unreadable => exact ⟨fun _ hmem => absurd hmem List.not_mem_nil, kept_new _ _ _ _⟩

theorem allKept_path (hkept : AllKept settings source state) {input : PathInput}
    (hhonest : HonestEvent settings source (.path input)) {after : Phase × Store}
    (hstep : pathStep settings (state.phase, state.source) input = some after) (work : FileWork) :
    AllKept settings source ⟨after.1, work, state.file, after.2⟩ := by
  obtain ⟨phase, before, file, _⟩ := state
  obtain ⟨rfl, hsending, hmemory, hstored⟩ := hkept
  dsimp only at hsending hmemory hstored hstep ⊢
  cases pathStepped_of_step hstep with
  | again =>
      refine allKept_of_memory hmemory ?_ hstored
      intro _ _ _ hphase
      cases hphase
      trivial
  | attempt hnext =>
      obtain ⟨hsource, hstatus⟩ := keptStatus_step rfl
        (fun scan hinput => by subst hinput; exact hhonest) (hsending _ _ _ rfl) hnext
      rw [hsource]
      refine ⟨rfl, ?_, ?_, hstored⟩
      · intro other count found hphase
        cases hphase
        exact hstatus
      · intro found hfound
        rw [memory?_sending] at hfound
        cases hfound
        exact memoryKept_of_status hstatus
  | returned =>
      refine allKept_of_memory hmemory ?_ hstored
      intro _ _ _ hphase
      cases hphase
  | failed =>
      refine allKept_of_memory ?_ ?_ hstored
      · intro memory hlast
        rw [memory?_afterFailure] at hlast
        exact hmemory memory hlast
      · intro other count found hphase
        exact absurd hphase (afterFailure_ne_sending _ _ _ _ _ _ _ _)

theorem allKept_file (hkept : AllKept settings source state) {event : FileEvent}
    (hstep : fileStep state event = some next) : AllKept settings source next := by
  obtain ⟨phase, work, file, _⟩ := state
  obtain ⟨rfl, hsending, hmemory, hstored⟩ := hkept
  cases work <;> cases event <;> try cases hstep
  case save.truncate | remove.remove => exact ⟨rfl, hsending, hmemory, nofun⟩
  case write.finish =>
      obtain ⟨memory, hlast, rfl⟩ := Option.map_eq_some_iff.mp hstep
      refine ⟨rfl, hsending, hmemory, ?_⟩
      intro other hother
      cases hother
      exact hmemory memory hlast
  case save.giveUp | write.giveUp | remove.giveUp => exact ⟨rfl, hsending, hmemory, hstored⟩

theorem allKept_step {event : StateFile.Event} (hhonest : HonestEvent settings source event)
    (hkept : AllKept settings source state) (hstep : StateFile.step settings state event = some next) :
    AllKept settings source next := by
  cases event with
  | kill =>
      cases hstep
      refine ⟨hkept.source_eq, ?_, ?_, hkept.stored⟩
      · intro _ _ _ hphase
        cases hphase
      · intro _ hlast
        cases hlast
  | file event => exact allKept_file hkept hstep
  | path input =>
      rw [StateFile.step] at hstep
      split at hstep
      · obtain ⟨after, hafter, rfl⟩ := Option.map_eq_some_iff.mp hstep
        exact allKept_path hkept hhonest hafter (workAfter input after.1)
      · cases hstep
  | start path pathExists freshId newId durationMs =>
      rw [StateFile.step] at hstep
      split at hstep
      · rename_i call memory _ hopen
        cases hstep
        have hloaded : memory = loadState state.file freshId settings.config := by
          rw [openCall] at hopen
          split at hopen <;> cases hopen
          rfl
        obtain ⟨phase, work, file, _⟩ := state
        obtain ⟨rfl, _, _, hstored⟩ := hkept
        refine allKept_of_memory ?_ ?_ hstored
        · intro last hlast
          cases hlast
          rw [hloaded]
          exact memoryKept_loadState hstored freshId
        · intro _ _ _ hphase
          cases hphase
          trivial
      · cases hstep

theorem honest_folderScan : HonestScan folderSettings.basePath folderStart.source folderScan := by
  intro found hfound file hfile
  cases hfound
  refine ⟨[], rfl, ?_⟩
  simp only [List.mem_cons, List.not_mem_nil, or_false] at hfile
  rcases hfile with rfl | rfl <;> rfl

end P2PFileTransfer.Transfer.Bookkeeping
