import P2PFileTransfer.Core.Progress
import P2PFileTransfer.Transfer.Streams

/-!
# What the two sides count

A state of the sender accounts for its finished files and for the recorded chunks of the
next one, and every chunk it records is reported once.  A receiver accounts for the items
before the one at hand and for the chunks it has written there, and for what the manifest
counts as delivered.
-/

namespace P2PFileTransfer.Transfer.Tally

open P2PFileTransfer.Foundation.ByteFile
open P2PFileTransfer.Foundation.FileSystem
open P2PFileTransfer.Foundation.FixedWidth
open P2PFileTransfer.Foundation.Process
open P2PFileTransfer.Foundation.UnixPath
open P2PFileTransfer.Core
open P2PFileTransfer.Core.Progress
open P2PFileTransfer.Core.Protocol
open P2PFileTransfer.Core.TransferFile
open P2PFileTransfer.Core.TransferFolder
open P2PFileTransfer.Core.SendPath
open P2PFileTransfer.Core.FolderSender (IsTask Orderly Stage StageSound SoundStatus finishFile remaining
  remaining_succ_of_mem remaining_succ_of_not_mem)
open P2PFileTransfer.Transfer.Honesty
open P2PFileTransfer.Transfer.Network
open P2PFileTransfer.Transfer.ReceiverLane
open P2PFileTransfer.Transfer.Schedule
open P2PFileTransfer.Transfer.SenderLane
open P2PFileTransfer.Transfer.Streams

/-! ## Bytes of lists of files -/

/-- The bytes of the files before `index`. -/
def bytesBefore (files : List FileMetadata) (index : Nat) : Nat :=
  ((files.take index).map FileMetadata.size).sum

/-- The bytes of some chunks of a file. -/
def bytesOf (chunkSize : Nat) (files : List FileMetadata) (index : Nat) (chunks : List Nat) : Nat :=
  match files[index]? with
  | none => 0
  | some file => (chunks.map (chunkLength chunkSize file.size)).sum

/-- The bytes of the finished files. -/
def finishedBytes (memory : FolderTransferState) : Nat := bytesBefore memory.files (nextItem memory)

/-- The bytes of the recorded chunks of the next file. -/
def partBytes (chunkSize : Nat) (memory : FolderTransferState) : Nat :=
  bytesOf chunkSize memory.files (nextItem memory) (memory.fileChunks (nextItem memory))

variable {chunkSize index : Nat} {files : List FileMetadata} {file : FileMetadata}
  {memory loaded : FolderTransferState} {progress : ProgressState}

theorem bytesBefore_succ (hfile : files[index]? = some file) :
    bytesBefore files (index + 1) = bytesBefore files index + file.size := by
  rw [bytesBefore, List.take_add_one, hfile, List.map_append, List.sum_append]
  simp [bytesBefore]

theorem bytesBefore_length (files : List FileMetadata) :
    bytesBefore files files.length = (files.map FileMetadata.size).sum := by
  rw [bytesBefore, List.take_length]

@[simp]
theorem bytesOf_nil (chunkSize : Nat) (files : List FileMetadata) (index : Nat) :
    bytesOf chunkSize files index [] = 0 := by
  unfold bytesOf
  split <;> rfl

theorem bytesOf_append (first second : List Nat) :
    bytesOf chunkSize files index (first ++ second) =
      bytesOf chunkSize files index first + bytesOf chunkSize files index second := by
  unfold bytesOf
  split
  · rfl
  · rw [List.map_append, List.sum_append]

theorem bytesOf_singleton (hfile : files[index]? = some file) (chunk : Nat) :
    bytesOf chunkSize files index [chunk] = chunkLength chunkSize file.size chunk := by
  simp [bytesOf, hfile]

theorem bytesOf_range (hfile : files[index]? = some file) (count : Nat) :
    bytesOf chunkSize files index (List.range count) = min (count * chunkSize) file.size := by
  rw [bytesOf, hfile]
  exact sum_chunkLength_range _ _ _

/-- All chunks of a file make up its size. -/
theorem bytesOf_chunksOf (hfile : files[index]? = some file) (hpos : 0 < chunkSize) :
    bytesOf chunkSize files index (List.range (chunksOf file.size chunkSize)) = file.size := by
  rw [bytesOf, hfile]
  exact sum_chunkLength_chunksOf hpos _

theorem remaining_range_self (count : Nat) : remaining (List.range count) count = [] := by
  rw [remaining, List.filter_eq_nil_iff]
  intro chunk hchunk
  simpa using List.mem_range.mp hchunk

/-- A beginning of the chunks and those still to be sent are all of them. -/
theorem range_append_remaining {count total : Nat} (hle : count ≤ total) :
    List.range count ++ remaining (List.range count) total = List.range total := by
  obtain ⟨more, rfl⟩ := Nat.exists_eq_add_of_le hle
  induction more with
  | zero =>
      rw [Nat.add_zero, remaining_range_self]
      exact List.append_nil _
  | succ more ih =>
      have hfresh : count + more ∉ List.range count := by
        rw [List.mem_range]
        exact Nat.not_lt.mpr (Nat.le_add_right _ _)
      rw [← Nat.add_assoc, remaining_succ_of_not_mem hfresh, ← List.append_assoc,
        ih (Nat.le_add_right _ _), List.range_succ]

theorem le_of_range_lt {count total : Nat} (hbounded : ∀ chunk ∈ List.range count, chunk < total) :
    count ≤ total := by
  by_contra hmore
  exact Nat.lt_irrefl total (hbounded total (List.mem_range.mpr (Nat.lt_of_not_le hmore)))

/-! ## The states of a sender -/

/-- The counts of a state are those of its lists, and the chunks it records are the first
ones of the next file. -/
structure Tallied (memory : FolderTransferState) : Prop where
  total : memory.totalBytes = (memory.files.map FileMetadata.size).sum
  transferred : memory.transferredBytes = finishedBytes memory
  recorded : ∃ count, memory.fileChunks (nextItem memory) = List.range count

/-- A sender that began with `loaded` has reported what its state accounts for, but for
the chunks that state came with. -/
structure Balanced (chunkSize : Nat) (loaded : FolderTransferState) (progress : ProgressState)
    (memory : FolderTransferState) : Prop where
  tallied : Tallied memory
  total : progress.totalBytes = memory.totalBytes
  balance : progress.transferredBytes + partBytes chunkSize loaded =
    finishedBytes memory + partBytes chunkSize memory

def StageTallied (chunkSize : Nat) (memory : FolderTransferState) : Stage → Prop
  | .chunkHead task | .readChunk task _ _ | .openStream task _ | .awaitStopped task =>
      ∃ count, task.completed = List.range count
  | .sendChecksum _ _ | .recvChecksum _ _ => ∀ file, memory.files[nextItem memory]? = some file →
      partBytes chunkSize memory = file.size
  | .begin | .scan | .sendInfo _ | .recvReady | .fileHead _ | .openSource _ | .sendComplete => True

def BalancedStatus (chunkSize : Nat) (loaded : FolderTransferState) (progress : ProgressState) :
    FolderSender.PointStatus → Prop
  | .running point => Balanced chunkSize loaded progress point.memory ∧
      StageTallied chunkSize point.memory point.stage
  | .returned memory => Balanced chunkSize loaded progress memory
  | .failed point _ | .panicked point _ => Balanced chunkSize loaded progress point.memory

theorem balanced_of_status {status : FolderSender.PointStatus}
    (hstatus : BalancedStatus chunkSize loaded progress status) :
    Balanced chunkSize loaded progress (statusMemory status) := by
  cases status with
  | running point => exact hstatus.1
  | returned memory => exact hstatus
  | failed point error | panicked point fault => exact hstatus

theorem bytes_of_files_nil (hfiles : memory.files = []) :
    finishedBytes memory = 0 ∧ partBytes chunkSize memory = 0 := by
  rw [finishedBytes, partBytes, bytesOf, bytesBefore, hfiles]
  simp

theorem bytes_new (chunkSize : Nat) (transferId : Uuid) (name : OsStr) (files : List FileMetadata)
    (config : ConfigMessage) :
    finishedBytes (FolderTransferState.new transferId name files config) = 0 ∧
      partBytes chunkSize (FolderTransferState.new transferId name files config) = 0 :=
  ⟨rfl, bytesOf_nil _ _ _⟩

theorem tallied_new (transferId : Uuid) (name : OsStr) (files : List FileMetadata)
    (config : ConfigMessage) : Tallied (FolderTransferState.new transferId name files config) :=
  ⟨rfl, rfl, 0, rfl⟩

/-- A call begins with the count of its state. -/
theorem balanced_start (htallied : Tallied memory) :
    Balanced chunkSize memory (startProgress memory) memory := by
  refine ⟨htallied, rfl, ?_⟩
  rw [← htallied.transferred]
  exact congrArg (· + _) (Nat.zero_add _)

/-! ## Steps of a sender -/

section Steps

variable {session : FolderSender.Session} {source : Store}

theorem balanced_announce (hbalanced : Balanced chunkSize loaded progress memory) (stage : Stage)
    (resumeFrom : Option ResumePoint) :
    BalancedStatus chunkSize loaded progress
      (FolderSender.announce session stage memory resumeFrom) := by
  rw [FolderSender.announce]
  cases writeMessage (FolderSender.manifest session memory resumeFrom) with
  | error error => exact hbalanced
  | ok done => exact ⟨hbalanced, trivial⟩

theorem balanced_openTransfer (hbalanced : Balanced chunkSize loaded progress memory) :
    BalancedStatus chunkSize loaded
      (if memory.files = [] then progress else progress.setTotalBytes memory.totalBytes)
      (FolderSender.openTransfer session memory) := by
  rw [FolderSender.openTransfer]
  split
  · exact ⟨hbalanced, trivial⟩
  · refine balanced_announce ⟨hbalanced.tallied, ?_, ?_⟩ _ _
    · exact ProgressState.setTotalBytes_totalBytes _ _
    · rw [ProgressState.setTotalBytes_transferredBytes]
      exact hbalanced.balance

/-- A state that is found by a scan accounts for nothing, like the empty one before. -/
theorem balanced_startTransfer (hbalanced : Balanced chunkSize loaded progress memory)
    (hfiles : memory.files = []) {scan : FolderSender.Scan} :
    BalancedStatus chunkSize loaded
      (reportSent session ⟨memory, .scan⟩ (.answer scan) progress)
      (FolderSender.startTransfer session memory scan) := by
  rw [FolderSender.startTransfer]
  simp only [reportSent]
  cases FolderSender.readScan scan with
  | error error => exact hbalanced
  | ok found =>
      have hnew := bytes_new chunkSize session.transferId found.1 found.2 session.config
      have hold := @bytes_of_files_nil chunkSize memory hfiles
      have hbalance := hbalanced.balance
      refine balanced_announce ⟨tallied_new _ _ _ _, ?_, ?_⟩ .scan none
      · exact ProgressState.setTotalBytes_totalBytes _ _
      · rw [ProgressState.setTotalBytes_transferredBytes, hnew.1, hnew.2]
        omega

theorem balanced_readReady (hbalanced : Balanced chunkSize loaded progress memory)
    (message : Message) :
    BalancedStatus chunkSize loaded progress (FolderSender.readReady memory message) := by
  unfold FolderSender.readReady
  split
  · exact ⟨hbalanced, trivial⟩
  · exact hbalanced
  · exact hbalanced

theorem balanced_visitFile (hbalanced : Balanced chunkSize loaded progress memory) (index : Nat) :
    BalancedStatus chunkSize loaded progress (FolderSender.visitFile memory index) := by
  rw [FolderSender.visitFile]
  split
  · split
    · exact ⟨hbalanced, trivial⟩
    · exact ⟨hbalanced, trivial⟩
  · exact ⟨hbalanced, trivial⟩

theorem balanced_openReader (hbalanced : Balanced chunkSize loaded progress memory)
    (hindex : index = nextItem memory) (fileSize : Nat) :
    BalancedStatus chunkSize loaded progress
      (FolderSender.openReader session memory index fileSize) := by
  rw [FolderSender.openReader]
  cases chunkCount fileSize session.config.chunkSize with
  | error fault => exact hbalanced
  | ok total =>
      refine ⟨hbalanced, ?_⟩
      rw [hindex]
      exact hbalanced.tallied.recorded

/-- At the end of its chunks a file is recorded whole. -/
theorem balanced_visitChunk {task : FolderSender.FileTask}
    (hbalanced : Balanced session.config.chunkSize.toNat loaded progress memory)
    (horderly : Orderly session.config.chunkSize.toNat memory)
    (htask : IsTask session memory task file) (hle : task.next ≤ task.totalChunks)
    (hcompleted : ∃ count, task.completed = List.range count) :
    BalancedStatus session.config.chunkSize.toNat loaded progress
      (FolderSender.visitChunk session memory task) := by
  rw [FolderSender.visitChunk]
  split
  · cases mul 64 task.next session.config.chunkSize.toNat with
    | error fault => exact hbalanced
    | ok position =>
        change BalancedStatus _ _ _ (.ofChecked _ (sub task.fileSize position) _)
        cases sub task.fileSize position with
        | error fault => exact hbalanced
        | ok rest => exact ⟨hbalanced, hcompleted⟩
  · rename_i hdone
    refine ⟨hbalanced, fun other hother => ?_⟩
    obtain ⟨count, hcount⟩ := hcompleted
    have hitem : memory.files[nextItem memory]? = some file := htask.item
    rw [hitem] at hother
    cases hother
    have hall : task.next = chunksOf file.size session.config.chunkSize.toNat :=
      (Nat.le_antisymm hle (Nat.le_of_not_lt hdone)).trans htask.totalChunks
    have hrecorded := htask.recorded
    rw [hcount, hall] at hrecorded
    have hbounded : ∀ chunk ∈ List.range count,
        chunk < chunksOf file.size session.config.chunkSize.toNat := by
      intro chunk hchunk
      obtain ⟨found, hfound, hless⟩ := horderly.bounded chunk
        (hrecorded ▸ List.mem_append_left _ hchunk)
      rw [htask.item] at hfound
      cases hfound
      exact hless
    rw [range_append_remaining (le_of_range_lt hbounded)] at hrecorded
    change bytesOf _ memory.files (nextItem memory) (memory.fileChunks (nextItem memory)) = _
    rw [show memory.fileChunks (nextItem memory) = _ from hrecorded]
    exact bytesOf_chunksOf hitem (chunkSize_pos htask.chunkSize)

theorem balanced_handleChunk {task : FolderSender.FileTask}
    (hbalanced : Balanced chunkSize loaded progress memory)
    (hcompleted : ∃ count, task.completed = List.range count) (position length : Nat)
    (data : Bytes) :
    BalancedStatus chunkSize loaded progress
      (FolderSender.handleChunk session memory task position length data) := by
  rw [FolderSender.handleChunk]
  split
  · exact ⟨hbalanced, hcompleted⟩
  · cases prepareChunk session.codec task.compressor data with
    | error error => exact hbalanced
    | ok prepared => exact ⟨hbalanced, hcompleted⟩

/-- An acknowledged chunk is recorded and reported. -/
theorem balanced_recordChunk {task : FolderSender.FileTask}
    (hbalanced : Balanced session.config.chunkSize.toNat loaded progress memory)
    (htask : IsTask session memory task file) (hfresh : task.next ∉ task.completed)
    (hcompleted : ∃ count, task.completed = List.range count) :
    BalancedStatus session.config.chunkSize.toNat loaded
      (progress.addBytes (chunkLength session.config.chunkSize.toNat task.fileSize task.next))
      (.running (FolderSender.recordChunk memory task)) := by
  obtain ⟨count, hcount⟩ := hcompleted
  have hitem : memory.files[nextItem memory]? = some file := htask.item
  have hself : (memory.markChunkComplete task.index task.next).fileChunks (nextItem memory) =
      memory.fileChunks (nextItem memory) ++ [task.next] := by
    rw [htask.index]
    exact memory.markChunkComplete_fileChunks_self _ _
  have hbefore : memory.fileChunks (nextItem memory) = List.range task.next := by
    refine htask.recorded.trans ?_
    rw [hcount] at hfresh ⊢
    exact range_append_remaining (Nat.le_of_not_lt fun hless => hfresh (List.mem_range.mpr hless))
  refine ⟨⟨⟨hbalanced.tallied.total, hbalanced.tallied.transferred, task.next + 1, ?_⟩,
    hbalanced.total, ?_⟩, count, hcount⟩
  · change (memory.markChunkComplete task.index task.next).fileChunks (nextItem memory) = _
    rw [hself, hbefore, List.range_succ]
  · have hbalance := hbalanced.balance
    have hpart : partBytes session.config.chunkSize.toNat
        (memory.markChunkComplete task.index task.next) =
          partBytes session.config.chunkSize.toNat memory +
            chunkLength session.config.chunkSize.toNat task.fileSize task.next := by
      change bytesOf _ memory.files (nextItem memory)
        ((memory.markChunkComplete task.index task.next).fileChunks (nextItem memory)) = _
      rw [hself, bytesOf_append, bytesOf_singleton hitem, htask.fileSize]
      rfl
    change progress.transferredBytes + _ + _ = finishedBytes memory +
      partBytes _ (memory.markChunkComplete task.index task.next)
    rw [hpart]
    omega

theorem transferredBytes_finishFile (horderly : Orderly chunkSize memory)
    (hfile : memory.files[nextItem memory]? = some file) :
    (finishFile memory (nextItem memory)).totalBytes = memory.totalBytes ∧
      (finishFile memory (nextItem memory)).transferredBytes =
        memory.transferredBytes + file.size := by
  have hfresh : nextItem memory ∉ memory.completedFiles := by
    rw [mem_completedFiles_iff horderly]
    exact Nat.lt_irrefl _
  rw [finishFile, FolderTransferState.markFileComplete, if_neg hfresh, hfile]
  exact ⟨rfl, rfl⟩

/-- A file that is confirmed goes over to the finished ones with all its bytes. -/
theorem balanced_finishFile (hbalanced : Balanced chunkSize loaded progress memory)
    (horderly : Orderly chunkSize memory) (hfile : memory.files[nextItem memory]? = some file)
    (hwhole : partBytes chunkSize memory = file.size) :
    Balanced chunkSize loaded progress (finishFile memory (nextItem memory)) := by
  obtain ⟨htotal, htransferred⟩ := transferredBytes_finishFile horderly hfile
  have hnext : nextItem (finishFile memory (nextItem memory)) = nextItem memory + 1 :=
    horderly.finishFile_completedFiles
  have hfiles := FolderSender.finishFile_files memory (nextItem memory)
  have hchunks : (finishFile memory (nextItem memory)).fileChunks (nextItem memory + 1) = [] := by
    rw [FolderSender.finishFile_fileChunks]
    exact horderly.later _ (Nat.lt_succ_self _)
  have hfinished : finishedBytes (finishFile memory (nextItem memory)) =
      finishedBytes memory + file.size := by
    rw [finishedBytes, hnext, hfiles, bytesBefore_succ hfile]
    rfl
  have hpart : partBytes chunkSize (finishFile memory (nextItem memory)) = 0 := by
    rw [partBytes, hnext, hchunks]
    exact bytesOf_nil _ _ _
  refine ⟨⟨?_, ?_, 0, ?_⟩, ?_, ?_⟩
  · rw [htotal, hfiles]
    exact hbalanced.tallied.total
  · rw [htransferred, hfinished, hbalanced.tallied.transferred]
  · rw [hnext]
    exact hchunks
  · rw [htotal]
    exact hbalanced.total
  · have hbalance := hbalanced.balance
    rw [hfinished, hpart]
    omega

theorem balanced_compareChecksum (hbalanced : Balanced chunkSize loaded progress memory)
    (horderly : Orderly chunkSize memory) (hindex : index = nextItem memory)
    (hfile : memory.files[nextItem memory]? = some file)
    (hwhole : partBytes chunkSize memory = file.size) (checksum : Digest) (message : Message) :
    BalancedStatus chunkSize loaded progress
      (FolderSender.compareChecksum memory index checksum message) := by
  subst hindex
  unfold FolderSender.compareChecksum
  split
  · split
    · exact hbalanced
    · exact ⟨balanced_finishFile hbalanced horderly hfile hwhole, trivial⟩
  · exact hbalanced

/-- Every step keeps the balance. -/
theorem balanced_step {point : FolderSender.Point} {input : FolderSender.SenderInput}
    {next : FolderSender.SenderState} (hsound : SoundStatus session source (.running point))
    (hbalanced : Balanced session.config.chunkSize.toNat loaded progress point.memory)
    (hstage : StageTallied session.config.chunkSize.toNat point.memory point.stage)
    (hstep : (FolderSender.machine session).step ⟨.running point, source⟩ input = some next) :
    BalancedStatus session.config.chunkSize.toNat loaded (reportSent session point input progress)
      next.status := by
  obtain ⟨memory, stage⟩ := point
  cases stepped_of_step hstep with
  | fail hstatus hstore hnext =>
      cases hstatus
      rw [hnext]
      cases stage <;> exact hbalanced
  | resume hstatus hreply hnext =>
      rename_i other reply store
      cases hstatus
      rw [hnext]
      have hfits := Action.fits_of_reply hreply
      obtain ⟨hmemory, hknown⟩ := hsound
      change BalancedStatus _ _ _ (FolderSender.resume session ⟨memory, stage⟩ reply)
      dsimp only at hmemory hknown hstage hbalanced
      cases stage <;> cases reply <;> try exact hfits.elim
      case begin.done =>
          cases input with
          | proceed => exact balanced_openTransfer hbalanced
          | answer _ | message _ | stream _ | fail _ _ => cases hreply
      case scan.answer scan =>
          cases input with
          | answer found =>
              cases hreply
              exact balanced_startTransfer hbalanced hknown
          | proceed | message _ | stream _ | fail _ _ => cases hreply
      case sendInfo.done resumeFrom => exact ⟨hbalanced, trivial⟩
      case recvReady.message message => exact balanced_readReady hbalanced message
      case fileHead.done index => exact balanced_visitFile hbalanced index
      case openSource.value index value =>
          cases value with
          | size fileSize => exact balanced_openReader hbalanced hknown.1 fileSize
          | unit | bytes _ => exact ⟨hbalanced, trivial⟩
      case chunkHead.done task =>
          obtain ⟨file, htask, hle, _⟩ := hknown
          exact balanced_visitChunk hbalanced hmemory.orderly htask hle hstage
      case readChunk.value task position length value =>
          cases value with
          | bytes data => exact balanced_handleChunk hbalanced hstage position length data
          | unit | size _ => exact ⟨hbalanced, hstage⟩
      case openStream.done task raw => exact ⟨hbalanced, hstage⟩
      case awaitStopped.done task =>
          obtain ⟨file, htask, _, hfresh, _⟩ := hknown
          cases input with
          | proceed => exact balanced_recordChunk hbalanced htask hfresh hstage
          | answer _ | message _ | stream _ | fail _ _ => cases hreply
      case sendChecksum.done index checksum => exact ⟨hbalanced, hstage⟩
      case recvChecksum.message index checksum message =>
          obtain ⟨file, hfile, hindex, _⟩ := hknown
          exact balanced_compareChecksum hbalanced hmemory.orderly hindex hfile
            (hstage file hfile) checksum message
      case sendComplete.done => exact hbalanced

end Steps

/-! ## Calls of a receiver -/

/-- The bytes of the items before `index`, and of the chunks of this item that count as
delivered. -/
def standingBytes (chunkSize : Nat) (info : TransferInfo) (index : Nat) : Nat :=
  bytesBefore info.items index + bytesOf chunkSize info.items index (startChunks info index)

/-- The bytes a manifest counts as delivered. -/
def deliveredBytes (chunkSize : Nat) (info : TransferInfo) : Nat :=
  standingBytes chunkSize info (firstItem info)

/-- What is written of an item at its stages. -/
def FileBooked (chunkSize : Nat) (info : TransferInfo) (index written : Nat) :
    FileReceiver.Stage → Prop
  | .begin | .createParent _ | .openPartial _ | .setLen _ =>
      written + deliveredBytes chunkSize info = standingBytes chunkSize info index
  | .acceptUni seen => written + deliveredBytes chunkSize info =
      standingBytes chunkSize info index + bytesOf chunkSize info.items index seen
  | .writeChunk seen _ _ _ => written + deliveredBytes chunkSize info =
      standingBytes chunkSize info index + bytesOf chunkSize info.items index seen.tail
  | .rename | .reread | .sendChecksum _ | .recvChecksum _ =>
      written + deliveredBytes chunkSize info = standingBytes chunkSize info (index + 1)

def FileBookedStatus (chunkSize : Nat) (info : TransferInfo) (index written : Nat) :
    Status FileReceiver.Stage Unit Error → Prop
  | .running stage => FileBooked chunkSize info index written stage
  | .returned _ =>
      written + deliveredBytes chunkSize info = standingBytes chunkSize info (index + 1)
  | .failed _ _ | .panicked _ _ => True

/-- The call goes by the plan of the manifest, and has reported what the plan counts as
there and what it has written. -/
structure OnPlan (chunkSize : UInt32) (info : TransferInfo) (progress : ProgressState)
    (written : Nat) (plan : FolderReceiver.Plan) : Prop where
  made : FolderReceiver.makePlan chunkSize info = .ok plan
  total : progress.totalBytes = plan.totalBytes
  transferred : progress.transferredBytes = plan.alreadyTransferred + written

def Booked (chunkSize : UInt32) (info : TransferInfo) (progress : ProgressState) (written : Nat) :
    FolderReceiver.Point → Prop
  | .prepare | .recvInfo | .decide _ | .sendCancel =>
      progress.transferredBytes = 0 ∧ written = 0
  | .createOutputDir plan | .sendReady plan =>
      OnPlan chunkSize info progress written plan ∧ written = 0
  | .fileHead plan index => OnPlan chunkSize info progress written plan ∧
      written + deliveredBytes chunkSize.toNat info =
        standingBytes chunkSize.toNat info (max index (firstItem info))
  | .createParent plan index _ => OnPlan chunkSize info progress written plan ∧
      written + deliveredBytes chunkSize.toNat info = standingBytes chunkSize.toNat info index
  | .file plan index _ stage => OnPlan chunkSize info progress written plan ∧
      FileBooked chunkSize.toNat info index written stage
  | .recvComplete plan => OnPlan chunkSize info progress written plan ∧
      written + deliveredBytes chunkSize.toNat info = (info.items.map FileMetadata.size).sum

/-- A call that was not declined returns the summary of its plan. -/
def BookedStatus (chunkSize : UInt32) (info : TransferInfo) (progress : ProgressState)
    (written : Nat) : FolderReceiver.PointStatus → Prop
  | .running point => Booked chunkSize info progress written point
  | .returned summary => summary = .default ∨ ∃ plan,
      OnPlan chunkSize info progress written plan ∧ summary = FolderReceiver.summary plan ∧
        written + deliveredBytes chunkSize.toNat info = (info.items.map FileMetadata.size).sum
  | .failed _ _ | .panicked _ _ => True

/-- The bytes a step from a stage writes. -/
def stageBytes : FileReceiver.Stage → Nat
  | .writeChunk _ _ _ data => data.length
  | _ => 0

def pointBytes : FolderReceiver.Point → Nat
  | .file _ _ _ stage => stageBytes stage
  | _ => 0

section Receiver

variable {setup : Setup} {info : TransferInfo} {accepted written : Nat}
  (hinfo : WellFormed setup.chunkSize.toNat info)
  (hstarted : ∃ count, startChunks info (firstItem info) = List.range count)

include hinfo hstarted

/-- The chunks that travel are what is missing of an item. -/
theorem standingBytes_succ (hfirst : firstItem info ≤ index)
    (hfile : info.items[index]? = some file) (hpos : 0 < setup.chunkSize.toNat) :
    standingBytes setup.chunkSize.toNat info (index + 1) =
      standingBytes setup.chunkSize.toNat info index + bytesOf setup.chunkSize.toNat info.items index
        (expected setup.chunkSize.toNat info index) := by
  have hrange : ∃ count, startChunks info index = List.range count := by
    by_cases hsame : index = firstItem info
    · rw [hsame]
      exact hstarted
    · exact ⟨0, startChunks_of_ne hinfo hsame⟩
  obtain ⟨count, hcount⟩ := hrange
  have hbounded : ∀ chunk ∈ List.range count,
      chunk < chunksOf file.size setup.chunkSize.toNat := by
    rw [← hcount]
    exact startChunks_lt hinfo hfile
  have hnone : startChunks info (index + 1) = [] :=
    startChunks_of_ne hinfo (Nat.ne_of_gt (Nat.lt_succ_of_le hfirst))
  have hexpected : expected setup.chunkSize.toNat info index =
      remaining (List.range count) (chunksOf file.size setup.chunkSize.toNat) := by
    rw [expected, hfile, hcount]
  have hall := @bytesOf_chunksOf setup.chunkSize.toNat index info.items file hfile hpos
  rw [← range_append_remaining (le_of_range_lt hbounded), bytesOf_append] at hall
  rw [standingBytes, standingBytes, hnone, bytesOf_nil, bytesBefore_succ hfile, hcount, hexpected]
  omega

theorem booked_continueLoop {task : FileReceiver.Task} {seen : List Nat}
    (hfirst : firstItem info ≤ index) (hfile : info.items[index]? = some file)
    (hpos : 0 < setup.chunkSize.toNat)
    (hstreams : task.streamsToReceive = (expected setup.chunkSize.toNat info index).length)
    (hseen : seen.reverse = (expected setup.chunkSize.toNat info index).take seen.length)
    (hwritten : written + deliveredBytes setup.chunkSize.toNat info =
      standingBytes setup.chunkSize.toNat info index +
        bytesOf setup.chunkSize.toNat info.items index seen) :
    FileBookedStatus setup.chunkSize.toNat info index written
      (FileReceiver.continueLoop task seen) := by
  rcases FileReceiver.continueLoop_cases task seen with ⟨_, hresult⟩ | ⟨hdone, hresult⟩
  · rw [hresult]
    exact hwritten
  · rw [hresult]
    rw [hstreams] at hdone
    rw [List.take_of_length_le hdone] at hseen
    have hsum : bytesOf setup.chunkSize.toNat info.items index seen =
        bytesOf setup.chunkSize.toNat info.items index
          (expected setup.chunkSize.toNat info index) := by
      rw [← hseen, bytesOf, bytesOf, hfile]
      simp only [List.map_reverse, List.sum_reverse]
    change written + _ = _
    rw [standingBytes_succ hinfo hstarted hfirst hfile hpos, ← hsum]
    exact hwritten

/-- A step of the call that receives an item books the chunk it has written. -/
theorem booked_resume_file {session : FileReceiver.Session} {task : FileReceiver.Task}
    {stage : FileReceiver.Stage} {reply : Reply Message Bool} (hfirst : firstItem info ≤ index)
    (hfile : info.items[index]? = some file) (hpos : 0 < setup.chunkSize.toNat)
    (hstreams : task.streamsToReceive = (expected setup.chunkSize.toNat info index).length)
    (hfits : (FileReceiver.action session task stage).Fits reply)
    (htook : FileTook setup info index accepted stage)
    (hbooked : FileBooked setup.chunkSize.toNat info index written stage) :
    FileBookedStatus setup.chunkSize.toNat info index (written + stageBytes stage)
      (FileReceiver.resume session task stage reply) := by
  refine FileReceiver.resume_elim (motive := fun stage status =>
      FileTook setup info index accepted stage →
      FileBooked setup.chunkSize.toNat info index written stage →
      FileBookedStatus setup.chunkSize.toNat info index (written + stageBytes stage) status)
    ?begin ?parent ?opened ?setLen ?accept ?write ?rename ?reread ?noBytes ?send ?recv
    stage reply hfits htook hbooked
  case begin =>
      intro _ hwritten
      rcases FileReceiver.openWriter_cases session task with
        ⟨_, hresult, _⟩ | ⟨_, hresult⟩ | ⟨_, hresult⟩ | ⟨_, hresult⟩ <;> rw [hresult]
      · trivial
      · trivial
      · exact hwritten
      · exact hwritten
  case parent | opened => exact fun _ _ hwritten => hwritten
  case setLen =>
      intro _ _ hwritten
      refine booked_continueLoop hinfo hstarted hfirst hfile hpos hstreams rfl ?_
      rw [bytesOf_nil]
      exact hwritten
  case accept =>
      intro seen raw _ hwritten
      rcases FileReceiver.handleStream_cases session task seen raw with
        ⟨_, _, hresult⟩ | ⟨_, hresult⟩ | ⟨_, _, _, ⟨_, hresult, _⟩ | hresult⟩ <;> rw [hresult]
      · trivial
      · exact hwritten
      · trivial
      · exact hwritten
  case write =>
      intro seen chunk _ data htook hwritten
      obtain ⟨_, hseen, hhead, other, bytes, hother, hbytes, hdata⟩ := htook
      rw [hfile] at hother
      cases hother
      obtain ⟨rest, rfl⟩ := List.head?_eq_some_iff.mp hhead
      refine booked_continueLoop hinfo hstarted hfirst hfile hpos hstreams hseen ?_
      have hlength : data.length = chunkLength setup.chunkSize.toNat file.size chunk := by
        rw [hdata, length_chunkAt_eq, hbytes.length]
      rw [← List.singleton_append, bytesOf_append, bytesOf_singleton hfile]
      change written + data.length + _ = _
      change written + _ = _ + bytesOf _ _ _ rest at hwritten
      omega
  case rename | noBytes => exact fun _ hwritten => hwritten
  case reread | send => exact fun _ _ hwritten => hwritten
  case recv =>
      intro checksum message _ hwritten
      rcases FileReceiver.compareChecksum_cases task checksum message with
        ⟨_, hresult⟩ | ⟨hresult, _⟩ <;> rw [hresult]
      · trivial
      · exact hwritten

/-- What a plan counts as there: nothing without a resume point, else all that is
delivered. -/
theorem alreadyTransferred_cases {already : Nat}
    (halready : FolderReceiver.alreadyTransferred setup.chunkSize info = .ok already) :
    info.resumeFrom = none ∧ already = 0 ∨
      info.resumeFrom ≠ none ∧ already = deliveredBytes setup.chunkSize.toNat info := by
  obtain ⟨count, hcount⟩ := hstarted
  unfold FolderReceiver.alreadyTransferred at halready
  cases hresume : info.resumeFrom with
  | none =>
      rw [hresume] at halready
      cases halready
      exact Or.inl ⟨rfl, rfl⟩
  | some point =>
      rw [hresume] at halready
      refine Or.inr ⟨Option.some_ne_none _, ?_⟩
      have hfirst := hinfo.resumes point hresume
      have hchunks : startChunks info (firstItem info) = point.completedChunks := by
        rw [startChunks, hresume]
        exact if_pos hfirst
      rw [deliveredBytes, standingBytes, hcount]
      rw [hcount] at hchunks
      simp only [hfirst, ← hchunks, List.length_range] at halready
      cases hsum : sum 64 0 ((info.items.take (firstItem info)).map FileMetadata.size) with
      | error fault =>
          rw [hsum] at halready
          cases halready
      | ok before =>
          have hbefore := eq_of_sum_eq_ok hsum
          rw [Nat.zero_add] at hbefore
          change before = bytesBefore info.items (firstItem info) at hbefore
          rw [← hbefore]
          simp only [hsum, bind, Except.bind] at halready
          cases hfile : info.items[firstItem info]? with
          | none =>
              rw [hfile] at halready
              cases halready
              rw [bytesOf, hfile]
              rfl
          | some file =>
              simp only [hfile] at halready
              rw [bytesOf_range hfile]
              cases htotal : chunkCount file.size setup.chunkSize with
              | error fault =>
                  simp only [htotal] at halready
                  cases halready
              | ok total =>
                  have hpos := chunkSize_pos (chunkSize_ne_zero_of_chunkCount htotal)
                  have hchunksOf := FolderSender.eq_chunksOf_of_chunkCount htotal
                  simp only [htotal] at halready
                  split at halready
                  · rename_i hless
                    have hshort := mul_lt_of_lt_chunksOf hpos (hchunksOf ▸ hless)
                    cases hmul : mul 64 count setup.chunkSize.toNat with
                    | error fault =>
                        simp only [hmul] at halready
                        cases halready
                    | ok added =>
                        simp only [hmul] at halready
                        rw [(add_eq_ok_iff.mp halready).2, (mul_eq_ok_iff.mp hmul).2,
                          Nat.min_eq_left (Nat.le_of_lt hshort)]
                  · rename_i hall
                    have hlong : file.size ≤ count * setup.chunkSize.toNat := by
                      refine Nat.le_trans (le_chunksOf_mul file.size hpos) ?_
                      exact Nat.mul_le_mul_right _ (hchunksOf ▸ Nat.le_of_not_lt hall)
                    rw [(add_eq_ok_iff.mp halready).2, Nat.min_eq_right hlong]

omit hinfo hstarted in
theorem OnPlan.write {progress : ProgressState} {plan : FolderReceiver.Plan}
    (hplan : OnPlan setup.chunkSize info progress written plan) (bytes : Nat) :
    OnPlan setup.chunkSize info (progress.addBytes bytes) (written + bytes) plan := by
  refine ⟨hplan.made, hplan.total, ?_⟩
  rw [ProgressState.addBytes_transferredBytes, hplan.transferred, Nat.add_assoc]

omit hinfo hstarted in
theorem booked_started {session : FolderReceiver.Session} {progress : ProgressState}
    {plan : FolderReceiver.Plan} {point : FolderReceiver.Point} {size : Nat} {fullPath : OsStr}
    {status : FolderReceiver.PointStatus}
    (hplan : OnPlan setup.chunkSize info progress written plan)
    (hwritten : written + deliveredBytes setup.chunkSize.toNat info =
      standingBytes setup.chunkSize.toNat info index)
    (hstarted : FolderReceiver.Started session plan point index size fullPath status) :
    BookedStatus setup.chunkSize info progress written status := by
  cases hstarted with
  | overflows _ => trivial
  | begins _ => exact ⟨hplan, hwritten⟩

omit hstarted in
theorem booked_visited {session : FolderReceiver.Session} {progress : ProgressState}
    {plan : FolderReceiver.Plan} {status : FolderReceiver.PointStatus}
    (hplan : OnPlan setup.chunkSize info progress written plan)
    (hindex : index ≤ info.items.length)
    (hwritten : written + deliveredBytes setup.chunkSize.toNat info =
      standingBytes setup.chunkSize.toNat info (max index (firstItem info)))
    (hvisited : FolderReceiver.Visited session plan index status) :
    BookedStatus setup.chunkSize info progress written status := by
  have hinfo' := FolderReceiver.makePlan_info hplan.made
  have hreached : ∀ {file}, plan.info.items[index]? = some file →
      ¬FolderReceiver.skips plan.info index = true → max index (firstItem info) = index := by
    intro file hfile hskip
    rw [hinfo'] at hfile hskip
    rw [skips_iff_lt hinfo (List.getElem?_eq_some_iff.mp hfile).1] at hskip
    exact Nat.max_eq_left (Nat.le_of_not_lt hskip)
  cases hvisited with
  | ends hnone =>
      rw [hinfo'] at hnone
      refine ⟨hplan, ?_⟩
      have hend := Nat.le_antisymm hindex (List.getElem?_eq_none_iff.mp hnone)
      rw [hend, Nat.max_eq_left hinfo.first_le, standingBytes, bytesBefore_length, bytesOf,
        List.getElem?_eq_none (Nat.le_refl _)] at hwritten
      exact hwritten
  | skips hfile hskip =>
      rw [hinfo'] at hfile hskip
      have hless := (skips_iff_lt hinfo (List.getElem?_eq_some_iff.mp hfile).1).mp hskip
      refine ⟨hplan, ?_⟩
      rw [Nat.max_eq_right (Nat.le_of_lt hless)] at hwritten
      rw [Nat.max_eq_right hless]
      exact hwritten
  | refuses _ _ => trivial
  | creates hfile hskip _ => exact ⟨hplan, hreached hfile hskip ▸ hwritten⟩
  | starts hfile hskip _ hstarted =>
      exact booked_started hplan (hreached hfile hskip ▸ hwritten) hstarted

/-- A step that does not accept a manifest books what it has written. -/
theorem booked_resume {session : FolderReceiver.Session} {progress : ProgressState}
    {point : FolderReceiver.Point} {reply : Reply Message Bool}
    (hchunkSize : session.config.chunkSize = setup.chunkSize) (hsound : point.Sound session)
    (hfits : (FolderReceiver.action session point).Fits reply)
    (hother : ∀ other, point ≠ .decide other) (htook : Took setup info accepted point)
    (hbooked : Booked setup.chunkSize info progress written point) :
    BookedStatus setup.chunkSize info (progress.addBytes (pointBytes point))
      (written + pointBytes point) (FolderReceiver.resume session point reply) := by
  refine FolderReceiver.resume_elim (motive := fun point status => point.Sound session →
      (∀ other, point ≠ .decide other) → Took setup info accepted point →
      Booked setup.chunkSize info progress written point →
      BookedStatus setup.chunkSize info (progress.addBytes (pointBytes point))
        (written + pointBytes point) status)
    ?prepare ?info ?accept ?reject ?cancel ?output ?ready ?head ?parent ?file ?complete
    point reply hfits hsound hother htook hbooked
  case prepare => exact fun _ _ _ hnothing => hnothing
  case info =>
      intro message status hread _ _ _ hnothing
      cases hread with
      | refused => trivial
      | admitted _ _ => exact hnothing
  case accept => exact fun info _ _ _ hother => absurd rfl (hother info)
  case reject => exact fun info _ hother => absurd rfl (hother info)
  case cancel => exact fun _ _ _ _ => Or.inl rfl
  case output => exact fun _ _ _ _ hplan => hplan
  case ready =>
      intro plan _ _ _ hplan
      refine ⟨hplan.1, ?_⟩
      change written + deliveredBytes _ _ = standingBytes _ _ (max 0 (firstItem info))
      rw [hplan.2, Nat.zero_add, Nat.max_eq_right (Nat.zero_le _)]
      rfl
  case head =>
      intro plan index status hvisited hhead _ _ hplan
      refine booked_visited hinfo hplan.1 ?_ hplan.2 hvisited
      rw [← FolderReceiver.makePlan_info hplan.1.made]
      exact hhead.2
  case parent =>
      exact fun _ _ _ _ hstarted _ _ _ hplan => booked_started hplan.1 hplan.2 hstarted
  case file =>
      intro plan index task stage reply hfits hpoint _ htook hplan
      have hknown := FolderReceiver.makePlan_info hplan.1.made
      have hfirst := firstItem_le_of_item hinfo hpoint hknown rfl
      obtain ⟨file, hfile, hcount, hstreams⟩ :=
        streamsToReceive_eq hinfo hchunkSize (hknown ▸ hpoint.2.1)
      have hpos := chunkSize_pos (chunkSize_ne_zero_of_chunkCount hcount)
      have hinner := booked_resume_file hinfo hstarted hfirst hfile hpos hstreams hfits htook hplan.2
      have hafter := hplan.1.write (stageBytes stage)
      cases hresult : FileReceiver.resume (FolderReceiver.fileSession session plan.info) task stage
          reply with
      | running next =>
          rw [hresult] at hinner
          exact ⟨hafter, hinner⟩
      | returned done =>
          rw [hresult] at hinner
          refine ⟨hafter, ?_⟩
          rw [Nat.max_eq_left (Nat.le_succ_of_le hfirst)]
          exact hinner
      | failed _ _ | panicked _ _ => trivial
  case complete => exact fun plan _ _ _ hplan => Or.inr ⟨plan, hplan.1, rfl, hplan.2⟩

omit hinfo hstarted in
theorem reported_of_reply {session : FolderReceiver.Session} {progress : ProgressState}
    {point : FolderReceiver.Point} {input : FolderReceiver.ReceiverInput}
    {reply : Reply Message Bool} {store after : Store} (hother : ∀ other, point ≠ .decide other)
    (hreply : (FolderReceiver.action session point).reply input store = some (reply, after)) :
    reportReceived session point input progress = progress.addBytes (pointBytes point) ∧
      writtenBytes point input = pointBytes point := by
  cases point with
  | decide other => exact absurd rfl (hother other)
  | file plan index task stage =>
      cases stage with
      | writeChunk seen chunk position data =>
          cases input with
          | proceed => exact ⟨rfl, rfl⟩
          | answer _ | message _ | stream _ | fail _ _ => cases hreply
      | begin | createParent _ | openPartial _ | setLen _ | acceptUni _ => exact ⟨rfl, rfl⟩
      | rename | reread | sendChecksum _ | recvChecksum _ => exact ⟨rfl, rfl⟩
  | prepare | recvInfo | sendCancel | createOutputDir _ | sendReady _ => exact ⟨rfl, rfl⟩
  | fileHead _ _ | createParent _ _ _ | recvComplete _ => exact ⟨rfl, rfl⟩

omit hinfo hstarted in
/-- The accept policy is asked about the manifest. -/
theorem booked_decide {session : FolderReceiver.Session} {progress : ProgressState} {accept : Bool}
    (hchunkSize : session.config.chunkSize = setup.chunkSize)
    (hnothing : progress.transferredBytes = 0 ∧ written = 0) :
    BookedStatus setup.chunkSize info (reportReceived session (.decide info) (.answer accept) progress)
      written (FolderReceiver.resume session (.decide info) (.answer accept)) := by
  obtain ⟨htransferred, rfl⟩ := hnothing
  cases accept with
  | false => exact ⟨htransferred, rfl⟩
  | true =>
      simp only [reportReceived, FolderReceiver.resume, if_true]
      cases hplan : FolderReceiver.makePlan session.config.chunkSize info with
      | error fault => trivial
      | ok plan =>
          refine ⟨⟨hchunkSize ▸ hplan, ?_, ?_⟩, rfl⟩
          · rw [ProgressState.addBytes_totalBytes, ProgressState.setTotalBytes_totalBytes]
          · rw [ProgressState.addBytes_transferredBytes, ProgressState.setTotalBytes_transferredBytes,
              htransferred, Nat.zero_add]
            rfl

/-- Every step of a receiver that has heard of the manifest keeps the books. -/
theorem booked_step {session : FolderReceiver.Session} {progress : ProgressState}
    {point : FolderReceiver.Point} {input : FolderReceiver.ReceiverInput}
    {state next : FolderReceiver.ReceiverState}
    (hchunkSize : session.config.chunkSize = setup.chunkSize) (hsound : point.Sound session)
    (hknows : Knows info point) (htook : Took setup info accepted point)
    (hbooked : Booked setup.chunkSize info progress written point)
    (hpoint : state.status = .running point)
    (hstep : (FolderReceiver.machine session).step state input = some next) :
    BookedStatus setup.chunkSize info (reportReceived session point input progress)
      (written + writtenBytes point input) next.status := by
  cases stepped_of_step hstep with
  | fail hstatus hstore hnext =>
      rw [hnext]
      trivial
  | resume hstatus hreply hnext =>
      rename_i other reply store
      cases hpoint.symm.trans hstatus
      rw [hnext]
      have hfits : (FolderReceiver.action session point).Fits reply := Action.fits_of_reply hreply
      change (FolderReceiver.action session point).reply input state.store = _ at hreply
      change BookedStatus _ _ _ _ (FolderReceiver.resume session point reply)
      by_cases hdecide : ∃ other, point = .decide other
      · obtain ⟨other, rfl⟩ := hdecide
        cases hknows.resolve_left id
        cases input with
        | answer accept =>
            cases hreply
            exact booked_decide hchunkSize hbooked
        | proceed | message _ | stream _ | fail _ _ => cases hreply
      · have hother : ∀ other, point ≠ .decide other := fun other hsame => hdecide ⟨other, hsame⟩
        obtain ⟨hreported, hbytes⟩ := @reported_of_reply _ progress _ _ _ _ _ hother hreply
        rw [hreported, hbytes]
        exact booked_resume hinfo hstarted hchunkSize hsound hfits hother htook hbooked

end Receiver

end P2PFileTransfer.Transfer.Tally
