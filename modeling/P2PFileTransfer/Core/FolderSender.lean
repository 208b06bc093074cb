import P2PFileTransfer.Core.TransferFolder
import P2PFileTransfer.Foundation.Process

/-!
# Sending a folder

One call of `FolderTransferSession::send`, down to the calls that send one file each.
The call works on the transfer state of its caller, so every point carries that state
and a failed call leaves it behind.  The directory scan is a question to the
environment.  File names are UTF-8, and the bandwidth limiter only takes time.
-/

namespace P2PFileTransfer.Core.FolderSender

open P2PFileTransfer.Foundation.ByteFile
open P2PFileTransfer.Foundation.FileSystem
open P2PFileTransfer.Foundation.FixedWidth
open P2PFileTransfer.Foundation.Process
open P2PFileTransfer.Foundation.UnixPath
open P2PFileTransfer.Core.Protocol
open P2PFileTransfer.Core.TransferFile
open P2PFileTransfer.Core.TransferFolder

/-- What one call is given; the duration is what the clock says at its end. -/
structure Session where
  codec : Codec
  config : ConfigMessage
  basePath : OsStr
  transferId : Uuid
  durationMs : Nat

/-- What the file system says about the path to send; an entry of a folder is a path
below the parent of the folder, a size and a time. -/
inductive Scan where
  | unnamed
  | file (name : OsStr) (size modified : Nat)
  | folder (name : OsStr) (entries : List (OsStr × Nat × Nat))
  | neither
  deriving DecidableEq, Repr

/-- A file being sent: `next` is the chunk at hand and `hashed` the bytes before it. -/
structure FileTask where
  index : Nat
  path : OsStr
  completed : List Nat
  fileSize : Nat
  totalChunks : Nat
  next : Nat
  hashed : Bytes
  compressor : Option AdaptiveCompressor
  deriving DecidableEq, Repr

inductive Stage where
  | begin
  | scan
  | sendInfo (resumeFrom : Option ResumePoint)
  | recvReady
  | fileHead (index : Nat)
  | openSource (index : Nat)
  | chunkHead (task : FileTask)
  | readChunk (task : FileTask) (offset length : Nat)
  | openStream (task : FileTask) (raw : Bytes)
  | awaitStopped (task : FileTask)
  | sendChecksum (index : Nat) (checksum : Digest)
  | recvChecksum (index : Nat) (checksum : Digest)
  | sendComplete
  deriving DecidableEq, Repr

structure Point where
  memory : FolderTransferState
  stage : Stage

abbrev PointStatus := Status Point FolderTransferState Error

/-! ## The manifest -/

def metadataOf (path : OsStr) (size modified : Nat) : FileMetadata where
  path := path
  size := size
  modified := modified
  checksum := FixedBytes.filled 32 0

/-- The first entry whose path is refused decides. -/
def scanFolder : List (OsStr × Nat × Nat) → Except Error (List FileMetadata)
  | [] => .ok []
  | (path, size, modified) :: rest =>
      match sanitizeRelativePath path with
      | .error error => .error error
      | .ok relativePath =>
          match scanFolder rest with
          | .error error => .error error
          | .ok files => .ok (metadataOf relativePath size modified :: files)

/-- The name of the transfer and its files. -/
def readScan : Scan → Except Error (OsStr × List FileMetadata)
  | .unnamed => .error (.protocol [.text "Invalid path"])
  | .file name size modified => .ok (name, [metadataOf name size modified])
  | .folder name entries =>
      match scanFolder entries with
      | .error error => .error error
      | .ok [] => .error (.protocol [.text "Folder is empty"])
      | .ok (file :: files) => .ok (name, file :: files)
  | .neither => .error (.protocol [.text "Path is neither a file nor a directory"])

def manifest (session : Session) (memory : FolderTransferState)
    (resumeFrom : Option ResumePoint) : Message :=
  .transferInfo (memory.transferInfo session.transferId resumeFrom)

/-- The manifest has to fit a frame; every other message of a call is short. -/
def announce (session : Session) (stage : Stage) (memory : FolderTransferState)
    (resumeFrom : Option ResumePoint) : PointStatus :=
  .ofExcept ⟨memory, stage⟩ (writeMessage (manifest session memory resumeFrom)) fun _ =>
    .running ⟨memory, .sendInfo resumeFrom⟩

/-! ## One call -/

def sourcePath (basePath : OsStr) (file : FileMetadata) : OsStr := join basePath file.path

def fileChecksum (session : Session) (index : Nat) (checksum : Digest) : Message :=
  .fileChecksum
    { transferId := session.transferId, fileIndex := truncate 32 index, checksum := checksum }

def action (session : Session) (point : Point) : Action Message :=
  match point.stage with
  | .begin | .fileHead _ | .chunkHead _ => .compute
  | .scan => .ask
  | .sendInfo resumeFrom => .send (manifest session point.memory resumeFrom)
  | .recvReady | .recvChecksum _ _ => .receive
  | .openSource index =>
      .perform (.stat (components
        ((point.memory.files[index]?.map (sourcePath session.basePath)).getD [])))
  | .readChunk task offset length => .perform (.readAt (components task.path) offset length)
  | .openStream _ raw => .openStream raw
  | .awaitStopped _ => .awaitStopped
  | .sendChecksum index checksum => .send (fileChecksum session index checksum)
  | .sendComplete =>
      .send (.complete
        { transferId := session.transferId
          totalBytes := point.memory.totalBytes
          durationMs := session.durationMs })

/-- A state that lists its files is resumed, else the path is scanned. -/
def openTransfer (session : Session) (memory : FolderTransferState) : PointStatus :=
  if memory.files = [] then .running ⟨memory, .scan⟩
  else announce session .begin memory (memory.resumePoint session.transferId)

def startTransfer (session : Session) (memory : FolderTransferState) (scan : Scan) : PointStatus :=
  .ofExcept ⟨memory, .scan⟩ (readScan scan) fun found =>
    announce session .scan (.new session.transferId found.1 found.2 session.config) none

def readReady (memory : FolderTransferState) (message : Message) : PointStatus :=
  match message with
  | .ready => .running ⟨memory, .fileHead 0⟩
  | .cancel => .failed ⟨memory, .recvReady⟩ .cancelled
  | other => .failed ⟨memory, .recvReady⟩ (.protocol [.text "Expected Ready, got ", .message other])

def visitFile (memory : FolderTransferState) (index : Nat) : PointStatus :=
  if index < memory.files.length then
    if index ∈ memory.completedFiles then .running ⟨memory, .fileHead (index + 1)⟩
    else .running ⟨memory, .openSource index⟩
  else .running ⟨memory, .sendComplete⟩

def openReader (session : Session) (memory : FolderTransferState) (index fileSize : Nat) :
    PointStatus :=
  .ofChecked ⟨memory, .openSource index⟩ (chunkCount fileSize session.config.chunkSize)
    fun totalChunks =>
      .running ⟨memory, .chunkHead
        { index := index
          path := (memory.files[index]?.map (sourcePath session.basePath)).getD []
          completed := memory.getCompletedChunks index
          fileSize := fileSize
          totalChunks := totalChunks
          next := 0
          hashed := []
          compressor := startCompressor session.config }⟩

def visitChunk (session : Session) (memory : FolderTransferState) (task : FileTask) : PointStatus :=
  if task.next < task.totalChunks then
    .ofChecked ⟨memory, .chunkHead task⟩ (mul 64 task.next session.config.chunkSize.toNat)
      fun offset =>
        .ofChecked ⟨memory, .chunkHead task⟩ (sub task.fileSize offset) fun remaining =>
          .running ⟨memory, .readChunk task offset (min remaining session.config.chunkSize.toNat)⟩
  else .running ⟨memory, .sendChecksum task.index (session.codec.sha256 task.hashed)⟩

/-- A chunk the receiver has is only hashed. -/
def handleChunk (session : Session) (memory : FolderTransferState) (task : FileTask)
    (offset length : Nat) (data : Bytes) : PointStatus :=
  if task.next ∈ task.completed then
    .running ⟨memory, .chunkHead { task with next := task.next + 1, hashed := task.hashed ++ data }⟩
  else
    .ofExcept ⟨memory, .readChunk task offset length⟩
      (prepareChunk session.codec task.compressor data) fun prepared =>
        .running ⟨memory, .openStream
          { task with hashed := task.hashed ++ data, compressor := prepared.1 }
          (chunkStream task.next prepared.2.2 prepared.2.1)⟩

/-- The chunk callback records the chunk once its stream is acknowledged. -/
def recordChunk (memory : FolderTransferState) (task : FileTask) : Point :=
  ⟨memory.markChunkComplete task.index task.next, .chunkHead { task with next := task.next + 1 }⟩

def finishFile (memory : FolderTransferState) (index : Nat) : FolderTransferState :=
  { memory.markFileComplete index with currentFile := (memory.markFileComplete index).nextFile }

/-- Only the checksum of the peer is compared, not its file index. -/
def compareChecksum (memory : FolderTransferState) (index : Nat) (checksum : Digest)
    (message : Message) : PointStatus :=
  match message with
  | .fileChecksum peer =>
      if peer.checksum ≠ checksum then
        .failed ⟨memory, .recvChecksum index checksum⟩
          (.verification [.text "File checksum mismatch for file ", .nat index, .text ": sender=",
            .bytes (checksum.val.take 8), .text ", receiver=", .bytes (peer.checksum.val.take 8)])
      else .running ⟨finishFile memory index, .fileHead (index + 1)⟩
  | other =>
      .failed ⟨memory, .recvChecksum index checksum⟩
        (.protocol [.text "Expected FileChecksum, got ", .message other])

/-- The last branch is never taken: a wait is answered in kind. -/
def resume (session : Session) (point : Point) (reply : Reply Message Scan) : PointStatus :=
  match point.stage, reply with
  | .begin, .done => openTransfer session point.memory
  | .scan, .answer scan => startTransfer session point.memory scan
  | .sendInfo _, .done => .running ⟨point.memory, .recvReady⟩
  | .recvReady, .message message => readReady point.memory message
  | .fileHead index, .done => visitFile point.memory index
  | .openSource index, .value (.size fileSize) => openReader session point.memory index fileSize
  | .chunkHead task, .done => visitChunk session point.memory task
  | .readChunk task offset length, .value (.bytes data) =>
      handleChunk session point.memory task offset length data
  | .openStream task _, .done => .running ⟨point.memory, .awaitStopped task⟩
  | .awaitStopped task, .done => .running (recordChunk point.memory task)
  | .sendChecksum index checksum, .done => .running ⟨point.memory, .recvChecksum index checksum⟩
  | .recvChecksum index checksum, .message message =>
      compareChecksum point.memory index checksum message
  | .sendComplete, .done => .returned point.memory
  | _, _ => .running point

def machine (session : Session) : Machine Point FolderTransferState Message Scan Error where
  action := action session
  resume := resume session

/-- The error a failed call returns: a connection that breaks off before Ready counts as
a rejection. -/
def returnedError (point : Point) (error : Error) : Error :=
  match point.stage, error with
  | .recvReady, .disconnected | .recvReady, .network _ | .recvReady, .quic _ => .cancelled
  | _, error => error

abbrev SenderState := State Point FolderTransferState Error

abbrev SenderInput := Input Message Scan Error

/-! ## Files and states of an honest sender -/

/-- The file to send holds `bytes`, as many as the manifest says. -/
structure IsSource (basePath : OsStr) (source : Store) (file : FileMetadata) (bytes : Bytes) :
    Prop where
  contents : source (components (sourcePath basePath file)) = some bytes
  length : bytes.length = file.size

def HonestFiles (basePath : OsStr) (source : Store) (files : List FileMetadata) : Prop :=
  ∀ file ∈ files, ∃ bytes, IsSource basePath source file bytes

/-- The files are finished in order, and chunks are recorded only for the first file that
is not finished: each once, and none that the file does not have. -/
structure Orderly (chunkSize : Nat) (memory : FolderTransferState) : Prop where
  finished : memory.completedFiles = List.range memory.completedFiles.length
  finished_le : memory.completedFiles.length ≤ memory.files.length
  later : ∀ index, memory.completedFiles.length < index → memory.fileChunks index = []
  nodup : (memory.fileChunks memory.completedFiles.length).Nodup
  bounded : ∀ chunk ∈ memory.fileChunks memory.completedFiles.length,
    ∃ file, memory.files[memory.completedFiles.length]? = some file ∧
      chunk < chunksOf file.size chunkSize

/-- The chunks below `count` that still have to be sent. -/
def remaining (completed : List Nat) (count : Nat) : List Nat :=
  (List.range count).filter fun chunk => decide (chunk ∉ completed)

theorem remaining_succ_of_mem {completed : List Nat} {count : Nat} (hmem : count ∈ completed) :
    remaining completed (count + 1) = remaining completed count := by
  rw [remaining, List.range_succ, List.filter_append, List.filter_singleton]
  simp [hmem, remaining]

theorem remaining_succ_of_not_mem {completed : List Nat} {count : Nat} (hfresh : count ∉ completed) :
    remaining completed (count + 1) = remaining completed count ++ [count] := by
  rw [remaining, List.range_succ, List.filter_append, List.filter_singleton]
  simp [hfresh, remaining]

theorem mem_remaining {completed : List Nat} {count chunk : Nat} :
    chunk ∈ remaining completed count ↔ chunk < count ∧ chunk ∉ completed := by
  rw [remaining, List.mem_filter, List.mem_range, decide_eq_true_iff]

theorem remaining_initial (completed : List Nat) {count total : Nat} (hle : count ≤ total) :
    remaining completed count <+: remaining completed total := by
  obtain ⟨more, rfl⟩ := Nat.exists_eq_add_of_le hle
  induction more with
  | zero => exact List.prefix_rfl
  | succ more ih =>
      refine List.IsPrefix.trans (ih (Nat.le_add_right _ _)) ?_
      by_cases hmem : count + more ∈ completed
      · exact (remaining_succ_of_mem hmem).symm ▸ List.prefix_rfl
      · exact (remaining_succ_of_not_mem hmem).symm ▸ List.prefix_append _ _

theorem orderly_new (chunkSize : Nat) (transferId : Uuid) (name : OsStr) (files : List FileMetadata)
    (config : ConfigMessage) :
    Orderly chunkSize (FolderTransferState.new transferId name files config) := by
  refine ⟨rfl, Nat.zero_le _, fun _ _ => rfl, List.nodup_nil, ?_⟩
  intro chunk hchunk
  cases hchunk

/-- Recording a chunk of the file at hand. -/
theorem Orderly.markChunkComplete {chunkSize : Nat} {memory : FolderTransferState}
    (horderly : Orderly chunkSize memory) {chunk : Nat} {file : FileMetadata}
    (hfile : memory.files[memory.completedFiles.length]? = some file)
    (hrange : chunk < chunksOf file.size chunkSize)
    (hfresh : chunk ∉ memory.fileChunks memory.completedFiles.length) :
    Orderly chunkSize (memory.markChunkComplete memory.completedFiles.length chunk) := by
  have hself := memory.markChunkComplete_fileChunks_self memory.completedFiles.length chunk
  refine ⟨horderly.finished, horderly.finished_le, ?_, ?_, ?_⟩
  · intro index hindex
    exact (memory.markChunkComplete_fileChunks_ne chunk (Nat.ne_of_gt hindex)).trans
      (horderly.later index hindex)
  · refine (congrArg List.Nodup hself).mpr ?_
    refine List.nodup_append.mpr ⟨horderly.nodup, List.pairwise_singleton _ _, ?_⟩
    rintro other hother last hlast rfl
    exact hfresh (List.mem_singleton.mp hlast ▸ hother)
  · intro other hother
    rcases List.mem_append.mp (hself ▸ hother) with hold | hnew
    · exact horderly.bounded other hold
    · rw [List.mem_singleton.mp hnew]
      exact ⟨file, hfile, hrange⟩

theorem finishFile_files (memory : FolderTransferState) (index : Nat) :
    (finishFile memory index).files = memory.files := memory.markFileComplete_files index

theorem finishFile_fileChunks (memory : FolderTransferState) (index : Nat) :
    (finishFile memory index).fileChunks = memory.fileChunks :=
  memory.markFileComplete_fileChunks index

theorem Orderly.finishFile_completedFiles {chunkSize : Nat} {memory : FolderTransferState}
    (horderly : Orderly chunkSize memory) :
    (finishFile memory memory.completedFiles.length).completedFiles.length =
      memory.completedFiles.length + 1 := by
  have hlength := congrArg List.length
    (FolderTransferState.markFileComplete_completedFiles horderly.finished)
  rw [List.length_range] at hlength
  exact hlength

theorem Orderly.finishFile {chunkSize : Nat} {memory : FolderTransferState}
    (horderly : Orderly chunkSize memory)
    (hunfinished : memory.completedFiles.length < memory.files.length) :
    Orderly chunkSize (finishFile memory memory.completedFiles.length) := by
  have hcount := horderly.finishFile_completedFiles
  have hcompleted := FolderTransferState.markFileComplete_completedFiles horderly.finished
  have hchunks := finishFile_fileChunks memory memory.completedFiles.length
  have hnext : memory.fileChunks (memory.completedFiles.length + 1) = [] :=
    horderly.later _ (Nat.lt_succ_self _)
  refine ⟨?_, ?_, ?_, ?_, ?_⟩
  · rw [hcount]
    exact hcompleted
  · rw [hcount, finishFile_files]
    exact hunfinished
  · intro index hindex
    rw [hcount] at hindex
    rw [hchunks]
    exact horderly.later index (Nat.lt_of_succ_lt hindex)
  · rw [hcount, hchunks, hnext]
    exact List.nodup_nil
  · intro chunk hchunk
    rw [hcount, hchunks, hnext] at hchunk
    cases hchunk

/-! ## What a point knows -/

/-- A stream that carries `data` as chunk `index`. -/
def CarriesChunk (codec : Codec) (config : ConfigMessage) (raw : Bytes) (index : Nat)
    (data : Bytes) : Prop :=
  ∃ bytes compressed, raw = chunkStream index compressed bytes ∧
    (compressed = true ∧ config.compressionEnabled = true ∧ codec.decodeAll bytes = .ok data ∨
      compressed = false ∧ data = bytes)

/-- The file at hand is the first unfinished one, and its recorded chunks are those of
the call's beginning and those sent since. -/
structure IsTask (session : Session) (memory : FolderTransferState) (task : FileTask)
    (file : FileMetadata) : Prop where
  index : task.index = memory.completedFiles.length
  item : memory.files[memory.completedFiles.length]? = some file
  path : task.path = sourcePath session.basePath file
  fileSize : task.fileSize = file.size
  totalChunks : task.totalChunks = chunksOf file.size session.config.chunkSize.toNat
  recorded : memory.fileChunks memory.completedFiles.length =
    task.completed ++ remaining task.completed task.next
  compressor : task.compressor.isSome = true → session.config.compressionEnabled = true
  chunkSize : session.config.chunkSize ≠ 0

/-- The bytes hashed so far are those before chunk `count`. -/
def Hashed (session : Session) (source : Store) (file : FileMetadata) (task : FileTask)
    (count : Nat) : Prop :=
  ∀ bytes, IsSource session.basePath source file bytes →
    task.hashed = bytes.take (count * session.config.chunkSize.toNat)

def StageSound (session : Session) (source : Store) (memory : FolderTransferState) :
    Stage → Prop
  | .begin => True
  | .scan => memory.files = []
  | .sendInfo resumeFrom =>
      memory.files ≠ [] ∧ resumeFrom = memory.resumePoint session.transferId ∧
        writeMessage (manifest session memory resumeFrom) = .ok ()
  | .recvReady => memory.files ≠ []
  | .fileHead index => memory.files ≠ [] ∧ index ≤ memory.completedFiles.length
  | .openSource index =>
      index = memory.completedFiles.length ∧ memory.completedFiles.length < memory.files.length
  | .chunkHead task =>
      ∃ file, IsTask session memory task file ∧ task.next ≤ task.totalChunks ∧
        Hashed session source file task task.next
  | .readChunk task offset length =>
      ∃ file, IsTask session memory task file ∧ task.next < task.totalChunks ∧
        Hashed session source file task task.next ∧
        offset = task.next * session.config.chunkSize.toNat ∧
        length = min (file.size - offset) session.config.chunkSize.toNat
  | .openStream task raw =>
      ∃ file, IsTask session memory task file ∧ task.next < task.totalChunks ∧
        task.next ∉ task.completed ∧ Hashed session source file task (task.next + 1) ∧
        ∀ bytes, IsSource session.basePath source file bytes →
          CarriesChunk session.codec session.config raw task.next
            (chunkAt bytes session.config.chunkSize.toNat task.next)
  | .awaitStopped task =>
      ∃ file, IsTask session memory task file ∧ task.next < task.totalChunks ∧
        task.next ∉ task.completed ∧ Hashed session source file task (task.next + 1)
  | .sendChecksum index checksum | .recvChecksum index checksum =>
      ∃ file, memory.files[memory.completedFiles.length]? = some file ∧
        index = memory.completedFiles.length ∧
        ∀ bytes, IsSource session.basePath source file bytes → checksum = session.codec.sha256 bytes
  | .sendComplete => memory.files ≠ [] ∧ memory.completedFiles.length = memory.files.length

structure MemorySound (session : Session) (source : Store) (memory : FolderTransferState) :
    Prop where
  orderly : Orderly session.config.chunkSize.toNat memory
  honest : HonestFiles session.basePath source memory.files

/-- A call that failed only leaves its state behind. -/
def SoundStatus (session : Session) (source : Store) : PointStatus → Prop
  | .running point =>
      MemorySound session source point.memory ∧
        StageSound session source point.memory point.stage
  | .returned memory =>
      MemorySound session source memory ∧ memory.files ≠ [] ∧
        memory.completedFiles.length = memory.files.length
  | .failed point _ | .panicked point _ => MemorySound session source point.memory

variable {session : Session} {source : Store} {memory : FolderTransferState}

theorem sound_announce (hmemory : MemorySound session source memory) (hfiles : memory.files ≠ [])
    (stage : Stage) {resumeFrom : Option ResumePoint}
    (hresume : resumeFrom = memory.resumePoint session.transferId) :
    SoundStatus session source (announce session stage memory resumeFrom) := by
  rw [announce]
  cases hwrite : writeMessage (manifest session memory resumeFrom) with
  | error error => exact hmemory
  | ok done => exact ⟨hmemory, hfiles, hresume, hwrite⟩

theorem sound_openTransfer (hmemory : MemorySound session source memory) :
    SoundStatus session source (openTransfer session memory) := by
  rw [openTransfer]
  split
  · rename_i hempty
    exact ⟨hmemory, hempty⟩
  · rename_i hfiles
    exact sound_announce hmemory hfiles .begin rfl

theorem scanFolder_ne_nil {entries : List (OsStr × Nat × Nat)} {name : OsStr}
    {found : OsStr × List FileMetadata} (hscan : readScan (.folder name entries) = .ok found) :
    found.2 ≠ [] := by
  rw [readScan] at hscan
  cases hfolder : scanFolder entries with
  | error error =>
      rw [hfolder] at hscan
      cases hscan
  | ok files =>
      cases files with
      | nil =>
          rw [hfolder] at hscan
          cases hscan
      | cons file files =>
          rw [hfolder] at hscan
          cases hscan
          nofun

theorem readScan_ne_nil {scan : Scan} {found : OsStr × List FileMetadata}
    (hscan : readScan scan = .ok found) : found.2 ≠ [] := by
  cases scan with
  | unnamed | neither => cases hscan
  | file name size modified =>
      cases hscan
      nofun
  | folder name entries => exact scanFolder_ne_nil hscan

theorem resumePoint_new (session transferId : Uuid) (name : OsStr) (files : List FileMetadata)
    (config : ConfigMessage) :
    (FolderTransferState.new transferId name files config).resumePoint session = none := by
  rw [FolderTransferState.resumePoint]
  split
  · rfl
  · exact if_pos rfl

theorem sound_startTransfer (hmemory : MemorySound session source memory) {scan : Scan}
    (hscan : ∀ found, readScan scan = .ok found → HonestFiles session.basePath source found.2) :
    SoundStatus session source (startTransfer session memory scan) := by
  rw [startTransfer]
  cases hfound : readScan scan with
  | error error => exact hmemory
  | ok found =>
      have hnew : MemorySound session source
          (.new session.transferId found.1 found.2 session.config) :=
        ⟨orderly_new _ _ _ _ _, hscan found hfound⟩
      exact sound_announce hnew (readScan_ne_nil hfound) .scan (resumePoint_new _ _ _ _ _).symm

theorem sound_readReady (hmemory : MemorySound session source memory) (hfiles : memory.files ≠ [])
    (message : Message) : SoundStatus session source (readReady memory message) := by
  unfold readReady
  split
  · exact ⟨hmemory, hfiles, Nat.zero_le _⟩
  · exact hmemory
  · exact hmemory

theorem sound_visitFile (hmemory : MemorySound session source memory) (hfiles : memory.files ≠ [])
    {index : Nat} (hindex : index ≤ memory.completedFiles.length) :
    SoundStatus session source (visitFile memory index) := by
  have hmem : index ∈ memory.completedFiles ↔ index < memory.completedFiles.length := by
    rw [hmemory.orderly.finished, List.mem_range, List.length_range]
  rw [visitFile]
  split
  · rename_i hlength
    split
    · rename_i hskip
      exact ⟨hmemory, hfiles, hmem.mp hskip⟩
    · rename_i hskip
      have hhere := Nat.le_antisymm hindex (Nat.le_of_not_lt fun hless => hskip (hmem.mpr hless))
      exact ⟨hmemory, hhere, hhere ▸ hlength⟩
  · rename_i hlength
    refine ⟨hmemory, hfiles, Nat.le_antisymm hmemory.orderly.finished_le ?_⟩
    exact Nat.le_trans (Nat.le_of_not_lt hlength) hindex

theorem eq_chunksOf_of_chunkCount {fileSize count : Nat} {chunkSize : UInt32}
    (hcount : chunkCount fileSize chunkSize = .ok count) :
    count = chunksOf fileSize chunkSize.toNat := by
  by_cases hfits : fileSize + chunkSize.toNat < 2 ^ 64
  · rw [chunkCount_eq_ok (chunkSize_ne_zero_of_chunkCount hcount) hfits] at hcount
    exact (Except.ok.inj hcount).symm
  · rw [chunkCount, add, fit, if_neg hfits] at hcount
    cases hcount

theorem sound_openReader (hmemory : MemorySound session source memory) {index : Nat}
    {file : FileMetadata} (hindex : index = memory.completedFiles.length)
    (hfile : memory.files[memory.completedFiles.length]? = some file) :
    SoundStatus session source (openReader session memory index file.size) := by
  subst hindex
  rw [openReader]
  cases hcount : chunkCount file.size session.config.chunkSize with
  | error fault => exact hmemory
  | ok total =>
      refine ⟨hmemory, file, ⟨rfl, hfile, ?_, rfl, eq_chunksOf_of_chunkCount hcount, ?_, ?_,
        chunkSize_ne_zero_of_chunkCount hcount⟩, Nat.zero_le _, ?_⟩
      · simp only [hfile]
        rfl
      · exact (List.append_nil _).symm
      · intro hcompressor
        by_contra hdisabled
        simp only [startCompressor, if_neg hdisabled] at hcompressor
        cases hcompressor
      · intro bytes _
        rw [Nat.zero_mul, List.take_zero]

theorem sound_visitChunk (hmemory : MemorySound session source memory) {task : FileTask}
    {file : FileMetadata} (htask : IsTask session memory task file)
    (hnext : task.next ≤ task.totalChunks)
    (hhashed : Hashed session source file task task.next) :
    SoundStatus session source (visitChunk session memory task) := by
  have hpos : 0 < session.config.chunkSize.toNat := chunkSize_pos htask.chunkSize
  rw [visitChunk]
  split
  · rename_i hmore
    cases hmul : mul 64 task.next session.config.chunkSize.toNat with
    | error fault => exact hmemory
    | ok offset =>
        have hoffset := (mul_eq_ok_iff.mp hmul).2
        cases hsub : sub task.fileSize offset with
        | error fault =>
            simp only [Status.ofChecked, hsub]
            exact hmemory
        | ok rest =>
            have hrest : rest = task.fileSize - offset := by
              rw [sub] at hsub
              split at hsub <;> cases hsub
              rfl
            simp only [Status.ofChecked, hsub]
            refine ⟨hmemory, file, htask, hmore, hhashed, hoffset, ?_⟩
            rw [hrest, htask.fileSize]
  · rename_i hdone
    refine ⟨hmemory, file, htask.item, htask.index, ?_⟩
    intro bytes hbytes
    rw [hhashed bytes hbytes, Nat.le_antisymm hnext (Nat.le_of_not_lt hdone), htask.totalChunks,
      ← hbytes.length, List.take_of_length_le (le_chunksOf_mul bytes.length hpos)]

/-- Reading the chunk at hand extends the hashed bytes by it. -/
theorem hashed_extend {task : FileTask} {file : FileMetadata} {data : Bytes}
    (hhashed : Hashed session source file task task.next)
    (hdata : ∀ bytes, IsSource session.basePath source file bytes →
      data = chunkAt bytes session.config.chunkSize.toNat task.next) (after : FileTask)
    (hafter : after.hashed = task.hashed ++ data) :
    Hashed session source file after (task.next + 1) := by
  intro bytes hbytes
  rw [hafter, hhashed bytes hbytes, hdata bytes hbytes, Nat.succ_mul, List.take_add, chunkAt]

theorem sound_handleChunk
    (hdecode : ∀ data level encoded, session.codec.encodeAll data level = .ok encoded →
      session.codec.decodeAll encoded = .ok data)
    (hmemory : MemorySound session source memory) {task : FileTask}
    {file : FileMetadata} (htask : IsTask session memory task file)
    (hnext : task.next < task.totalChunks)
    (hhashed : Hashed session source file task task.next) (offset length : Nat) {data : Bytes}
    (hdata : ∀ bytes, IsSource session.basePath source file bytes →
      data = chunkAt bytes session.config.chunkSize.toNat task.next) :
    SoundStatus session source (handleChunk session memory task offset length data) := by
  rw [handleChunk]
  split
  · rename_i hskip
    refine ⟨hmemory, file, ⟨htask.index, htask.item, htask.path, htask.fileSize,
      htask.totalChunks, ?_, htask.compressor, htask.chunkSize⟩, hnext,
      hashed_extend hhashed hdata _ rfl⟩
    rw [htask.recorded, remaining_succ_of_mem hskip]
  · rename_i hfresh
    cases hprepare : prepareChunk session.codec task.compressor data with
    | error error => exact hmemory
    | ok prepared =>
        obtain ⟨next, bytes, compressed⟩ := prepared
        obtain ⟨hsome, hpayload⟩ := prepareChunk_spec hdecode hprepare
        refine ⟨hmemory, file, ⟨htask.index, htask.item, htask.path, htask.fileSize,
          htask.totalChunks, htask.recorded, ?_, htask.chunkSize⟩, hnext, hfresh,
          hashed_extend hhashed hdata _ rfl, ?_⟩
        · intro hcompressor
          exact htask.compressor (hsome ▸ hcompressor)
        · intro contents hcontents
          refine ⟨bytes, compressed, rfl, ?_⟩
          rw [← hdata contents hcontents]
          rcases hpayload with ⟨hplain, hbytes⟩ | ⟨hflag, hcompressor, hback⟩
          · exact Or.inr ⟨hplain, hbytes.symm⟩
          · exact Or.inl ⟨hflag, htask.compressor hcompressor, hback⟩

theorem sound_recordChunk (hmemory : MemorySound session source memory) {task : FileTask}
    {file : FileMetadata} (htask : IsTask session memory task file)
    (hnext : task.next < task.totalChunks) (hfresh : task.next ∉ task.completed)
    (hhashed : Hashed session source file task (task.next + 1)) :
    SoundStatus session source (.running (recordChunk memory task)) := by
  have hrecorded : task.next ∉ memory.fileChunks memory.completedFiles.length := by
    rw [htask.recorded, List.mem_append, mem_remaining]
    rintro (hbefore | ⟨hless, _⟩)
    · exact hfresh hbefore
    · exact Nat.lt_irrefl _ hless
  have hrange : task.next < chunksOf file.size session.config.chunkSize.toNat :=
    htask.totalChunks ▸ hnext
  have horderly := hmemory.orderly.markChunkComplete htask.item hrange hrecorded
  rw [← htask.index] at horderly
  refine ⟨⟨horderly, hmemory.honest⟩, file, ⟨htask.index, htask.item, htask.path, htask.fileSize,
    htask.totalChunks, ?_, htask.compressor, htask.chunkSize⟩, hnext, hhashed⟩
  have hself := memory.markChunkComplete_fileChunks_self memory.completedFiles.length task.next
  rw [htask.recorded, List.append_assoc, ← remaining_succ_of_not_mem hfresh] at hself
  change (memory.markChunkComplete task.index task.next).fileChunks memory.completedFiles.length = _
  rw [htask.index]
  exact hself

theorem sound_compareChecksum (hmemory : MemorySound session source memory) {index : Nat}
    {file : FileMetadata} (hfile : memory.files[memory.completedFiles.length]? = some file)
    (hindex : index = memory.completedFiles.length) (checksum : Digest) (message : Message) :
    SoundStatus session source (compareChecksum memory index checksum message) := by
  subst hindex
  have hunfinished : memory.completedFiles.length < memory.files.length :=
    (List.getElem?_eq_some_iff.mp hfile).1
  unfold compareChecksum
  split
  · split
    · exact hmemory
    · have hfiles := finishFile_files memory memory.completedFiles.length
      refine ⟨⟨hmemory.orderly.finishFile hunfinished, ?_⟩, ?_, ?_⟩
      · rw [hfiles]
        exact hmemory.honest
      · rw [hfiles]
        exact List.ne_nil_of_length_pos (Nat.lt_of_le_of_lt (Nat.zero_le _) hunfinished)
      · rw [hmemory.orderly.finishFile_completedFiles]
  · exact hmemory

/-- What the scan of an honest sender finds. -/
def HonestScan (basePath : OsStr) (source : Store) (scan : Scan) : Prop :=
  ∀ found, readScan scan = .ok found → HonestFiles basePath source found.2

theorem action_written (session : Session) (point : Point) : (action session point).written = [] := by
  obtain ⟨memory, stage⟩ := point
  cases stage <;> rfl

/-- Asking for the length of the file at hand. -/
theorem sound_stat (hmemory : MemorySound session source memory) {index : Nat} {after : Store}
    (hindex : index = memory.completedFiles.length)
    (hunfinished : memory.completedFiles.length < memory.files.length) {value : Value}
    (hrun : (Operation.stat (components
      ((memory.files[index]?.map (sourcePath session.basePath)).getD []))).run source =
        some (after, value)) :
    SoundStatus session source (resume session ⟨memory, .openSource index⟩ (.value value)) := by
  have hfile := List.getElem?_eq_getElem hunfinished
  obtain ⟨bytes, hbytes⟩ := hmemory.honest _ (List.getElem_mem hunfinished)
  obtain ⟨found, hfound, hvalue⟩ := Option.map_eq_some_iff.mp hrun
  cases hvalue
  rw [hindex, hfile] at hfound
  have hsame : found = bytes := Option.some.inj (hfound.symm.trans hbytes.contents)
  change SoundStatus session source (openReader session memory index found.length)
  rw [hsame, hbytes.length]
  exact sound_openReader hmemory hindex hfile

/-- Reading the chunk at hand. -/
theorem sound_readAt
    (hdecode : ∀ data level encoded, session.codec.encodeAll data level = .ok encoded →
      session.codec.decodeAll encoded = .ok data)
    (hmemory : MemorySound session source memory) {task : FileTask} {offset length : Nat}
    (hstage : StageSound session source memory (.readChunk task offset length)) {value : Value}
    {after : Store}
    (hrun : (Operation.readAt (components task.path) offset length).run source =
      some (after, value)) :
    SoundStatus session source
      (resume session ⟨memory, .readChunk task offset length⟩ (.value value)) := by
  obtain ⟨file, htask, hnext, hhashed, rfl, rfl⟩ := hstage
  rw [Operation.run, htask.path] at hrun
  cases hfound : source (components (sourcePath session.basePath file)) with
  | none =>
      rw [hfound] at hrun
      cases hrun
  | some found =>
      rw [hfound] at hrun
      dsimp only at hrun
      split at hrun
      · cases hrun
        refine sound_handleChunk hdecode hmemory htask hnext hhashed _ _ ?_
        intro bytes hbytes
        have hsame : found = bytes := Option.some.inj (hfound.symm.trans hbytes.contents)
        rw [hsame, chunkAt, List.take_eq_take_iff, List.length_drop, hbytes.length]
        omega
      · cases hrun

/-- The steps of a call over the files of an honest sender. -/
theorem soundStatus_step
    (hdecode : ∀ data level encoded, session.codec.encodeAll data level = .ok encoded →
      session.codec.decodeAll encoded = .ok data)
    {state next : SenderState} {input : SenderInput} (hstore : state.store = source)
    (hscan : ∀ scan, input = .answer scan → HonestScan session.basePath source scan)
    (hsound : SoundStatus session source state.status)
    (hstep : (machine session).step state input = some next) :
    next.store = source ∧ SoundStatus session source next.status := by
  have hkept : next.store = source := by
    rw [← hstore]
    funext location
    refine step_frame hstep fun point _ => ?_
    change location ∉ (action session point).written
    rw [action_written]
    exact List.not_mem_nil
  refine ⟨hkept, ?_⟩
  cases stepped_of_step hstep with
  | fail hstatus hinterrupted hnext =>
      rw [hstatus] at hsound
      rw [hnext]
      exact hsound.1
  | resume hstatus hreply hnext =>
      rename_i point reply after
      rw [hstatus] at hsound
      rw [hnext]
      have hfits := Action.fits_of_reply hreply
      rw [hstore] at hreply
      obtain ⟨memory, stage⟩ := point
      obtain ⟨hmemory, hstage⟩ := hsound
      change SoundStatus session source (resume session ⟨memory, stage⟩ reply)
      dsimp only at hmemory hstage
      cases stage <;> cases reply <;> try exact hfits.elim
      case begin.done => exact sound_openTransfer hmemory
      case scan.answer scan =>
          cases input with
          | answer found =>
              cases hreply
              exact sound_startTransfer hmemory (hscan scan rfl)
          | proceed | message _ | stream _ | fail _ _ => cases hreply
      case sendInfo.done resumeFrom => exact ⟨hmemory, hstage.1⟩
      case recvReady.message message => exact sound_readReady hmemory hstage message
      case fileHead.done index => exact sound_visitFile hmemory hstage.1 hstage.2
      case openSource.value index value =>
          obtain ⟨_, found, hvalue, hrun⟩ := Action.performed hreply
          cases hvalue
          exact sound_stat hmemory hstage.1 hstage.2 hrun
      case chunkHead.done task =>
          obtain ⟨file, htask, hle, hhashed⟩ := hstage
          exact sound_visitChunk hmemory htask hle hhashed
      case readChunk.value task offset length value =>
          obtain ⟨_, found, hvalue, hrun⟩ := Action.performed hreply
          cases hvalue
          exact sound_readAt hdecode hmemory hstage hrun
      case openStream.done task raw =>
          obtain ⟨file, htask, hless, hfresh, hhashed, _⟩ := hstage
          exact ⟨hmemory, file, htask, hless, hfresh, hhashed⟩
      case awaitStopped.done task =>
          obtain ⟨file, htask, hless, hfresh, hhashed⟩ := hstage
          exact sound_recordChunk hmemory htask hless hfresh hhashed
      case sendChecksum.done index checksum => exact ⟨hmemory, hstage⟩
      case recvChecksum.message index checksum message =>
          obtain ⟨file, hfile, hindex, _⟩ := hstage
          exact sound_compareChecksum hmemory hfile hindex checksum message
      case sendComplete.done => exact ⟨hmemory, hstage⟩

end P2PFileTransfer.Core.FolderSender
