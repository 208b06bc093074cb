import P2PFileTransfer.Transfer.Schedule
import Mathlib.Data.List.Forall2
import Mathlib.Data.List.Perm.Subperm

/-!
# One file, cut into chunks and put together again

The sender reads every chunk of its file and sends those that are not recorded as
delivered; the receiver writes what arrives, in any order and with repetitions, into
the partial file an earlier attempt left.  When that file holds the recorded chunks,
both sides end with the hash of the whole source.
-/

namespace P2PFileTransfer.Transfer.SingleFile

open P2PFileTransfer.Foundation.ByteFile
open P2PFileTransfer.Foundation.FileSystem
open P2PFileTransfer.Foundation.FixedWidth
open P2PFileTransfer.Foundation.Process
open P2PFileTransfer.Foundation.UnixPath
open P2PFileTransfer.Core
open P2PFileTransfer.Core.Protocol
open P2PFileTransfer.Core.TransferFile
open P2PFileTransfer.Core.TransferFolder
open P2PFileTransfer.Transfer.Schedule (length_remaining nodup_remaining)
open P2PFileTransfer.Core.FolderSender (CarriesChunk FileTask SenderState mem_remaining remaining
  remaining_succ_of_mem remaining_succ_of_not_mem sourcePath)

abbrev FileState := State FileReceiver.Stage Unit Error

/-! ## The two calls -/

/-- The call of `send_file` for an item, over the files of the sender. -/
def sendingFrom (source : Store) (memory : FolderTransferState) (index : Nat) : SenderState :=
  ⟨.running ⟨memory, .openSource index⟩, source⟩

/-- The call goes through, opens these streams and returns this checksum. -/
def Sends (session : FolderSender.Session) (source : Store) (memory : FolderTransferState)
    (index : Nat) (streams : List Bytes) (checksum : Digest) : Prop :=
  ∃ after, Undisturbed (FolderSender.machine session) (sendingFrom source memory index) streams []
    ⟨.running ⟨after, .sendChecksum index checksum⟩, source⟩

/-- The call of `receive_file` goes through when streams arrive in this order, leaves
these contents at the final location and returns this checksum. -/
def Receives (session : FileReceiver.Session) (task : FileReceiver.Task) (store : Store)
    (arrivals : List Bytes) (contents : Bytes) (checksum : Digest) : Prop :=
  ∃ taken final, taken <+: arrivals ∧
    Undisturbed (FileReceiver.machine session task) ⟨.running .begin, store⟩ [] taken
      ⟨.running (.sendChecksum checksum), final⟩ ∧
    final task.finalLocation = some contents

/-- What the receiver is told about an item: all its chunks, and how many of them the
sender does not skip. -/
def taskFor (path : OsStr) (index chunkSize : Nat) (bytes : Bytes) (completed : List Nat) :
    FileReceiver.Task where
  path := path
  fileIndex := index
  totalChunks := chunksOf bytes.length chunkSize
  streamsToReceive := chunksOf bytes.length chunkSize - completed.length

/-- The streams carry these chunks of the file, one each and in this order. -/
def Carried (codec : Codec) (config : ConfigMessage) (bytes : Bytes) (chunks : List Nat)
    (streams : List Bytes) : Prop :=
  List.Forall₂ (fun chunk raw => CarriesChunk codec config raw chunk
    (chunkAt bytes config.chunkSize.toNat chunk)) chunks streams

/-! ## Sending -/

/-- The state after these chunks of a file were acknowledged. -/
def recordAll (memory : FolderTransferState) (index : Nat) (chunks : List Nat) :
    FolderTransferState :=
  chunks.foldl (fun memory chunk => memory.markChunkComplete index chunk) memory

/-- Nothing but the chunks of the file changes. -/
theorem recordAll_spec (memory : FolderTransferState) (index : Nat) (chunks : List Nat) :
    (recordAll memory index chunks).files = memory.files ∧
      (recordAll memory index chunks).completedFiles = memory.completedFiles ∧
      (recordAll memory index chunks).fileChunks index = memory.fileChunks index ++ chunks ∧
      ∀ other, other ≠ index →
        (recordAll memory index chunks).fileChunks other = memory.fileChunks other := by
  induction chunks generalizing memory with
  | nil => exact ⟨rfl, rfl, (List.append_nil _).symm, fun _ _ => rfl⟩
  | cons chunk rest ih =>
      obtain ⟨hfiles, hcompleted, hself, hothers⟩ := ih (memory.markChunkComplete index chunk)
      refine ⟨hfiles, hcompleted, hself.trans ?_, ?_⟩
      · rw [memory.markChunkComplete_fileChunks_self, List.append_assoc]
        rfl
      · exact fun other hne => (hothers other hne).trans
          (memory.markChunkComplete_fileChunks_ne chunk hne)

theorem recordAll_append (memory : FolderTransferState) (index : Nat) (first second : List Nat) :
    recordAll memory index (first ++ second) =
      recordAll (recordAll memory index first) index second := by
  rw [recordAll, List.foldl_append]
  rfl

section Sending

variable {session : FolderSender.Session} {source : Store} {bytes : Bytes}

/-- What holds at the head of the chunk loop. -/
structure Reading (session : FolderSender.Session) (source : Store) (bytes : Bytes)
    (task : FileTask) : Prop where
  contents : source (components task.path) = some bytes
  fileSize : task.fileSize = bytes.length
  totalChunks : task.totalChunks = chunksOf bytes.length session.config.chunkSize.toNat
  hashed : task.hashed = bytes.take (task.next * session.config.chunkSize.toNat)
  compressor : task.compressor.isSome = true → session.config.compressionEnabled = true

/-- The task after the chunk at hand, with the state the compressor is left in. -/
def advance (task : FileTask) (data : Bytes) (compressor : Option AdaptiveCompressor) : FileTask :=
  { task with next := task.next + 1, hashed := task.hashed ++ data, compressor := compressor }

theorem Reading.advance {task : FileTask} (hreading : Reading session source bytes task)
    {compressor : Option AdaptiveCompressor}
    (hcompressor : compressor.isSome = true → session.config.compressionEnabled = true) :
    Reading session source bytes
      (advance task (chunkAt bytes session.config.chunkSize.toNat task.next) compressor) := by
  refine ⟨hreading.contents, hreading.fileSize, hreading.totalChunks, ?_, hcompressor⟩
  change task.hashed ++ chunkAt bytes session.config.chunkSize.toNat task.next = _
  rw [hreading.hashed, chunkAt, ← List.take_add, ← Nat.succ_mul]
  rfl

variable (hchunkSize : session.config.chunkSize ≠ 0) (hlength : bytes.length < 2 ^ 63)

include hchunkSize

theorem run_readAt {task : FileTask} (hreading : Reading session source bytes task)
    (hmore : task.next < task.totalChunks) :
    (Operation.readAt (components task.path) (task.next * session.config.chunkSize.toNat)
        (min (bytes.length - task.next * session.config.chunkSize.toNat)
          session.config.chunkSize.toNat)).run source =
      some (source, .bytes (chunkAt bytes session.config.chunkSize.toNat task.next)) := by
  have hinside : task.next * session.config.chunkSize.toNat < bytes.length :=
    mul_lt_of_lt_chunksOf (chunkSize_pos hchunkSize) (hreading.totalChunks ▸ hmore)
  have hfits : task.next * session.config.chunkSize.toNat +
      min (bytes.length - task.next * session.config.chunkSize.toNat)
        session.config.chunkSize.toNat ≤ bytes.length := by omega
  have hdata : (bytes.drop (task.next * session.config.chunkSize.toNat)).take
      (min (bytes.length - task.next * session.config.chunkSize.toNat)
        session.config.chunkSize.toNat) =
      chunkAt bytes session.config.chunkSize.toNat task.next := by
    rw [chunkAt, List.take_eq_take_iff, List.length_drop]
    omega
  rw [Operation.run, hreading.contents]
  simp only [if_pos hfits, hdata]

/-- Reading the chunk at hand yields it. -/
theorem step_readChunk {memory : FolderTransferState} {task : FileTask}
    (hreading : Reading session source bytes task) (hmore : task.next < task.totalChunks) :
    let offset := task.next * session.config.chunkSize.toNat
    let count := min (bytes.length - offset) session.config.chunkSize.toNat
    (FolderSender.machine session).step ⟨.running ⟨memory, .readChunk task offset count⟩, source⟩
        .proceed =
      some ⟨FolderSender.handleChunk session memory task offset count
        (chunkAt bytes session.config.chunkSize.toNat task.next), source⟩ :=
  step_perform rfl (run_readAt hchunkSize hreading hmore)

/-- The head of the loop goes on to read the chunk at hand. -/
theorem visitChunk_eq (hwidth : bytes.length < 2 ^ 64) {memory : FolderTransferState}
    {task : FileTask} (hreading : Reading session source bytes task)
    (hmore : task.next < task.totalChunks) :
    FolderSender.visitChunk session memory task =
      .running ⟨memory, .readChunk task (task.next * session.config.chunkSize.toNat)
        (min (bytes.length - task.next * session.config.chunkSize.toNat)
          session.config.chunkSize.toNat)⟩ := by
  have hinside : task.next * session.config.chunkSize.toNat < bytes.length :=
    mul_lt_of_lt_chunksOf (chunkSize_pos hchunkSize) (hreading.totalChunks ▸ hmore)
  have hmul : mul 64 task.next session.config.chunkSize.toNat =
      .ok (task.next * session.config.chunkSize.toNat) := mul_eq_ok (by omega)
  have hsub : sub task.fileSize (task.next * session.config.chunkSize.toNat) =
      .ok (bytes.length - task.next * session.config.chunkSize.toNat) := by
    rw [hreading.fileSize]
    exact sub_eq_ok (Nat.le_of_lt hinside)
  rw [FolderSender.visitChunk, if_pos hmore, hmul]
  simp only [Status.ofChecked, hsub]

include hlength

/-- One round of the loop: the chunk is hashed, and sent unless it is recorded. -/
theorem undisturbed_chunk (hlossless : session.codec.Lossless) {memory : FolderTransferState}
    {task : FileTask} (hreading : Reading session source bytes task)
    (hmore : task.next < task.totalChunks) :
    ∃ compressor streams,
      Undisturbed (FolderSender.machine session) ⟨.running ⟨memory, .chunkHead task⟩, source⟩
        streams []
        ⟨.running ⟨recordAll memory task.index
            ([task.next].filter fun chunk => decide (chunk ∉ task.completed)),
          .chunkHead (advance task (chunkAt bytes session.config.chunkSize.toNat task.next)
            compressor)⟩, source⟩ ∧
      (compressor.isSome = true → session.config.compressionEnabled = true) ∧
      Carried session.codec session.config bytes
        ([task.next].filter fun chunk => decide (chunk ∉ task.completed)) streams := by
  have hvisit : (FolderSender.machine session).step
      ⟨.running ⟨memory, .chunkHead task⟩, source⟩ .proceed = some ⟨_, source⟩ :=
    congrArg (fun status => some (State.mk status source))
      (visitChunk_eq hchunkSize (by omega) hreading hmore)
  have hread := @step_readChunk session source bytes hchunkSize memory task hreading hmore
  dsimp only at hread
  by_cases hskip : task.next ∈ task.completed
  · rw [FolderSender.handleChunk, if_pos hskip] at hread
    have hnone : [task.next].filter (fun chunk => decide (chunk ∉ task.completed)) = [] := by
      rw [List.filter_singleton]
      simp [hskip]
    rw [hnone]
    refine ⟨task.compressor, [], ?_, hreading.compressor, .nil⟩
    exact .quiet rfl hvisit (.quiet rfl hread (.refl _))
  · obtain ⟨⟨compressor, payload, compressed⟩, hprepare⟩ := hlossless.prepareChunk task.compressor
      (chunkAt bytes session.config.chunkSize.toNat task.next)
    obtain ⟨hsome, hpayload⟩ := prepareChunk_spec hlossless.decode hprepare
    rw [FolderSender.handleChunk, if_neg hskip, hprepare] at hread
    have hone : [task.next].filter (fun chunk => decide (chunk ∉ task.completed)) =
        [task.next] := by
      rw [List.filter_singleton]
      simp [hskip]
    rw [hone]
    refine ⟨compressor, [chunkStream task.next compressed payload], ?_, ?_, ?_⟩
    · refine .quiet rfl hvisit (.quiet rfl hread ?_)
      exact .proceed rfl (.quiet rfl rfl (.refl _))
    · intro hcompressor
      exact hreading.compressor (hsome ▸ hcompressor)
    · refine .cons ⟨payload, compressed, rfl, ?_⟩ .nil
      rcases hpayload with ⟨hplain, hbytes⟩ | ⟨hflag, hcompressor, hback⟩
      · exact Or.inr ⟨hplain, hbytes.symm⟩
      · exact Or.inl ⟨hflag, hreading.compressor hcompressor, hback⟩

/-- The loop from any chunk on ends with the hash of the whole file. -/
theorem undisturbed_chunks (hlossless : session.codec.Lossless) (count : Nat)
    {memory : FolderTransferState} {task : FileTask}
    (hreading : Reading session source bytes task) (hcount : task.next + count = task.totalChunks) :
    ∃ streams,
      Undisturbed (FolderSender.machine session) ⟨.running ⟨memory, .chunkHead task⟩, source⟩
        streams []
        ⟨.running ⟨recordAll memory task.index ((List.range' task.next count).filter fun chunk =>
            decide (chunk ∉ task.completed)),
          .sendChecksum task.index (session.codec.sha256 bytes)⟩, source⟩ ∧
      Carried session.codec session.config bytes
        ((List.range' task.next count).filter fun chunk => decide (chunk ∉ task.completed))
        streams := by
  induction count generalizing memory task with
  | zero =>
      have hdone : ¬task.next < task.totalChunks := by omega
      have hall : task.hashed = bytes := by
        have hcover := le_chunksOf_mul bytes.length (chunkSize_pos hchunkSize)
        rw [← hreading.totalChunks, ← hcount] at hcover
        rw [hreading.hashed]
        exact List.take_of_length_le hcover
      have hend : FolderSender.visitChunk session memory task =
          .running ⟨memory, .sendChecksum task.index (session.codec.sha256 bytes)⟩ := by
        rw [FolderSender.visitChunk, if_neg hdone, hall]
      refine ⟨[], ?_, .nil⟩
      exact .quiet rfl (congrArg (fun status => some (State.mk status source)) hend) (.refl _)
  | succ count ih =>
      obtain ⟨compressor, streams, hround, hcompressor, hcarried⟩ :=
        @undisturbed_chunk session source bytes hchunkSize hlength hlossless memory task hreading
          (by omega)
      have hnext : task.next + 1 + count = task.totalChunks := by omega
      obtain ⟨later, hrest, hlater⟩ := ih (hreading.advance hcompressor) hnext
      rw [List.range'_succ, ← List.singleton_append, List.filter_append, recordAll_append]
      exact ⟨streams ++ later, hround.append hrest, List.rel_append hcarried hlater⟩

/-- The call opens one stream for every chunk that is not recorded, records it, and comes to
the hash of the file. -/
theorem undisturbed_file (hlossless : session.codec.Lossless) {memory : FolderTransferState}
    {index : Nat} {file : FileMetadata} (hfile : memory.files[index]? = some file)
    (hcontents : source (components (sourcePath session.basePath file)) = some bytes) :
    ∃ streams,
      Undisturbed (FolderSender.machine session) (sendingFrom source memory index) streams []
        ⟨.running ⟨recordAll memory index (remaining (memory.getCompletedChunks index)
            (chunksOf bytes.length session.config.chunkSize.toNat)),
          .sendChecksum index (session.codec.sha256 bytes)⟩, source⟩ ∧
      Carried session.codec session.config bytes
        (remaining (memory.getCompletedChunks index)
          (chunksOf bytes.length session.config.chunkSize.toNat)) streams := by
  have hwidth := session.config.chunkSize.toNat_lt
  have hcount : chunkCount bytes.length session.config.chunkSize =
      .ok (chunksOf bytes.length session.config.chunkSize.toNat) :=
    chunkCount_eq_ok hchunkSize (by omega)
  have hpath : (memory.files[index]?.map (sourcePath session.basePath)).getD [] =
      sourcePath session.basePath file := by
    rw [hfile]
    rfl
  have hstat : (Operation.stat (components ((memory.files[index]?.map
      (sourcePath session.basePath)).getD []))).run source = some (source, .size bytes.length) := by
    rw [hpath, Operation.run, hcontents]
    rfl
  have hopen : (FolderSender.machine session).step (sendingFrom source memory index) .proceed =
      some ⟨FolderSender.openReader session memory index bytes.length, source⟩ :=
    step_perform rfl hstat
  rw [FolderSender.openReader, hcount, hpath] at hopen
  have hreading : Reading session source bytes
      { index := index
        path := sourcePath session.basePath file
        completed := memory.getCompletedChunks index
        fileSize := bytes.length
        totalChunks := chunksOf bytes.length session.config.chunkSize.toNat
        next := 0
        hashed := []
        compressor := startCompressor session.config } := by
    refine ⟨hcontents, rfl, rfl, ?_, ?_⟩
    · rw [Nat.zero_mul, List.take_zero]
    · intro hcompressor
      by_contra hdisabled
      simp only [startCompressor, if_neg hdisabled] at hcompressor
      cases hcompressor
  obtain ⟨streams, hloop, hcarried⟩ :=
    @undisturbed_chunks session source bytes hchunkSize hlength hlossless _ memory _ hreading
      (Nat.zero_add _)
  rw [← List.range_eq_range'] at hloop hcarried
  exact ⟨streams, .quiet rfl hopen hloop, hcarried⟩

theorem exists_sends (hlossless : session.codec.Lossless) {memory : FolderTransferState}
    {index : Nat} {file : FileMetadata} (hfile : memory.files[index]? = some file)
    (hcontents : source (components (sourcePath session.basePath file)) = some bytes) :
    ∃ streams, Sends session source memory index streams (session.codec.sha256 bytes) ∧
      Carried session.codec session.config bytes
        (remaining (memory.getCompletedChunks index)
          (chunksOf bytes.length session.config.chunkSize.toNat)) streams := by
  obtain ⟨streams, hrun, hcarried⟩ :=
    undisturbed_file hchunkSize hlength hlossless hfile hcontents
  exact ⟨streams, ⟨_, hrun⟩, hcarried⟩

omit hchunkSize hlength

/-- A call that was given its last answer waits for the peer. -/
theorem undisturbed_sent {memory after : FolderTransferState} {index : Nat}
    {checksum other : Digest} {streams : List Bytes}
    (hrun : Undisturbed (FolderSender.machine session)
      ⟨.running ⟨memory, .sendChecksum index checksum⟩, source⟩ streams []
      ⟨.running ⟨after, .sendChecksum index other⟩, source⟩) : streams = [] ∧ other = checksum := by
  cases hrun with
  | refl _ => exact ⟨rfl, rfl⟩
  | proceed hstep hrest =>
      cases hstep
      cases hrest with
      | proceed hrefused _ => cases hrefused

/-- Nothing but the files and the state decides what a call sends. -/
theorem Sends.unique {memory : FolderTransferState} {index : Nat}
    {first second : List Bytes} {checksum other : Digest}
    (hfirst : Sends session source memory index first checksum)
    (hsecond : Sends session source memory index second other) :
    second = first ∧ other = checksum := by
  obtain ⟨_, hfirst⟩ := hfirst
  obtain ⟨_, hsecond⟩ := hsecond
  rcases hfirst.comparable hsecond List.prefix_rfl List.prefix_rfl with
    ⟨rest, drawn, hends, heq, hdrawn⟩ | ⟨rest, drawn, hends, heq, hdrawn⟩
  · have hnone : drawn = [] := hdrawn.symm
    rw [hnone] at hends
    obtain ⟨hrest, hsame⟩ := undisturbed_sent hends
    rw [hrest, List.append_nil] at heq
    exact ⟨heq, hsame⟩
  · have hnone : drawn = [] := hdrawn.symm
    rw [hnone] at hends
    obtain ⟨hrest, hsame⟩ := undisturbed_sent hends
    rw [hrest, List.append_nil] at heq
    exact ⟨heq.symm, hsame.symm⟩

end Sending

/-! ## Receiving -/

section Receiving

variable {session : FileReceiver.Session} {bytes : Bytes} {completed : List Nat}

/-- The partial file on its way: the chunks that were there and those that were seen are
those of the source. -/
structure Assembling (size : Nat) (bytes : Bytes) (completed seen : List Nat) (file : Bytes) :
    Prop where
  length_le : file.length ≤ bytes.length
  held : ∀ chunk ∈ completed, SlotAgrees file bytes size chunk
  written : ∀ chunk ∈ seen, SlotAgrees file bytes size chunk
  nodup : seen.Nodup
  outstanding : ∀ chunk ∈ seen, chunk ∈ remaining completed (chunksOf bytes.length size)

/-- Writing one more chunk keeps those that were written. -/
theorem slotAgrees_written {size : Nat} {seen : List Nat} {file : Bytes} {chunk : Nat}
    (hwritten : ∀ other ∈ seen, SlotAgrees file bytes size other) (hfresh : chunk ∉ seen) :
    ∀ other ∈ chunk :: seen,
      SlotAgrees (writeAt file (chunk * size) (chunkAt bytes size chunk)) bytes size other := by
  rw [List.forall_mem_cons]
  refine ⟨slotAgrees_writeAt_self file bytes size chunk, fun other hold => ?_⟩
  exact (hwritten other hold).writeAt_ne (fun heq => hfresh (heq ▸ hold))
    (length_chunkAt_le bytes size chunk)

/-- When as many chunks were seen as were outstanding, all of them were. -/
theorem mem_seen_of_count {seen : List Nat} {total : Nat} (hnodup : seen.Nodup)
    (houtstanding : ∀ chunk ∈ seen, chunk ∈ remaining completed total)
    (hcount : (remaining completed total).length ≤ seen.length) {chunk : Nat}
    (hchunk : chunk ∈ remaining completed total) : chunk ∈ seen := by
  have hperm := (List.subperm_of_subset hnodup houtstanding).perm_of_length_le hcount
  exact hperm.mem_iff.mpr hchunk

theorem Assembling.write {size : Nat} {seen : List Nat} {file : Bytes}
    (hassembling : Assembling size bytes completed seen file) (hsize : 0 < size) {chunk : Nat}
    (hchunk : chunk ∈ remaining completed (chunksOf bytes.length size)) (hfresh : chunk ∉ seen) :
    Assembling size bytes completed (chunk :: seen)
      (writeAt file (chunk * size) (chunkAt bytes size chunk)) := by
  obtain ⟨hrange, habsent⟩ := mem_remaining.mp hchunk
  have hinside := mul_lt_of_lt_chunksOf hsize hrange
  refine ⟨length_writeAt_chunkAt_le hassembling.length_le (Nat.le_of_lt hinside), ?_,
    slotAgrees_written hassembling.written hfresh, List.nodup_cons.mpr ⟨hfresh, hassembling.nodup⟩,
    List.forall_mem_cons.mpr ⟨hchunk, hassembling.outstanding⟩⟩
  intro other hother
  exact (hassembling.held other hother).writeAt_ne (fun heq => habsent (heq ▸ hother))
    (length_chunkAt_le bytes size chunk)

/-- When as many chunks were seen as were outstanding, the file is the source. -/
theorem Assembling.complete {size : Nat} {seen : List Nat} {file : Bytes}
    (hassembling : Assembling size bytes completed seen file) (hsize : 0 < size)
    (hcount : (remaining completed (chunksOf bytes.length size)).length ≤ seen.length) :
    file = bytes := by
  apply eq_of_slotAgrees hsize (le_chunksOf_mul bytes.length hsize) hassembling.length_le
  intro chunk hchunk
  by_cases hheld : chunk ∈ completed
  · exact hassembling.held chunk hheld
  · exact hassembling.written chunk (mem_seen_of_count hassembling.nodup hassembling.outstanding
      hcount (mem_remaining.mpr ⟨hchunk, hheld⟩))

/-- A stream of the sender: it carries the chunk its header names, which is one that is
outstanding. -/
structure IsOutstanding (session : FileReceiver.Session) (bytes : Bytes) (completed : List Nat)
    (raw : Bytes) : Prop where
  outstanding : streamIndex raw ∈
    remaining completed (chunksOf bytes.length session.config.chunkSize.toNat)
  carries : CarriesChunk session.codec session.config raw (streamIndex raw)
    (chunkAt bytes session.config.chunkSize.toNat (streamIndex raw))
  length_le : raw.length ≤ maxChunkStreamBytes

variable {path : OsStr} {index : Nat}

theorem index_lt_of_isOutstanding (hchunkSize : session.config.chunkSize ≠ 0)
    (hlength : bytes.length < 2 ^ 63) {raw : Bytes}
    (hraw : IsOutstanding session bytes completed raw) :
    streamIndex raw < chunksOf bytes.length session.config.chunkSize.toNat ∧
      streamIndex raw * session.config.chunkSize.toNat < 2 ^ 63 ∧ streamIndex raw < 2 ^ 64 := by
  have hpos := chunkSize_pos hchunkSize
  have hrange := (mem_remaining.mp hraw.outstanding).1
  have hinside := mul_lt_of_lt_chunksOf hpos hrange
  have hle := Nat.le_mul_of_pos_right (streamIndex raw) hpos
  exact ⟨hrange, by omega, by omega⟩

/-- A stream of the sender is dropped when its chunk was seen, and else written to the
place of its chunk. -/
theorem handleStream_eq (hchunkSize : session.config.chunkSize ≠ 0)
    (hlength : bytes.length < 2 ^ 63) {raw : Bytes}
    (hraw : IsOutstanding session bytes completed raw) (seen : List Nat) :
    FileReceiver.handleStream session
        (taskFor path index session.config.chunkSize.toNat bytes completed) seen raw =
      if streamIndex raw ∈ seen then .running (.acceptUni seen)
      else .running (.writeChunk (streamIndex raw :: seen) (streamIndex raw)
        (streamIndex raw * session.config.chunkSize.toNat)
        (chunkAt bytes session.config.chunkSize.toNat (streamIndex raw))) := by
  obtain ⟨hrange, hoffset, hwidth⟩ := index_lt_of_isOutstanding hchunkSize hlength hraw
  obtain ⟨payload, compressed, hshape, hpayload⟩ := hraw.carries
  have hfits := hraw.length_le
  generalize streamIndex raw = chunk at *
  rw [hshape, length_chunkStream] at hfits
  rw [FileReceiver.handleStream, hshape]
  dsimp only [taskFor]
  split
  · rename_i hseen
    rw [acceptChunk_repeated hwidth hfits hrange hseen]
    rfl
  · rename_i hfresh
    have hmul : mul 64 chunk session.config.chunkSize.toNat =
        .ok (chunk * session.config.chunkSize.toNat) := mul_eq_ok (by omega)
    rw [acceptChunk_chunkStream hwidth hfits hrange hfresh hpayload]
    simp only [Status.ofExcept, Status.ofChecked, hmul]

/-- What is claimed of the chunks seen and the partial file is kept by every write of an
outstanding chunk that was not seen. -/
def KeptByWrites (size : Nat) (bytes : Bytes) (completed : List Nat)
    (keeps : List Nat → Bytes → Prop) : Prop :=
  ∀ seen file chunk, keeps seen file → chunk ∈ remaining completed (chunksOf bytes.length size) →
    chunk ∉ seen → keeps (chunk :: seen) (writeAt file (chunk * size) (chunkAt bytes size chunk))

variable {keeps : List Nat → Bytes → Prop}

/-- One round of the loop: the chunk of the stream has been seen afterwards. -/
theorem undisturbed_stream (hchunkSize : session.config.chunkSize ≠ 0)
    (hlength : bytes.length < 2 ^ 63)
    (hwrites : KeptByWrites session.config.chunkSize.toNat bytes completed keeps)
    {task : FileReceiver.Task}
    (htask : task = taskFor path index session.config.chunkSize.toNat bytes completed)
    {seen : List Nat} {store : Store} {file raw : Bytes}
    (hshort : seen.length < task.streamsToReceive)
    (hstore : store task.partialLocation = some file) (hkeeps : keeps seen file)
    (hraw : IsOutstanding session bytes completed raw) :
    ∃ known after contents,
      Undisturbed (FileReceiver.machine session task) ⟨FileReceiver.continueLoop task seen, store⟩
        [] [raw] ⟨FileReceiver.continueLoop task known, after⟩ ∧
      after task.partialLocation = some contents ∧ keeps known contents ∧
      streamIndex raw ∈ known ∧ seen ⊆ known := by
  have haccept : FileReceiver.continueLoop task seen = .running (.acceptUni seen) := if_pos hshort
  have hstep : (FileReceiver.machine session task).step ⟨.running (.acceptUni seen), store⟩
      (.stream raw) = some ⟨FileReceiver.handleStream session task seen raw, store⟩ := rfl
  rw [htask, handleStream_eq hchunkSize hlength hraw seen, ← htask] at hstep
  by_cases hseen : streamIndex raw ∈ seen
  · rw [if_pos hseen] at hstep
    refine ⟨seen, store, file, ?_, hstore, hkeeps, hseen, List.Subset.refl _⟩
    rw [haccept]
    exact .stream hstep (.refl _)
  · rw [if_neg hseen] at hstep
    refine ⟨streamIndex raw :: seen, _, _, ?_, set_self store _ _,
      hwrites _ _ _ hkeeps hraw.outstanding hseen, List.mem_cons_self,
      List.subset_cons_self _ _⟩
    rw [haccept]
    refine .stream hstep (.quiet rfl ?_ (.refl _))
    apply step_perform rfl
    rw [Operation.run, hstore]
    rfl

/-- The loop takes streams until as many chunks were seen as are outstanding. -/
theorem undisturbed_arrivals (hchunkSize : session.config.chunkSize ≠ 0)
    (hlength : bytes.length < 2 ^ 63)
    (hwrites : KeptByWrites session.config.chunkSize.toNat bytes completed keeps)
    {task : FileReceiver.Task}
    (htask : task = taskFor path index session.config.chunkSize.toNat bytes completed)
    (hcount : (remaining completed task.totalChunks).length = task.streamsToReceive)
    (arrivals : List Bytes) {seen : List Nat} {store : Store} {file : Bytes}
    (hstore : store task.partialLocation = some file) (hkeeps : keeps seen file)
    (harrivals : ∀ raw ∈ arrivals, IsOutstanding session bytes completed raw)
    (hall : ∀ chunk ∈ remaining completed task.totalChunks,
      chunk ∈ seen ∨ chunk ∈ arrivals.map streamIndex) :
    ∃ taken known final contents, taken <+: arrivals ∧
      Undisturbed (FileReceiver.machine session task)
        ⟨FileReceiver.continueLoop task seen, store⟩ [] taken ⟨.running .rename, final⟩ ∧
      final task.partialLocation = some contents ∧ keeps known contents ∧
      task.streamsToReceive ≤ known.length := by
  induction arrivals generalizing seen store file with
  | nil =>
      have hsubset : remaining completed task.totalChunks ⊆ seen := by
        intro chunk hchunk
        exact (hall chunk hchunk).resolve_right List.not_mem_nil
      have hmany : task.streamsToReceive ≤ seen.length :=
        hcount ▸ (List.Nodup.subperm (nodup_remaining _ _) hsubset).length_le
      have hend : FileReceiver.continueLoop task seen = .running .rename :=
        if_neg (Nat.not_lt.mpr hmany)
      exact ⟨[], seen, store, file, List.prefix_rfl, hend ▸ .refl _, hstore, hkeeps, hmany⟩
  | cons raw rest ih =>
      by_cases hshort : seen.length < task.streamsToReceive
      · obtain ⟨known, after, contents, hround, hafter, hknown, hmem, hsub⟩ :=
          undisturbed_stream hchunkSize hlength hwrites htask hshort hstore hkeeps
            (harrivals raw List.mem_cons_self)
        have hleft : ∀ chunk ∈ remaining completed task.totalChunks,
            chunk ∈ known ∨ chunk ∈ rest.map streamIndex := by
          intro chunk hchunk
          rcases hall chunk hchunk with hold | hnew
          · exact Or.inl (hsub hold)
          · rcases List.mem_cons.mp hnew with rfl | hlater
            · exact Or.inl hmem
            · exact Or.inr hlater
        obtain ⟨taken, all, final, whole, hprefix, hrun, hfinal⟩ := ih hafter hknown
          (fun other hother => harrivals other (List.mem_cons_of_mem _ hother)) hleft
        exact ⟨raw :: taken, all, final, whole, List.cons_prefix_cons.mpr ⟨rfl, hprefix⟩,
          hround.append hrun, hfinal⟩
      · have hend : FileReceiver.continueLoop task seen = .running .rename := if_neg hshort
        exact ⟨[], seen, store, file, List.nil_prefix, hend ▸ .refl _, hstore, hkeeps,
          Nat.le_of_not_lt hshort⟩

/-- Before the first stream: the partial file is there, cut to whole chunks. -/
theorem undisturbed_openWriter (hchunkSize : session.config.chunkSize ≠ 0)
    (hlength : bytes.length < 2 ^ 63) {task : FileReceiver.Task}
    (htask : task = taskFor path index session.config.chunkSize.toNat bytes completed)
    {store : Store} {file : Bytes} (hfile : (store task.partialLocation).getD [] = file) :
    ∃ after, Undisturbed (FileReceiver.machine session task) ⟨.running .begin, store⟩ [] []
        ⟨FileReceiver.continueLoop task [], after⟩ ∧
      after task.partialLocation =
        some (shrinkTo file (task.totalChunks * session.config.chunkSize.toNat)) := by
  have hpos := chunkSize_pos hchunkSize
  have hwidth := session.config.chunkSize.toNat_lt
  have hbound := chunksOf_mul_lt bytes.length hpos
  have hmul : mul 64 task.totalChunks session.config.chunkSize.toNat =
      .ok (task.totalChunks * session.config.chunkSize.toNat) := by
    rw [htask]
    exact mul_eq_ok (by dsimp only [taskFor]; omega)
  have hstreams : ¬task.totalChunks < task.streamsToReceive := by
    rw [htask]
    exact Nat.not_lt.mpr (Nat.sub_le _ _)
  let created := set store task.partialLocation (some file)
  let cut := set created task.partialLocation
    (some (shrinkTo file (task.totalChunks * session.config.chunkSize.toNat)))
  have hcreate : (Operation.openCreate task.partialLocation).run store = some (created, .unit) := by
    rw [Operation.run, hfile]
  have hcut : (Operation.shrink task.partialLocation
      (task.totalChunks * session.config.chunkSize.toNat)).run created = some (cut, .unit) := by
    have hfound : created task.partialLocation = some file := set_self _ _ _
    rw [Operation.run, hfound, Option.map_some]
  have hopened : Undisturbed (FileReceiver.machine session task)
      ⟨.running (.openPartial (task.totalChunks * session.config.chunkSize.toNat)), store⟩ [] []
      ⟨FileReceiver.continueLoop task [], cut⟩ :=
    .quiet rfl (step_perform rfl hcreate) (.quiet rfl (step_perform rfl hcut) (.refl _))
  have hbegin : (FileReceiver.machine session task).step ⟨.running .begin, store⟩ .proceed =
      some ⟨FileReceiver.openWriter session task, store⟩ := rfl
  refine ⟨cut, ?_, set_self created _ _⟩
  rw [FileReceiver.openWriter, if_neg hstreams, hmul] at hbegin
  cases hparent : parent task.path with
  | none =>
      simp only [Status.ofChecked, hparent] at hbegin
      exact .quiet rfl hbegin hopened
  | some directory =>
      simp only [Status.ofChecked, hparent] at hbegin
      have hdirectory : (Operation.createDirAll ((parent task.path).getD [])).run store =
          some (store, .unit) := rfl
      exact .quiet rfl hbegin (.quiet rfl (step_perform rfl hdirectory) hopened)

/-- Behind the last stream the partial file becomes the final one and is hashed. -/
theorem undisturbed_finalize {task : FileReceiver.Task} {store : Store}
    (hstore : store task.partialLocation = some bytes) :
    ∃ final, Undisturbed (FileReceiver.machine session task) ⟨.running .rename, store⟩ [] []
        ⟨.running (.sendChecksum (session.codec.sha256 bytes)), final⟩ ∧
      final task.finalLocation = some bytes := by
  let moved := set (set store task.partialLocation none) task.finalLocation (some bytes)
  have hrename : (Operation.rename task.partialLocation task.finalLocation).run store =
      some (moved, .unit) := by
    rw [Operation.run, hstore]
    rfl
  have hmoved : moved task.finalLocation = some bytes := set_self _ _ _
  have hread : (Operation.readAll task.finalLocation).run moved = some (moved, .bytes bytes) := by
    rw [Operation.run, hmoved]
    rfl
  exact ⟨moved, .quiet rfl (step_perform rfl hrename)
    (.quiet rfl (step_perform rfl hread) (.refl _)), hmoved⟩

/-- The call rebuilds the source from the chunks that were there and the streams that
arrive. -/
theorem receives_of_outstanding (hchunkSize : session.config.chunkSize ≠ 0)
    (hlength : bytes.length < 2 ^ 63) (hnodup : completed.Nodup)
    (hrange : ∀ chunk ∈ completed,
      chunk < chunksOf bytes.length session.config.chunkSize.toNat)
    {store : Store} {file : Bytes}
    (hfile : (store (components (FileReceiver.partialPath path))).getD [] = file)
    (hshort : file.length ≤ bytes.length)
    (hheld : ∀ chunk ∈ completed, SlotAgrees file bytes session.config.chunkSize.toNat chunk)
    {arrivals : List Bytes}
    (harrivals : ∀ raw ∈ arrivals, IsOutstanding session bytes completed raw)
    (hall : ∀ chunk ∈ remaining completed
      (chunksOf bytes.length session.config.chunkSize.toNat), chunk ∈ arrivals.map streamIndex) :
    Receives session (taskFor path index session.config.chunkSize.toNat bytes completed) store
      arrivals bytes (session.codec.sha256 bytes) := by
  have hpos := chunkSize_pos hchunkSize
  have hcover := le_chunksOf_mul bytes.length hpos
  have hassembling : Assembling session.config.chunkSize.toNat bytes completed [] file :=
    ⟨hshort, hheld, fun _ hmem => absurd hmem List.not_mem_nil, List.nodup_nil,
      fun _ hmem => absurd hmem List.not_mem_nil⟩
  obtain ⟨opened, hopen, hopened⟩ :=
    @undisturbed_openWriter session bytes completed path index hchunkSize hlength _ rfl _ _ hfile
  have hkept : shrinkTo file (chunksOf bytes.length session.config.chunkSize.toNat *
      session.config.chunkSize.toNat) = file :=
    List.take_of_length_le (Nat.le_trans hshort hcover)
  dsimp only [taskFor] at hopened
  rw [hkept] at hopened
  have hcount := length_remaining hnodup hrange
  obtain ⟨taken, known, full, whole, hprefix, hloop, hfull, hknown, hmany⟩ :=
    undisturbed_arrivals hchunkSize hlength
      (fun _ _ _ hkeeps hchunk hfresh => hkeeps.write hpos hchunk hfresh) rfl hcount arrivals
      hopened hassembling harrivals (fun chunk hchunk => Or.inr (hall chunk hchunk))
  rw [hknown.complete hpos (hcount.symm ▸ hmany)] at hfull
  obtain ⟨final, hfinish, hfinal⟩ := undisturbed_finalize hfull
  have hrun := (hopen.append hloop).append hfinish
  simp only [List.append_nil, List.nil_append] at hrun
  exact ⟨taken, final, hprefix, hrun, hfinal⟩

end Receiving

/-! ## Both together -/

theorem Carried.mem {codec : Codec} {config : ConfigMessage} {bytes : Bytes} {chunks : List Nat}
    {streams : List Bytes} (hcarried : Carried codec config bytes chunks streams) :
    (∀ raw ∈ streams, ∃ chunk ∈ chunks,
        CarriesChunk codec config raw chunk (chunkAt bytes config.chunkSize.toNat chunk)) ∧
      ∀ chunk ∈ chunks, ∃ raw ∈ streams,
        CarriesChunk codec config raw chunk (chunkAt bytes config.chunkSize.toNat chunk) := by
  induction hcarried with
  | nil =>
      exact ⟨fun _ hmem => absurd hmem List.not_mem_nil, fun _ hmem => absurd hmem List.not_mem_nil⟩
  | @cons chunk raw chunks streams hcarries hrest ih =>
      constructor
      · intro other hother
        rcases List.mem_cons.mp hother with rfl | hlater
        · exact ⟨chunk, List.mem_cons_self, hcarries⟩
        · obtain ⟨found, hfound, hmatch⟩ := ih.1 other hlater
          exact ⟨found, List.mem_cons_of_mem _ hfound, hmatch⟩
      · intro other hother
        rcases List.mem_cons.mp hother with rfl | hlater
        · exact ⟨raw, List.mem_cons_self, hcarries⟩
        · obtain ⟨found, hfound, hmatch⟩ := ih.2 other hlater
          exact ⟨found, List.mem_cons_of_mem _ hfound, hmatch⟩

theorem streamIndex_of_carriesChunk {codec : Codec} {config : ConfigMessage} {raw data : Bytes}
    {chunk : Nat} (hcarries : CarriesChunk codec config raw chunk data)
    (hwidth : chunk < 2 ^ 64) : streamIndex raw = chunk := by
  obtain ⟨payload, compressed, rfl, _⟩ := hcarries
  exact streamIndex_chunkStream hwidth compressed payload

/-- Whatever the compressor decides and however the streams arrive, repeated or not, both
calls return the hash of the source and the final file is the source.  The length of a
file is a signed 64-bit number. -/
theorem single_file_reproduced {session : FolderSender.Session} {source store : Store}
    {memory : FolderTransferState} {index : Nat} {file : FileMetadata} {bytes : Bytes}
    (transferId : Uuid) (path : OsStr)
    (hlossless : session.codec.Lossless) (hchunkSize : session.config.chunkSize ≠ 0)
    (hlength : bytes.length < 2 ^ 63) (hfile : memory.files[index]? = some file)
    (hcontents : source (components (sourcePath session.basePath file)) = some bytes)
    (hnodup : (memory.getCompletedChunks index).Nodup)
    (hrange : ∀ chunk ∈ memory.getCompletedChunks index,
      chunk < chunksOf bytes.length session.config.chunkSize.toNat)
    (hshort : ((store (components (FileReceiver.partialPath path))).getD []).length ≤ bytes.length)
    (hheld : ∀ chunk ∈ memory.getCompletedChunks index,
      SlotAgrees ((store (components (FileReceiver.partialPath path))).getD []) bytes
        session.config.chunkSize.toNat chunk) :
    (∃ streams, Sends session source memory index streams (session.codec.sha256 bytes)) ∧
      ∀ streams checksum, Sends session source memory index streams checksum →
        (∀ raw ∈ streams, raw.length ≤ maxChunkStreamBytes) →
        checksum = session.codec.sha256 bytes ∧
          ∀ arrivals, (∀ raw, raw ∈ arrivals ↔ raw ∈ streams) →
            Receives ⟨session.codec, session.config, transferId⟩
              (taskFor path index session.config.chunkSize.toNat bytes
                (memory.getCompletedChunks index)) store arrivals bytes checksum := by
  obtain ⟨opened, hsends, hcarried⟩ := exists_sends hchunkSize hlength hlossless hfile hcontents
  refine ⟨⟨opened, hsends⟩, ?_⟩
  intro streams checksum hother hcap
  obtain ⟨rfl, rfl⟩ := hsends.unique hother
  refine ⟨rfl, ?_⟩
  intro arrivals harrivals
  obtain ⟨hstreams, hchunks⟩ := hcarried.mem
  have hwidth : ∀ chunk ∈ remaining (memory.getCompletedChunks index)
      (chunksOf bytes.length session.config.chunkSize.toNat), chunk < 2 ^ 64 := by
    intro chunk hchunk
    have hpos := chunkSize_pos hchunkSize
    have hinside := mul_lt_of_lt_chunksOf hpos (mem_remaining.mp hchunk).1
    have hle := Nat.le_mul_of_pos_right chunk hpos
    omega
  apply receives_of_outstanding hchunkSize hlength hnodup hrange rfl hshort hheld
  · intro raw hraw
    obtain ⟨chunk, hchunk, hcarries⟩ := hstreams raw ((harrivals raw).mp hraw)
    have hindex := streamIndex_of_carriesChunk hcarries (hwidth chunk hchunk)
    subst hindex
    exact ⟨hchunk, hcarries, hcap raw ((harrivals raw).mp hraw)⟩
  · intro chunk hchunk
    obtain ⟨raw, hraw, hcarries⟩ := hchunks chunk hchunk
    exact List.mem_map.mpr ⟨raw, (harrivals raw).mpr hraw,
      streamIndex_of_carriesChunk hcarries (hwidth chunk hchunk)⟩

/-! ## A file of two chunks, the first of which is there -/

def greeting : Bytes := [104, 105]

def greetingDigest : Digest :=
  ⟨[143, 67, 67, 70, 100, 143, 107, 150, 223, 137, 221, 169, 1, 197, 23, 107, 16, 166, 216, 57, 97,
    221, 60, 26, 200, 139, 89, 178, 220, 50, 122, 164], rfl⟩

def greetingFile : FileMetadata where
  path := [103]
  size := 2
  modified := 0
  checksum := FixedBytes.filled 32 0

def greetingSession : FolderSender.Session where
  codec := .stored fun _ => greetingDigest
  config := { ConfigMessage.default with compressionEnabled := false, chunkSize := 1 }
  basePath := [115]
  transferId := FixedBytes.filled 16 0
  durationMs := 0

/-- The sender has recorded the first chunk. -/
def greetingMemory : FolderTransferState where
  transferId := FixedBytes.filled 16 0
  folderName := [103]
  files := [greetingFile]
  completedFiles := []
  currentFile := none
  totalBytes := 2
  transferredBytes := 0
  fileChunks := fun index => if index = 0 then [0] else []
  config := greetingSession.config

def greetingSource : Store := fun location =>
  if location = components (sourcePath greetingSession.basePath greetingFile) then some greeting
  else none

/-- The receiver has written it. -/
def greetingStore : Store := fun location =>
  if location = components (FileReceiver.partialPath [111]) then some [104] else none

theorem single_file_reproduced_greeting :
    Sends greetingSession greetingSource greetingMemory 0 [chunkStream 1 false [105]]
        greetingDigest ∧
      ∀ arrivals, (∀ raw, raw ∈ arrivals ↔ raw ∈ [chunkStream 1 false [105]]) →
        Receives ⟨greetingSession.codec, greetingSession.config, FixedBytes.filled 16 0⟩
          (taskFor [111] 0 1 greeting [0]) greetingStore arrivals greeting greetingDigest := by
  have hsends : Sends greetingSession greetingSource greetingMemory 0 [chunkStream 1 false [105]]
      greetingDigest :=
    ⟨_, .quiet rfl rfl (.quiet rfl rfl (.quiet rfl rfl (.quiet rfl rfl (.quiet rfl rfl
      (.proceed rfl (.quiet rfl rfl (.quiet rfl rfl (.refl _))))))))⟩
  have hpresent : (greetingStore (components (FileReceiver.partialPath [111]))).getD [] = [104] := by
    decide
  have hheld : ∀ chunk ∈ greetingMemory.getCompletedChunks 0, SlotAgrees [104] greeting 1 chunk := by
    intro chunk hchunk position _ hhigh _
    have hfirst : chunk = 0 := List.mem_singleton.mp hchunk
    rw [hfirst] at hhigh
    have hstart : position = 0 := by omega
    rw [hstart]
    rfl
  have hall := @single_file_reproduced greetingSession greetingSource greetingStore greetingMemory 0
    greetingFile greeting (FixedBytes.filled 16 0) [111] (Codec.lossless_stored _) (by decide)
    (by decide) rfl rfl (by decide) (by decide) (by rw [hpresent]; decide)
    (by rw [hpresent]; exact hheld)
  exact ⟨hsends, (hall.2 _ _ hsends (by decide)).2⟩

end P2PFileTransfer.Transfer.SingleFile
