import P2PFileTransfer.Transfer.SingleFile

/-!
# The streams a sender opens, under the checks of a receiver

The sender cuts a file by the chunk size of the configuration and may compress a chunk into
more bytes than it has.  The receiver takes streams up to a fixed length.  Nothing relates the
two, so the streams of a call pass exactly when the chunks that the loop comes to are short
enough in the form in which they travel.
-/

namespace P2PFileTransfer.Transfer.StreamAcceptance

open P2PFileTransfer.Core
open P2PFileTransfer.Foundation.ByteFile
open P2PFileTransfer.Foundation.FileSystem
open P2PFileTransfer.Foundation.FixedWidth
open P2PFileTransfer.Foundation.Process
open P2PFileTransfer.Foundation.Run (invariant_run run run_append_of_run run_cons_of_step run_nil)
open P2PFileTransfer.Foundation.UnixPath
open P2PFileTransfer.Core.Protocol
open P2PFileTransfer.Core.TransferFile
open P2PFileTransfer.Core.TransferFolder
open P2PFileTransfer.Core.FolderSender
open P2PFileTransfer.Transfer.SingleFile (Reading greetingFile greetingMemory greetingSession
  greetingSource sendingFrom step_readChunk visitChunk_eq)

/-! ## What the receiver checks -/

/-- The checks that `receive_file` makes of a stream before it decodes the payload. -/
structure PassesChecks (config : ConfigMessage) (total : Nat) (raw : Bytes) : Prop where
  atMost : raw.length ≤ maxChunkStreamBytes
  atLeast : chunkHeaderBytes ≤ raw.length
  index : streamIndex raw < total
  compressed : streamCompressed raw = true → config.compressionEnabled = true

theorem PassesChecks.acceptChunk {config : ConfigMessage} {total : Nat} {raw : Bytes}
    (hpasses : PassesChecks config total raw) {codec : Codec} {seen : List Nat} {error : Error}
    (haccept : acceptChunk codec config total seen raw = .error error) :
    ∃ detail, error = .decompression detail := by
  rw [TransferFile.acceptChunk, if_neg (Nat.not_lt.mpr hpasses.atMost),
    if_neg (Nat.not_lt.mpr hpasses.atLeast), if_neg (Nat.not_le.mpr hpasses.index)] at haccept
  split at haccept
  · cases haccept
  · split at haccept
    · rename_i hflag
      rw [if_pos (hpasses.compressed hflag), decompress] at haccept
      cases hdecode : codec.decodeAll (streamPayload raw) with
      | ok data =>
          rw [hdecode] at haccept
          cases haccept
      | error detail =>
          rw [hdecode] at haccept
          cases haccept
          exact ⟨detail, rfl⟩
    · cases haccept

/-- A stream passes the checks when nothing but its payload can be refused. -/
theorem passesChecks_iff {config : ConfigMessage} {total : Nat} {raw : Bytes} :
    PassesChecks config total raw ↔ ∀ codec seen error,
      acceptChunk codec config total seen raw = .error error →
        ∃ detail, error = .decompression detail := by
  constructor
  · intro hpasses codec seen error haccept
    exact hpasses.acceptChunk haccept
  · intro hrefused
    have hfirst := hrefused (.stored fun _ => FixedBytes.filled 32 0) []
    rw [acceptChunk] at hfirst
    split at hfirst
    · obtain ⟨detail, hdetail⟩ := hfirst _ rfl
      cases hdetail
    · rename_i hlong
      split at hfirst
      · obtain ⟨detail, hdetail⟩ := hfirst _ rfl
        cases hdetail
      · rename_i hshort
        split at hfirst
        · obtain ⟨detail, hdetail⟩ := hfirst _ rfl
          cases hdetail
        · rename_i hrange
          refine ⟨Nat.le_of_not_lt hlong, Nat.le_of_not_lt hshort, Nat.lt_of_not_le hrange, ?_⟩
          intro hflag
          by_contra hdisabled
          rw [if_neg List.not_mem_nil, if_pos hflag, if_neg hdisabled] at hfirst
          obtain ⟨detail, hdetail⟩ := hfirst _ rfl
          cases hdetail

/-! ## The form in which a chunk travels -/

def originalSize (chunks : List Bytes) : Nat := (chunks.map List.length).sum

/-- What the compressor makes of some chunks, in bytes. -/
def encodedSize (codec : Codec) (level : Int) (chunks : List Bytes) : Nat :=
  (chunks.map fun data =>
    match codec.encodeAll data level with
    | .ok encoded => encoded.length
    | .error _ => 0).sum

/-- After these chunks the adaptive compressor has seen that compressing does not pay. -/
def gaveUp (codec : Codec) (config : ConfigMessage) (earlier : List Bytes) : Bool :=
  config.adaptiveCompression && decide (3 ≤ earlier.length) &&
    codec.belowThreshold (originalSize (earlier.take 3))
      (encodedSize codec config.compressionLevel (earlier.take 3))

/-- The payload of a chunk sent after these, and whether it is compressed; none when the
compressor fails. -/
def wireForm (codec : Codec) (config : ConfigMessage) (earlier : List Bytes) (data : Bytes) :
    Option (Bytes × Bool) :=
  if config.compressionEnabled = true ∧ gaveUp codec config earlier = false then
    match codec.encodeAll data config.compressionLevel with
    | .ok encoded => some (encoded, true)
    | .error _ => none
  else some (data, false)

/-- The state of the compressor after these chunks. -/
def compressorAt (codec : Codec) (config : ConfigMessage) (earlier : List Bytes) :
    Option AdaptiveCompressor :=
  if config.compressionEnabled then
    some (if config.adaptiveCompression then
      { level := config.compressionLevel
        sampleSize := 3
        chunksSampled := min earlier.length 3
        totalOriginalSize := originalSize (earlier.take 3)
        totalCompressedSize := encodedSize codec config.compressionLevel (earlier.take 3)
        compressionEnabled := !gaveUp codec config earlier
        compressionDecided := decide (3 ≤ earlier.length) }
    else .new config.compressionLevel 0)
  else none

section Compression

variable {codec : Codec} {config : ConfigMessage} {earlier : List Bytes} {data form : Bytes}
  {compressed : Bool}

theorem compressorAt_nil (codec : Codec) (config : ConfigMessage) :
    compressorAt codec config [] = startCompressor config := by
  unfold compressorAt startCompressor
  cases config.compressionEnabled <;> cases hadaptive : config.adaptiveCompression <;>
    simp [AdaptiveCompressor.new, gaveUp, originalSize, encodedSize]

theorem originalSize_append (earlier : List Bytes) (data : Bytes) :
    originalSize (earlier ++ [data]) = originalSize earlier + data.length := by
  simp [originalSize]

theorem encodedSize_append {level : Int} {encoded : Bytes} (earlier : List Bytes)
    (hencode : codec.encodeAll data level = .ok encoded) :
    encodedSize codec level (earlier ++ [data]) =
      encodedSize codec level earlier + encoded.length := by
  simp [encodedSize, hencode]

/-- Behind the third chunk the decision stands. -/
theorem gaveUp_append (hmany : 3 ≤ earlier.length) (data : Bytes) :
    gaveUp codec config (earlier ++ [data]) = gaveUp codec config earlier := by
  have hlength : 3 ≤ (earlier ++ [data]).length := by
    rw [List.length_append]
    exact Nat.le_add_right_of_le hmany
  rw [gaveUp, gaveUp, List.take_append_of_le_length hmany, decide_eq_true hlength,
    decide_eq_true hmany]

theorem compressorAt_append (hmany : 3 ≤ earlier.length) (data : Bytes) :
    compressorAt codec config (earlier ++ [data]) = compressorAt codec config earlier := by
  have hlength : 3 ≤ (earlier ++ [data]).length := by
    rw [List.length_append]
    exact Nat.le_add_right_of_le hmany
  rw [compressorAt, compressorAt, gaveUp_append hmany, List.take_append_of_le_length hmany,
    Nat.min_eq_right hlength, Nat.min_eq_right hmany, decide_eq_true hlength, decide_eq_true hmany]

theorem gaveUp_of_short (hfew : earlier.length < 3) : gaveUp codec config earlier = false := by
  simp [gaveUp, Nat.not_le.mpr hfew]

theorem wireForm_of_disabled (hdisabled : config.compressionEnabled = false)
    (earlier : List Bytes) (data : Bytes) :
    wireForm codec config earlier data = some (data, false) := by
  simp [wireForm, hdisabled]

/-- Only a compressor makes compressed payloads. -/
theorem enabled_of_wireForm (hform : wireForm codec config earlier data = some (form, true)) :
    config.compressionEnabled = true := by
  rw [wireForm] at hform
  split at hform
  · rename_i hactive
    exact hactive.1
  · cases hform

/-! ## The compressor in its closed form -/

theorem compress_of_disabled {compressor : AdaptiveCompressor}
    (hdecided : compressor.compressionDecided = true)
    (hdisabled : compressor.compressionEnabled = false) :
    compressor.compress codec data = .ok (compressor, data, false) := by
  simp [AdaptiveCompressor.compress, hdecided, hdisabled]

theorem compress_of_decided {compressor : AdaptiveCompressor} {encoded : Bytes}
    (hdecided : compressor.compressionDecided = true)
    (henabled : compressor.compressionEnabled = true)
    (hencode : codec.encodeAll data compressor.level = .ok encoded) :
    compressor.compress codec data = .ok (compressor, encoded, true) := by
  simp [AdaptiveCompressor.compress, TransferFile.compress, hdecided, henabled, hencode]

theorem compress_of_error {compressor : AdaptiveCompressor} {detail : Text}
    (henabled : compressor.compressionEnabled = true)
    (hencode : codec.encodeAll data compressor.level = .error detail) :
    compressor.compress codec data = .error (.compression detail) := by
  simp [AdaptiveCompressor.compress, TransferFile.compress, henabled, hencode]

/-- One of the first three chunks is sampled, and the third one decides. -/
theorem compress_sampling {encoded : Bytes} (hadaptive : config.adaptiveCompression = true)
    (hfew : earlier.length < 3)
    (hencode : codec.encodeAll data config.compressionLevel = .ok encoded) :
    prepareChunk codec (some
        { level := config.compressionLevel
          sampleSize := 3
          chunksSampled := earlier.length
          totalOriginalSize := originalSize earlier
          totalCompressedSize := encodedSize codec config.compressionLevel earlier
          compressionEnabled := true
          compressionDecided := false }) data =
      .ok (some
        { level := config.compressionLevel
          sampleSize := 3
          chunksSampled := earlier.length + 1
          totalOriginalSize := originalSize (earlier ++ [data])
          totalCompressedSize := encodedSize codec config.compressionLevel (earlier ++ [data])
          compressionEnabled := !gaveUp codec config (earlier ++ [data])
          compressionDecided := decide (3 ≤ earlier.length + 1) }, encoded, true) := by
  have hall : (earlier ++ [data]).take 3 = earlier ++ [data] := by
    apply List.take_of_length_le
    rw [List.length_append]
    exact hfew
  by_cases hlast : 3 ≤ earlier.length + 1
  · simp [prepareChunk, AdaptiveCompressor.compress, TransferFile.compress, hencode, hlast, gaveUp,
      hadaptive, hall, originalSize_append, encodedSize_append earlier hencode]
  · simp [prepareChunk, AdaptiveCompressor.compress, TransferFile.compress, hencode, hlast, gaveUp,
      originalSize_append, encodedSize_append earlier hencode]

theorem compressorAt_of_few (henabled : config.compressionEnabled = true)
    (hadaptive : config.adaptiveCompression = true) (hfew : earlier.length ≤ 3) :
    compressorAt codec config earlier = some
      { level := config.compressionLevel
        sampleSize := 3
        chunksSampled := earlier.length
        totalOriginalSize := originalSize earlier
        totalCompressedSize := encodedSize codec config.compressionLevel earlier
        compressionEnabled := !gaveUp codec config earlier
        compressionDecided := decide (3 ≤ earlier.length) } := by
  rw [compressorAt, if_pos henabled, if_pos hadaptive, List.take_of_length_le hfew,
    Nat.min_eq_left hfew]

/-- Once nothing is sampled any more, the compressor stays as it is. -/
theorem compressorAt_settled (codec : Codec) (data : Bytes)
    (henabled : config.compressionEnabled = true)
    (hsettled : config.adaptiveCompression = true → 3 ≤ earlier.length) :
    ∃ compressor, compressorAt codec config earlier = some compressor ∧
      compressor.level = config.compressionLevel ∧ compressor.compressionDecided = true ∧
      compressor.compressionEnabled = !gaveUp codec config earlier ∧
      compressorAt codec config (earlier ++ [data]) = some compressor := by
  cases hadaptive : config.adaptiveCompression with
  | true =>
      have hmany := hsettled hadaptive
      rw [compressorAt_append hmany, compressorAt, if_pos henabled, if_pos hadaptive]
      exact ⟨_, rfl, rfl, decide_eq_true hmany, rfl, rfl⟩
  | false =>
      have hnever : gaveUp codec config earlier = false := by simp [gaveUp, hadaptive]
      simp only [compressorAt, if_pos henabled, hadaptive, Bool.false_eq_true, if_false, hnever]
      exact ⟨_, rfl, rfl, rfl, rfl, rfl⟩

/-- The loop sends a chunk in its form and goes on with the compressor behind it. -/
theorem prepareChunk_of_wireForm
    (hform : wireForm codec config earlier data = some (form, compressed)) :
    prepareChunk codec (compressorAt codec config earlier) data =
      .ok (compressorAt codec config (earlier ++ [data]), form, compressed) := by
  cases henabled : config.compressionEnabled with
  | false =>
      rw [wireForm_of_disabled henabled] at hform
      cases hform
      simp [compressorAt, henabled, prepareChunk]
  | true =>
      rw [wireForm] at hform
      by_cases hsettled : config.adaptiveCompression = true → 3 ≤ earlier.length
      · obtain ⟨compressor, hnow, hlevel, hdecided, hactive, hthen⟩ :=
          compressorAt_settled codec data henabled hsettled
        rw [hnow, hthen, prepareChunk]
        cases hgave : gaveUp codec config earlier with
        | true =>
            rw [hgave, if_neg (fun hboth => Bool.false_ne_true hboth.2.symm)] at hform
            cases hform
            rw [hgave] at hactive
            rw [compress_of_disabled hdecided hactive]
        | false =>
            rw [hgave, henabled, if_pos ⟨rfl, rfl⟩] at hform
            rw [hgave] at hactive
            split at hform
            · rename_i encoded hencode
              cases hform
              rw [compress_of_decided hdecided hactive (hlevel ▸ hencode)]
            · cases hform
      · obtain ⟨hadaptive, hmany⟩ := Classical.not_imp.mp hsettled
        have hfew := Nat.lt_of_not_le hmany
        have hlength : (earlier ++ [data]).length = earlier.length + 1 := List.length_append
        rw [gaveUp_of_short hfew, henabled, if_pos ⟨rfl, rfl⟩] at hform
        split at hform
        · rename_i encoded hencode
          cases hform
          rw [compressorAt_of_few henabled hadaptive (Nat.le_of_lt hfew), gaveUp_of_short hfew,
            decide_eq_false hmany, compressorAt_of_few henabled hadaptive (hlength ▸ hfew), hlength]
          exact compress_sampling hadaptive hfew hencode
        · cases hform

/-- A chunk without a form stops the call. -/
theorem prepareChunk_of_wireForm_none (hform : wireForm codec config earlier data = none) :
    ∃ error, prepareChunk codec (compressorAt codec config earlier) data = .error error := by
  rw [wireForm] at hform
  split at hform
  · rename_i hactive
    split at hform
    · cases hform
    · rename_i detail hencode
      refine ⟨.compression detail, ?_⟩
      rw [compressorAt, if_pos hactive.1, hactive.2, prepareChunk]
      cases config.adaptiveCompression with
      | true =>
          rw [if_pos rfl, compress_of_error rfl hencode]
      | false =>
          rw [if_neg Bool.false_ne_true, compress_of_error rfl hencode]
  · cases hform

end Compression

/-! ## The loop of a call -/

/-- The data of the chunks below `count` that still have to be sent. -/
def sentBefore (config : ConfigMessage) (bytes : Bytes) (completed : List Nat) (count : Nat) :
    List Bytes :=
  (remaining completed count).map (chunkAt bytes config.chunkSize.toNat)

/-- The form of a chunk of the file, behind those that are sent before it. -/
def formAt (codec : Codec) (config : ConfigMessage) (bytes : Bytes) (completed : List Nat)
    (chunk : Nat) : Option (Bytes × Bool) :=
  wireForm codec config (sentBefore config bytes completed chunk)
    (chunkAt bytes config.chunkSize.toNat chunk)

/-- The compressor takes every chunk that is sent before this one. -/
def Reached (codec : Codec) (config : ConfigMessage) (bytes : Bytes) (completed : List Nat)
    (count : Nat) : Prop :=
  ∀ chunk ∈ remaining completed count, (formAt codec config bytes completed chunk).isSome

/-- Every chunk that the loop comes to starts inside a file of this size, and travels in a form
that is short enough behind its header. -/
def Fits (codec : Codec) (config : ConfigMessage) (size : Nat) (bytes : Bytes)
    (completed : List Nat) : Prop :=
  ∀ count, chunkCount bytes.length config.chunkSize = .ok count →
    ∀ chunk ∈ remaining completed count, Reached codec config bytes completed chunk →
      ∀ form compressed, formAt codec config bytes completed chunk = some (form, compressed) →
        chunk * config.chunkSize.toNat < size ∧
          chunkHeaderBytes + form.length ≤ maxChunkStreamBytes

/-- What holds at the head of the loop. -/
structure AtChunk (session : Session) (source : Store) (bytes : Bytes) (completed : List Nat)
    (index : Nat) (task : FileTask) : Prop where
  index : task.index = index
  listed : task.completed = completed
  counted : chunkCount bytes.length session.config.chunkSize = .ok task.totalChunks
  next : task.next ≤ task.totalChunks
  reading : Reading session source bytes task
  reached : Reached session.codec session.config bytes completed task.next
  compressor : task.compressor = compressorAt session.codec session.config
    (sentBefore session.config bytes completed task.next)

/-- The task behind the chunk at hand. -/
def behind (task : FileTask) : FileTask := { task with next := task.next + 1 }

/-- In the call for a file, started in this memory. -/
def InCall (session : Session) (source : Store) (memory : FolderTransferState) (bytes : Bytes)
    (completed : List Nat) (index : Nat) : Point → Prop
  | ⟨after, .openSource other⟩ => after = memory ∧ other = index
  | ⟨_, .chunkHead task⟩ => AtChunk session source bytes completed index task
  | ⟨_, .readChunk task offset length⟩ =>
      AtChunk session source bytes completed index task ∧ task.next < task.totalChunks ∧
        offset = task.next * session.config.chunkSize.toNat ∧
        length = min (bytes.length - task.next * session.config.chunkSize.toNat)
          session.config.chunkSize.toNat
  | ⟨_, .openStream task raw⟩ =>
      AtChunk session source bytes completed index (behind task) ∧
        task.next < task.totalChunks ∧ task.next ∉ completed ∧
        ∃ form compressed, formAt session.codec session.config bytes completed task.next =
            some (form, compressed) ∧ raw = chunkStream task.next compressed form
  | ⟨_, .awaitStopped task⟩ => AtChunk session source bytes completed index (behind task)
  | _ => False

/-- Behind the call for a file: its loop is over, or a later file is at hand. -/
def Later (index : Nat) : Stage → Prop
  | .fileHead other | .openSource other => index < other
  | .chunkHead task | .readChunk task _ _ | .openStream task _ | .awaitStopped task =>
      index < task.index
  | .sendChecksum other _ | .recvChecksum other _ => index ≤ other
  | .sendComplete => True
  | .begin | .scan | .sendInfo _ | .recvReady => False

def LaterStatus (index : Nat) (status : PointStatus) : Prop :=
  ∀ point, status = .running point → Later index point.stage

theorem sentBefore_of_mem {config : ConfigMessage} {completed : List Nat} {count : Nat}
    (bytes : Bytes) (hmem : count ∈ completed) :
    sentBefore config bytes completed (count + 1) = sentBefore config bytes completed count := by
  rw [sentBefore, remaining_succ_of_mem hmem, sentBefore]

theorem sentBefore_of_not_mem {config : ConfigMessage} {completed : List Nat} {count : Nat}
    (bytes : Bytes) (hfresh : count ∉ completed) :
    sentBefore config bytes completed (count + 1) =
      sentBefore config bytes completed count ++ [chunkAt bytes config.chunkSize.toNat count] := by
  rw [sentBefore, remaining_succ_of_not_mem hfresh, List.map_append, sentBefore, List.map_singleton]

section Loop

variable {codec : Codec} {config : ConfigMessage} {bytes : Bytes} {completed : List Nat}

theorem reached_zero : Reached codec config bytes completed 0 := by
  intro chunk hchunk
  exact absurd (mem_remaining.mp hchunk).1 (Nat.not_lt_zero chunk)

theorem Reached.mono {count more : Nat} (hreached : Reached codec config bytes completed more)
    (hle : count ≤ more) : Reached codec config bytes completed count := by
  intro chunk hchunk
  obtain ⟨hless, hfresh⟩ := mem_remaining.mp hchunk
  exact hreached chunk (mem_remaining.mpr ⟨Nat.lt_of_lt_of_le hless hle, hfresh⟩)

theorem Reached.succ_of_mem {count : Nat} (hreached : Reached codec config bytes completed count)
    (hmem : count ∈ completed) : Reached codec config bytes completed (count + 1) := by
  intro chunk hchunk
  rw [remaining_succ_of_mem hmem] at hchunk
  exact hreached chunk hchunk

theorem Reached.succ {count : Nat} {form : Bytes} {compressed : Bool}
    (hreached : Reached codec config bytes completed count)
    (hform : formAt codec config bytes completed count = some (form, compressed)) :
    Reached codec config bytes completed (count + 1) := by
  intro chunk hchunk
  obtain ⟨hless, hfresh⟩ := mem_remaining.mp hchunk
  rcases Nat.lt_succ_iff_lt_or_eq.mp hless with hbefore | rfl
  · exact hreached chunk (mem_remaining.mpr ⟨hbefore, hfresh⟩)
  · rw [hform]
    rfl

theorem length_lt_of_chunkCount {length count : Nat} {chunkSize : UInt32}
    (hcount : chunkCount length chunkSize = .ok count) : length < 2 ^ 64 := by
  by_contra hwide
  have hlong : ¬ length + chunkSize.toNat < 2 ^ 64 := by omega
  rw [chunkCount, add, fit, if_neg hlong] at hcount
  cases hcount

variable {session : Session} {source : Store} {memory : FolderTransferState} {index : Nat}
  {task : FileTask}

theorem AtChunk.chunkSize (hat : AtChunk session source bytes completed index task) :
    session.config.chunkSize ≠ 0 := chunkSize_ne_zero_of_chunkCount hat.counted

theorem AtChunk.visitChunk (hat : AtChunk session source bytes completed index task)
    (hmore : task.next < task.totalChunks) :
    visitChunk session memory task =
      .running ⟨memory, .readChunk task (task.next * session.config.chunkSize.toNat)
        (min (bytes.length - task.next * session.config.chunkSize.toNat)
          session.config.chunkSize.toNat)⟩ :=
  visitChunk_eq hat.chunkSize (length_lt_of_chunkCount hat.counted) hat.reading hmore

/-- A chunk that the receiver has is passed over. -/
theorem AtChunk.skip (hat : AtChunk session source bytes completed index task)
    (hmore : task.next < task.totalChunks) (hskip : task.next ∈ completed) :
    AtChunk session source bytes completed index
      (SingleFile.advance task (chunkAt bytes session.config.chunkSize.toNat task.next)
        task.compressor) := by
  refine ⟨hat.index, hat.listed, hat.counted, hmore, hat.reading.advance hat.reading.compressor,
    hat.reached.succ_of_mem hskip, ?_⟩
  change task.compressor = compressorAt _ _ (sentBefore _ _ _ (task.next + 1))
  rw [hat.compressor, sentBefore_of_mem bytes hskip]

/-- A chunk that is sent leaves the compressor behind it. -/
theorem AtChunk.send (hat : AtChunk session source bytes completed index task)
    (hmore : task.next < task.totalChunks) {form : Bytes} {compressed : Bool}
    (hform : formAt session.codec session.config bytes completed task.next =
      some (form, compressed)) :
    AtChunk session source bytes completed index
      (SingleFile.advance task (chunkAt bytes session.config.chunkSize.toNat task.next)
        (compressorAt session.codec session.config
          (sentBefore session.config bytes completed (task.next + 1)))) := by
  refine ⟨hat.index, hat.listed, hat.counted, hmore, hat.reading.advance ?_,
    hat.reached.succ hform, rfl⟩
  intro hsome
  by_contra hdisabled
  rw [compressorAt, if_neg hdisabled] at hsome
  cases hsome

/-- What is done with the chunk at hand. -/
theorem AtChunk.handleChunk (hat : AtChunk session source bytes completed index task)
    (hmore : task.next < task.totalChunks) (memory : FolderTransferState) (offset length : Nat) :
    (task.next ∈ completed ∧
      handleChunk session memory task offset length
          (chunkAt bytes session.config.chunkSize.toNat task.next) =
        .running ⟨memory, .chunkHead (SingleFile.advance task
          (chunkAt bytes session.config.chunkSize.toNat task.next) task.compressor)⟩) ∨
    (task.next ∉ completed ∧
      formAt session.codec session.config bytes completed task.next = none ∧
      ∃ error, handleChunk session memory task offset length
          (chunkAt bytes session.config.chunkSize.toNat task.next) =
        .failed ⟨memory, .readChunk task offset length⟩ error) ∨
    ∃ form compressed after, task.next ∉ completed ∧
      formAt session.codec session.config bytes completed task.next = some (form, compressed) ∧
      after.next = task.next ∧ after.totalChunks = task.totalChunks ∧
      AtChunk session source bytes completed index (behind after) ∧
      handleChunk session memory task offset length
          (chunkAt bytes session.config.chunkSize.toNat task.next) =
        .running ⟨memory, .openStream after (chunkStream task.next compressed form)⟩ := by
  rw [FolderSender.handleChunk]
  by_cases hskip : task.next ∈ completed
  · exact .inl ⟨hskip, if_pos (hat.listed ▸ hskip)⟩
  · rw [if_neg (hat.listed ▸ hskip), hat.compressor]
    cases hform : formAt session.codec session.config bytes completed task.next with
    | none =>
        obtain ⟨error, herror⟩ := prepareChunk_of_wireForm_none hform
        rw [herror]
        exact .inr (.inl ⟨hskip, rfl, error, rfl⟩)
    | some found =>
        obtain ⟨form, compressed⟩ := found
        have hprepare := prepareChunk_of_wireForm hform
        rw [← sentBefore_of_not_mem bytes hskip] at hprepare
        rw [hprepare]
        refine .inr (.inr ⟨form, compressed, { task with
          hashed := task.hashed ++ chunkAt bytes session.config.chunkSize.toNat task.next
          compressor := compressorAt session.codec session.config
            (sentBefore session.config bytes completed (task.next + 1)) }, hskip, rfl, rfl, rfl,
          hat.send hmore hform, rfl⟩)

/-! ## Every run of the call -/

theorem laterStatus_of_running {point : Point} (hlater : Later index point.stage) :
    LaterStatus index (.running point) := by
  rintro _ ⟨⟩
  exact hlater

theorem laterStatus_of_halted {status : PointStatus} (hhalted : status.Halted) :
    LaterStatus index status := by
  rintro point rfl
  exact hhalted.elim

theorem laterStatus_visitFile {other : Nat} (hlater : index < other) :
    LaterStatus index (visitFile memory other) := by
  rw [visitFile]
  split
  · split
    · exact laterStatus_of_running (Nat.lt_succ_of_lt hlater)
    · exact laterStatus_of_running hlater
  · exact laterStatus_of_running trivial

theorem laterStatus_openReader {other : Nat} (hlater : index < other) (size : Nat) :
    LaterStatus index (openReader session memory other size) := by
  rw [openReader]
  cases chunkCount size session.config.chunkSize with
  | error fault => exact laterStatus_of_halted trivial
  | ok total => exact laterStatus_of_running hlater

theorem laterStatus_visitChunk (hlater : index < task.index) :
    LaterStatus index (FolderSender.visitChunk session memory task) := by
  rw [FolderSender.visitChunk]
  split
  · cases hmul : mul 64 task.next session.config.chunkSize.toNat with
    | error fault => exact laterStatus_of_halted trivial
    | ok offset =>
        cases hsub : sub task.fileSize offset with
        | error fault =>
            simp only [Status.ofChecked, hsub]
            exact laterStatus_of_halted trivial
        | ok rest =>
            simp only [Status.ofChecked, hsub]
            exact laterStatus_of_running hlater
  · exact laterStatus_of_running (Nat.le_of_lt hlater)

theorem laterStatus_handleChunk (hlater : index < task.index) (offset length : Nat)
    (data : Bytes) :
    LaterStatus index (FolderSender.handleChunk session memory task offset length data) := by
  rw [FolderSender.handleChunk]
  split
  · exact laterStatus_of_running hlater
  · cases prepareChunk session.codec task.compressor data with
    | error error => exact laterStatus_of_halted trivial
    | ok prepared => exact laterStatus_of_running hlater

theorem laterStatus_compareChecksum {other : Nat} (hlater : index ≤ other) (checksum : Digest)
    (message : Message) : LaterStatus index (compareChecksum memory other checksum message) := by
  unfold compareChecksum
  split
  · split
    · exact laterStatus_of_halted trivial
    · exact laterStatus_of_running (Nat.lt_succ_of_le hlater)
  · exact laterStatus_of_halted trivial

theorem laterStatus_inductive (index : Nat) :
    Inductive (machine session) (LaterStatus index) := by
  constructor
  · rintro ⟨memory, stage⟩ reply hfits hstatus
    have hlater : Later index stage := hstatus _ rfl
    change LaterStatus index (resume session ⟨memory, stage⟩ reply)
    change (action session ⟨memory, stage⟩).Fits reply at hfits
    cases stage <;> cases reply <;> try first | exact hfits.elim | exact hlater.elim
    case fileHead.done other => exact laterStatus_visitFile hlater
    case openSource.value other value =>
        cases value with
        | size size => exact laterStatus_openReader hlater size
        | unit | bytes _ => exact laterStatus_of_running hlater
    case chunkHead.done task => exact laterStatus_visitChunk hlater
    case readChunk.value task offset length value =>
        cases value with
        | bytes data => exact laterStatus_handleChunk hlater offset length data
        | unit | size _ => exact laterStatus_of_running hlater
    case openStream.done task raw => exact laterStatus_of_running hlater
    case awaitStopped.done task => exact laterStatus_of_running hlater
    case sendChecksum.done other checksum => exact laterStatus_of_running hlater
    case recvChecksum.message other checksum message =>
        exact laterStatus_compareChecksum hlater checksum message
    case sendComplete.done => exact laterStatus_of_halted trivial
  · exact fun _ _ _ => laterStatus_of_halted trivial

/-- In the call for a file, or behind it. -/
def Within (session : Session) (source : Store) (memory : FolderTransferState) (bytes : Bytes)
    (completed : List Nat) (index : Nat) (status : PointStatus) : Prop :=
  (∃ point, status = .running point ∧ InCall session source memory bytes completed index point) ∨
    LaterStatus index status

theorem within_visitChunk (hat : AtChunk session source bytes completed index task)
    (after : FolderTransferState) :
    Within session source memory bytes completed index
      (FolderSender.visitChunk session after task) := by
  by_cases hmore : task.next < task.totalChunks
  · rw [hat.visitChunk hmore]
    exact .inl ⟨_, rfl, hat, hmore, rfl, rfl⟩
  · rw [FolderSender.visitChunk, if_neg hmore]
    exact .inr (laterStatus_of_running (Nat.le_of_eq hat.index.symm))

theorem within_handleChunk (hat : AtChunk session source bytes completed index task)
    (hmore : task.next < task.totalChunks) (after : FolderTransferState) (offset length : Nat) :
    Within session source memory bytes completed index
      (FolderSender.handleChunk session after task offset length
        (chunkAt bytes session.config.chunkSize.toNat task.next)) := by
  rcases hat.handleChunk hmore after offset length with ⟨hskip, hnext⟩ |
    ⟨_, _, error, hnext⟩ | ⟨form, compressed, sent, hfresh, hform, hsame, htotal, hbehind, hnext⟩
  · rw [hnext]
    exact .inl ⟨_, rfl, hat.skip hmore hskip⟩
  · rw [hnext]
    exact .inr (laterStatus_of_halted trivial)
  · rw [hnext]
    refine .inl ⟨_, rfl, hbehind, ?_, hsame.symm ▸ hfresh, form, compressed, ?_, ?_⟩
    · rw [hsame, htotal]
      exact hmore
    · rw [hsame]
      exact hform
    · rw [hsame]

/-- The first chunk of a file that was just opened is at hand. -/
theorem within_openReader (hcompleted : completed = memory.getCompletedChunks index)
    {file : FileMetadata} (hfile : memory.files[index]? = some file)
    (hcontents : source (components (sourcePath session.basePath file)) = some bytes) :
    Within session source memory bytes completed index
      (openReader session memory index bytes.length) := by
  rw [openReader]
  cases hcount : chunkCount bytes.length session.config.chunkSize with
  | error fault => exact .inr (laterStatus_of_halted trivial)
  | ok total =>
      refine .inl ⟨_, rfl, ⟨rfl, hcompleted.symm, hcount, Nat.zero_le _, ?_, reached_zero, ?_⟩⟩
      · refine ⟨?_, rfl, eq_chunksOf_of_chunkCount hcount, ?_, ?_⟩
        · rw [hfile]
          exact hcontents
        · rw [Nat.zero_mul, List.take_zero]
        · intro hsome
          by_contra hdisabled
          rw [startCompressor, if_neg hdisabled] at hsome
          cases hsome
      · exact (compressorAt_nil session.codec session.config).symm

/-- What the file system answers on opening the file. -/
theorem run_stat {file : FileMetadata} (hfile : memory.files[index]? = some file)
    (hcontents : source (components (sourcePath session.basePath file)) = some bytes) :
    (Operation.stat (components ((memory.files[index]?.map
      (sourcePath session.basePath)).getD []))).run source = some (source, .size bytes.length) := by
  rw [hfile, Option.map_some, Option.getD_some, Operation.run, hcontents]
  rfl

theorem within_resume (hcompleted : completed = memory.getCompletedChunks index)
    {file : FileMetadata} (hfile : memory.files[index]? = some file)
    (hcontents : source (components (sourcePath session.basePath file)) = some bytes)
    {point : Point} {input : SenderInput} {reply : Reply Message Scan} {left : Store}
    (hcall : InCall session source memory bytes completed index point)
    (hreply : (action session point).reply input source = some (reply, left)) :
    Within session source memory bytes completed index (resume session point reply) := by
  have hfits := Action.fits_of_reply hreply
  obtain ⟨after, stage⟩ := point
  cases stage <;> cases reply <;> try first | exact hfits.elim | exact hcall.elim
  case openSource.value other value =>
      obtain ⟨rfl, rfl⟩ := hcall
      obtain ⟨_, found, hvalue, hrun⟩ := Action.performed hreply
      cases hvalue
      rw [run_stat hfile hcontents] at hrun
      cases hrun
      exact within_openReader hcompleted hfile hcontents
  case chunkHead.done task => exact within_visitChunk hcall after
  case readChunk.value task offset length value =>
      obtain ⟨hat, hmore, rfl, rfl⟩ := hcall
      obtain ⟨_, found, hvalue, hrun⟩ := Action.performed hreply
      cases hvalue
      rw [SingleFile.run_readAt hat.chunkSize hat.reading hmore] at hrun
      cases hrun
      exact within_handleChunk hat hmore after _ _
  case openStream.done task raw => exact .inl ⟨_, rfl, hcall.1⟩
  case awaitStopped.done task => exact .inl ⟨_, rfl, hcall⟩

theorem within_of_run (hcompleted : completed = memory.getCompletedChunks index)
    {file : FileMetadata} (hfile : memory.files[index]? = some file)
    (hcontents : source (components (sourcePath session.basePath file)) = some bytes)
    {inputs : List SenderInput} {state : SenderState}
    (hrun : run (machine session).step (sendingFrom source memory index) inputs = some state) :
    Within session source memory bytes completed index state.status := by
  refine (invariant_run (fun state : SenderState => state.store = source ∧
    Within session source memory bytes completed index state.status) ?_ ⟨rfl, ?_⟩ hrun).2
  · rintro ⟨status, store⟩ input next ⟨rfl, hwithin⟩ hstep
    constructor
    · funext location
      refine step_frame hstep fun point _ => ?_
      change location ∉ (action session point).written
      rw [action_written]
      exact List.not_mem_nil
    · rcases hwithin with ⟨point, hstatus, hcall⟩ | hlater
      · cases stepped_of_step hstep with
        | fail hrunning hstore hnext =>
            rw [hnext]
            exact .inr (laterStatus_of_halted trivial)
        | resume hrunning hreply hnext =>
            rw [hstatus] at hrunning
            cases hrunning
            rw [hnext]
            exact within_resume hcompleted hfile hcontents hcall hreply
      · exact .inr ((laterStatus_inductive index).step hstep hlater)
  · exact .inl ⟨_, rfl, rfl, rfl⟩

/-- A stream that the call opens carries an outstanding chunk that its loop comes to. -/
theorem opened_of_run (hcompleted : completed = memory.getCompletedChunks index)
    {file : FileMetadata} (hfile : memory.files[index]? = some file)
    (hcontents : source (components (sourcePath session.basePath file)) = some bytes)
    {inputs : List SenderInput} {after : FolderTransferState} {raw : Bytes} {left : Store}
    (hrun : run (machine session).step (sendingFrom source memory index) inputs =
      some ⟨.running ⟨after, .openStream task raw⟩, left⟩) (hindex : task.index = index) :
    ∃ form compressed, chunkCount bytes.length session.config.chunkSize = .ok task.totalChunks ∧
      task.next ∈ remaining completed task.totalChunks ∧
      Reached session.codec session.config bytes completed task.next ∧
      formAt session.codec session.config bytes completed task.next = some (form, compressed) ∧
      raw = chunkStream task.next compressed form := by
  rcases within_of_run hcompleted hfile hcontents hrun with ⟨point, hstatus, hcall⟩ | hlater
  · cases hstatus
    obtain ⟨hbehind, hmore, hfresh, form, compressed, hform, hraw⟩ := hcall
    exact ⟨form, compressed, hbehind.counted, mem_remaining.mpr ⟨hmore, hfresh⟩,
      hbehind.reached.mono (Nat.le_succ _), hform, hraw⟩
  · have hless : index < task.index := hlater _ rfl
    exact absurd hless (hindex ▸ Nat.lt_irrefl _)

/-! ## A run to every chunk -/

/-- From the head of the loop to what is done with the chunk at hand. -/
theorem run_head (hat : AtChunk session source bytes completed index task)
    (hmore : task.next < task.totalChunks) (after : FolderTransferState) :
    run (machine session).step ⟨.running ⟨after, .chunkHead task⟩, source⟩ [.proceed, .proceed] =
      some ⟨FolderSender.handleChunk session after task
        (task.next * session.config.chunkSize.toNat)
        (min (bytes.length - task.next * session.config.chunkSize.toNat)
          session.config.chunkSize.toNat)
        (chunkAt bytes session.config.chunkSize.toNat task.next), source⟩ := by
  have hvisit : (machine session).step ⟨.running ⟨after, .chunkHead task⟩, source⟩ .proceed =
      some ⟨_, source⟩ :=
    congrArg (fun status => some (State.mk status source)) (hat.visitChunk hmore)
  rw [run_cons_of_step hvisit, run_cons_of_step (step_readChunk hat.chunkSize hat.reading hmore),
    run_nil]

/-- One round of the loop over a chunk that is not refused. -/
theorem exists_round (hat : AtChunk session source bytes completed index task)
    (hmore : task.next < task.totalChunks)
    (hreached : Reached session.codec session.config bytes completed (task.next + 1))
    (after : FolderTransferState) :
    ∃ inputs later other, run (machine session).step
        ⟨.running ⟨after, .chunkHead task⟩, source⟩ inputs =
          some ⟨.running ⟨later, .chunkHead other⟩, source⟩ ∧
      AtChunk session source bytes completed index other ∧ other.next = task.next + 1 := by
  have hhead := run_head hat hmore after
  rcases hat.handleChunk hmore after _ _ with ⟨hskip, hnext⟩ |
    ⟨hfresh, hform, _, _⟩ | ⟨form, compressed, sent, _, _, hsame, _, hbehind, hnext⟩
  · rw [hnext] at hhead
    exact ⟨_, _, _, hhead, hat.skip hmore hskip, rfl⟩
  · have htaken := hreached task.next (mem_remaining.mpr ⟨Nat.lt_succ_self _, hfresh⟩)
    rw [hform] at htaken
    cases htaken
  · rw [hnext] at hhead
    refine ⟨[.proceed, .proceed] ++ [.proceed, .proceed], after.markChunkComplete sent.index sent.next,
      behind sent, ?_, hbehind, congrArg Nat.succ hsame⟩
    rw [run_append_of_run hhead]
    rfl

/-- The loop comes to a chunk when the compressor takes those before it. -/
theorem exists_run_chunkHead (count : Nat)
    (hat : AtChunk session source bytes completed index task)
    (hcount : task.next + count ≤ task.totalChunks)
    (hreached : Reached session.codec session.config bytes completed (task.next + count))
    (after : FolderTransferState) :
    ∃ inputs later other, run (machine session).step
        ⟨.running ⟨after, .chunkHead task⟩, source⟩ inputs =
          some ⟨.running ⟨later, .chunkHead other⟩, source⟩ ∧
      AtChunk session source bytes completed index other ∧ other.next = task.next + count := by
  induction count generalizing task after with
  | zero => exact ⟨[], after, task, rfl, hat, rfl⟩
  | succ count ih =>
      have hround : Reached session.codec session.config bytes completed (task.next + 1) :=
        hreached.mono (by omega)
      obtain ⟨first, later, other, hfirst, hother, hnext⟩ :=
        exists_round hat (by omega) hround after
      have htotal : other.totalChunks = task.totalChunks :=
        Except.ok.inj (hother.counted.symm.trans hat.counted)
      have hsum : other.next + count = task.next + (count + 1) := by omega
      obtain ⟨rest, last, final, hrest, hfinal, hend⟩ :=
        ih hother (by rw [hsum, htotal]; exact hcount) (by rw [hsum]; exact hreached) later
      exact ⟨first ++ rest, last, final, (run_append_of_run hfirst rest).trans hrest, hfinal,
        hend.trans hsum⟩

theorem exists_openStream (hat : AtChunk session source bytes completed index task) {chunk : Nat}
    (hle : task.next ≤ chunk) (hless : chunk < task.totalChunks) (hfresh : chunk ∉ completed)
    (hreached : Reached session.codec session.config bytes completed chunk) {form : Bytes}
    {compressed : Bool}
    (hform : formAt session.codec session.config bytes completed chunk = some (form, compressed))
    (after : FolderTransferState) :
    ∃ inputs later sent, run (machine session).step
        ⟨.running ⟨after, .chunkHead task⟩, source⟩ inputs =
          some ⟨.running ⟨later, .openStream sent (chunkStream chunk compressed form)⟩, source⟩ ∧
      sent.index = index := by
  obtain ⟨count, rfl⟩ := Nat.exists_eq_add_of_le hle
  obtain ⟨inputs, later, other, hrun, hother, hnext⟩ :=
    exists_run_chunkHead count hat (Nat.le_of_lt hless) hreached after
  rw [← hnext] at hless hfresh hform ⊢
  have hmore : other.next < other.totalChunks :=
    Except.ok.inj (hat.counted.symm.trans hother.counted) ▸ hless
  have hhead := run_head hother hmore later
  rcases hother.handleChunk hmore later _ _ with ⟨hskip, _⟩ | ⟨_, hnone, _⟩ |
    ⟨found, flag, sent, _, hsent, _, _, hbehind, hhandled⟩
  · exact absurd hskip hfresh
  · rw [hform] at hnone
    cases hnone
  · rw [hform] at hsent
    cases hsent
    rw [hhandled] at hhead
    exact ⟨inputs ++ [.proceed, .proceed], later, sent, (run_append_of_run hrun _).trans hhead,
      hbehind.index⟩

/-- The call opens a stream for every outstanding chunk that its loop comes to. -/
theorem exists_opened (hcompleted : completed = memory.getCompletedChunks index)
    {file : FileMetadata} (hfile : memory.files[index]? = some file)
    (hcontents : source (components (sourcePath session.basePath file)) = some bytes)
    {count chunk : Nat} (hcount : chunkCount bytes.length session.config.chunkSize = .ok count)
    (hchunk : chunk ∈ remaining completed count)
    (hreached : Reached session.codec session.config bytes completed chunk) {form : Bytes}
    {compressed : Bool}
    (hform : formAt session.codec session.config bytes completed chunk = some (form, compressed)) :
    ∃ inputs after task, run (machine session).step (sendingFrom source memory index) inputs =
        some ⟨.running ⟨after, .openStream task (chunkStream chunk compressed form)⟩, source⟩ ∧
      task.index = index := by
  obtain ⟨hless, hfresh⟩ := mem_remaining.mp hchunk
  have hopen : (machine session).step (sendingFrom source memory index) .proceed =
      some ⟨openReader session memory index bytes.length, source⟩ :=
    step_perform rfl (run_stat hfile hcontents)
  rcases within_openReader hcompleted hfile hcontents with ⟨point, hstatus, hcall⟩ | hlater
  · have hnext := hstatus
    rw [openReader, hcount] at hnext
    cases hnext
    obtain ⟨inputs, later, sent, hrun, hindex⟩ :=
      exists_openStream hcall (Nat.zero_le chunk) hless hfresh hreached hform memory
    rw [hstatus] at hopen
    exact ⟨.proceed :: inputs, later, sent, (run_cons_of_step hopen _).trans hrun, hindex⟩
  · rw [openReader, hcount] at hlater
    exact absurd (hlater _ rfl) (Nat.lt_irrefl index)

end Loop

/-! ## Which calls pass -/

theorem lt_chunksOf_iff {size chunkSize chunk : Nat} (hpos : 0 < chunkSize) :
    chunk < chunksOf size chunkSize ↔ chunk * chunkSize < size := by
  constructor
  · exact mul_lt_of_lt_chunksOf hpos
  · intro hinside
    exact Nat.lt_of_mul_lt_mul_right (Nat.lt_of_lt_of_le hinside (le_chunksOf_mul size hpos))

theorem lt_of_mem_remaining {length count chunk : Nat} {chunkSize : UInt32} {completed : List Nat}
    (hcount : chunkCount length chunkSize = .ok count) (hchunk : chunk ∈ remaining completed count) :
    chunk * chunkSize.toNat < length ∧ chunk < 2 ^ 64 := by
  have hpos := chunkSize_pos (chunkSize_ne_zero_of_chunkCount hcount)
  have hless := (mem_remaining.mp hchunk).1
  rw [eq_chunksOf_of_chunkCount hcount] at hless
  have hinside := mul_lt_of_lt_chunksOf hpos hless
  have hwidth := length_lt_of_chunkCount hcount
  have hle := Nat.le_mul_of_pos_right chunk hpos
  exact ⟨hinside, by omega⟩

/-- The stream of an outstanding chunk fails the checks only for its length or for a chunk that
the file does not have. -/
theorem passesChecks_chunkStream_iff {config : ConfigMessage} {total chunk : Nat} {form : Bytes}
    {compressed : Bool} (hwidth : chunk < 2 ^ 64)
    (henabled : compressed = true → config.compressionEnabled = true) :
    PassesChecks config total (chunkStream chunk compressed form) ↔
      chunk < total ∧ chunkHeaderBytes + form.length ≤ maxChunkStreamBytes := by
  have hindex := streamIndex_chunkStream hwidth compressed form
  have hlength := length_chunkStream chunk compressed form
  constructor
  · intro hpasses
    exact ⟨hindex ▸ hpasses.index, hlength ▸ hpasses.atMost⟩
  · rintro ⟨hless, hshort⟩
    refine ⟨?_, ?_, ?_, ?_⟩
    · rw [hlength]
      exact hshort
    · rw [hlength]
      exact Nat.le_add_right _ _
    · rw [hindex]
      exact hless
    · rw [streamCompressed_chunkStream]
      exact henabled

/-- A chunk size and a compressor that stay below the cap are enough for a file that still has
the size in the manifest. -/
theorem fits_of_bounded {codec : Codec} {config : ConfigMessage}
    (hplain : chunkHeaderBytes + config.chunkSize.toNat ≤ maxChunkStreamBytes)
    (hencoded : ∀ data encoded, data.length ≤ config.chunkSize.toNat →
      codec.encodeAll data config.compressionLevel = .ok encoded →
        chunkHeaderBytes + encoded.length ≤ maxChunkStreamBytes)
    (bytes : Bytes) (completed : List Nat) :
    Fits codec config bytes.length bytes completed := by
  intro count hcount chunk hchunk _ form compressed hform
  refine ⟨(lt_of_mem_remaining hcount hchunk).1, ?_⟩
  have hlength := length_chunkAt_le bytes config.chunkSize.toNat chunk
  rw [formAt, wireForm] at hform
  split at hform
  · split at hform
    · rename_i encoded hencode
      cases hform
      exact hencoded _ _ hlength hencode
    · cases hform
  · cases hform
    exact Nat.le_trans (Nat.add_le_add_left hlength _) hplain

/-- Every stream that the call for a file opens passes the checks of the call that receives the
file exactly when the chunks that the loop comes to fit. -/
theorem opened_pass_iff {session : Session} {source : Store} {memory : FolderTransferState}
    {index total : Nat} {file : FileMetadata} {bytes : Bytes}
    (hfile : memory.files[index]? = some file)
    (hcontents : source (components (sourcePath session.basePath file)) = some bytes)
    (htotal : chunkCount file.size session.config.chunkSize = .ok total) :
    (∀ inputs after task raw left,
      run (machine session).step (sendingFrom source memory index) inputs =
          some ⟨.running ⟨after, .openStream task raw⟩, left⟩ →
        task.index = index → PassesChecks session.config total raw) ↔
      Fits session.codec session.config file.size bytes (memory.getCompletedChunks index) := by
  have hpos := chunkSize_pos (chunkSize_ne_zero_of_chunkCount htotal)
  have hinside : ∀ chunk, chunk < total ↔ chunk * session.config.chunkSize.toNat < file.size := by
    intro chunk
    rw [eq_chunksOf_of_chunkCount htotal]
    exact lt_chunksOf_iff hpos
  constructor
  · intro hall count hcount chunk hchunk hreached form compressed hform
    obtain ⟨inputs, after, task, hrun, hindex⟩ :=
      exists_opened rfl hfile hcontents hcount hchunk hreached hform
    have henabled : compressed = true → session.config.compressionEnabled = true := by
      rintro rfl
      exact enabled_of_wireForm hform
    rw [← hinside]
    exact (passesChecks_chunkStream_iff (lt_of_mem_remaining hcount hchunk).2 henabled).mp
      (hall inputs after task _ source hrun hindex)
  · intro hfits inputs after task raw left hrun hindex
    obtain ⟨form, compressed, hcount, hchunk, hreached, hform, rfl⟩ :=
      opened_of_run rfl hfile hcontents hrun hindex
    have henabled : compressed = true → session.config.compressionEnabled = true := by
      rintro rfl
      exact enabled_of_wireForm hform
    have hfit := hfits _ hcount _ hchunk hreached form compressed hform
    rw [← hinside] at hfit
    exact (passesChecks_chunkStream_iff (lt_of_mem_remaining hcount hchunk).2 henabled).mpr hfit

/-- The file of two chunks, the first of which is there. -/
theorem opened_pass_iff_greeting :
    (∀ inputs after task raw left,
      run (machine greetingSession).step (sendingFrom greetingSource greetingMemory 0) inputs =
          some ⟨.running ⟨after, .openStream task raw⟩, left⟩ →
        task.index = 0 → PassesChecks greetingSession.config 2 raw) ↔
      Fits greetingSession.codec greetingSession.config 2 SingleFile.greeting [0] :=
  have hfile : greetingMemory.files[0]? = some greetingFile := rfl
  opened_pass_iff hfile (if_pos rfl) rfl

/-! ## A chunk as long as the cap -/

/-- Chunks of 16 MiB, and nothing is compressed. -/
def wideSession : Session :=
  { greetingSession with config := { greetingSession.config with chunkSize := 16777216 } }

def wideFile : FileMetadata := { greetingFile with size := maxChunkStreamBytes }

def wideMemory : FolderTransferState :=
  { greetingMemory with
    files := [wideFile]
    totalBytes := maxChunkStreamBytes
    fileChunks := fun _ => []
    config := wideSession.config }

def wideBytes : Bytes := List.replicate maxChunkStreamBytes 0

def wideSource : Store := fun location =>
  if location = components (sourcePath wideSession.basePath wideFile) then some wideBytes else none

theorem length_wideBytes : wideBytes.length = maxChunkStreamBytes := List.length_replicate

/-- The only chunk of the file fills the stream without its header. -/
theorem wide_chunk_refused : ¬ ∀ (session : Session) (source : Store)
    (memory : FolderTransferState) (index total : Nat) (file : FileMetadata) (bytes : Bytes)
    (inputs : List SenderInput) (after : FolderTransferState) (task : FileTask) (raw : Bytes)
    (left : Store), session.config.chunkSize ≠ 0 → memory.files[index]? = some file →
      source (components (sourcePath session.basePath file)) = some bytes →
      bytes.length = file.size → chunkCount file.size session.config.chunkSize = .ok total →
      run (machine session).step (sendingFrom source memory index) inputs =
        some ⟨.running ⟨after, .openStream task raw⟩, left⟩ →
      task.index = index → PassesChecks session.config total raw := by
  intro hclaim
  have hcontents : wideSource (components (sourcePath wideSession.basePath wideFile)) =
      some wideBytes := if_pos rfl
  have htotal : chunkCount wideFile.size wideSession.config.chunkSize = .ok 1 := rfl
  have hcount : chunkCount wideBytes.length wideSession.config.chunkSize = .ok 1 := by
    rw [length_wideBytes]
    exact htotal
  have hform : formAt wideSession.codec wideSession.config wideBytes [] 0 =
      some (chunkAt wideBytes wideSession.config.chunkSize.toNat 0, false) :=
    wireForm_of_disabled rfl _ _
  have hfile : wideMemory.files[0]? = some wideFile := rfl
  have hcompleted : [] = wideMemory.getCompletedChunks 0 := rfl
  obtain ⟨inputs, after, task, hrun, hindex⟩ :=
    exists_opened hcompleted hfile hcontents hcount
      (mem_remaining.mpr ⟨Nat.zero_lt_one, List.not_mem_nil⟩) reached_zero hform
  have hpasses := hclaim wideSession wideSource wideMemory 0 1 wideFile wideBytes inputs after task _
    wideSource (by decide) rfl hcontents length_wideBytes htotal hrun hindex
  have hshort := hpasses.atMost
  rw [length_chunkStream, length_chunkAt, length_wideBytes] at hshort
  exact absurd hshort (by decide)

end P2PFileTransfer.Transfer.StreamAcceptance
