import Mathlib.Algebra.Order.BigOperators.Group.List
import P2PFileTransfer.Session.Framing
import P2PFileTransfer.Transfer.Honesty
import P2PFileTransfer.Transfer.SingleFile
import P2PFileTransfer.Transfer.StateFile

/-!
# The manifest of a resumed transfer

A manifest also lists the finished files and the recorded chunks of the file at hand, so it
grows while a transfer goes on, and a frame does not.  It is largest when every chunk of a
file is recorded and the file is not yet confirmed.
-/

namespace P2PFileTransfer.Transfer.Resumption

open P2PFileTransfer.Foundation
open P2PFileTransfer.Foundation.ByteFile
open P2PFileTransfer.Foundation.FileSystem
open P2PFileTransfer.Foundation.FixedWidth
open P2PFileTransfer.Foundation.Process
open P2PFileTransfer.Foundation.UnixPath
open P2PFileTransfer.Core
open P2PFileTransfer.Core.Framing (frameOf readMessage)
open P2PFileTransfer.Core.Protocol
open P2PFileTransfer.Core.TransferFile
open P2PFileTransfer.Core.TransferFolder
open P2PFileTransfer.Core.FolderSender (HonestFiles HonestScan MemorySound Orderly Scan SoundStatus
  readScan remaining sourcePath)
open P2PFileTransfer.Core.SendPath
open P2PFileTransfer.Session.Framing (readMessage_frame)
open P2PFileTransfer.Transfer.Honesty (statusMemory)
open P2PFileTransfer.Transfer.Schedule (manifestOf)
open P2PFileTransfer.Transfer.SingleFile (recordAll recordAll_spec sendingFrom undisturbed_file)

/-! ## Sizes -/

theorem writeMessage_eq_ok_iff {message : Message} :
    writeMessage message = .ok () ↔ message.encodedLen ≤ maxMessageSize := by
  unfold writeMessage
  split
  · rename_i hlarge
    exact iff_of_false (fun hok => by cases hok) (Nat.not_le.mpr hlarge)
  · rename_i hfits
    exact iff_of_true rfl (Nat.le_of_not_lt hfits)

theorem arrayHeaderLen_mono {first second : Nat} (hle : first ≤ second) :
    arrayHeaderLen first ≤ arrayHeaderLen second := by
  unfold arrayHeaderLen
  split <;> split <;> first | omega | (split <;> first | omega | (split <;> omega))

/-- A list of distinct numbers is never longer than all of them. -/
theorem uintArrayLen_le_range {values : List Nat} {total : Nat} (hnodup : values.Nodup)
    (hbounded : ∀ value ∈ values, value < total) :
    uintArrayLen values ≤ uintArrayLen (List.range total) := by
  have hsubset : values ⊆ List.range total :=
    fun value hmem => List.mem_range.mpr (hbounded value hmem)
  obtain ⟨part, hperm, hpart⟩ := hnodup.subperm hsubset
  have hlength : values.length ≤ total := by
    rw [← hperm.length_eq]
    exact hpart.length_le.trans_eq List.length_range
  have hsum : (values.map uintLen).sum ≤ ((List.range total).map uintLen).sum := by
    rw [← (hperm.map uintLen).sum_eq]
    exact (hpart.map uintLen).sum_le_sum fun _ _ => Nat.zero_le _
  unfold uintArrayLen
  rw [List.length_range]
  exact Nat.add_le_add (arrayHeaderLen_mono hlength) hsum

/-- From 65536 on, every number takes five bytes. -/
theorem le_uintArrayLen_range (total : Nat) :
    5 * (total - 65536) ≤ uintArrayLen (List.range total) := by
  have hsum : 5 * (total - 65536) ≤ ((List.range total).map uintLen).sum := by
    induction total with
    | zero =>
        rw [Nat.zero_sub, Nat.mul_zero]
        exact Nat.zero_le _
    | succ total ih =>
        rw [List.range_succ, List.map_append, List.sum_append]
        by_cases hsmall : total < 65536
        · rw [Nat.sub_eq_zero_of_le hsmall, Nat.mul_zero]
          exact Nat.zero_le _
        · have hlong : 5 ≤ uintLen total := by
            unfold uintLen
            split_ifs <;> omega
          rw [Nat.sub_add_comm (Nat.le_of_not_lt hsmall), Nat.mul_add]
          exact Nat.add_le_add ih hlong
  exact hsum.trans (Nat.le_add_left _ _)

/-! ## The largest manifests -/

/-- The files before `count` are finished, and every chunk of the next one is recorded. -/
def fullest (items : List FileMetadata) (chunkSize count : Nat) (transferId : Uuid) :
    TransferInfo where
  transferId := transferId
  items := items
  resumeFrom := (items[count]?).bind fun file =>
    if chunksOf file.size chunkSize = 0 then none
    else some
      { transferId := transferId
        fileIndex := truncate 32 count
        completedChunks := List.range (chunksOf file.size chunkSize) }
  completedFiles := (List.range count).map (truncate 32)

variable {items : List FileMetadata} {chunkSize : Nat} {memory : FolderTransferState}

/-- An identifier is of a fixed length. -/
theorem encodedLen_fullest (items : List FileMetadata) (chunkSize count : Nat)
    (first second : Uuid) :
    (fullest items chunkSize count first).encodedLen =
      (fullest items chunkSize count second).encodedLen := by
  rw [TransferInfo.encodedLen, TransferInfo.encodedLen, fullest, fullest]
  cases items[count]? with
  | none => rfl
  | some file =>
      simp only [Option.bind_some]
      split <;> rfl

/-- No state of an orderly transfer has a larger manifest. -/
theorem encodedLen_manifestOf_le (horderly : Orderly chunkSize memory)
    (hfiles : memory.files = items) (transferId : Uuid) :
    (manifestOf memory transferId).encodedLen ≤
      (fullest items chunkSize memory.completedFiles.length transferId).encodedLen := by
  have hcompleted : (manifestOf memory transferId).completedFiles =
      (fullest items chunkSize memory.completedFiles.length transferId).completedFiles :=
    congrArg (List.map (truncate 32)) horderly.finished
  have hitems : (manifestOf memory transferId).items = items := hfiles
  have hresume : ((manifestOf memory transferId).resumeFrom.map ResumePoint.encodedLen).getD 1 ≤
      ((fullest items chunkSize memory.completedFiles.length transferId).resumeFrom.map
        ResumePoint.encodedLen).getD 1 := by
    have hnone : 1 ≤ ((fullest items chunkSize memory.completedFiles.length
        transferId).resumeFrom.map ResumePoint.encodedLen).getD 1 := by
      cases (fullest items chunkSize memory.completedFiles.length transferId).resumeFrom with
      | none => exact le_rfl
      | some point =>
          change 1 ≤ point.encodedLen
          unfold ResumePoint.encodedLen
          omega
    change ((memory.resumePoint transferId).map ResumePoint.encodedLen).getD 1 ≤ _
    rcases Schedule.resumePoint_of_orderly horderly transferId with
      ⟨hresume, _⟩ | ⟨hresume, hunfinished⟩
    · rw [hresume]
      exact hnone
    · rw [hfiles] at hunfinished
      have hfile := List.getElem?_eq_getElem hunfinished
      have hbounded : ∀ chunk ∈ memory.fileChunks memory.completedFiles.length,
          chunk < chunksOf (items[memory.completedFiles.length]).size chunkSize := by
        intro chunk hchunk
        obtain ⟨file, hother, hless⟩ := horderly.bounded chunk hchunk
        rw [hfiles, hfile] at hother
        cases hother
        exact hless
      have hchunks := uintArrayLen_le_range horderly.nodup hbounded
      by_cases hempty : chunksOf (items[memory.completedFiles.length]).size chunkSize = 0
      · -- a file without chunks has none recorded, and is resumed like one not begun
        have hrecorded : memory.fileChunks memory.completedFiles.length = [] :=
          List.eq_nil_iff_forall_not_mem.mpr fun chunk hchunk =>
            Nat.not_lt_zero chunk (hempty ▸ hbounded chunk hchunk)
        exact absurd hrecorded (Schedule.completedChunks_ne_nil hresume)
      · rw [hresume]
        have hfull : (fullest items chunkSize memory.completedFiles.length transferId).resumeFrom =
            some
              { transferId := transferId
                fileIndex := truncate 32 memory.completedFiles.length
                completedChunks :=
                  List.range (chunksOf (items[memory.completedFiles.length]).size chunkSize) } := by
          change (items[memory.completedFiles.length]?).bind _ = _
          rw [hfile, Option.bind_some, if_neg hempty]
        rw [hfull]
        exact Nat.add_le_add_left hchunks _
  unfold TransferInfo.encodedLen
  rw [hcompleted, hitems]
  have hsame : (fullest items chunkSize memory.completedFiles.length transferId).items = items := rfl
  rw [hsame]
  omega

/-! ## Accepted manifests -/

/-- The manifest may be written, and any frame of its length is handed to the decoder. -/
def Accepted (info : TransferInfo) : Prop :=
  writeMessage (.transferInfo info) = .ok () ∧
    ∀ codec payload sizes, payload.length = (Message.transferInfo info).encodedLen →
      (readMessage codec ⟨frameOf payload, sizes⟩).1 = codec.decode payload

theorem accepted_iff {info : TransferInfo} :
    Accepted info ↔ (Message.transferInfo info).encodedLen ≤ maxMessageSize := by
  constructor
  · exact fun haccepted => writeMessage_eq_ok_iff.mp haccepted.1
  · intro hfits
    refine ⟨writeMessage_eq_ok_iff.mpr hfits, ?_⟩
    intro codec payload sizes hlength
    obtain ⟨later, hread⟩ := @readMessage_frame codec payload [] ⟨frameOf payload, sizes⟩
      (hlength ▸ hfits) (List.append_nil _).symm
    rw [hread]

/-- The largest manifest decides. -/
theorem accepted_manifestOf (horderly : Orderly chunkSize memory) (hfiles : memory.files = items)
    (transferId : Uuid)
    (hfullest : Accepted (fullest items chunkSize memory.completedFiles.length transferId)) :
    Accepted (manifestOf memory transferId) := by
  apply accepted_iff.mpr
  refine Nat.le_trans ?_ (accepted_iff.mp hfullest)
  exact Nat.add_le_add_left (encodedLen_manifestOf_le horderly hfiles transferId) _

/-- A file of too many chunks cannot be resumed right before its checksum. -/
theorem not_accepted_fullest {count : Nat} {file : FileMetadata} (hfile : items[count]? = some file)
    (hmany : maxMessageSize < 5 * (chunksOf file.size chunkSize - 65536)) (transferId : Uuid) :
    ¬Accepted (fullest items chunkSize count transferId) := by
  intro haccepted
  have hfits := accepted_iff.mp haccepted
  have hlong := le_uintArrayLen_range (chunksOf file.size chunkSize)
  have hsome : chunksOf file.size chunkSize ≠ 0 := by
    intro hnone
    rw [hnone, Nat.zero_sub, Nat.mul_zero] at hmany
    exact Nat.not_lt_zero _ hmany
  have hresume : (fullest items chunkSize count transferId).resumeFrom =
      some
        { transferId := transferId
          fileIndex := truncate 32 count
          completedChunks := List.range (chunksOf file.size chunkSize) } := by
    change (items[count]?).bind _ = _
    rw [hfile, Option.bind_some, if_neg hsome]
  rw [Message.encodedLen, variantLen, TransferInfo.encodedLen, hresume] at hfits
  have hpoint : uintArrayLen (List.range (chunksOf file.size chunkSize)) ≤
      ResumePoint.encodedLen
        { transferId := transferId
          fileIndex := truncate 32 count
          completedChunks := List.range (chunksOf file.size chunkSize) } := Nat.le_add_left _ _
  rw [Option.map_some, Option.getD_some] at hfits
  omega

/-! ## The states attempts start from -/

/-- The process tries again, or the file is loaded by the next call. -/
inductive Resumes (state : StateFile.State) : FolderTransferState → Prop where
  | retrying {call : Call} {attempt : Nat} {memory : FolderTransferState}
      (hphase : state.phase = .retrying call attempt memory) : Resumes state memory
  | loaded {memory : FolderTransferState} (hfile : state.file = .stored memory) :
      Resumes state memory

/-- The manifest a transfer begins with. -/
def firstInfo (items : List FileMetadata) (transferId : Uuid) : TransferInfo where
  transferId := transferId
  items := items
  resumeFrom := none
  completedFiles := []

/-- The manifest of the next attempt; a state without files is scanned for once more. -/
def nextInfo (items : List FileMetadata) (transferId : Uuid) (memory : FolderTransferState) :
    TransferInfo :=
  if memory.files = [] then firstInfo items transferId else manifestOf memory transferId

/-- The path holds the same files whenever it is scanned. -/
def SameScan (scan : Scan) (events : List StateFile.Event) : Prop :=
  ∀ other, .path (.attempt (.answer other)) ∈ events → other = scan

/-- Nothing has been sent, and there is no state file. -/
def atRest (source : Store) : StateFile.State := ⟨.idle, .none, .absent, source⟩

/-- The state lists no files, or those of the transfer, sent in order. -/
structure Listed (settings : Settings) (source : Store) (items : List FileMetadata)
    (memory : FolderTransferState) : Prop where
  orderly : Orderly settings.config.chunkSize.toNat memory
  honest : HonestFiles settings.basePath source memory.files
  files : memory.files = [] ∨ memory.files = items

structure Kept (settings : Settings) (source : Store) (items : List FileMetadata)
    (state : StateFile.State) : Prop where
  source_eq : state.source = source
  memory : ∀ memory, state.phase.memory? = some memory → Listed settings source items memory
  sending : ∀ call attempt status, state.phase = .sending call attempt status →
    SoundStatus (settings.session call) source status
  stored : ∀ memory, state.file = .stored memory → Listed settings source items memory

variable {settings : Settings} {source : Store} {scan : Scan} {name : OsStr}
  {state next : StateFile.State}

theorem listed_fresh (freshId : Uuid) (config : ConfigMessage) :
    Listed settings source items (freshState freshId config) :=
  ⟨FolderSender.orderly_new _ _ _ _ _, nofun, .inl rfl⟩

theorem kept_atRest : Kept settings source items (atRest source) := by
  refine ⟨rfl, ?_, ?_, ?_⟩
  · intro memory hmemory
    cases hmemory
  · intro call attempt status hphase
    cases hphase
  · intro memory hfile
    cases hfile

theorem listed_loadState {saved : SavedState}
    (hstored : ∀ memory, saved = .stored memory → Listed settings source items memory)
    (freshId : Uuid) (config : ConfigMessage) :
    Listed settings source items (loadState saved freshId config) := by
  cases saved with
  | stored memory => exact hstored memory rfl
  | absent | unreadable => exact listed_fresh freshId config

/-- A phase that is not an attempt. -/
theorem Kept.rest (hkept : Kept settings source items state) {phase : Phase}
    (hmemory : ∀ memory, phase.memory? = some memory → Listed settings source items memory)
    (hphase : ∀ call attempt status, phase ≠ .sending call attempt status)
    (work : StateFile.FileWork) :
    Kept settings source items { state with phase := phase, work := work } := by
  refine ⟨hkept.source_eq, hmemory, ?_, hkept.stored⟩
  exact fun call attempt status hsending => absurd hsending (hphase call attempt status)

/-- The beginning of an attempt. -/
theorem Kept.startAttempt (hkept : Kept settings source items state) {memory : FolderTransferState}
    (hlisted : Listed settings source items memory) (call : Call) (attempt : Nat)
    (work : StateFile.FileWork) :
    Kept settings source items
      { state with phase := SendPath.startAttempt call attempt memory, work := work } := by
  refine ⟨hkept.source_eq, ?_, ?_, hkept.stored⟩
  · intro other hother
    cases hother
    exact hlisted
  · intro again count status hphase
    cases hphase
    exact ⟨⟨hlisted.orderly, hlisted.honest⟩, trivial⟩

/-- What is written to the state file is the state of the phase. -/
theorem Kept.fileStep (hkept : Kept settings source items state) {event : StateFile.FileEvent}
    (hstep : StateFile.fileStep state event = some next) : Kept settings source items next := by
  obtain ⟨phase, work, file, held⟩ := state
  have hlost : ∀ lost work, (∀ memory, lost ≠ SavedState.stored memory) →
      Kept settings source items ⟨phase, work, lost, held⟩ := by
    intro lost work hnone
    exact ⟨hkept.source_eq, hkept.memory, hkept.sending,
      fun memory hmemory => absurd hmemory (hnone memory)⟩
  cases work <;> cases event <;> try cases hstep
  case save.truncate => exact hlost .unreadable .write (fun _ => SavedState.noConfusion)
  case remove.remove => exact hlost .absent .none (fun _ => SavedState.noConfusion)
  case write.finish =>
      obtain ⟨memory, hmemory, rfl⟩ := Option.map_eq_some_iff.mp hstep
      refine ⟨hkept.source_eq, hkept.memory, hkept.sending, ?_⟩
      intro other hother
      cases hother
      exact hkept.memory memory hmemory
  case save.giveUp | write.giveUp | remove.giveUp =>
      exact ⟨hkept.source_eq, hkept.memory, hkept.sending, hkept.stored⟩

section Steps

variable (hlossless : settings.codec.Lossless) (hscan : readScan scan = .ok (name, items))
  (hhonest : HonestFiles settings.basePath source items)

include hlossless hscan hhonest

/-- A step of an attempt. -/
theorem Kept.attempt (hkept : Kept settings source items state) {call : Call} {attempt : Nat}
    {status : FolderSender.PointStatus} (hphase : state.phase = .sending call attempt status)
    {input : FolderSender.SenderInput} (hanswer : ∀ other, input = .answer other → other = scan)
    {after : FolderSender.SenderState}
    (hstep : (FolderSender.machine (settings.session call)).step ⟨status, state.source⟩ input =
      some after) (work : StateFile.FileWork) :
    Kept settings source items
      { state with
        phase := .sending call attempt after.status
        work := work
        source := after.store } := by
  have hfound : ∀ other, input = .answer other → ∀ found, readScan other = .ok found →
      found.2 = items := by
    intro other hother found hread
    rw [hanswer other hother, hscan] at hread
    exact congrArg Prod.snd (Except.ok.inj hread).symm
  have hsound := hkept.sending call attempt status hphase
  obtain ⟨hstore, hsent⟩ := FolderSender.soundStatus_step hlossless.decode hkept.source_eq
    (fun other hother found hread => (hfound other hother found hread).symm ▸ hhonest) hsound hstep
  have hmemory := Honesty.memorySound_of_status hsent
  have hfiles : (statusMemory after.status).files = [] ∨ (statusMemory after.status).files = items := by
    have hbefore := hkept.memory (statusMemory status)
      (hphase ▸ Honesty.memory?_sending call attempt status)
    cases status with
    | running point =>
        exact @Honesty.good_step (fun files => files = [] ∨ files = items) _ _ _ _ _ hbefore.files
          (fun other hother found hread => .inr (hfound other hother found hread)) hstep
    | returned _ | failed _ _ | panicked _ _ => cases hstep
  refine ⟨hstore, ?_, ?_, hkept.stored⟩
  · intro memory hmemory'
    cases hmemory'.symm.trans (Honesty.memory?_sending call attempt after.status)
    exact ⟨hmemory.orderly, hmemory.honest, hfiles⟩
  · intro other count later hother
    cases hother
    exact hsent

/-- A step of a call. -/
theorem Kept.path (hkept : Kept settings source items state) {input : PathInput}
    (hanswer : ∀ other, input = .attempt (.answer other) → other = scan) {after : Phase × Store}
    (hstep : pathStep settings (state.phase, state.source) input = some after)
    (work : StateFile.FileWork) :
    Kept settings source items
      { state with
        phase := after.1
        work := work
        source := after.2 } := by
  obtain ⟨phase, before, file, held⟩ := state
  cases pathStepped_of_step hstep with
  | again => exact hkept.startAttempt (hkept.memory _ rfl) _ _ work
  | attempt hnext =>
      exact hkept.attempt hlossless hscan hhonest rfl
        (fun other hother => hanswer other (congrArg PathInput.attempt hother)) hnext work
  | returned =>
      refine hkept.rest ?_ (fun _ _ _ => Phase.noConfusion) work
      exact fun other hother => hkept.memory other hother
  | failed =>
      refine hkept.rest ?_ ?_ work
      · intro memory hmemory
        rw [memory?_afterFailure] at hmemory
        exact hkept.memory memory hmemory
      · exact fun other count status => StateFile.afterFailure_ne_sending _ _ _ _ _ _ _ _

/-- The step lemma: also the state file only holds states of the transfer. -/
theorem Kept.step (hkept : Kept settings source items state) {event : StateFile.Event}
    (hanswer : ∀ other, event = .path (.attempt (.answer other)) → other = scan)
    (hstep : StateFile.step settings state event = some next) :
    Kept settings source items next := by
  cases event with
  | kill =>
      cases hstep
      refine hkept.rest ?_ (fun _ _ _ => Phase.noConfusion) .none
      intro memory hmemory
      cases hmemory
  | start path pathExists freshId newId durationMs =>
      rw [StateFile.step] at hstep
      split at hstep
      · rename_i call memory hphase hopen
        cases hstep
        rw [openCall] at hopen
        split at hopen
        · cases hopen
          exact hkept.startAttempt (listed_loadState hkept.stored _ _) _ 0 state.work
        · cases hopen
      · cases hstep
  | path input =>
      rw [StateFile.step] at hstep
      split at hstep
      · obtain ⟨after, hafter, rfl⟩ := Option.map_eq_some_iff.mp hstep
        exact hkept.path hlossless hscan hhonest
          (fun other hother => hanswer other (congrArg StateFile.Event.path hother)) hafter _
      · cases hstep
  | file event => exact hkept.fileStep hstep

/-- The run lemma. -/
theorem kept_run {events : List StateFile.Event} (hsame : SameScan scan events)
    (hrun : Run.run (StateFile.step settings) (atRest source) events = some state) :
    Kept settings source items state := by
  have hallowed : Run.Along (StateFile.step settings)
      (fun _ event => ∀ other, event = .path (.attempt (.answer other)) → other = scan)
      (atRest source) events := by
    apply Run.along_of_forall
    intro _ event hmem other hother
    exact hsame other (hother ▸ hmem)
  exact Run.invariant_along (Kept settings source items)
    (fun _ _ _ hkept hanswer hstep => hkept.step hlossless hscan hhonest hanswer hstep) hallowed
    kept_atRest hrun

end Steps

/-! ## States with the largest manifests -/

/-- The files before `count` are finished, and no chunk of another is recorded. -/
structure Settled (items : List FileMetadata) (count : Nat) (memory : FolderTransferState) : Prop where
  files : memory.files = items
  finished : memory.completedFiles = List.range count
  later : ∀ index, count ≤ index → memory.fileChunks index = []

variable {count : Nat}

theorem remaining_nil (total : Nat) : remaining [] total = List.range total := by
  apply List.filter_eq_self.mpr
  intro chunk _
  exact decide_eq_true List.not_mem_nil

/-- Nothing is recorded of the file at hand. -/
theorem Settled.manifestOf_eq (hsettled : Settled items items.length memory) (transferId : Uuid) :
    manifestOf memory transferId = fullest items chunkSize items.length transferId := by
  have hresume : memory.resumePoint transferId = none := by
    rw [FolderTransferState.resumePoint, FolderTransferState.nextFile_of_prefix hsettled.finished,
      hsettled.files, if_neg (Nat.lt_irrefl _)]
  rw [manifestOf, hresume, FolderTransferState.transferInfo, hsettled.files, hsettled.finished,
    fullest, List.getElem?_length]
  rfl

/-- Every chunk of the file at hand is recorded. -/
theorem Settled.manifestOf_recordAll (hsettled : Settled items count memory)
    (hcount : count < items.length) (transferId : Uuid) :
    manifestOf (recordAll memory count (List.range (chunksOf items[count].size chunkSize)))
        transferId =
      fullest items chunkSize count transferId := by
  obtain ⟨hfiles, hcompleted, hself, _⟩ :=
    recordAll_spec memory count (List.range (chunksOf items[count].size chunkSize))
  rw [hsettled.files] at hfiles
  rw [hsettled.finished] at hcompleted
  rw [hsettled.later count le_rfl, List.nil_append] at hself
  have hresume : (recordAll memory count (List.range (chunksOf items[count].size chunkSize))).resumePoint
      transferId = (fullest items chunkSize count transferId).resumeFrom := by
    rw [FolderTransferState.resumePoint, FolderTransferState.nextFile_of_prefix hcompleted, hfiles,
      if_pos hcount]
    simp only [FolderTransferState.getCompletedChunks, hself, fullest,
      List.getElem?_eq_getElem hcount, Option.bind_some, List.range_eq_nil]
  rw [manifestOf, hresume, FolderTransferState.transferInfo, hfiles, hcompleted]
  rfl

/-- The file at hand is confirmed. -/
theorem Settled.finishFile (hsettled : Settled items count memory) (chunks : List Nat) :
    Settled items (count + 1) (FolderSender.finishFile (recordAll memory count chunks) count) := by
  obtain ⟨hfiles, hcompleted, _, hothers⟩ := recordAll_spec memory count chunks
  refine ⟨?_, ?_, ?_⟩
  · rw [FolderSender.finishFile_files, hfiles]
    exact hsettled.files
  · exact FolderTransferState.markFileComplete_completedFiles (hcompleted.trans hsettled.finished)
  · intro index hindex
    rw [FolderSender.finishFile_fileChunks, hothers index (Nat.ne_of_gt hindex)]
    exact hsettled.later index (Nat.le_of_succ_le hindex)

/-! ## Runs that reach them -/

/-- The call gets from one state to the other; the path is scanned with this result only. -/
def Reaches (session : FolderSender.Session) (scan : Scan) (before after : FolderSender.SenderState) :
    Prop :=
  ∃ inputs, (∀ other, Input.answer other ∈ inputs → other = scan) ∧
    Run.run (FolderSender.machine session).step before inputs = some after

variable {session : FolderSender.Session} {before middle after : FolderSender.SenderState}

theorem Reaches.trans (hfirst : Reaches session scan before middle)
    (hsecond : Reaches session scan middle after) : Reaches session scan before after := by
  obtain ⟨first, hfirst, hrun⟩ := hfirst
  obtain ⟨second, hsecond, hrest⟩ := hsecond
  refine ⟨first ++ second, ?_, (Run.run_append_of_run hrun second).trans hrest⟩
  intro other hmem
  rcases List.mem_append.mp hmem with hmem | hmem
  · exact hfirst other hmem
  · exact hsecond other hmem

theorem Reaches.step {input : FolderSender.SenderInput}
    (hanswer : ∀ other, Input.answer other = input → other = scan)
    (hstep : (FolderSender.machine session).step before input = some after) :
    Reaches session scan before after := by
  refine ⟨[input], ?_, ?_⟩
  · exact fun other hmem => hanswer other (List.mem_singleton.mp hmem)
  · rw [Run.run_cons_of_step hstep]
    rfl

theorem Reaches.undisturbed {opened taken : List Bytes}
    (hrun : Undisturbed (FolderSender.machine session) before opened taken after) :
    Reaches session scan before after := by
  obtain ⟨inputs, hquiet, hrun⟩ := hrun.exists_run
  exact ⟨inputs, fun other hmem => absurd hmem (hquiet other), hrun⟩

/-- The first attempt comes to the first file. -/
theorem reaches_first (hscan : readScan scan = .ok (name, items)) {firstId : Uuid}
    (hfirst : writeMessage (.transferInfo (firstInfo items firstId)) = .ok ())
    (hfiles : memory.files = []) :
    ∃ found, Settled items 0 found ∧
      Reaches session scan ⟨.running ⟨memory, .begin⟩, source⟩
        ⟨.running ⟨found, .fileHead 0⟩, source⟩ := by
  have hopen : (FolderSender.machine session).step ⟨.running ⟨memory, .begin⟩, source⟩ .proceed =
      some ⟨.running ⟨memory, .scan⟩, source⟩ := by
    have hscanned : FolderSender.openTransfer session memory = .running ⟨memory, .scan⟩ :=
      if_pos hfiles
    exact congrArg (fun status => some (State.mk status source)) hscanned
  have hanswer : (FolderSender.machine session).step ⟨.running ⟨memory, .scan⟩, source⟩
      (.answer scan) = some ⟨.running ⟨.new session.transferId name items session.config,
        .sendInfo none⟩, source⟩ := by
    have hfits : writeMessage (FolderSender.manifest session
        (.new session.transferId name items session.config) none) = .ok () := hfirst
    have hstarted : FolderSender.startTransfer session memory scan =
        .running ⟨.new session.transferId name items session.config, .sendInfo none⟩ := by
      rw [FolderSender.startTransfer, hscan]
      simp only [Status.ofExcept, FolderSender.announce, hfits]
    exact congrArg (fun status => some (State.mk status source)) hstarted
  refine ⟨.new session.transferId name items session.config, ⟨rfl, rfl, fun _ _ => rfl⟩, ?_⟩
  refine (Reaches.step (fun _ hsame => by cases hsame) hopen).trans ?_
  refine (Reaches.step (fun other hsame => by cases hsame; rfl) hanswer).trans ?_
  refine (@Reaches.step _ _ _ ⟨.running ⟨_, .recvReady⟩, source⟩ .proceed
    (fun _ hsame => by cases hsame) rfl).trans ?_
  exact @Reaches.step _ _ _ _ (.message .ready) (fun _ hsame => by cases hsame) rfl

section Files

variable (hlossless : session.codec.Lossless) (hchunkSize : session.config.chunkSize ≠ 0)
  (hhonest : HonestFiles session.basePath source items)
  (hsizes : ∀ file ∈ items, file.size < 2 ^ 63)

include hlossless hchunkSize hhonest hsizes

/-- All chunks of a file are sent and acknowledged. -/
theorem reaches_sent (hsettled : Settled items count memory) (hcount : count < items.length) :
    ∃ checksum, Reaches session scan ⟨.running ⟨memory, .fileHead count⟩, source⟩
      ⟨.running ⟨recordAll memory count
          (List.range (chunksOf items[count].size session.config.chunkSize.toNat)),
        .sendChecksum count checksum⟩, source⟩ := by
  obtain ⟨bytes, hbytes⟩ := hhonest _ (List.getElem_mem hcount)
  have hlength : bytes.length < 2 ^ 63 := hbytes.length ▸ hsizes _ (List.getElem_mem hcount)
  have hfile : memory.files[count]? = some items[count] := by
    rw [hsettled.files]
    exact List.getElem?_eq_getElem hcount
  have hvisit : FolderSender.visitFile memory count = .running ⟨memory, .openSource count⟩ := by
    rw [FolderSender.visitFile, hsettled.files, if_pos hcount, hsettled.finished, if_neg]
    exact fun hmem => Nat.lt_irrefl count (List.mem_range.mp hmem)
  have hhead : (FolderSender.machine session).step ⟨.running ⟨memory, .fileHead count⟩, source⟩
      .proceed = some (sendingFrom source memory count) :=
    congrArg (fun status => some (State.mk status source)) hvisit
  obtain ⟨streams, hrun, _⟩ := undisturbed_file hchunkSize hlength hlossless hfile hbytes.contents
  have hnone : memory.getCompletedChunks count = [] := hsettled.later count le_rfl
  rw [hnone, remaining_nil, hbytes.length] at hrun
  exact ⟨_, (Reaches.step (fun _ hsame => by cases hsame) hhead).trans (.undisturbed hrun)⟩

/-- The peer confirms one file after the other. -/
theorem reaches_settled {start : FolderSender.SenderState} {found : FolderTransferState}
    (hfound : Settled items 0 found)
    (hfirst : Reaches session scan start ⟨.running ⟨found, .fileHead 0⟩, source⟩)
    (hcount : count ≤ items.length) :
    ∃ memory, Settled items count memory ∧
      Reaches session scan start ⟨.running ⟨memory, .fileHead count⟩, source⟩ := by
  induction count with
  | zero => exact ⟨found, hfound, hfirst⟩
  | succ count ih =>
      obtain ⟨memory, hsettled, hreached⟩ := ih (Nat.le_of_succ_le hcount)
      obtain ⟨checksum, hsent⟩ := @reaches_sent items memory source scan count session hlossless
        hchunkSize hhonest hsizes hsettled hcount
      refine ⟨_, hsettled.finishFile (List.range
        (chunksOf items[count].size session.config.chunkSize.toNat)), ?_⟩
      refine (hreached.trans hsent).trans ?_
      refine (@Reaches.step _ _ _ ⟨.running ⟨_, .recvChecksum count checksum⟩, source⟩ .proceed
        (fun _ hsame => by cases hsame) rfl).trans ?_
      refine @Reaches.step _ _ _ _ (.message (.fileChecksum
        { transferId := session.transferId, fileIndex := 0, checksum := checksum }))
        (fun _ hsame => by cases hsame) ?_
      refine congrArg (fun status => some (State.mk status source)) ?_
      exact if_neg (not_not.mpr rfl)

/-- A connection that breaks off then leaves a state with the largest manifest. -/
theorem reaches_fullest {start : FolderSender.SenderState} {found : FolderTransferState}
    (hfound : Settled items 0 found)
    (hfirst : Reaches session scan start ⟨.running ⟨found, .fileHead 0⟩, source⟩)
    (hcount : count ≤ items.length) :
    ∃ point, point.memory.files = items ∧
      (∀ transferId, manifestOf point.memory transferId =
        fullest items session.config.chunkSize.toNat count transferId) ∧
      Reaches session scan start ⟨.failed point .disconnected, source⟩ := by
  obtain ⟨memory, hsettled, hreached⟩ := @reaches_settled items source scan count session hlossless
    hchunkSize hhonest hsizes start found hfound hfirst hcount
  rcases Nat.lt_or_eq_of_le hcount with hless | rfl
  · obtain ⟨checksum, hsent⟩ := @reaches_sent items memory source scan count session hlossless
      hchunkSize hhonest hsizes hsettled hless
    refine ⟨⟨recordAll memory count
        (List.range (chunksOf items[count].size session.config.chunkSize.toNat)),
      .sendChecksum count checksum⟩, ?_, hsettled.manifestOf_recordAll hless, ?_⟩
    · exact (recordAll_spec _ _ _).1.trans hsettled.files
    · refine (hreached.trans hsent).trans ?_
      exact @Reaches.step _ _ _ _ (.fail .disconnected 0) (fun _ hsame => by cases hsame) rfl
  · have hdone : FolderSender.visitFile memory items.length = .running ⟨memory, .sendComplete⟩ := by
      rw [FolderSender.visitFile, hsettled.files, if_neg (Nat.lt_irrefl _)]
    have hhead : (FolderSender.machine session).step
        ⟨.running ⟨memory, .fileHead items.length⟩, source⟩ .proceed =
          some ⟨.running ⟨memory, .sendComplete⟩, source⟩ :=
      congrArg (fun status => some (State.mk status source)) hdone
    refine ⟨⟨memory, .sendComplete⟩, hsettled.files, hsettled.manifestOf_eq, ?_⟩
    refine (hreached.trans (Reaches.step (fun _ hsame => by cases hsame) hhead)).trans ?_
    exact @Reaches.step _ _ _ _ (.fail .disconnected 0) (fun _ hsame => by cases hsame) rfl

end Files

/-! ## Runs of the process -/

/-- A run of an attempt is one of the process. -/
theorem run_attempt {call : Call} {attempt : Nat} {inputs : List FolderSender.SenderInput}
    (hrun : Run.run (FolderSender.machine (settings.session call)).step before inputs = some after)
    (file : SavedState) :
    Run.run (StateFile.step settings) ⟨.sending call attempt before.status, .none, file, before.store⟩
        (inputs.map fun input => .path (.attempt input)) =
      some ⟨.sending call attempt after.status, .none, file, after.store⟩ := by
  induction inputs generalizing before with
  | nil =>
      cases hrun
      rfl
  | cons input rest ih =>
      obtain ⟨next, hstep, hrest⟩ := Option.bind_eq_some_iff.mp hrun
      have hpath : pathStep settings (.sending call attempt before.status, before.store)
          (.attempt input) = some (.sending call attempt next.status, next.store) := by
        change ((FolderSender.machine (settings.session call)).step before input).map _ = _
        rw [hstep]
        rfl
      have hevent : StateFile.step settings
          ⟨.sending call attempt before.status, .none, file, before.store⟩ (.path (.attempt input)) =
            some ⟨.sending call attempt next.status, .none, file, next.store⟩ := by
        rw [StateFile.step, if_pos rfl, hpath]
        rfl
      rw [List.map_cons, Run.run_cons_of_step hevent]
      exact ih hrest

/-- On the way out of a failed attempt the state is saved. -/
theorem run_leave {call : Call} {attempt : Nat} (point : FolderSender.Point) (error : Error)
    (file : SavedState) (held : Store) :
    ∃ final, Run.run (StateFile.step settings)
        ⟨.sending call attempt (.failed point error), .none, file, held⟩
        [.path .leave, .file .truncate, .file .finish] = some final ∧
      final.file = .stored point.memory := by
  have hwork : StateFile.workAfter .leave
      (afterFailure settings.maxAttempts call attempt point error) = .save := by
    unfold afterFailure
    dsimp only
    split
    · split <;> rfl
    · rfl
  have hleave : StateFile.step settings
      ⟨.sending call attempt (.failed point error), .none, file, held⟩ (.path .leave) =
        some ⟨afterFailure settings.maxAttempts call attempt point error, .save, file, held⟩ := by
    rw [← hwork]
    rfl
  have hfinish : StateFile.step settings
      ⟨afterFailure settings.maxAttempts call attempt point error, .write, .unreadable, held⟩
        (.file .finish) =
        some ⟨afterFailure settings.maxAttempts call attempt point error, .none,
          .stored point.memory, held⟩ := by
    change Option.map _ (afterFailure settings.maxAttempts call attempt point error).memory? = _
    rw [memory?_afterFailure]
    rfl
  refine ⟨⟨afterFailure settings.maxAttempts call attempt point error, .none,
    .stored point.memory, held⟩, ?_, rfl⟩
  rw [Run.run_cons_of_step hleave]
  exact (Run.run_cons_of_step rfl _).trans (Run.run_cons_of_step hfinish [])

section Process

variable (hlossless : settings.codec.Lossless) (hscan : readScan scan = .ok (name, items))
  (hhonest : HonestFiles settings.basePath source items)
  (hsizes : ∀ file ∈ items, file.size < 2 ^ 63) (hchunkSize : settings.config.chunkSize ≠ 0)
  {firstId : Uuid} (hfirst : Accepted (firstInfo items firstId))

include hlossless hscan hhonest hsizes hchunkSize hfirst

/-- The largest manifests are manifests of attempts. -/
theorem exists_resumes_fullest (hcount : count ≤ items.length) :
    ∃ events final memory, SameScan scan events ∧
      Run.run (StateFile.step settings) (atRest source) events = some final ∧
      Resumes final memory ∧
      ∀ transferId, nextInfo items transferId memory =
        fullest items settings.config.chunkSize.toNat count transferId := by
  let call : Call := ⟨chooseTransferId (freshState firstId settings.config) firstId, 0⟩
  have hopen : StateFile.step settings (atRest source) (.start [] true firstId firstId 0) =
      some ⟨startAttempt call 0 (freshState firstId settings.config), .none, .absent, source⟩ := rfl
  obtain ⟨found, hfound, hbegun⟩ := @reaches_first items
    (freshState firstId settings.config) source scan name (settings.session call) hscan firstId
    hfirst.1 rfl
  obtain ⟨point, hfiles, hmanifest, inputs, hanswers, hrun⟩ := @reaches_fullest items source scan
    count (settings.session call) hlossless hchunkSize hhonest hsizes _ _ hfound hbegun hcount
  obtain ⟨final, hleft, hfile⟩ := @run_leave settings call 0 point .disconnected .absent source
  refine ⟨.start [] true firstId firstId 0 ::
    ((inputs.map fun input => .path (.attempt input)) ++
      [.path .leave, .file .truncate, .file .finish]), final, point.memory, ?_, ?_, .loaded hfile, ?_⟩
  · intro other hmem
    rcases List.mem_cons.mp hmem with hsame | hmem
    · cases hsame
    · rcases List.mem_append.mp hmem with hmem | hmem
      · obtain ⟨input, hinput, hsame⟩ := List.mem_map.mp hmem
        cases hsame
        exact hanswers other hinput
      · simp at hmem
  · rw [Run.run_cons_of_step hopen]
    exact (Run.run_append_of_run (run_attempt hrun .absent) _).trans hleft
  · intro transferId
    have hsome : items ≠ [] := FolderSender.readScan_ne_nil hscan
    rw [nextInfo, hfiles, if_neg hsome]
    exact hmanifest transferId

/-- Every attempt that may follow an interruption is accepted exactly when the manifests
of transfers broken off right before a checksum fit a frame. -/
theorem resumable_iff :
    (∀ events state memory transferId, SameScan scan events →
      Run.run (StateFile.step settings) (atRest source) events = some state →
      Resumes state memory → Accepted (nextInfo items transferId memory)) ↔
    ∀ count ≤ items.length,
      (Message.transferInfo (fullest items settings.config.chunkSize.toNat count
        firstId)).encodedLen ≤ maxMessageSize := by
  constructor
  · intro hresumable count hcount
    obtain ⟨events, final, memory, hsame, hrun, hresumes, hinfo⟩ :=
      exists_resumes_fullest hlossless hscan hhonest hsizes hchunkSize hfirst hcount
    apply accepted_iff.mp
    rw [← hinfo firstId]
    exact hresumable events final memory firstId hsame hrun hresumes
  · intro hfullest events state memory transferId hsame hrun hresumes
    have hkept := kept_run hlossless hscan hhonest hsame hrun
    have hlisted : Listed settings source items memory := by
      cases hresumes with
      | retrying hphase => exact hkept.memory memory (congrArg Phase.memory? hphase)
      | loaded hfile => exact hkept.stored memory hfile
    rw [nextInfo]
    split
    · exact accepted_iff.mpr (accepted_iff.mp hfirst)
    · rename_i hsome
      have hfiles := hlisted.files.resolve_left hsome
      have hfits := hfullest _ (hfiles ▸ hlisted.orderly.finished_le)
      apply accepted_manifestOf hlisted.orderly hfiles transferId
      apply accepted_iff.mpr
      rw [Message.encodedLen, encodedLen_fullest _ _ _ transferId firstId]
      exact hfits

end Process

/-! ## A small file and a large one -/

def smallSettings : Settings where
  codec := .stored fun _ => FixedBytes.filled 32 0
  config := ConfigMessage.default
  basePath := [115]
  maxAttempts := 0

def smallFile : FileMetadata := FolderSender.metadataOf [102] 2 0

def smallSource : Store := fun _ => some [104, 105]

theorem resumable_iff_small :
    Accepted (firstInfo [smallFile] (FixedBytes.filled 16 0)) ∧
      ∀ events state memory transferId, SameScan (.file [102] 2 0) events →
        Run.run (StateFile.step smallSettings) (atRest smallSource) events = some state →
        Resumes state memory → Accepted (nextInfo [smallFile] transferId memory) := by
  have hhonest : HonestFiles smallSettings.basePath smallSource [smallFile] := by
    intro file hfile
    rw [List.mem_singleton.mp hfile]
    exact ⟨[104, 105], rfl, rfl⟩
  have hfirst : Accepted (firstInfo [smallFile] (FixedBytes.filled 16 0)) :=
    accepted_iff.mpr (by decide)
  have hscan : readScan (.file [102] 2 0) = .ok ([102], [smallFile]) := rfl
  refine ⟨hfirst, (@resumable_iff [smallFile] smallSettings smallSource _ [102]
    (Codec.lossless_stored _) hscan hhonest (by decide) (by decide) _ hfirst).mpr ?_⟩
  intro count hcount
  rcases Nat.le_one_iff_eq_zero_or_eq_one.mp hcount with rfl | rfl
  · exact Nat.le_of_ble_eq_true rfl
  · exact Nat.le_of_ble_eq_true rfl

/-- 256 GiB in chunks of 64 KiB. -/
def largeSize : Nat := 274877906944

def largeSettings : Settings :=
  { smallSettings with config := { ConfigMessage.default with chunkSize := 65536 } }

def largeFile : FileMetadata := FolderSender.metadataOf [102] largeSize 0

def largeSource : Store := fun _ => some (List.replicate largeSize 0)

theorem honest_large : HonestFiles largeSettings.basePath largeSource [largeFile] := by
  intro file hfile
  rw [List.mem_singleton.mp hfile]
  exact ⟨List.replicate largeSize 0, rfl, List.length_replicate⟩

theorem large_not_resumable :
    Accepted (firstInfo [largeFile] (FixedBytes.filled 16 0)) ∧
      ∃ events state memory transferId, SameScan (.file [102] largeSize 0) events ∧
        Run.run (StateFile.step largeSettings) (atRest largeSource) events = some state ∧
        Resumes state memory ∧ ¬Accepted (nextInfo [largeFile] transferId memory) := by
  have hfirst : Accepted (firstInfo [largeFile] (FixedBytes.filled 16 0)) :=
    accepted_iff.mpr (by decide)
  have hscan : readScan (.file [102] largeSize 0) = .ok ([102], [largeFile]) := rfl
  obtain ⟨events, state, memory, hsame, hrun, hresumes, hinfo⟩ :=
    @exists_resumes_fullest [largeFile] largeSettings largeSource _ [102] 0
      (Codec.lossless_stored _) hscan honest_large (by decide) (by decide) _ hfirst (Nat.zero_le _)
  refine ⟨hfirst, events, state, memory, FixedBytes.filled 16 0, hsame, hrun, hresumes, ?_⟩
  rw [hinfo]
  exact not_accepted_fullest rfl (by decide) _

end P2PFileTransfer.Transfer.Resumption
