import P2PFileTransfer.Core.SendPath

/-!
# What a kill leaves of the progress

The completed files are kept in memory and reach the state file only on the way out of
a failed attempt, by a write that empties the file first; on success the file is removed.
The file therefore holds every completed file exactly as long as none was completed, and
no write begun, since the file was last loaded or written to the end.
-/

namespace P2PFileTransfer.Transfer.StateFile

open P2PFileTransfer.Foundation.ByteFile
open P2PFileTransfer.Foundation.FileSystem
open P2PFileTransfer.Foundation.Process
open P2PFileTransfer.Foundation.UnixPath
open P2PFileTransfer.Foundation
open P2PFileTransfer.Core
open P2PFileTransfer.Core.Protocol
open P2PFileTransfer.Core.TransferFile
open P2PFileTransfer.Core.TransferFolder
open P2PFileTransfer.Core.SendPath

/-! ## A process that sends, and its state file -/

/-- What the process is about to do to the state file. -/
inductive FileWork where
  | none
  | save
  /-- The file is empty, or holds a part of the text. -/
  | write
  | remove
  deriving DecidableEq, Repr

structure State where
  phase : Phase
  work : FileWork
  file : SavedState
  source : Store

inductive FileEvent where
  | truncate
  | finish
  /-- The operation fails, and the error is at most logged. -/
  | giveUp
  | remove
  deriving DecidableEq, Repr

/-- A kill is possible at any time, and another call may follow it. -/
inductive Event where
  | start (path : OsStr) (pathExists : Bool) (freshId newId : Uuid) (durationMs : Nat)
  | path (input : PathInput)
  | file (event : FileEvent)
  | kill

/-- The way out of an attempt leads to the state file. -/
def workAfter : PathInput → Phase → FileWork
  | .leave, .returned _ => .remove
  | .leave, _ => .save
  | .attempt _, _ | .again, _ => .none

def fileStep (state : State) (event : FileEvent) : Option State :=
  match state.work, event with
  | .save, .truncate => some { state with work := .write, file := .unreadable }
  | .write, .finish =>
      state.phase.memory?.map fun memory => { state with work := .none, file := .stored memory }
  | .save, .giveUp | .write, .giveUp | .remove, .giveUp => some { state with work := .none }
  | .remove, .remove => some { state with work := .none, file := .absent }
  | _, _ => none

def step (settings : Settings) (state : State) (event : Event) : Option State :=
  match event with
  | .start path pathExists freshId newId durationMs =>
      match state.phase, openCall pathExists path state.file freshId newId durationMs
        settings.config with
      | .idle, .ok (call, memory) => some { state with phase := startAttempt call 0 memory }
      | _, _ => none
  | .path input =>
      if state.work = .none then
        (pathStep settings (state.phase, state.source) input).map fun next =>
          { state with
            phase := next.1
            work := workAfter input next.1
            source := next.2 }
      else none
  | .file event => fileStep state event
  | .kill => some { state with phase := .idle, work := .none }

/-! ## What is on disk -/

/-- Loading the file succeeds and yields every completed file. -/
def Recorded (file : SavedState) (memory : FolderTransferState) : Prop :=
  ∃ loaded, file = .stored loaded ∧ ∀ index ∈ memory.completedFiles, index ∈ loaded.completedFiles

/-- The peer confirms the checksum of the file at hand. -/
def confirms : FolderSender.PointStatus → FolderSender.SenderInput → Bool
  | .running ⟨_, .recvChecksum _ checksum⟩, .message (.fileChecksum peer) =>
      decide (peer.checksum = checksum)
  | _, _ => false

def completes : Phase → PathInput → Bool
  | .sending _ _ status, .attempt input => confirms status input
  | _, _ => false

/-- Whether the file is up to date after an event, given that it was or was not. -/
def update (state : State) (event : Event) (current : Bool) : Bool :=
  match event with
  | .start _ _ _ _ _ | .file .finish => true
  | .file .truncate | .file .remove => false
  | .path input => current && !completes state.phase input
  | .file .giveUp | .kill => current

/-- Since the file was loaded or written to the end, no file was completed, no write was
begun and the file was not removed. -/
def upToDate (settings : Settings) (start : State) (events : List Event) : Bool :=
  Run.track (step settings) update true start events

/-! ## What an attempt does to the completed files -/

def memoryOf : FolderSender.PointStatus → FolderTransferState
  | .running point | .failed point _ | .panicked point _ => point.memory
  | .returned memory => memory

def Unfinished (memory : FolderTransferState) (index : Nat) : Prop :=
  memory.files ≠ [] ∧ index ∉ memory.completedFiles

/-- The file at hand is not completed, and only a state without files is scanned for. -/
def Fresh (memory : FolderTransferState) : FolderSender.Stage → Prop
  | .scan => memory.files = []
  | .openSource index | .sendChecksum index _ | .recvChecksum index _ => Unfinished memory index
  | .chunkHead task | .readChunk task _ _ | .openStream task _ | .awaitStopped task =>
      Unfinished memory task.index
  | .begin | .sendInfo _ | .recvReady | .fileHead _ | .sendComplete => True

def FreshStatus (status : FolderSender.PointStatus) : Prop :=
  ∀ point, status = .running point → Fresh point.memory point.stage

/-- A step keeps the completed files, or adds the one whose checksum it confirms; it only
replaces a state that lists no files. -/
inductive Advanced (before : FolderTransferState) (confirmed : Bool)
    (after : FolderTransferState) : Prop where
  | keeps (hquiet : confirmed = false) (hcompleted : after.completedFiles = before.completedFiles)
      (hfiles : after.files = before.files)
  | resets (hquiet : confirmed = false) (hfiles : before.files = [])
      (hcompleted : after.completedFiles = [])
  | finishes {index : Nat} (hconfirmed : confirmed = true) (hfresh : Unfinished before index)
      (hcompleted : after.completedFiles = before.completedFiles ++ [index])
      (hfiles : after.files = before.files)

theorem freshStatus_failed (point : FolderSender.Point) (error : Error) :
    FreshStatus (.failed point error) := by
  intro other hother
  cases hother

theorem freshStatus_panicked (point : FolderSender.Point) (fault : FixedWidth.Fault) :
    FreshStatus (.panicked point fault) := by
  intro other hother
  cases hother

theorem freshStatus_running {point : FolderSender.Point} (hfresh : Fresh point.memory point.stage) :
    FreshStatus (.running point) := by
  intro other hother
  cases hother
  exact hfresh

variable {session : FolderSender.Session} {memory : FolderTransferState}

/-- A result that keeps the state of the transfer. -/
structure Stays (memory : FolderTransferState) (status : FolderSender.PointStatus) : Prop where
  fresh : FreshStatus status
  memory_eq : memoryOf status = memory

theorem stays_announce (stage : FolderSender.Stage) (resumeFrom : Option ResumePoint) :
    Stays memory (FolderSender.announce session stage memory resumeFrom) := by
  rw [FolderSender.announce]
  cases writeMessage (FolderSender.manifest session memory resumeFrom) with
  | error error => exact ⟨freshStatus_failed _ _, rfl⟩
  | ok done => exact ⟨freshStatus_running trivial, rfl⟩

theorem stays_openTransfer : Stays memory (FolderSender.openTransfer session memory) := by
  rw [FolderSender.openTransfer]
  split
  · rename_i hfiles
    exact ⟨freshStatus_running hfiles, rfl⟩
  · exact stays_announce _ _

theorem stays_readReady (message : Message) : Stays memory (FolderSender.readReady memory message) := by
  unfold FolderSender.readReady
  split
  · exact ⟨freshStatus_running trivial, rfl⟩
  · exact ⟨freshStatus_failed _ _, rfl⟩
  · exact ⟨freshStatus_failed _ _, rfl⟩

theorem stays_visitFile (index : Nat) : Stays memory (FolderSender.visitFile memory index) := by
  rw [FolderSender.visitFile]
  split
  · rename_i hlength
    have hfiles : memory.files ≠ [] :=
      List.ne_nil_of_length_pos (Nat.lt_of_le_of_lt (Nat.zero_le _) hlength)
    split
    · exact ⟨freshStatus_running trivial, rfl⟩
    · rename_i hfresh
      exact ⟨freshStatus_running ⟨hfiles, hfresh⟩, rfl⟩
  · exact ⟨freshStatus_running trivial, rfl⟩

theorem stays_openReader {index : Nat} (hfresh : Unfinished memory index) (fileSize : Nat) :
    Stays memory (FolderSender.openReader session memory index fileSize) := by
  rw [FolderSender.openReader]
  cases chunkCount fileSize session.config.chunkSize with
  | error fault => exact ⟨freshStatus_panicked _ _, rfl⟩
  | ok total => exact ⟨freshStatus_running hfresh, rfl⟩

theorem stays_visitChunk {task : FolderSender.FileTask} (hfresh : Unfinished memory task.index) :
    Stays memory (FolderSender.visitChunk session memory task) := by
  rw [FolderSender.visitChunk]
  split
  · cases FixedWidth.mul 64 task.next session.config.chunkSize.toNat with
    | error fault => exact ⟨freshStatus_panicked _ _, rfl⟩
    | ok offset =>
        cases hsub : FixedWidth.sub task.fileSize offset with
        | error fault =>
            simp only [Status.ofChecked, hsub]
            exact ⟨freshStatus_panicked _ _, rfl⟩
        | ok rest =>
            simp only [Status.ofChecked, hsub]
            exact ⟨freshStatus_running hfresh, rfl⟩
  · exact ⟨freshStatus_running hfresh, rfl⟩

theorem stays_handleChunk {task : FolderSender.FileTask} (hfresh : Unfinished memory task.index)
    (offset length : Nat) (data : Bytes) :
    Stays memory (FolderSender.handleChunk session memory task offset length data) := by
  rw [FolderSender.handleChunk]
  split
  · exact ⟨freshStatus_running hfresh, rfl⟩
  · cases prepareChunk session.codec task.compressor data with
    | error error => exact ⟨freshStatus_failed _ _, rfl⟩
    | ok prepared => exact ⟨freshStatus_running hfresh, rfl⟩

theorem advanced_startTransfer (hfiles : memory.files = []) (scan : FolderSender.Scan) :
    FreshStatus (FolderSender.startTransfer session memory scan) ∧
      Advanced memory false (memoryOf (FolderSender.startTransfer session memory scan)) := by
  rw [FolderSender.startTransfer]
  cases FolderSender.readScan scan with
  | error error => exact ⟨freshStatus_failed _ _, .keeps rfl rfl rfl⟩
  | ok found =>
      obtain ⟨hfresh, hmemory⟩ := @stays_announce session
        (.new session.transferId found.1 found.2 session.config) .scan none
      refine ⟨hfresh, .resets rfl hfiles ?_⟩
      simp only [Status.ofExcept, hmemory]
      rfl

theorem advanced_compareChecksum {index : Nat} (hfresh : Unfinished memory index)
    (checksum : Digest) (message : Message) :
    FreshStatus (FolderSender.compareChecksum memory index checksum message) ∧
      Advanced memory (confirms (.running ⟨memory, .recvChecksum index checksum⟩) (.message message))
        (memoryOf (FolderSender.compareChecksum memory index checksum message)) := by
  unfold FolderSender.compareChecksum
  split
  · rename_i peer
    split
    · rename_i hdiffers
      have hquiet : confirms (.running ⟨memory, .recvChecksum index checksum⟩)
          (.message (.fileChecksum peer)) = false := decide_eq_false hdiffers
      exact ⟨freshStatus_failed _ _, .keeps hquiet rfl rfl⟩
    · rename_i hsame
      have hconfirmed : confirms (.running ⟨memory, .recvChecksum index checksum⟩)
          (.message (.fileChecksum peer)) = true := decide_eq_true (not_not.mp hsame)
      have hcompleted : (memory.markFileComplete index).completedFiles =
          memory.completedFiles ++ [index] := by
        rw [FolderTransferState.markFileComplete, if_neg hfresh.2]
      exact ⟨freshStatus_running trivial, .finishes hconfirmed hfresh hcompleted
        (FolderSender.finishFile_files memory index)⟩
  · rename_i hother
    refine ⟨freshStatus_failed _ _, .keeps ?_ rfl rfl⟩
    cases message with
    | fileChecksum peer => exact absurd rfl (hother peer)
    | _ => rfl

theorem Stays.advanced {status : FolderSender.PointStatus} (hstays : Stays memory status) :
    FreshStatus status ∧ Advanced memory false (memoryOf status) := by
  obtain ⟨hfresh, hmemory⟩ := hstays
  rw [hmemory]
  exact ⟨hfresh, .keeps rfl rfl rfl⟩

/-- The step lemma of an attempt. -/
theorem advanced_of_step {status : FolderSender.PointStatus} {source : Store}
    {input : FolderSender.SenderInput} {next : FolderSender.SenderState}
    (hfresh : FreshStatus status)
    (hstep : (FolderSender.machine session).step ⟨status, source⟩ input = some next) :
    FreshStatus next.status ∧
      Advanced (memoryOf status) (confirms status input) (memoryOf next.status) := by
  cases stepped_of_step hstep with
  | @fail point error written store hstatus hstore hnext =>
      cases hstatus
      rw [hnext]
      obtain ⟨memory, stage⟩ := point
      refine ⟨freshStatus_failed _ _, .keeps ?_ rfl rfl⟩
      cases stage <;> rfl
  | @resume point input reply store hstatus hreply hnext =>
      cases hstatus
      rw [hnext]
      have hfits := Action.fits_of_reply hreply
      have hpoint := hfresh _ rfl
      obtain ⟨memory, stage⟩ := point
      change FreshStatus (FolderSender.resume session ⟨memory, stage⟩ reply) ∧
        Advanced memory (confirms (.running ⟨memory, stage⟩) input)
          (memoryOf (FolderSender.resume session ⟨memory, stage⟩ reply))
      cases stage <;> cases reply <;> try exact hfits.elim
      case recvChecksum.message index checksum message =>
          cases Action.input_of_reply_message hreply
          exact advanced_compareChecksum hpoint checksum message
      case scan.answer scan => exact advanced_startTransfer hpoint scan
      case begin.done => exact stays_openTransfer.advanced
      case sendInfo.done resumeFrom => exact Stays.advanced ⟨freshStatus_running trivial, rfl⟩
      case recvReady.message message => exact (stays_readReady message).advanced
      case fileHead.done index => exact (stays_visitFile index).advanced
      case openSource.value index value =>
          cases value with
          | size fileSize => exact (stays_openReader hpoint fileSize).advanced
          | unit | bytes _ => exact Stays.advanced ⟨freshStatus_running hpoint, rfl⟩
      case chunkHead.done task => exact (stays_visitChunk hpoint).advanced
      case readChunk.value task offset length value =>
          cases value with
          | bytes data => exact (stays_handleChunk hpoint offset length data).advanced
          | unit | size _ => exact Stays.advanced ⟨freshStatus_running hpoint, rfl⟩
      case openStream.done task raw => exact Stays.advanced ⟨freshStatus_running hpoint, rfl⟩
      case awaitStopped.done task =>
          exact ⟨freshStatus_running hpoint, .keeps rfl rfl rfl⟩
      case sendChecksum.done index checksum => exact Stays.advanced ⟨freshStatus_running hpoint, rfl⟩
      case sendComplete.done => exact ⟨nofun, .keeps rfl rfl rfl⟩

/-! ## Runs -/

/-- The file never knows more than the process, and knows all of it when it is up to
date. -/
structure Tracked (current : Bool) (state : State) : Prop where
  fresh : ∀ call attempt status, state.phase = .sending call attempt status → FreshStatus status
  listed : ∀ memory, state.phase.memory? = some memory → memory.files = [] →
    memory.completedFiles = []
  stored : ∀ loaded, state.file = .stored loaded → loaded.files = [] → loaded.completedFiles = []
  behind : ∀ memory loaded, state.phase.memory? = some memory → state.file = .stored loaded →
    loaded.completedFiles ⊆ memory.completedFiles
  recorded_iff : ∀ memory, state.phase.memory? = some memory → memory.completedFiles ≠ [] →
    (Recorded state.file memory ↔ current = true)

variable {settings : Settings} {state : State} {current : Bool}

/-- Only the state of the transfer and the file matter, outside of an attempt. -/
theorem Tracked.transport (htracked : Tracked current state) {next : State}
    (hfresh : ∀ call attempt status, next.phase = .sending call attempt status →
      FreshStatus status)
    (hmemory : ∀ memory, next.phase.memory? = some memory → state.phase.memory? = some memory)
    (hfile : next.file = state.file) : Tracked current next := by
  refine ⟨hfresh, ?_, ?_, ?_, ?_⟩
  · exact fun memory hnext => htracked.listed memory (hmemory memory hnext)
  · rw [hfile]
    exact htracked.stored
  · rw [hfile]
    exact fun memory loaded hnext => htracked.behind memory loaded (hmemory memory hnext)
  · rw [hfile]
    exact fun memory hnext => htracked.recorded_iff memory (hmemory memory hnext)

theorem memoryOf_eq {call : Call} {attempt : Nat} {status : FolderSender.PointStatus} :
    (Phase.sending call attempt status).memory? = some (memoryOf status) := by
  cases status <;> rfl

/-- A step of an attempt. -/
theorem Tracked.advance (htracked : Tracked current state) {call : Call} {attempt : Nat}
    {status after : FolderSender.PointStatus} {confirmed : Bool} (source : Store) (work : FileWork)
    (hphase : state.phase = .sending call attempt status) (hfresh : FreshStatus after)
    (hadvanced : Advanced (memoryOf status) confirmed (memoryOf after)) :
    Tracked (current && !confirmed)
      { state with phase := .sending call attempt after, work := work, source := source } := by
  have hbefore : state.phase.memory? = some (memoryOf status) := by
    rw [hphase]
    exact memoryOf_eq
  refine ⟨?_, ?_, htracked.stored, ?_, ?_⟩
  · intro other count found hfound
    cases hfound
    exact hfresh
  · intro memory hmemory hfiles
    cases memoryOf_eq.symm.trans hmemory
    cases hadvanced with
    | keeps _ hcompleted hkept =>
        rw [hcompleted]
        exact htracked.listed _ hbefore (hkept ▸ hfiles)
    | resets _ _ hcompleted => exact hcompleted
    | finishes _ hfresh _ hkept => exact absurd (hkept ▸ hfiles) hfresh.1
  · intro memory loaded hmemory hloaded
    cases memoryOf_eq.symm.trans hmemory
    have hold := htracked.behind _ loaded hbefore hloaded
    cases hadvanced with
    | keeps _ hcompleted _ => exact hcompleted ▸ hold
    | resets _ hfiles hcompleted =>
        rw [htracked.listed _ hbefore hfiles] at hold
        rw [hcompleted]
        exact hold
    | finishes _ _ hcompleted _ =>
        rw [hcompleted]
        exact List.subset_append_of_subset_left _ hold
  · intro memory hmemory hsome
    cases memoryOf_eq.symm.trans hmemory
    cases hadvanced with
    | keeps hquiet hcompleted _ =>
        rw [hcompleted] at hsome
        rw [hquiet, Bool.not_false, Bool.and_true, Recorded, hcompleted]
        exact htracked.recorded_iff _ hbefore hsome
    | resets _ _ hcompleted => exact absurd hcompleted hsome
    | @finishes index hconfirmed hfresh hcompleted _ =>
        rw [hconfirmed, Bool.not_true, Bool.and_false]
        refine iff_of_false ?_ Bool.false_ne_true
        -- the file knows at most what was completed before
        rintro ⟨loaded, hloaded, hall⟩
        have hknown : index ∈ loaded.completedFiles :=
          hall index (hcompleted ▸ List.mem_append_right _ (List.mem_singleton_self index))
        exact hfresh.2 (htracked.behind _ loaded hbefore hloaded hknown)

theorem tracked_idle (work : FileWork) {file : SavedState} (source : Store)
    (hfile : ∀ loaded, file = .stored loaded → loaded.files = [] → loaded.completedFiles = []) :
    Tracked current ⟨.idle, work, file, source⟩ := by
  refine ⟨?_, ?_, hfile, ?_, ?_⟩
  · intro call attempt status hphase
    cases hphase
  · intro memory hmemory
    cases hmemory
  · intro memory loaded hmemory
    cases hmemory
  · intro memory hmemory
    cases hmemory

/-- A state that is what the file holds, or that has nothing completed, is up to date. -/
theorem tracked_agrees {phase : Phase} {memory : FolderTransferState} {file : SavedState}
    (work : FileWork) (source : Store) (hmemory : phase.memory? = some memory)
    (hfresh : ∀ call attempt status, phase = .sending call attempt status → FreshStatus status)
    (hlisted : memory.files = [] → memory.completedFiles = [])
    (hfile : file = .stored memory ∨ (∀ loaded, file ≠ .stored loaded) ∧
      memory.completedFiles = []) : Tracked true ⟨phase, work, file, source⟩ := by
  refine ⟨hfresh, ?_, ?_, ?_, ?_⟩
  · intro other hother
    cases hmemory.symm.trans hother
    exact hlisted
  · intro loaded hloaded
    rcases hfile with hstored | ⟨hnone, _⟩
    · cases hstored.symm.trans hloaded
      exact hlisted
    · exact absurd hloaded (hnone loaded)
  · intro other loaded hother hloaded
    cases hmemory.symm.trans hother
    rcases hfile with hstored | ⟨hnone, _⟩
    · cases hstored.symm.trans hloaded
      exact List.Subset.refl _
    · exact absurd hloaded (hnone loaded)
  · intro other hother hsome
    cases hmemory.symm.trans hother
    rcases hfile with hstored | ⟨_, hempty⟩
    · exact iff_of_true ⟨memory, hstored, fun _ hindex => hindex⟩ rfl
    · exact absurd hempty hsome

/-- A call starts from what the file holds. -/
theorem tracked_start {call : Call} {memory : FolderTransferState} {path : OsStr}
    {pathExists : Bool} {freshId newId : Uuid} {durationMs : Nat} {file : SavedState}
    (work : FileWork) (source : Store)
    (hfile : ∀ loaded, file = .stored loaded → loaded.files = [] → loaded.completedFiles = [])
    (hopen : openCall pathExists path file freshId newId durationMs settings.config =
      .ok (call, memory)) :
    Tracked true ⟨startAttempt call 0 memory, work, file, source⟩ := by
  have hfresh : ∀ again attempt status, startAttempt call 0 memory = .sending again attempt status →
      FreshStatus status := by
    intro again attempt status hphase
    cases hphase
    exact freshStatus_running trivial
  rw [openCall] at hopen
  split at hopen
  · cases hopen
    cases file with
    | stored loaded => exact tracked_agrees work source rfl hfresh (hfile loaded rfl) (Or.inl rfl)
    | absent | unreadable =>
        exact tracked_agrees work source rfl hfresh (fun _ => rfl) (Or.inr ⟨nofun, rfl⟩)
  · cases hopen

theorem tracked_fileStep (htracked : Tracked current state) {event : FileEvent} {next : State}
    (hstep : fileStep state event = some next) :
    Tracked (update state (.file event) current) next := by
  obtain ⟨phase, work, file, source⟩ := state
  have hlost : ∀ lost work, (∀ loaded, lost ≠ SavedState.stored loaded) →
      Tracked false ⟨phase, work, lost, source⟩ := by
    intro lost work hnone
    refine ⟨htracked.fresh, htracked.listed, ?_, ?_, ?_⟩
    · exact fun loaded hloaded => absurd hloaded (hnone loaded)
    · exact fun _ loaded _ hloaded => absurd hloaded (hnone loaded)
    · intro memory _ _
      refine iff_of_false ?_ Bool.false_ne_true
      rintro ⟨loaded, hloaded, _⟩
      exact hnone loaded hloaded
  cases work <;> cases event <;> try cases hstep
  case save.truncate => exact hlost .unreadable .write nofun
  case remove.remove => exact hlost .absent .none nofun
  case write.finish =>
      obtain ⟨memory, hmemory, rfl⟩ := Option.map_eq_some_iff.mp hstep
      exact tracked_agrees .none source hmemory htracked.fresh (htracked.listed memory hmemory)
        (Or.inl rfl)
  case save.giveUp | write.giveUp | remove.giveUp =>
      exact htracked.transport htracked.fresh (fun _ hmemory => hmemory) rfl

theorem afterFailure_ne_sending (maxAttempts : Nat) (call other : Call) (attempt count : Nat)
    (point : FolderSender.Point) (error : Error) (status : FolderSender.PointStatus) :
    afterFailure maxAttempts call attempt point error ≠ .sending other count status := by
  unfold afterFailure
  dsimp only
  split
  · split <;> exact Phase.noConfusion
  · exact Phase.noConfusion

theorem tracked_path (htracked : Tracked current state) {input : PathInput} {next : Phase × Store}
    (hstep : pathStep settings (state.phase, state.source) input = some next) (work : FileWork) :
    Tracked (current && !completes state.phase input)
      { state with phase := next.1, work := work, source := next.2 } := by
  obtain ⟨phase, before, file, source⟩ := state
  have hkeep : ∀ after : Phase, completes phase input = false →
      (∀ call attempt status, after = .sending call attempt status → FreshStatus status) →
      (∀ memory, after.memory? = some memory → phase.memory? = some memory) →
      Tracked (current && !completes phase input) ⟨after, work, file, source⟩ := by
    intro after hquiet hfresh hmemory
    rw [hquiet, Bool.not_false, Bool.and_true]
    exact htracked.transport hfresh hmemory rfl
  cases pathStepped_of_step hstep with
  | again =>
      refine hkeep _ rfl ?_ (fun _ hmemory => hmemory)
      intro other count status hphase
      cases hphase
      exact freshStatus_running trivial
  | attempt hnext =>
      obtain ⟨hfresh, hadvanced⟩ := advanced_of_step (htracked.fresh _ _ _ rfl) hnext
      exact htracked.advance _ work rfl hfresh hadvanced
  | returned =>
      refine hkeep _ rfl ?_ (fun _ hmemory => hmemory)
      intro other count status hphase
      cases hphase
  | failed =>
      refine hkeep _ rfl ?_ ?_
      · intro other count status hphase
        exact absurd hphase (afterFailure_ne_sending _ _ _ _ _ _ _ _)
      · intro memory hmemory
        rw [memory?_afterFailure] at hmemory
        exact hmemory

theorem tracked_step (htracked : Tracked current state) {event : Event} {next : State}
    (hstep : step settings state event = some next) :
    Tracked (update state event current) next := by
  cases event with
  | kill =>
      cases hstep
      exact tracked_idle .none state.source htracked.stored
  | file event => exact tracked_fileStep htracked hstep
  | path input =>
      rw [step] at hstep
      split at hstep
      · obtain ⟨after, hafter, rfl⟩ := Option.map_eq_some_iff.mp hstep
        exact tracked_path htracked hafter (workAfter input after.1)
      · cases hstep
  | start path pathExists freshId newId durationMs =>
      rw [step] at hstep
      split at hstep
      · rename_i call memory hphase hopen
        cases hstep
        exact tracked_start state.work state.source htracked.stored hopen
      · cases hstep

/-- A kill loses no completed file exactly when the state file is up to date.  Every state
file a call writes lists the files it counts as completed. -/
theorem survives_iff_upToDate {file : SavedState} {source : Store} {events : List Event}
    {final : State} {memory : FolderTransferState}
    (hfile : ∀ loaded, file = .stored loaded → loaded.files = [] → loaded.completedFiles = [])
    (hrun : Run.run (step settings) ⟨.idle, .none, file, source⟩ events = some final)
    (hmemory : final.phase.memory? = some memory) (hcompleted : memory.completedFiles ≠ []) :
    Recorded final.file memory ↔
      upToDate settings ⟨.idle, .none, file, source⟩ events = true := by
  have hstart : Tracked true ⟨.idle, .none, file, source⟩ := tracked_idle .none source hfile
  have htracked : Tracked (upToDate settings ⟨.idle, .none, file, source⟩ events) final :=
    @Run.invariant_track _ _ (step settings) _ update (fun _ => True) Tracked
      (fun _ _ _ _ hinv _ hstep => tracked_step hinv hstep) _ _ _ _ (fun _ _ => trivial) hstart hrun
  exact htracked.recorded_iff memory hmemory hcompleted

/-! ## A folder of two empty files -/

def emptyDigest : Digest :=
  ⟨[227, 176, 196, 66, 152, 252, 28, 20, 154, 251, 244, 200, 153, 111, 185, 36, 39, 174, 65, 228,
    100, 155, 147, 76, 164, 149, 153, 27, 120, 82, 184, 85], rfl⟩

def folderSettings : Settings where
  codec := .stored fun _ => emptyDigest
  config := ConfigMessage.default
  basePath := [115]
  maxAttempts := 3

/-- The files are `f/a` and `f/b`. -/
def folderScan : FolderSender.Scan := .folder [102] [([102, 47, 97], 0, 0), ([102, 47, 98], 0, 0)]

def folderStart : State where
  phase := .idle
  work := .none
  file := .absent
  source := fun _ => some []

/-- The first file is completed and the second one is being sent. -/
def firstFile : List Event :=
  .start [115, 47, 102] true (FixedBytes.filled 16 0) (FixedBytes.filled 16 1) 0 ::
    ([.proceed, .answer folderScan, .proceed, .message .ready, .proceed, .proceed, .proceed, .proceed,
      .message (.fileChecksum
        { transferId := FixedBytes.filled 16 1, fileIndex := 0, checksum := emptyDigest }),
      .proceed, .proceed, .proceed].map fun input => .path (.attempt input))

/-- Then the connection is lost, and the state is saved on the way out. -/
def savedAfterLoss : List Event :=
  firstFile ++ [.path (.attempt (.fail .disconnected 0)), .path .leave, .file .truncate, .file .finish]

theorem survives_iff_upToDate_saved :
    ∃ final memory, Run.run (step folderSettings) folderStart savedAfterLoss = some final ∧
      final.phase.memory? = some memory ∧ memory.completedFiles = [0] ∧
      Recorded final.file memory := by
  refine ⟨_, _, rfl, rfl, rfl, ?_⟩
  have hkept := @survives_iff_upToDate folderSettings .absent (fun _ => some []) savedAfterLoss _ _
    (fun _ hfile => SavedState.noConfusion hfile) rfl rfl (List.cons_ne_nil _ _)
  exact hkept.mpr rfl

/-- Killed while it sends the second file, the process leaves no state file. -/
theorem first_file_lost :
    ∃ final memory, Run.run (step folderSettings) folderStart firstFile = some final ∧
      final.phase.memory? = some memory ∧ memory.completedFiles = [0] ∧ final.file = .absent ∧
      ¬Recorded final.file memory := by
  refine ⟨_, _, rfl, rfl, rfl, rfl, ?_⟩
  rintro ⟨loaded, hloaded, _⟩
  cases hloaded

end P2PFileTransfer.Transfer.StateFile
