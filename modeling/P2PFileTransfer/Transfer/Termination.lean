import P2PFileTransfer.Foundation.Liveness
import P2PFileTransfer.Transfer.Completion

/-!
# A send comes to its end

Every step of the sender lowers a rank: the stages of an attempt come in a fixed order, an
attempt visits the files in order and the chunks of a file in order.  A step of the receiver
lowers one of its own, in which the streams that have arrived count.  A connection breaks at
most once in either direction, and the attempts are bounded, so a call of `send_path` is over
after finitely many steps, whatever they are.
-/

namespace P2PFileTransfer.Transfer.Termination

open P2PFileTransfer.Foundation.FileSystem
open P2PFileTransfer.Foundation.FixedWidth
open P2PFileTransfer.Foundation.Liveness
open P2PFileTransfer.Foundation.Process
open P2PFileTransfer.Core
open P2PFileTransfer.Core.Protocol
open P2PFileTransfer.Core.TransferFile
open P2PFileTransfer.Core.TransferFolder
open P2PFileTransfer.Core.SendPath
open P2PFileTransfer.Transfer.Completion (letterSetup lostAnnouncement)
open P2PFileTransfer.Transfer.Network

/-! ## The sender -/

/-- The order of the stages, the files that are left, the stages of a file, and what is left
of its chunks. -/
def stageRank (files : Nat) : FolderSender.Stage → Figures
  | .begin => figures 6 0 0 0
  | .scan => figures 5 0 0 0
  | .sendInfo _ => figures 4 0 0 0
  | .recvReady => figures 3 0 0 0
  | .fileHead index => figures 2 (files - index) 0 0
  | .openSource index => figures 2 (files - (index + 1)) 4 0
  | .chunkHead task => figures 2 (files - (task.index + 1)) 3 (4 * (task.totalChunks - task.next))
  | .readChunk task _ _ =>
      figures 2 (files - (task.index + 1)) 3 (4 * (task.totalChunks - (task.next + 1)) + 3)
  | .openStream task _ =>
      figures 2 (files - (task.index + 1)) 3 (4 * (task.totalChunks - (task.next + 1)) + 2)
  | .awaitStopped task =>
      figures 2 (files - (task.index + 1)) 3 (4 * (task.totalChunks - (task.next + 1)) + 1)
  | .sendChecksum index _ => figures 2 (files - (index + 1)) 2 0
  | .recvChecksum index _ => figures 2 (files - (index + 1)) 1 0
  | .sendComplete => figures 1 0 0 0

def senderRank : FolderSender.PointStatus → Figures
  | .running point => stageRank point.memory.files.length point.stage
  | .returned _ | .failed _ _ | .panicked _ _ => figures 0 0 0 0

/-- An attempt that has ended ranks below every stage. -/
theorem figures_lt_stageRank (files : Nat) (stage : FolderSender.Stage) :
    figures 0 0 0 0 < stageRank files stage := by
  cases stage <;> simp [stageRank]

variable {session : FolderSender.Session} {memory : FolderTransferState}

theorem senderRank_ofExcept {Value : Type} {point : FolderSender.Point} {value : Except Error Value}
    {next : Value → FolderSender.PointStatus} {rank : Figures} (hpositive : figures 0 0 0 0 < rank)
    (hnext : ∀ found, value = .ok found → senderRank (next found) < rank) :
    senderRank (.ofExcept point value next) < rank := by
  cases value with
  | error error => exact hpositive
  | ok found => exact hnext found rfl

theorem senderRank_ofChecked {Value : Type} {point : FolderSender.Point} {value : Checked Value}
    {next : Value → FolderSender.PointStatus} {rank : Figures} (hpositive : figures 0 0 0 0 < rank)
    (hnext : ∀ found, value = .ok found → senderRank (next found) < rank) :
    senderRank (.ofChecked point value next) < rank := by
  cases value with
  | error fault => exact hpositive
  | ok found => exact hnext found rfl

/-- A manifest is announced before anything else is. -/
theorem senderRank_announce {stage : FolderSender.Stage} {resumeFrom : Option ResumePoint}
    {rank : Figures} (hlate : figures 4 0 0 0 < rank) :
    senderRank (FolderSender.announce session stage memory resumeFrom) < rank := by
  refine senderRank_ofExcept (lt_trans (by simp) hlate) fun _ _ => ?_
  exact hlate

theorem senderRank_visitFile (index : Nat) :
    senderRank (FolderSender.visitFile memory index) <
      stageRank memory.files.length (.fileHead index) := by
  unfold FolderSender.visitFile
  split
  · rename_i hindex
    split
    · exact figures_lt_figures.mpr (.inr ⟨rfl, .inl (by simpa using by omega)⟩)
    · exact figures_lt_figures.mpr (.inr ⟨rfl, .inl (by simpa using by omega)⟩)
  · simp [senderRank, stageRank]

theorem senderRank_visitChunk (task : FolderSender.FileTask) :
    senderRank (FolderSender.visitChunk session memory task) <
      stageRank memory.files.length (.chunkHead task) := by
  have hpositive := figures_lt_stageRank memory.files.length (.chunkHead task)
  unfold FolderSender.visitChunk
  split
  · rename_i hnext
    refine senderRank_ofChecked hpositive fun _ _ => senderRank_ofChecked hpositive fun _ _ => ?_
    simpa [senderRank, stageRank] using by omega
  · simp [senderRank, stageRank]

theorem senderRank_handleChunk (task : FolderSender.FileTask) (offset length : Nat)
    (data : Foundation.ByteFile.Bytes) :
    senderRank (FolderSender.handleChunk session memory task offset length data) <
      stageRank memory.files.length (.readChunk task offset length) := by
  unfold FolderSender.handleChunk
  split
  · simp [senderRank, stageRank]
  · refine senderRank_ofExcept (figures_lt_stageRank _ _) fun _ _ => ?_
    simp [senderRank, stageRank]

theorem senderRank_recordChunk (task : FolderSender.FileTask) :
    senderRank (.running (FolderSender.recordChunk memory task)) <
      stageRank memory.files.length (.awaitStopped task) := by
  simp [senderRank, FolderSender.recordChunk, stageRank]

theorem senderRank_compareChecksum (index : Nat) (checksum : Digest) (message : Message) :
    senderRank (FolderSender.compareChecksum memory index checksum message) <
      stageRank memory.files.length (.recvChecksum index checksum) := by
  unfold FolderSender.compareChecksum
  split
  · split
    · exact figures_lt_stageRank _ _
    · simp [senderRank, stageRank, FolderSender.finishFile_files]
  · exact figures_lt_stageRank _ _

/-- Whatever the sender is handed, it comes closer to its end; the induction over a run is on
this rank. -/
theorem senderRank_resume {stage : FolderSender.Stage} {reply : Reply Message FolderSender.Scan}
    {input : FolderSender.SenderInput} {store after : Store}
    (hreply : (FolderSender.action session ⟨memory, stage⟩).reply input store =
      some (reply, after)) :
    senderRank (FolderSender.resume session ⟨memory, stage⟩ reply) <
      stageRank memory.files.length stage := by
  have hfits := Action.fits_of_reply hreply
  cases stage with
  | begin =>
      cases reply <;> try exact hfits.elim
      simp only [FolderSender.resume, FolderSender.openTransfer]
      split
      · simp [senderRank, stageRank]
      · exact senderRank_announce (by simp [stageRank])
  | scan =>
      cases reply <;> try exact hfits.elim
      refine senderRank_ofExcept (figures_lt_stageRank _ _) fun _ _ => ?_
      exact senderRank_announce (by simp [stageRank])
  | sendInfo _ | openStream _ _ | sendChecksum _ _ | sendComplete =>
      cases reply <;> try exact hfits.elim
      simp [FolderSender.resume, senderRank, stageRank]
  | awaitStopped task =>
      cases reply <;> try exact hfits.elim
      exact senderRank_recordChunk task
  | recvReady =>
      cases reply <;> try exact hfits.elim
      simp only [FolderSender.resume, FolderSender.readReady]
      split <;> simp [senderRank, stageRank]
  | fileHead index =>
      cases reply <;> try exact hfits.elim
      exact senderRank_visitFile index
  | chunkHead task =>
      cases reply <;> try exact hfits.elim
      exact senderRank_visitChunk task
  | recvChecksum index checksum =>
      cases reply <;> try exact hfits.elim
      exact senderRank_compareChecksum index checksum _
  | openSource index =>
      obtain ⟨_, value, rfl, hrun⟩ := Action.performed hreply
      obtain ⟨bytes, _, hvalue⟩ := Option.map_eq_some_iff.mp hrun
      cases hvalue
      refine senderRank_ofChecked (figures_lt_stageRank _ _) fun _ _ => ?_
      simp [senderRank, stageRank]
  | readChunk task offset length =>
      obtain ⟨_, value, rfl, hrun⟩ := Action.performed hreply
      simp only [Operation.run] at hrun
      split at hrun
      · cases hrun
      · split at hrun
        · cases hrun
          exact senderRank_handleChunk task offset length _
        · cases hrun

theorem senderRank_step {point : FolderSender.Point} {store : Store}
    {input : FolderSender.SenderInput} {next : FolderSender.SenderState}
    (hstep : (FolderSender.machine session).step ⟨.running point, store⟩ input = some next) :
    senderRank next.status < senderRank (.running point) := by
  cases stepped_of_step hstep with
  | fail hstatus _ hnext =>
      cases hstatus
      rw [hnext]
      exact figures_lt_stageRank _ _
  | resume hstatus hreply hnext =>
      cases hstatus
      rw [hnext]
      exact senderRank_resume hreply

/-! ## The receiver -/

/-- The stages of a file; the streams that wait to be accepted count between two writes. -/
def fileRank (items waiting : Nat) : FileReceiver.Stage → Figures
  | .begin => figures 3 items 10 0
  | .createParent _ => figures 3 items 9 0
  | .openPartial _ => figures 3 items 8 0
  | .setLen _ => figures 3 items 7 0
  | .acceptUni _ => figures 3 items 6 (2 * waiting)
  | .writeChunk _ _ _ _ => figures 3 items 6 (2 * waiting + 1)
  | .rename => figures 3 items 5 0
  | .reread => figures 3 items 4 0
  | .sendChecksum _ => figures 3 items 3 0
  | .recvChecksum _ => figures 3 items 2 0

def listenerRank (waiting : Nat) : FolderReceiver.Point → Figures
  | .prepare => figures 8 0 0 0
  | .recvInfo => figures 7 0 0 0
  | .decide _ => figures 6 0 0 0
  | .createOutputDir _ => figures 5 0 0 0
  | .sendReady _ => figures 4 0 0 0
  | .fileHead plan index => figures 3 (plan.info.items.length - index) 0 0
  | .createParent plan index _ => figures 3 (plan.info.items.length - (index + 1)) 11 0
  | .file plan index _ stage => fileRank (plan.info.items.length - (index + 1)) waiting stage
  | .recvComplete _ => figures 2 0 0 0
  | .sendCancel => figures 1 0 0 0

def receiverRank (waiting : Nat) : FolderReceiver.PointStatus → Figures
  | .running point => listenerRank waiting point
  | .returned _ | .failed _ _ | .panicked _ _ => figures 0 0 0 0

theorem figures_lt_fileRank (items waiting : Nat) (stage : FileReceiver.Stage) :
    figures 3 items 0 0 < fileRank items waiting stage := by
  cases stage <;> simp [fileRank]

theorem figures_lt_listenerRank (waiting : Nat) (point : FolderReceiver.Point) :
    figures 0 0 0 0 < listenerRank waiting point := by
  cases point with
  | file plan index task stage =>
      exact lt_of_le_of_lt (by simp [figures, Prod.Lex.toLex_le_toLex])
        (figures_lt_fileRank _ waiting stage)
  | prepare | recvInfo | decide _ | sendCancel | createOutputDir _ | sendReady _ =>
      simp [listenerRank]
  | fileHead _ _ | createParent _ _ _ | recvComplete _ => simp [listenerRank]

section FileCall

variable {receiving : FileReceiver.Session} {task : FileReceiver.Task} {items before after : Nat}

theorem fileRank_continueLoop {seen : List Nat} {rank : Figures}
    (hrank : figures 3 items 6 (2 * after) < rank) {next : FileReceiver.Stage}
    (hnext : FileReceiver.continueLoop task seen = .running next) :
    fileRank items after next < rank := by
  refine lt_of_le_of_lt ?_ hrank
  rcases FileReceiver.continueLoop_cases task seen with ⟨_, hloop⟩ | ⟨_, hloop⟩
  · cases hloop.symm.trans hnext
    exact le_rfl
  · cases hloop.symm.trans hnext
    exact le_of_lt (by simp [fileRank])

theorem fileRank_handleStream {seen : List Nat} {raw : Foundation.ByteFile.Bytes}
    (hfewer : after < before) {next : FileReceiver.Stage}
    (hnext : FileReceiver.handleStream receiving task seen raw = .running next) :
    fileRank items after next < fileRank items before (.acceptUni seen) := by
  rcases FileReceiver.handleStream_cases receiving task seen raw with
    ⟨_, _, hstream⟩ | ⟨_, hstream⟩ | ⟨_, _, _, ⟨_, hstream, _⟩ | hstream⟩
  · cases hstream.symm.trans hnext
  · cases hstream.symm.trans hnext
    simpa [fileRank] using hfewer
  · cases hstream.symm.trans hnext
  · cases hstream.symm.trans hnext
    simpa [fileRank] using by omega

/-- Accepting a stream leaves one fewer to wait for. -/
theorem fileRank_resume {stage next : FileReceiver.Stage} {reply : Reply Message Bool}
    {input : FolderReceiver.ReceiverInput} {store left : Store} (hwaiting : after ≤ before)
    (haccepts : ∀ seen, stage = .acceptUni seen → after < before)
    (hreply : (FileReceiver.action receiving task stage).reply input store = some (reply, left))
    (hnext : FileReceiver.resume receiving task stage reply = .running next) :
    fileRank items after next < fileRank items before stage := by
  have hfits := Action.fits_of_reply hreply
  cases stage with
  | begin =>
      cases reply <;> try exact hfits.elim
      rcases FileReceiver.openWriter_cases receiving task with
        ⟨_, hopen, _⟩ | ⟨_, hopen⟩ | ⟨_, hopen⟩ | ⟨_, hopen⟩
      · cases hopen.symm.trans hnext
      · cases hopen.symm.trans hnext
      · cases hopen.symm.trans hnext
        simp [fileRank]
      · cases hopen.symm.trans hnext
        simp [fileRank]
  | createParent _ | openPartial _ | rename | sendChecksum _ =>
      cases reply <;> try exact hfits.elim
      cases hnext
      simp [fileRank]
  | setLen expected =>
      cases reply <;> try exact hfits.elim
      exact fileRank_continueLoop (by simp [fileRank]) hnext
  | acceptUni seen =>
      cases reply <;> try exact hfits.elim
      exact fileRank_handleStream (haccepts seen rfl) hnext
  | writeChunk seen index offset data =>
      cases reply <;> try exact hfits.elim
      exact fileRank_continueLoop (by simpa [fileRank] using by omega) hnext
  | reread =>
      obtain ⟨_, value, rfl, hrun⟩ := Action.performed hreply
      obtain ⟨contents, _, hvalue⟩ := Option.map_eq_some_iff.mp hrun
      cases hvalue
      cases hnext
      simp [fileRank]
  | recvChecksum checksum =>
      cases reply <;> try exact hfits.elim
      rcases FileReceiver.compareChecksum_cases task checksum _ with ⟨_, hcompare⟩ | ⟨hcompare, _⟩
      · cases hcompare.symm.trans hnext
      · cases hcompare.symm.trans hnext

end FileCall

section FolderCall

variable {receiving : FolderReceiver.Session} {before after : Nat}

theorem receiverRank_started {plan : FolderReceiver.Plan} {point : FolderReceiver.Point}
    {index size : Nat} {fullPath : Foundation.UnixPath.OsStr} {status : FolderReceiver.PointStatus}
    {rank : Figures}
    (hrank : figures 3 (plan.info.items.length - (index + 1)) 10 0 < rank)
    (hstarted : FolderReceiver.Started receiving plan point index size fullPath status) :
    receiverRank after status < rank := by
  cases hstarted with
  | overflows _ => exact lt_trans (by simp [receiverRank]) hrank
  | begins _ => exact hrank

theorem receiverRank_visited {plan : FolderReceiver.Plan} {index : Nat}
    {status : FolderReceiver.PointStatus}
    (hvisited : FolderReceiver.Visited receiving plan index status) :
    receiverRank after status < listenerRank before (.fileHead plan index) := by
  have hless : ∀ file, plan.info.items[index]? = some file →
      plan.info.items.length - (index + 1) < plan.info.items.length - index := by
    intro file hfile
    have hindex := (List.getElem?_eq_some_iff.mp hfile).1
    omega
  cases hvisited with
  | ends _ => simp [receiverRank, listenerRank]
  | skips hfile _ | creates hfile _ _ =>
      exact figures_lt_figures.mpr (.inr ⟨rfl, .inl (hless _ hfile)⟩)
  | refuses _ _ => exact figures_lt_listenerRank _ _
  | starts hfile _ _ hstarted =>
      exact receiverRank_started (figures_lt_figures.mpr (.inr ⟨rfl, .inl (hless _ hfile)⟩)) hstarted

theorem receiverRank_file {plan : FolderReceiver.Plan} {index : Nat} {task : FileReceiver.Task}
    {stage : FileReceiver.Stage} {reply : Reply Message Bool}
    (hrunning : ∀ next, FileReceiver.resume (FolderReceiver.fileSession receiving plan.info) task
        stage reply = .running next →
      fileRank (plan.info.items.length - (index + 1)) after next <
        fileRank (plan.info.items.length - (index + 1)) before stage) :
    receiverRank after (FolderReceiver.resume receiving (.file plan index task stage) reply) <
      listenerRank before (.file plan index task stage) := by
  simp only [FolderReceiver.resume]
  cases hinner : FileReceiver.resume (FolderReceiver.fileSession receiving plan.info) task stage reply with
  | running next => exact hrunning next hinner
  | returned done => exact figures_lt_fileRank _ _ _
  | failed _ _ | panicked _ _ => exact figures_lt_listenerRank before (.file plan index task stage)

theorem receiverRank_resume {point : FolderReceiver.Point} {reply : Reply Message Bool}
    {input : FolderReceiver.ReceiverInput} {store left : Store} (hwaiting : after ≤ before)
    (haccepts : FolderReceiver.action receiving point = .acceptStream → after < before)
    (hreply : (FolderReceiver.action receiving point).reply input store = some (reply, left)) :
    receiverRank after (FolderReceiver.resume receiving point reply) < listenerRank before point := by
  by_cases hfile : ∃ plan index task stage, point = .file plan index task stage
  · obtain ⟨plan, index, task, stage, rfl⟩ := hfile
    refine receiverRank_file fun next hnext => ?_
    refine fileRank_resume hwaiting (fun seen hstage => ?_) hreply hnext
    subst hstage
    exact haccepts rfl
  refine FolderReceiver.resume_elim (motive := fun point status =>
      (¬∃ plan index task stage, point = .file plan index task stage) →
        receiverRank after status < listenerRank before point)
    ?prepare ?info ?accept ?reject ?cancel ?output ?ready ?head ?parent ?file ?complete
    point reply (Action.fits_of_reply hreply) hfile
  case prepare | cancel => exact fun _ => by simp [receiverRank, listenerRank]
  case reject | output | complete => exact fun _ _ => by simp [receiverRank, listenerRank]
  case info =>
      intro message status hread _
      cases hread <;> simp [receiverRank, listenerRank]
  case accept =>
      intro info status hplanned _
      cases hplanned <;> simp [receiverRank, listenerRank]
  case ready =>
      intro plan _
      simp [receiverRank, listenerRank]
  case head => exact fun plan index status hvisited _ => receiverRank_visited hvisited
  case parent =>
      intro plan index fullPath status hstarted _
      exact receiverRank_started (by simp [listenerRank]) hstarted
  case file =>
      intro plan index task stage reply _ hother
      exact absurd ⟨plan, index, task, stage, rfl⟩ hother

theorem receiverRank_step {state next : FolderReceiver.ReceiverState} {point : FolderReceiver.Point}
    {input : FolderReceiver.ReceiverInput} (hstatus : state.status = .running point)
    (hwaiting : after ≤ before)
    (haccepts : FolderReceiver.action receiving point = .acceptStream →
      (∃ raw, input = .stream raw) → after < before)
    (hstep : (FolderReceiver.machine receiving).step state input = some next) :
    receiverRank after next.status < receiverRank before state.status := by
  rw [hstatus]
  cases stepped_of_step hstep with
  | fail hother _ hnext =>
      cases hstatus.symm.trans hother
      rw [hnext]
      exact figures_lt_listenerRank _ _
  | resume hother hreply hnext =>
      cases hstatus.symm.trans hother
      rw [hnext]
      refine receiverRank_resume hwaiting (fun haction => haccepts haction ?_) hreply
      change (FolderReceiver.action receiving point).reply input _ = _ at hreply
      rw [haction] at hreply
      cases input with
      | stream raw => exact ⟨raw, rfl⟩
      | proceed | answer _ | message _ | fail _ _ => cases hreply

end FolderCall

/-! ## Both sides -/

/-- The attempts that are left, and how far the one at hand is. -/
def phaseRank (maxAttempts : Nat) : Phase → Nat ×ₗ Nat ×ₗ Figures
  | .retrying _ attempt _ => toLex (maxAttempts - (attempt + 1), toLex (2, figures 0 0 0 0))
  | .sending _ attempt status => toLex (maxAttempts - attempt, toLex (1, senderRank status))
  | .idle | .returned _ | .failed _ _ => toLex (0, toLex (0, figures 0 0 0 0))

def unbroken (link : Link) : Nat := link.forward.toNat + link.backward.toNat

/-- A direction can break once in a connection, and a receiver works through one call. -/
def worldRank (setup : Setup) (world : Network.State) :
    (Nat ×ₗ Nat ×ₗ Figures) ×ₗ Nat ×ₗ Figures :=
  toLex (phaseRank setup.maxAttempts world.sender, toLex (unbroken world.link,
    receiverRank (world.link.opened.length - world.link.accepted) world.receiver.status))

/-- The call is not started again, and a direction breaks once. -/
def Proceeds (world : Network.State) : Event → Prop
  | .start _ _ _ _ => False
  | .loseForward => world.link.forward = true
  | .loseBackward => world.link.backward = true
  | .sender _ | .receiver _ | .save _ | .reconnect _ | .finish _ => True

/-- No call of `send_path` goes on. -/
def Over : Phase → Prop
  | .idle | .returned _ | .failed _ _ | .sending _ _ (.panicked _ _) => True
  | .sending _ _ _ | .retrying _ _ _ => False

variable {setup : Setup} {world next : Network.State}

theorem worldRank_lt_of_phase
    (hphase : phaseRank setup.maxAttempts next.sender < phaseRank setup.maxAttempts world.sender) :
    worldRank setup next < worldRank setup world :=
  Prod.Lex.toLex_lt_toLex.mpr (.inl hphase)

theorem worldRank_lt_of_receiver (hsender : next.sender = world.sender)
    (hlink : unbroken next.link = unbroken world.link)
    (hreceiver : receiverRank (next.link.opened.length - next.link.accepted) next.receiver.status <
      receiverRank (world.link.opened.length - world.link.accepted) world.receiver.status) :
    worldRank setup next < worldRank setup world := by
  refine Prod.Lex.toLex_lt_toLex.mpr (.inr ⟨by rw [hsender], ?_⟩)
  exact Prod.Lex.toLex_lt_toLex.mpr (.inr ⟨hlink, hreceiver⟩)

theorem phaseRank_lt_of_status (maxAttempts : Nat) {call : Call} {attempt : Nat}
    {before after : FolderSender.PointStatus} (hstatus : senderRank after < senderRank before) :
    phaseRank maxAttempts (.sending call attempt after) <
      phaseRank maxAttempts (.sending call attempt before) :=
  Prod.Lex.toLex_lt_toLex.mpr (.inr ⟨rfl, Prod.Lex.toLex_lt_toLex.mpr (.inr ⟨rfl, hstatus⟩)⟩)

/-- An attempt ranks above the end of the call. -/
theorem lt_phaseRank (maxAttempts : Nat) {call : Call} {attempt : Nat}
    {status : FolderSender.PointStatus} :
    toLex (0, toLex (0, figures 0 0 0 0)) <
      phaseRank maxAttempts (.sending call attempt status) := by
  rcases Nat.eq_zero_or_pos (maxAttempts - attempt) with hlast | hleft
  · refine Prod.Lex.toLex_lt_toLex.mpr (.inr ⟨hlast.symm, ?_⟩)
    exact Prod.Lex.toLex_lt_toLex.mpr (.inl Nat.zero_lt_one)
  · exact Prod.Lex.toLex_lt_toLex.mpr (.inl hleft)

theorem phaseRank_startAttempt (maxAttempts : Nat) {call : Call} {attempt : Nat}
    {memory : FolderTransferState} :
    phaseRank maxAttempts (startAttempt call (attempt + 1) memory) <
      phaseRank maxAttempts (.retrying call attempt memory) :=
  Prod.Lex.toLex_lt_toLex.mpr (.inr ⟨rfl, Prod.Lex.toLex_lt_toLex.mpr (.inl Nat.one_lt_two)⟩)

/-- A failed attempt leaves one fewer, or ends the call. -/
theorem phaseRank_afterFailure {maxAttempts : Nat} (hbounded : maxAttempts ≠ 0) {call : Call}
    {attempt : Nat} {point : FolderSender.Point} {error : Error} :
    phaseRank maxAttempts (afterFailure maxAttempts call attempt point error) <
      phaseRank maxAttempts (.sending call attempt (.failed point error)) := by
  simp only [afterFailure]
  split
  · split
    · rename_i hretry
      have hless : attempt + 1 < maxAttempts := by simpa [shouldRetry, hbounded] using hretry
      exact Prod.Lex.toLex_lt_toLex.mpr (.inl (Nat.sub_lt_sub_left (Nat.lt_of_succ_lt hless)
        (Nat.lt_succ_self attempt)))
    · exact lt_phaseRank maxAttempts
  · exact lt_phaseRank maxAttempts

theorem worldRank_sender {move : Move FolderSender.Scan}
    (hsender : SenderStepped setup world move next) :
    worldRank setup next < worldRank setup world := by
  cases hsender with
  | intro hsender hfed hstep =>
      refine worldRank_lt_of_phase ?_
      rw [hsender]
      exact phaseRank_lt_of_status _ (senderRank_step hstep)

/-- A receiver that accepts a stream has one fewer to wait for. -/
theorem waiting_of_receiverFed {link after : Link} {action : Action Message} {move : Move Bool}
    {input : FolderReceiver.ReceiverInput} (hfed : ReceiverFed link action move input after) :
    unbroken after = unbroken link ∧
      after.opened.length - after.accepted ≤ link.opened.length - link.accepted ∧
      ((∃ raw, input = .stream raw) →
        after.opened.length - after.accepted < link.opened.length - link.accepted) := by
  cases hfed with
  | acceptStream hopened =>
      have hless := (List.getElem?_eq_some_iff.mp hopened).1
      exact ⟨rfl, Nat.sub_le_sub_left (Nat.le_succ _) _,
        fun _ => Nat.sub_lt_sub_left hless (Nat.lt_succ_self _)⟩
  | fail _ | answer | compute | perform | send | receive _ =>
      refine ⟨rfl, le_rfl, ?_⟩
      rintro ⟨raw, hraw⟩
      cases hraw

theorem worldRank_receiver {move : Move Bool} (hreceiver : ReceiverStepped setup world move next) :
    worldRank setup next < worldRank setup world := by
  cases hreceiver with
  | intro hreceiver hfed hstep =>
      obtain ⟨hlink, hwaiting, hstream⟩ := waiting_of_receiverFed hfed
      exact worldRank_lt_of_receiver rfl hlink
        (receiverRank_step hreceiver hwaiting (fun _ => hstream) hstep)

theorem worldRank_lt_of_broken {after : Link} (hlink : unbroken after < unbroken world.link) :
    worldRank setup { world with link := after } < worldRank setup world := by
  refine Prod.Lex.toLex_lt_toLex.mpr (.inr ⟨rfl, ?_⟩)
  exact Prod.Lex.toLex_lt_toLex.mpr (.inl hlink)

/-- Every event of a call lowers the rank. -/
theorem worldRank_step (hbounded : setup.maxAttempts ≠ 0) {event : Event}
    (hproceeds : Proceeds world event) (hstep : step setup world event = some next) :
    worldRank setup next < worldRank setup world := by
  cases networkStepped_of_step hstep with
  | start _ _ _ => exact hproceeds.elim
  | sender hsender => exact worldRank_sender hsender
  | receiver hreceiver => exact worldRank_receiver hreceiver
  | loseForward =>
      have hforward : world.link.forward = true := hproceeds
      exact worldRank_lt_of_broken (by simp [unbroken, hforward])
  | loseBackward =>
      have hbackward : world.link.backward = true := hproceeds
      exact worldRank_lt_of_broken (by simp [unbroken, hbackward])
  | save outcome hsender =>
      refine worldRank_lt_of_phase ?_
      rw [hsender]
      exact phaseRank_afterFailure hbounded
  | reconnect hsender _ | unreachable hsender =>
      refine worldRank_lt_of_phase ?_
      rw [hsender]
      exact phaseRank_startAttempt _
  | finish removed hsender =>
      refine worldRank_lt_of_phase ?_
      rw [hsender]
      exact lt_phaseRank _

/-! ## There is always a way on -/

/-- Every wait may fail once the connection is broken, and a computation goes on. -/
theorem exists_step_of_broken {call : Call} {attempt : Nat} {point : FolderSender.Point}
    (hsender : world.sender = .sending call attempt (.running point))
    (hforward : world.link.forward = false) :
    ∃ event next, Proceeds world event ∧ step setup world event = some next := by
  by_cases hcompute :
      FolderSender.action (senderSession setup world.link call) point = .compute
  · have hreply : (FolderSender.action (senderSession setup world.link call) point).reply
        (.proceed : FolderSender.SenderInput) setup.source = some (.done, setup.source) := by
      rw [hcompute]
      rfl
    have hmachine : (FolderSender.machine (senderSession setup world.link call)).step
        ⟨.running point, setup.source⟩ .proceed = _ := step_resume rfl hreply
    exact ⟨.sender .proceed, _, trivial, by
      simp only [step, stepSender, hsender, hcompute, Link.feedSender, hmachine, Option.map_some]
      rfl⟩
  · have hpermits : world.link.permits
        (FolderSender.action (senderSession setup world.link call) point) .disconnected = true := by
      cases haction : FolderSender.action (senderSession setup world.link call) point <;>
        simp [Link.permits, hforward, fromConnection]
    obtain ⟨store, hstore⟩ : ∃ store,
        ((FolderSender.machine (senderSession setup world.link call)).action point).interrupted 0
          setup.source = some store := by
      change ∃ store, (FolderSender.action (senderSession setup world.link call) point).interrupted 0
        setup.source = some store
      cases haction : FolderSender.action (senderSession setup world.link call) point with
      | compute => exact absurd haction hcompute
      | ask | perform _ | send _ | receive | openStream _ | awaitStopped | acceptStream =>
          exact ⟨_, rfl⟩
    exact ⟨.sender (.fail .disconnected 0), _, trivial, by
      simp only [step, stepSender, hsender, Link.feedSender, hpermits, if_true, Machine.step, hstore,
        Option.map_some]
      rfl⟩

theorem exists_step (hgoing : ¬Over world.sender) :
    ∃ event next, Proceeds world event ∧ step setup world event = some next := by
  cases hsender : world.sender with
  | idle | returned _ | failed _ _ =>
      rw [hsender] at hgoing
      exact absurd trivial hgoing
  | retrying call attempt memory =>
      exact ⟨.reconnect false, { world with sender := startAttempt call (attempt + 1) memory },
        trivial, by simp only [step, hsender, if_neg Bool.false_ne_true]⟩
  | sending call attempt status =>
      cases status with
      | panicked point fault =>
          rw [hsender] at hgoing
          exact absurd trivial hgoing
      | failed point error =>
          exact ⟨.save .saved, _, trivial, by simp only [step, hsender]; rfl⟩
      | returned memory =>
          exact ⟨.finish true, _, trivial, by simp only [step, hsender]; rfl⟩
      | running point =>
          cases hforward : world.link.forward with
          | false => exact exists_step_of_broken hsender hforward
          | true => exact ⟨.loseForward, _, hforward, rfl⟩

/-! ## The end of a call -/

/-- A call of `send_path` whose attempts are bounded comes to its end, whatever becomes of the
connections and whatever the peer does. -/
theorem send_path_ends (hbounded : setup.maxAttempts ≠ 0) (world : Network.State) :
    Inevitable (step setup) Proceeds (fun world => Over world.sender) world := by
  refine inevitable_of_rank (fun _ => True) (worldRank setup) ?_ ?_ trivial
  · exact fun world _ => (em (Over world.sender)).imp id exists_step
  · exact fun _ _ _ _ hproceeds hstep => ⟨trivial, worldRank_step hbounded hproceeds hstep⟩

/-- A call whose first connection broke. -/
theorem send_path_ends_letter :
    ∃ world, Network.run letterSetup (initial letterSetup fun _ => none) lostAnnouncement =
        some world ∧ ¬Over world.sender ∧
      Inevitable (step letterSetup) Proceeds (fun world => Over world.sender) world := by
  obtain ⟨world, call, attempt, status, hrun, hsender⟩ : ∃ world call attempt point,
      Network.run letterSetup (initial letterSetup fun _ => none) lostAnnouncement = some world ∧
        world.sender = .sending call attempt (.running point) := ⟨_, _, _, _, rfl, rfl⟩
  refine ⟨world, hrun, ?_, send_path_ends (by decide) world⟩
  rw [hsender]
  exact id

end P2PFileTransfer.Transfer.Termination
