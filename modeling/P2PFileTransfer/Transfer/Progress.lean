import P2PFileTransfer.Transfer.Concord
import P2PFileTransfer.Transfer.Termination

/-!
# An undisturbed connection is used to its end

While neither side waits in vain, one of the two can always go on: the files a sender asks
for are there, and so are those a receiver has made.  With the rank of both calls this leaves
only one way for a connection to end on which nothing fails from outside.
-/

namespace P2PFileTransfer.Transfer.Progress

open P2PFileTransfer.Foundation.FileSystem
open P2PFileTransfer.Foundation.FixedWidth
open P2PFileTransfer.Foundation.Liveness
open P2PFileTransfer.Foundation.Process
open P2PFileTransfer.Foundation.UnixPath
open P2PFileTransfer.Core
open P2PFileTransfer.Core.Protocol
open P2PFileTransfer.Core.TransferFile
open P2PFileTransfer.Core.TransferFolder
open P2PFileTransfer.Core.SendPath
open P2PFileTransfer.Core.FolderSender (SoundStatus)
open P2PFileTransfer.Transfer.Completion (letterSetup)
open P2PFileTransfer.Transfer.Concord (ReceiverBlocked SenderBlocked)
open P2PFileTransfer.Transfer.Honesty
open P2PFileTransfer.Transfer.Lockstep
open P2PFileTransfer.Transfer.Network
open P2PFileTransfer.Transfer.Script
open P2PFileTransfer.Transfer.Termination

/-! ## The sender -/

section Sender

variable {session : FolderSender.Session} {source : Store} {point : FolderSender.Point}

/-- What an honest sender asks of its files succeeds. -/
theorem runs_of_sound (hsound : SoundStatus session source (.running point)) {operation : Operation}
    (haction : FolderSender.action session point = .perform operation) :
    ∃ after value, operation.run source = some (after, value) := by
  obtain ⟨memory, stage⟩ := point
  obtain ⟨hmemory, hstage⟩ := hsound
  cases stage with
  | openSource index =>
      cases haction
      obtain ⟨hindex, hunfinished⟩ := hstage
      dsimp only at hindex hunfinished
      subst hindex
      obtain ⟨bytes, hbytes⟩ := hmemory.honest _ (List.getElem_mem hunfinished)
      refine ⟨source, .size bytes.length, ?_⟩
      simp only [Operation.run, List.getElem?_eq_getElem hunfinished, Option.map_some,
        Option.getD_some, hbytes.contents]
  | readChunk task offset length =>
      cases haction
      obtain ⟨file, htask, hnext, _, rfl, rfl⟩ := hstage
      obtain ⟨bytes, hbytes⟩ := hmemory.honest _ (List.mem_of_getElem? htask.item)
      have hbegins := mul_lt_of_lt_chunksOf (chunkSize_pos htask.chunkSize)
        (htask.totalChunks ▸ hnext)
      have hfits : task.next * session.config.chunkSize.toNat +
          min (file.size - task.next * session.config.chunkSize.toNat)
            session.config.chunkSize.toNat ≤ bytes.length := by
        rw [hbytes.length]
        omega
      exact ⟨source, _, by simp only [Operation.run, htask.path, hbytes.contents, if_pos hfits]; rfl⟩
  | begin | scan | sendInfo _ | recvReady | fileHead _ | chunkHead _ => cases haction
  | openStream _ _ | awaitStopped _ | sendChecksum _ _ | recvChecksum _ _ | sendComplete =>
      cases haction

theorem stage_of_ask (haction : FolderSender.action session point = .ask) : point.stage = .scan := by
  obtain ⟨memory, stage⟩ := point
  cases stage with
  | scan => rfl
  | begin | sendInfo _ | recvReady | fileHead _ | openSource _ | chunkHead _ => cases haction
  | readChunk _ _ _ | openStream _ _ | awaitStopped _ | sendChecksum _ _ => cases haction
  | recvChecksum _ _ | sendComplete => cases haction

theorem action_ne_acceptStream : FolderSender.action session point ≠ .acceptStream := by
  obtain ⟨memory, stage⟩ := point
  intro haction
  cases stage <;> cases haction

end Sender

variable {setup : Setup} {world next : Network.State}

theorem step_of_senderFed {call : Call} {attempt : Nat} {point : FolderSender.Point}
    (hsender : world.sender = .sending call attempt (.running point))
    {move : Move FolderSender.Scan} {input : FolderSender.SenderInput} {link : Link}
    (hfeed : world.link.feedSender point
      (FolderSender.action (senderSession setup world.link call) point) move = some (input, link))
    {reply : Reply Message FolderSender.Scan} {after : Store}
    (hreply : (FolderSender.action (senderSession setup world.link call) point).reply input
      setup.source = some (reply, after)) :
    ∃ next, step setup world (.sender move) = some next := by
  have hmachine : (FolderSender.machine (senderSession setup world.link call)).step
      ⟨.running point, setup.source⟩ input = _ := step_resume rfl hreply
  exact ⟨_, by simp only [step, stepSender, hsender, hfeed, hmachine, Option.map_some]; rfl⟩

/-- A sender that does not wait in vain can go on. -/
theorem exists_sender_step (hsound : Sound setup Acceptable world) {call : Call} {attempt : Nat}
    {point : FolderSender.Point} (hsender : world.sender = .sending call attempt (.running point))
    (hscan : point.stage = .scan → ∃ scan, Smooth setup world (.sender (.answer scan)))
    (hfree : ¬SenderBlocked setup world) :
    ∃ event next, Smooth setup world event ∧ step setup world event = some next := by
  have hproceeds : (∃ input link reply after, world.link.feedSender point
        (FolderSender.action (senderSession setup world.link call) point) .proceed =
          some (input, link) ∧
      (FolderSender.action (senderSession setup world.link call) point).reply input setup.source =
        some (reply, after)) →
      ∃ event next, Smooth setup world event ∧ step setup world event = some next := by
    rintro ⟨input, link, reply, after, hfeed, hreply⟩
    obtain ⟨next, hstep⟩ := step_of_senderFed hsender hfeed hreply
    exact ⟨.sender .proceed, next, trivial, hstep⟩
  cases haction : FolderSender.action (senderSession setup world.link call) point with
  | acceptStream => exact absurd haction action_ne_acceptStream
  | ask =>
      obtain ⟨scan, hsmooth⟩ := hscan (stage_of_ask haction)
      have hstep : ∃ next, step setup world (.sender (.answer scan)) = some next :=
        step_of_senderFed hsender (by rw [haction]; rfl) (by rw [haction]; rfl)
      obtain ⟨next, hstep⟩ := hstep
      exact ⟨.sender (.answer scan), next, hsmooth, hstep⟩
  | perform operation =>
      obtain ⟨after, value, hrun⟩ := runs_of_sound (hsound.sender _ _ _ hsender) haction
      rw [haction] at hproceeds
      exact hproceeds ⟨.proceed, _, .value value, after, rfl, by rw [Action.reply, hrun]; rfl⟩
  | compute | send _ | openStream _ =>
      rw [haction] at hproceeds
      exact hproceeds ⟨.proceed, _, .done, _, rfl, rfl⟩
  | receive =>
      rw [haction] at hproceeds
      cases hmessages : world.link.toSender with
      | nil => exact absurd ⟨call, attempt, point, hsender, by rw [haction]; exact hmessages⟩ hfree
      | cons message rest =>
          refine hproceeds ⟨.message message, { world.link with toSender := rest }, .message message,
            setup.source, ?_, rfl⟩
          simp only [Link.feedSender, hmessages]
  | awaitStopped =>
      rw [haction] at hproceeds
      have hdelivered : world.link.delivered = true := Bool.eq_true_of_not_eq_false fun hwaits =>
        hfree ⟨call, attempt, point, hsender, by rw [haction]; exact hwaits⟩
      exact hproceeds ⟨.proceed, world.link, .done, setup.source, if_pos hdelivered, rfl⟩

/-! ## The receiver -/

/-- The files a receiver has made are there when it comes back to them. -/
def StagePlaced (store : Store) (task : FileReceiver.Task) : FileReceiver.Stage → Prop
  | .setLen _ | .acceptUni _ | .writeChunk _ _ _ _ | .rename =>
      (store task.partialLocation).isSome = true
  | .reread => (store task.finalLocation).isSome = true
  | .begin | .createParent _ | .openPartial _ | .sendChecksum _ | .recvChecksum _ => True

def Placed (state : FolderReceiver.ReceiverState) : Prop :=
  match state.status with
  | .running (.file _ _ task stage) => StagePlaced state.store task stage
  | _ => True

section Receiver

variable {receiving : FileReceiver.Session} {task : FileReceiver.Task}

theorem stagePlaced_continueLoop {store : Store} {seen : List Nat} {next : FileReceiver.Stage}
    (hleftover : (store task.partialLocation).isSome = true)
    (hnext : FileReceiver.continueLoop task seen = .running next) : StagePlaced store task next := by
  rcases FileReceiver.continueLoop_cases task seen with ⟨_, hloop⟩ | ⟨_, hloop⟩
  · cases hloop.symm.trans hnext
    exact hleftover
  · cases hloop.symm.trans hnext
    exact hleftover

theorem stagePlaced_resume {stage next : FileReceiver.Stage} {reply : Reply Message Bool}
    {input : FolderReceiver.ReceiverInput} {store after : Store}
    (hplaced : StagePlaced store task stage)
    (hreply : (FileReceiver.action receiving task stage).reply input store = some (reply, after))
    (hnext : FileReceiver.resume receiving task stage reply = .running next) :
    StagePlaced after task next := by
  have hfits := Action.fits_of_reply hreply
  cases stage with
  | begin =>
      cases reply <;> try exact hfits.elim
      rcases FileReceiver.openWriter_cases receiving task with
        ⟨_, hopen, _⟩ | ⟨_, hopen⟩ | ⟨_, hopen⟩ | ⟨_, hopen⟩ <;>
        cases hopen.symm.trans hnext <;> trivial
  | createParent _ | sendChecksum _ =>
      cases reply <;> try exact hfits.elim
      cases hnext
      trivial
  | openPartial expected =>
      obtain ⟨_, value, rfl, hrun⟩ := Action.performed hreply
      cases hrun
      cases hnext
      simp [StagePlaced]
  | setLen expected =>
      obtain ⟨_, value, rfl, hrun⟩ := Action.performed hreply
      cases hrun
      refine stagePlaced_continueLoop ?_ hnext
      simpa [StagePlaced] using hplaced
  | writeChunk seen index offset data =>
      obtain ⟨_, value, rfl, hrun⟩ := Action.performed hreply
      cases hrun
      refine stagePlaced_continueLoop ?_ hnext
      simpa [StagePlaced] using hplaced
  | acceptUni seen =>
      have hstore : after = store := by cases input <;> cases hreply; rfl
      cases reply <;> try exact hfits.elim
      rw [hstore]
      rcases FileReceiver.handleStream_cases receiving task seen _ with
        ⟨_, _, hstream⟩ | ⟨_, hstream⟩ | ⟨_, _, _, ⟨_, hstream, _⟩ | hstream⟩ <;>
        cases hstream.symm.trans hnext <;> exact hplaced
  | rename =>
      obtain ⟨_, value, rfl, hrun⟩ := Action.performed hreply
      obtain ⟨bytes, _, hmoved⟩ := Option.map_eq_some_iff.mp hrun
      cases hmoved
      cases hnext
      simp [StagePlaced]
  | reread =>
      obtain ⟨_, value, rfl, hrun⟩ := Action.performed hreply
      obtain ⟨contents, _, hvalue⟩ := Option.map_eq_some_iff.mp hrun
      cases hvalue
      cases hnext
      trivial
  | recvChecksum checksum =>
      cases reply <;> try exact hfits.elim
      rcases FileReceiver.compareChecksum_cases task checksum _ with ⟨_, hcompare⟩ | ⟨hcompare, _⟩ <;>
        cases hcompare.symm.trans hnext

end Receiver

theorem placed_step {receiving : FolderReceiver.Session} {state after : FolderReceiver.ReceiverState}
    {input : FolderReceiver.ReceiverInput} (hplaced : Placed state)
    (hstep : (FolderReceiver.machine receiving).step state input = some after) : Placed after := by
  cases stepped_of_step hstep with
  | fail hstatus _ hnext =>
      rw [hnext]
      trivial
  | @resume point _ reply store hstatus hreply hnext =>
      rw [hnext]
      unfold Placed
      dsimp only
      split
      · rename_i plan index task stage hrunning
        have hfits := Action.fits_of_reply hreply
        rcases FolderReceiver.resume_file hfits hrunning with rfl | ⟨earlier, rfl, hresume⟩
        · trivial
        · rw [Placed, hstatus] at hplaced
          exact stagePlaced_resume hplaced hreply hresume
      · trivial

/-- What the receiver asks of its files succeeds. -/
theorem runs_of_placed {receiving : FolderReceiver.Session} {store : Store}
    {point : FolderReceiver.Point} (hplaced : Placed ⟨.running point, store⟩) {operation : Operation}
    (haction : FolderReceiver.action receiving point = .perform operation) :
    ∃ after value, operation.run store = some (after, value) := by
  cases point with
  | prepare | createOutputDir _ | createParent _ _ _ =>
      cases haction
      exact ⟨store, .unit, rfl⟩
  | recvInfo | decide _ | sendCancel | sendReady _ | fileHead _ _ | recvComplete _ => cases haction
  | file plan index task stage =>
      cases stage with
      | createParent _ | openPartial _ | setLen _ | writeChunk _ _ _ _ =>
          cases haction
          exact ⟨_, .unit, rfl⟩
      | rename | reread =>
          cases haction
          obtain ⟨bytes, hbytes⟩ := Option.isSome_iff_exists.mp hplaced
          dsimp only at hbytes
          exact ⟨_, _, by rw [Operation.run, hbytes]; rfl⟩
      | begin | acceptUni _ | sendChecksum _ | recvChecksum _ => cases haction

theorem step_of_receiverFed {point : FolderReceiver.Point}
    (hreceiver : world.receiver.status = .running point) {move : Move Bool}
    {input : FolderReceiver.ReceiverInput} {link : Link}
    (hfeed : world.link.feedReceiver (FolderReceiver.action (receiverSession setup world.link) point)
      move = some (input, link)) {reply : Reply Message Bool} {after : Store}
    (hreply : (FolderReceiver.action (receiverSession setup world.link) point).reply input
      world.receiver.store = some (reply, after)) :
    ∃ next, step setup world (.receiver move) = some next := by
  have hmachine : (FolderReceiver.machine (receiverSession setup world.link)).step
      world.receiver input = _ := step_resume hreceiver hreply
  exact ⟨_, by simp only [step, stepReceiver, hreceiver, hfeed, hmachine, Option.map_some]; rfl⟩

/-- A receiver that does not wait in vain can go on. -/
theorem exists_receiver_step (hplaced : Placed world.receiver) {point : FolderReceiver.Point}
    (hreceiver : world.receiver.status = .running point) (hfree : ¬ReceiverBlocked setup world) :
    ∃ event next, Smooth setup world event ∧ step setup world event = some next := by
  have hproceeds : (∃ input link reply after, world.link.feedReceiver
        (FolderReceiver.action (receiverSession setup world.link) point) .proceed =
          some (input, link) ∧
      (FolderReceiver.action (receiverSession setup world.link) point).reply input
        world.receiver.store = some (reply, after)) →
      ∃ event next, Smooth setup world event ∧ step setup world event = some next := by
    rintro ⟨input, link, reply, after, hfeed, hreply⟩
    obtain ⟨next, hstep⟩ := step_of_receiverFed hreceiver hfeed hreply
    exact ⟨.receiver .proceed, next, trivial, hstep⟩
  cases haction : FolderReceiver.action (receiverSession setup world.link) point with
  | ask =>
      have hstep : ∃ next, step setup world (.receiver (.answer true)) = some next :=
        step_of_receiverFed hreceiver (by rw [haction]; rfl) (by rw [haction]; rfl)
      obtain ⟨next, hstep⟩ := hstep
      exact ⟨.receiver (.answer true), next, trivial, hstep⟩
  | perform operation =>
      have hhere : Placed ⟨.running point, world.receiver.store⟩ := hreceiver ▸ hplaced
      obtain ⟨after, value, hrun⟩ := runs_of_placed hhere haction
      rw [haction] at hproceeds
      exact hproceeds ⟨.proceed, _, .value value, after, rfl, by rw [Action.reply, hrun]; rfl⟩
  | compute | send _ =>
      rw [haction] at hproceeds
      exact hproceeds ⟨.proceed, _, .done, _, rfl, rfl⟩
  | receive =>
      rw [haction] at hproceeds
      cases hmessages : world.link.toReceiver with
      | nil => exact absurd ⟨point, hreceiver, by rw [haction]; exact hmessages⟩ hfree
      | cons message rest =>
          refine hproceeds ⟨.message message, { world.link with toReceiver := rest },
            .message message, world.receiver.store, ?_, rfl⟩
          simp only [Link.feedReceiver, hmessages]
  | acceptStream =>
      rw [haction] at hproceeds
      cases hstream : world.link.opened[world.link.accepted]? with
      | none => exact absurd ⟨point, hreceiver, by rw [haction]; exact hstream⟩ hfree
      | some stream =>
          obtain ⟨file, raw⟩ := stream
          refine hproceeds ⟨.stream raw, { world.link with accepted := world.link.accepted + 1 },
            .stream raw, world.receiver.store, ?_, rfl⟩
          simp only [Link.feedReceiver, hstream]
  | openStream _ | awaitStopped =>
      cases point with
      | file plan index task stage => cases stage <;> cases haction
      | prepare | recvInfo | decide _ | sendCancel | createOutputDir _ => cases haction
      | sendReady _ | fileHead _ _ | createParent _ _ _ | recvComplete _ => cases haction

/-! ## Both sides -/

/-- The path to send can be scanned and announced, if it is still to be. -/
def Scannable (setup : Setup) (world : Network.State) : Prop :=
  ∀ call attempt point, world.sender = .sending call attempt (.running point) →
    point.stage = .scan ∨ point.stage = .begin ∧ point.memory.files = [] →
    ∃ scan, Smooth setup world (.sender (.answer scan))

/-- Both calls have returned, or one of them has stopped, with an error that is not one of the
protocol. -/
inductive Settled (world : Network.State) : Prop where
  | returned {call : Call} {attempt : Nat} {memory : FolderTransferState}
      {summary : FolderReceiver.TransferSummary}
      (hsender : world.sender = .sending call attempt (.returned memory))
      (hreceiver : world.receiver.status = .returned summary) : Settled world
  | senderFailed {call : Call} {attempt : Nat} {point : FolderSender.Point} {error : Error}
      (hsender : world.sender = .sending call attempt (.failed point error))
      (hplain : (FolderSender.returnedError point error).isProtocol = false) : Settled world
  | senderPanicked {call : Call} {attempt : Nat} {point : FolderSender.Point} {fault : Fault}
      (hsender : world.sender = .sending call attempt (.panicked point fault)) : Settled world
  | receiverFailed {point : FolderReceiver.Point} {error : Error}
      (hreceiver : world.receiver.status = .failed point error)
      (hplain : error.isProtocol = false) : Settled world
  | receiverPanicked {point : FolderReceiver.Point} {fault : Fault}
      (hreceiver : world.receiver.status = .panicked point fault) : Settled world

structure Underway (setup : Setup) (world : Network.State) : Prop where
  paired : Paired setup world
  placed : Placed world.receiver
  scannable : Scannable setup world

/-- Only the beginning of a call that has no files leads to a scan. -/
theorem begin_of_scan {session : FolderSender.Session} {point after : FolderSender.Point}
    {reply : Reply Message FolderSender.Scan} {input : FolderSender.SenderInput} {store left : Store}
    (hreply : (FolderSender.action session point).reply input store = some (reply, left))
    (hresume : FolderSender.resume session point reply = .running after)
    (hstage : after.stage = .scan ∨ after.stage = .begin ∧ after.memory.files = []) :
    after.stage = .scan ∧ point.stage = .begin ∧ point.memory.files = [] := by
  obtain ⟨memory, stage⟩ := point
  have hlower := senderRank_resume hreply
  rw [hresume, senderRank] at hlower
  have hbegin : after.stage = .scan ∧ stage = .begin := by
    rcases hstage with hscan | ⟨hbegin, _⟩
    · rw [hscan] at hlower
      cases stage <;> simp [stageRank] at hlower
      exact ⟨hscan, rfl⟩
    · rw [hbegin] at hlower
      cases stage <;> simp [stageRank] at hlower
  obtain ⟨hscan, rfl⟩ := hbegin
  refine ⟨hscan, rfl, by_contra fun hfiles => ?_⟩
  have hopen : FolderSender.openTransfer session memory = .running after := by
    cases reply <;> try exact (Action.fits_of_reply hreply).elim
    exact hresume
  rw [FolderSender.openTransfer, if_neg hfiles, FolderSender.announce] at hopen
  cases hwrite : writeMessage (FolderSender.manifest session memory
      (memory.resumePoint session.transferId)) with
  | error error =>
      rw [hwrite] at hopen
      cases hopen
  | ok done =>
      rw [hwrite] at hopen
      cases hopen
      cases hscan

/-- What can be scanned stays so while the call goes on. -/
theorem smooth_answer {call : Call} {attempt : Nat} {before after : FolderSender.PointStatus}
    (hsender : world.sender = .sending call attempt before)
    (hnext : next.sender = .sending call attempt after)
    (hconfig : next.link.config = world.link.config) {scan : FolderSender.Scan}
    (hsmooth : Smooth setup world (.sender (.answer scan))) :
    Smooth setup next (.sender (.answer scan)) := by
  obtain ⟨hscans, found, hfound, hframe⟩ := hsmooth
  refine ⟨hscans, found, hfound, fun other again status hother => ?_⟩
  cases hnext.symm.trans hother
  have hsame := hframe call attempt before hsender
  simpa only [senderSession, Settings.session, hconfig] using hsame

theorem scannable_step (hscannable : Scannable setup world) {event : Event}
    (hsmooth : Smooth setup world event) (hstep : step setup world event = some next) :
    Scannable setup next := by
  intro call attempt point hpoint hstage
  cases networkStepped_of_step hstep with
  | start _ _ _ | loseForward | loseBackward | save _ _ | reconnect _ _ | unreachable _
  | finish _ _ => exact hsmooth.elim
  | receiver hreceiver =>
      cases hreceiver with
      | intro _ hfed _ =>
          have hsender : world.sender = .sending call attempt (.running point) := hpoint
          obtain ⟨scan, hscan⟩ := hscannable call attempt point hsender hstage
          exact ⟨scan, smooth_answer hsender hpoint (receiverFed_config hfed) hscan⟩
  | sender hsender =>
      cases hsender with
      | @intro before _ earlier input link after hsender hfed hmachine =>
          obtain ⟨rfl, rfl, hstatus⟩ := Phase.sending.inj hpoint
          cases stepped_of_step hmachine with
          | fail _ _ hnext =>
              rw [hnext] at hstatus
              cases hstatus
          | resume hrunning hreply hnext =>
              cases hrunning
              rw [hnext] at hstatus
              obtain ⟨_, hbegin, hfiles⟩ := begin_of_scan hreply hstatus hstage
              obtain ⟨scan, hscan⟩ := hscannable _ _ _ hsender (.inr ⟨hbegin, hfiles⟩)
              exact ⟨scan, smooth_answer hsender hpoint (senderFed_config hfed) hscan⟩

theorem underway_step (hdecode : Invertible setup.codec) (hunderway : Underway setup world)
    {event : Event} (hsmooth : Smooth setup world event) (hstep : step setup world event = some next) :
    Underway setup next := by
  refine ⟨paired_step hdecode hunderway.paired hsmooth hstep, ?_,
    scannable_step hunderway.scannable hsmooth hstep⟩
  cases networkStepped_of_step hstep with
  | start _ _ _ | loseForward | loseBackward | save _ _ | reconnect _ _ | unreachable _
  | finish _ _ => exact hsmooth.elim
  | sender hsender =>
      cases hsender with
      | intro _ _ _ => exact hunderway.placed
  | receiver hreceiver =>
      cases hreceiver with
      | intro _ _ hmachine => exact placed_step hunderway.placed hmachine

theorem worldRank_smooth {event : Event} (hsmooth : Smooth setup world event)
    (hstep : step setup world event = some next) : worldRank setup next < worldRank setup world := by
  cases networkStepped_of_step hstep with
  | start _ _ _ | loseForward | loseBackward | save _ _ | reconnect _ _ | unreachable _
  | finish _ _ => exact hsmooth.elim
  | sender hsender => exact worldRank_sender hsender
  | receiver hreceiver => exact worldRank_receiver hreceiver

theorem sending_of_paired (hpaired : Paired setup world) :
    ∃ call attempt status, world.sender = .sending call attempt status := by
  cases hpaired.exchange with
  | early hsender _ _ _ _ _ => exact ⟨_, _, _, hsender⟩
  | opened _ hsender _ _ _ _ => exact ⟨_, _, _, hsender⟩

/-- A sender that does not wait and a receiver that is still at work, or both at their ends. -/
theorem settled_or_receives (hpos : setup.chunkSize ≠ 0) (hunderway : Underway setup world)
    (hfree : ¬ReceiverBlocked setup world)
    (hreturned : ∀ summary, world.receiver.status = .returned summary → Settled world) :
    Settled world ∨ ∃ event next, Smooth setup world event ∧ step setup world event = some next := by
  have hplain := (Concord.inStep_of_paired hpos hunderway.paired).receiverPlain
  cases hreceiver : world.receiver.status with
  | failed point error => exact .inl (.receiverFailed hreceiver (hplain point error hreceiver))
  | panicked point fault => exact .inl (.receiverPanicked hreceiver)
  | returned summary => exact .inl (hreturned summary hreceiver)
  | running point => exact .inr (exists_receiver_step hunderway.placed hreceiver hfree)

/-- While neither call has stopped with an error and one of them goes on, one can go on. -/
theorem settled_or_exists_step (hpos : setup.chunkSize ≠ 0) (hunderway : Underway setup world) :
    Settled world ∨ ∃ event next, Smooth setup world event ∧ step setup world event = some next := by
  have hpaired := hunderway.paired
  obtain ⟨call, attempt, status, hsender⟩ := sending_of_paired hpaired
  cases status with
  | failed point error =>
      have hplain := (Concord.inStep_of_paired hpos hpaired).senderPlain
      exact .inl (.senderFailed hsender (hplain call attempt point error hsender))
  | panicked point fault => exact .inl (.senderPanicked hsender)
  | returned memory =>
      exact settled_or_receives hpos hunderway (Concord.free_of_returned hpaired hsender)
        fun summary hreceiver => .returned hsender hreceiver
  | running point =>
      by_cases hblocked : SenderBlocked setup world
      · obtain ⟨hfree, hreturned⟩ := Concord.free_of_blocked hpaired hblocked
        exact settled_or_receives hpos hunderway hfree
          fun summary hreceiver => absurd hreceiver (hreturned summary)
      · refine .inr (exists_sender_step hpaired.holding.sound hsender (fun hstage => ?_) hblocked)
        exact hunderway.scannable call attempt point hsender (.inl hstage)

/-- Whatever came before: on a connection on which nothing fails from outside, both calls
return or one of them stops with an error, however the two sides take turns. -/
theorem connection_used_up (hdecode : Invertible setup.codec) (hpos : setup.chunkSize ≠ 0)
    {source : Store}
    {before : Network.State} (hreached : Reached setup source before) {event : Event}
    (hconnects : (event.resumes before).isSome = true)
    (hconnect : step { setup with source := source } before event = some world)
    (hframe : ∀ call attempt memory,
      world.sender = .sending call attempt (.running ⟨memory, .begin⟩) → memory.files ≠ [] →
        FitsFrame memory call.transferId)
    (hscan : ∀ call attempt memory,
      world.sender = .sending call attempt (.running ⟨memory, .begin⟩) → memory.files = [] →
        ∃ scan, Smooth { setup with source := source } world (.sender (.answer scan))) :
    Inevitable (step { setup with source := source }) (Smooth { setup with source := source })
      Settled world := by
  have hsound := sound_of_reached hdecode hreached
  obtain ⟨config, call, attempt, memory, rfl, hchunkSize, hmemory⟩ :=
    connected_of_step hsound hconnects hconnect
  refine inevitable_of_rank (Underway { setup with source := source })
    (worldRank { setup with source := source })
    (fun world hunderway => settled_or_exists_step hpos hunderway) ?_ ?_
  · exact fun world event next hunderway hsmooth hstep =>
      ⟨underway_step hdecode hunderway hsmooth hstep, worldRank_smooth hsmooth hstep⟩
  · refine ⟨paired_connect hsound hchunkSize attempt hmemory (hframe call attempt memory rfl),
      trivial, ?_⟩
    intro other again point hpoint hstage
    cases hpoint
    rcases hstage with hstage | ⟨_, hfiles⟩
    · cases hstage
    · exact hscan call attempt memory rfl hfiles

/-- The start of the first connection for the file `in/g`. -/
def letterStart : Event :=
  .start { ConfigMessage.default with compressionEnabled := false, chunkSize := 1 }
    (FixedBytes.filled 16 0) (FixedBytes.filled 16 1) 0

theorem connection_used_up_letter :
    ∃ world, step letterSetup (initial letterSetup fun _ => none) letterStart = some world ∧
      Inevitable (step letterSetup) (Smooth letterSetup) Settled world := by
  have hdecode : Invertible letterSetup.codec := fun data _ encoded hencode => by
    cases hencode
    rfl
  have hconnects : (letterStart.resumes (initial letterSetup fun _ => none)).isSome = true := rfl
  obtain ⟨world, call, memory, hconnect, hsender, hfiles, hframe⟩ : ∃ world call memory,
      step letterSetup (initial letterSetup fun _ => none) letterStart = some world ∧
      world.sender = .sending call 0 (.running ⟨memory, .begin⟩) ∧ memory.files = [] ∧
      FitsFrame (.new call.transferId [103] [FolderSender.metadataOf [103] 2 0] world.link.config)
        call.transferId := ⟨_, _, _, rfl, rfl, rfl, rfl⟩
  refine ⟨world, hconnect, connection_used_up hdecode (by decide) (.initial fun _ => none) hconnects
    hconnect ?_ ?_⟩
  · intro other again found hother hnonempty
    cases hsender.symm.trans hother
    exact absurd hfiles hnonempty
  · intro other again found hother _
    refine ⟨.file [103] 2 0, Concord.scans_letter, _, rfl, fun third _ _ hthird => ?_⟩
    cases hsender.symm.trans hthird
    exact hframe

end P2PFileTransfer.Transfer.Progress
