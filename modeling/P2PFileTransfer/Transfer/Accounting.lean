import P2PFileTransfer.Transfer.Tally

/-!
# The byte counts of both sides

Along with a run of the two sides goes what they report to their progress counts, and what
the receiver of the last connection has written.  At a successful end all of it is
determined by two states: the one the call was started from and the one the last
connection was opened with.
-/

namespace P2PFileTransfer.Transfer.Accounting

open P2PFileTransfer.Foundation
open P2PFileTransfer.Foundation.FileSystem
open P2PFileTransfer.Foundation.FixedWidth
open P2PFileTransfer.Foundation.Process
open P2PFileTransfer.Core
open P2PFileTransfer.Core.Progress
open P2PFileTransfer.Core.Protocol
open P2PFileTransfer.Core.TransferFile
open P2PFileTransfer.Core.TransferFolder
open P2PFileTransfer.Core.SendPath
open P2PFileTransfer.Core.FolderSender (Orderly)
open P2PFileTransfer.Transfer.Conversation
open P2PFileTransfer.Transfer.Honesty
open P2PFileTransfer.Transfer.Network
open P2PFileTransfer.Transfer.ReceiverLane
open P2PFileTransfer.Transfer.Schedule
open P2PFileTransfer.Transfer.SenderLane
open P2PFileTransfer.Transfer.Streams
open P2PFileTransfer.Transfer.Tally

/-- The state the call at hand was started from, the progress of both sides, and what the
receiver of the connection has written. -/
structure Ledger where
  loaded : FolderTransferState
  sender : ProgressState
  receiver : ProgressState
  written : Nat

def Ledger.empty (setup : Setup) : Ledger where
  loaded := (initial setup fun _ => none).link.resumed
  sender := .new 0
  receiver := .new 0
  written := 0

/-- A call of `send_path` keeps its progress over all attempts, a receiver starts anew with
every connection. -/
def Ledger.update (setup : Setup) (world : Network.State) (event : Event) (ledger : Ledger) :
    Ledger :=
  match event with
  | .start config freshId _ _ =>
      { loaded := loadState world.saved freshId config
        sender := startProgress (loadState world.saved freshId config)
        receiver := .new 0
        written := 0 }
  | .reconnect true => { ledger with receiver := .new 0, written := 0 }
  | .sender move =>
      match world.sender with
      | .sending call _ (.running point) =>
          let session := senderSession setup world.link call
          match world.link.feedSender point (FolderSender.action session point) move with
          | none => ledger
          | some (input, _) =>
              { ledger with sender := reportSent session point input ledger.sender }
      | _ => ledger
  | .receiver move =>
      match world.receiver.status with
      | .running point =>
          let session := receiverSession setup world.link
          match world.link.feedReceiver (FolderReceiver.action session point) move with
          | none => ledger
          | some (input, _) =>
              { ledger with
                receiver := reportReceived session point input ledger.receiver
                written := ledger.written + writtenBytes point input }
      | _ => ledger
  | .reconnect false | .loseForward | .loseBackward | .save _ | .finish _ => ledger

/-- The ledger at the end of a run. -/
def ledgerOf (setup : Setup) (store : Store) (events : List Event) : Ledger :=
  Run.track (step setup) (Ledger.update setup) (.empty setup) (initial setup store) events

/-- Both progress counts end at their totals, and the summary counts what was written. -/
structure Closes (ledger : Ledger) (summary : FolderReceiver.TransferSummary) : Prop where
  sender : ledger.sender.transferredBytes = ledger.sender.totalBytes
  receiver : ledger.receiver.transferredBytes = ledger.receiver.totalBytes
  summary : summary.bytes = ledger.written

/-! ## What a manifest counts -/

/-- The manifest counts as delivered what the state accounts for. -/
structure Announces (chunkSize : Nat) (resumed : FolderTransferState) (info : TransferInfo) :
    Prop where
  started : ∃ count, startChunks info (firstItem info) = List.range count
  delivered : deliveredBytes chunkSize info = finishedBytes resumed + partBytes chunkSize resumed
  resumes : info.resumeFrom = none ↔ partBytes chunkSize resumed = 0

variable {setup : Setup} {ledger : Ledger} {world next : Network.State} {chunkSize : Nat}
  {memory resumed : FolderTransferState} {info : TransferInfo}

/-- A chunk of the next file is recorded exactly when bytes of it are. -/
theorem partBytes_eq_zero_iff (horderly : Orderly chunkSize memory) (htallied : Tallied memory) :
    partBytes chunkSize memory = 0 ↔ memory.fileChunks (nextItem memory) = [] := by
  obtain ⟨count, hcount⟩ := htallied.recorded
  constructor
  · intro hnone
    cases count with
    | zero => exact hcount
    | succ count =>
        exfalso
        have hmem : 0 ∈ memory.fileChunks (nextItem memory) := by
          rw [hcount]
          exact List.mem_range.mpr (Nat.succ_pos _)
        obtain ⟨file, hother, hless⟩ := horderly.bounded 0 hmem
        have hfile : memory.files[nextItem memory]? = some file := hother
        have hpos : 0 < chunkSize := by
          rcases Nat.eq_zero_or_pos chunkSize with rfl | hpos
          · rw [chunksOf, Nat.div_zero] at hless
            exact absurd hless (Nat.lt_irrefl 0)
          · exact hpos
        have hsize := mul_lt_of_lt_chunksOf hpos hless
        rw [partBytes, hcount, bytesOf_range hfile, Nat.succ_mul] at hnone
        omega
  · intro hnone
    rw [partBytes, hnone]
    exact bytesOf_nil _ _ _

theorem announces_manifestOf (horderly : Orderly chunkSize memory) (htallied : Tallied memory)
    (transferId : Uuid) (hlength : memory.files.length < 2 ^ 32) :
    Announces chunkSize memory (manifestOf memory transferId) := by
  have hfirst : firstItem (manifestOf memory transferId) = nextItem memory :=
    firstItem_manifestOf memory transferId
  have hchunks : startChunks (manifestOf memory transferId) (nextItem memory) =
      memory.fileChunks (nextItem memory) := startChunks_manifestOf horderly transferId hlength
  refine ⟨?_, ?_, ?_⟩
  · rw [hfirst, hchunks]
    exact htallied.recorded
  · rw [deliveredBytes, standingBytes, hfirst, hchunks]
    rfl
  · rw [partBytes_eq_zero_iff horderly htallied]
    change memory.resumePoint transferId = none ↔ _
    rcases resumePoint_of_orderly horderly transferId with ⟨hnone, hempty⟩ | ⟨hsome, _⟩
    · exact iff_of_true hnone hempty
    · refine iff_of_false ?_ (completedChunks_ne_nil hsome)
      rw [hsome]
      exact Option.some_ne_none _

/-! ## The invariant -/

/-- The manifest the receiver may have heard of. -/
def MayHear (link : Link) (info : TransferInfo) : Prop :=
  link.announced = none ∨ link.announced = some info

structure Accounts (setup : Setup) (ledger : Ledger) (world : Network.State) : Prop where
  steady : Steady setup world
  sender : ∀ memory, world.sender.memory? = some memory →
    Balanced setup.chunkSize.toNat ledger.loaded ledger.sender memory
  stage : ∀ call attempt point, world.sender = .sending call attempt (.running point) →
    StageTallied setup.chunkSize.toNat point.memory point.stage
  saved : ∀ memory, world.saved = .stored memory → Tallied memory
  /-- A sender that has announced nothing accounts for what it came with. -/
  unannounced : world.link.announced = none → ∀ memory, world.sender.memory? = some memory →
    finishedBytes memory = finishedBytes world.link.resumed ∧
      partBytes setup.chunkSize.toNat memory = partBytes setup.chunkSize.toNat world.link.resumed
  announced : ∀ info, world.link.announced = some info →
    Announces setup.chunkSize.toNat world.link.resumed info
  receiver : ∀ info, MayHear world.link info →
    BookedStatus setup.chunkSize info ledger.receiver ledger.written world.receiver.status
  finished : ∀ memory, world.sender = .returned memory → nextItem memory = memory.files.length

theorem accounts_initial (store : Store) : Accounts setup (.empty setup) (initial setup store) := by
  refine ⟨steady_initial store, ?_, ?_, ?_, ?_, ?_, ?_, ?_⟩
  · intro memory hmemory
    cases hmemory
  · intro call attempt point hsender
    cases hsender
  · intro memory hsaved
    cases hsaved
  · intro _ memory hmemory
    cases hmemory
  · intro info hannounced
    cases hannounced
  · exact fun _ _ => Or.inl rfl
  · intro memory hsender
    cases hsender

theorem tallied_loadState (hsaved : ∀ memory, world.saved = .stored memory → Tallied memory)
    (freshId : Uuid) (config : ConfigMessage) : Tallied (loadState world.saved freshId config) := by
  cases hstored : world.saved with
  | stored memory => exact hsaved memory hstored
  | absent | unreadable => exact tallied_new _ _ _ _

/-- On a new connection nothing is announced or written. -/
theorem accounts_connect {config : ConfigMessage} {call : Call} {attempt : Nat}
    {loaded : FolderTransferState} {progress : ProgressState}
    (hsteady : Steady setup (connect world config call attempt memory))
    (hsaved : ∀ memory, world.saved = .stored memory → Tallied memory)
    (hbalanced : Balanced setup.chunkSize.toNat loaded progress memory) :
    Accounts setup { loaded := loaded, sender := progress, receiver := .new 0, written := 0 }
      (connect world config call attempt memory) := by
  refine ⟨hsteady, ?_, ?_, hsaved, ?_, ?_, ?_, ?_⟩
  · intro other hother
    cases hother
    exact hbalanced
  · intro _ _ point hsender
    cases hsender
    trivial
  · intro _ other hother
    cases hother
    exact ⟨rfl, rfl⟩
  · intro info hannounced
    cases hannounced
  · exact fun _ _ => ⟨rfl, rfl⟩
  · intro _ hsender
    cases hsender

/-- Leaving an attempt, or starting the next one on the same connection. -/
theorem accounts_phase (haccounts : Accounts setup ledger world) {phase : Phase} {saved : SavedState}
    (hsteady : Steady setup { world with sender := phase, saved := saved })
    (hmemory : phase.memory? = world.sender.memory?)
    (hstage : ∀ call attempt point, phase = .sending call attempt (.running point) →
      StageTallied setup.chunkSize.toNat point.memory point.stage)
    (hsaved : ∀ memory, saved = .stored memory → Tallied memory)
    (hfinished : ∀ memory, phase = .returned memory → nextItem memory = memory.files.length) :
    Accounts setup ledger { world with sender := phase, saved := saved } := by
  refine ⟨hsteady, ?_, hstage, hsaved, ?_, haccounts.announced, haccounts.receiver, hfinished⟩
  · intro memory hother
    exact haccounts.sender memory (hmemory ▸ hother)
  · intro hnone memory hother
    exact haccounts.unannounced hnone memory (hmemory ▸ hother)

/-! ## Moves -/

/-- A move of the sender, with what it reports. -/
theorem update_sender {move : Move FolderSender.Scan}
    (hstep : stepSender setup world move = some next) (ledger : Ledger) :
    ∃ call attempt point input link after,
      world.sender = .sending call attempt (.running point) ∧
      SenderFed world.link point (FolderSender.action (senderSession setup world.link call) point)
        move input link ∧
      (FolderSender.machine (senderSession setup world.link call)).step
        ⟨.running point, setup.source⟩ input = some after ∧
      next = { world with sender := .sending call attempt after.status, link := link } ∧
      ledger.update setup world (.sender move) =
        { ledger with
          sender := reportSent (senderSession setup world.link call) point input ledger.sender } := by
  rw [stepSender] at hstep
  split at hstep
  · rename_i call attempt point hsender
    dsimp only at hstep
    split at hstep
    · cases hstep
    · rename_i input link hfeed
      obtain ⟨after, hmachine, rfl⟩ := Option.map_eq_some_iff.mp hstep
      refine ⟨call, attempt, point, input, link, after, hsender, senderFed_of_feed hfeed, hmachine,
        rfl, ?_⟩
      simp only [Ledger.update, hsender, hfeed]
  · cases hstep

/-- A move of the receiver, with what it reports. -/
theorem update_receiver {move : Move Bool} (hstep : stepReceiver setup world move = some next)
    (ledger : Ledger) :
    ∃ point input link after, world.receiver.status = .running point ∧
      ReceiverFed world.link (FolderReceiver.action (receiverSession setup world.link) point) move
        input link ∧
      (FolderReceiver.machine (receiverSession setup world.link)).step world.receiver input =
        some after ∧
      next = { world with receiver := after, link := link } ∧
      ledger.update setup world (.receiver move) =
        { ledger with
          receiver := reportReceived (receiverSession setup world.link) point input ledger.receiver
          written := ledger.written + writtenBytes point input } := by
  rw [stepReceiver] at hstep
  split at hstep
  · rename_i point hreceiver
    dsimp only at hstep
    split at hstep
    · cases hstep
    · rename_i input link hfeed
      obtain ⟨after, hmachine, rfl⟩ := Option.map_eq_some_iff.mp hstep
      refine ⟨point, input, link, after, hreceiver, receiverFed_of_feed hfeed, hmachine, rfl, ?_⟩
      simp only [Ledger.update, hreceiver, hfeed]
  · cases hstep

/-- Before Ready nothing is sent. -/
theorem reportSent_of_waiting {session : FolderSender.Session} {point : FolderSender.Point}
    (hwaiting : ¬Live point.stage) (input : FolderSender.SenderInput) (progress : ProgressState) :
    (reportSent session point input progress).transferredBytes = progress.transferredBytes := by
  obtain ⟨memory, stage⟩ := point
  cases stage with
  | begin =>
      cases input with
      | proceed =>
          change (if memory.files = [] then progress
            else progress.setTotalBytes memory.totalBytes).transferredBytes = _
          split
          · rfl
          · exact ProgressState.setTotalBytes_transferredBytes _ _
      | answer _ | message _ | stream _ | fail _ _ => rfl
  | scan =>
      cases input with
      | answer scan =>
          simp only [reportSent]
          cases FolderSender.readScan scan with
          | error error => rfl
          | ok found => exact ProgressState.setTotalBytes_transferredBytes _ _
      | proceed | message _ | stream _ | fail _ _ => rfl
  | sendInfo _ | recvReady => rfl
  | fileHead _ | openSource _ | chunkHead _ | readChunk _ _ _ => exact absurd trivial hwaiting
  | openStream _ _ | awaitStopped _ | sendChecksum _ _ | recvChecksum _ _ | sendComplete =>
      exact absurd trivial hwaiting

/-- A sender that waits works on the state it came with, or on the one a scan found. -/
theorem scanned_of_waited {link after : Link} {point : FolderSender.Point} {transferId : Uuid}
    {status : FolderSender.PointStatus}
    (hwaited : SenderWaited link point transferId status after) :
    Scanned point.memory (statusMemory status) ∧ (after.announced = link.announced ∨
      after = link.sendForward (.transferInfo (manifestOf point.memory transferId)) ∧
        point.memory.files ≠ [] ∧ point.memory.files.length < 2 ^ 32) := by
  cases hwaited with
  | fails hmemory hlink _ =>
      refine ⟨hmemory, Or.inl ?_⟩
      rcases hlink with rfl | ⟨_, _, _, _, rfl⟩ <;> rfl
  | prepares _ _ hmemory => exact ⟨hmemory, Or.inl rfl⟩
  | announces _ hfiles hlength => exact ⟨Or.inl rfl, Or.inr ⟨rfl, hfiles, hlength⟩⟩
  | starts _ _ => exact ⟨Or.inl rfl, Or.inl rfl⟩

theorem bytes_of_scanned {loaded after : FolderTransferState} {progress later : ProgressState}
    (hscanned : Scanned memory after) (hbefore : Balanced chunkSize loaded progress memory)
    (hafter : Balanced chunkSize loaded later after)
    (hsame : later.transferredBytes = progress.transferredBytes) :
    finishedBytes after = finishedBytes memory ∧
      partBytes chunkSize after = partBytes chunkSize memory := by
  rcases hscanned with rfl | ⟨hfiles, hfirst⟩
  · exact ⟨rfl, rfl⟩
  · have hnone := @bytes_of_files_nil chunkSize memory hfiles
    have hfinished : finishedBytes after = 0 := by
      rw [finishedBytes, hfirst]
      rfl
    have hold := hbefore.balance
    have hnew := hafter.balance
    omega

theorem waiting_of_unannounced {terms : Terms} (hstanding : Standing terms world)
    (hnone : world.link.announced = none) : Waiting world.sender := by
  cases hstanding with
  | silent _ _ _ _ hwaiting => exact hwaiting
  | asked hopened _ _ _ _ _ | live hopened _ _ _ | closed hopened _ _ _ =>
      cases hopened.announced.symm.trans hnone

theorem accounts_sender (haccounts : Accounts setup ledger world) {move : Move FolderSender.Scan}
    (hsteady : Steady setup next) (hstep : stepSender setup world move = some next) :
    Accounts setup (ledger.update setup world (.sender move)) next := by
  obtain ⟨call, attempt, point, input, link, after, hsender, hfed, hmachine, rfl, hupdate⟩ :=
    update_sender hstep ledger
  rw [hupdate]
  have hsound := haccounts.steady.sound.sender call attempt _ hsender
  have hmemory : world.sender.memory? = some point.memory := by
    rw [hsender]
    rfl
  have hsize : (senderSession setup world.link call).config.chunkSize = setup.chunkSize :=
    haccounts.steady.sound.chunkSize
  have hbefore := haccounts.sender point.memory hmemory
  have hstage := haccounts.stage call attempt point hsender
  have hstatus := @balanced_step ledger.loaded ledger.sender (senderSession setup world.link call)
    setup.source point input after hsound (hsize ▸ hbefore) (hsize ▸ hstage) hmachine
  rw [hsize] at hstatus
  have hafter := balanced_of_status hstatus
  have hresumed : link.resumed = world.link.resumed := senderFed_resumed hfed
  have hwaited : world.link.announced = none →
      SenderWaited world.link point call.transferId after.status link := by
    intro hnone
    have hwaiting := waiting_of_unannounced haccounts.steady.standing hnone
    rw [hsender] at hwaiting
    exact senderWaited_of_step hsound hwaiting hfed hmachine
  have hbytes : world.link.announced = none →
      finishedBytes (statusMemory after.status) = finishedBytes point.memory ∧
        partBytes setup.chunkSize.toNat (statusMemory after.status) =
          partBytes setup.chunkSize.toNat point.memory := by
    intro hnone
    have hwaiting := waiting_of_unannounced haccounts.steady.standing hnone
    rw [hsender] at hwaiting
    exact bytes_of_scanned (scanned_of_waited (hwaited hnone)).1 hbefore hafter
      (reportSent_of_waiting hwaiting _ _)
  refine ⟨hsteady, ?_, ?_, haccounts.saved, ?_, ?_, ?_, ?_⟩
  · intro memory hother
    rw [memory?_sending] at hother
    cases hother
    exact hafter
  · intro _ _ other hother
    injection hother with _ _ hrunning
    rw [hrunning] at hstatus
    exact hstatus.2
  · intro hnone memory hother
    rw [memory?_sending] at hother
    cases hother
    have hsilent : world.link.announced = none := by
      cases hsome : world.link.announced with
      | none => rfl
      | some info =>
          cases (announced_of_senderFed hfed hsome).symm.trans hnone
    have hcame := haccounts.unannounced hsilent point.memory hmemory
    change _ = finishedBytes link.resumed ∧ _ = partBytes _ link.resumed
    rw [hresumed, (hbytes hsilent).1, (hbytes hsilent).2]
    exact hcame
  · intro info hsome
    change Announces _ link.resumed info
    rw [hresumed]
    cases hcase : world.link.announced with
    | some first =>
        cases (announced_of_senderFed hfed hcase).symm.trans hsome
        exact haccounts.announced _ hcase
    | none =>
        rcases (scanned_of_waited (hwaited hcase)).2 with hsame | ⟨hlink, _, hlength⟩
        · cases hsome.symm.trans (hsame.trans hcase)
        · have hannounced : link.announced = some (manifestOf point.memory call.transferId) := by
            rw [hlink]
            change world.link.announce _ = _
            simp only [Link.announce, hcase]
          cases hannounced.symm.trans hsome
          have hcame := haccounts.unannounced hcase point.memory hmemory
          have horderly := (haccounts.steady.sound.memory point.memory hmemory).orderly
          have hinfo := announces_manifestOf horderly hbefore.tallied call.transferId hlength
          refine ⟨hinfo.started, ?_, ?_⟩
          · rw [← hcame.1, ← hcame.2]
            exact hinfo.delivered
          · rw [← hcame.2]
            exact hinfo.resumes
  · intro info hhear
    refine haccounts.receiver info ?_
    cases hcase : world.link.announced with
    | none => exact Or.inl hcase
    | some first =>
        have hafter := announced_of_senderFed hfed hcase
        rcases hhear with hnone | hsome
        · cases hafter.symm.trans hnone
        · exact Or.inr (hcase.trans (hafter.symm.trans hsome))
  · intro _ hother
    cases hother

/-- A receiver that has nothing to read. -/
theorem booked_unread {session : FolderReceiver.Session} {point : FolderReceiver.Point}
    {link after : Link} {progress : ProgressState} {written : Nat} (hunread : Unread point)
    (hnone : link.toReceiver = [])
    (hbooked : Booked setup.chunkSize info progress written point)
    {state next : FolderReceiver.ReceiverState} (hpoint : state.status = .running point)
    {move : Move Bool} {input : FolderReceiver.ReceiverInput}
    (hfed : ReceiverFed link (FolderReceiver.action session point) move input after)
    (hstep : (FolderReceiver.machine session).step state input = some next) :
    BookedStatus setup.chunkSize info (reportReceived session point input progress)
      (written + writtenBytes point input) next.status := by
  obtain ⟨rfl, _, ⟨rfl, rfl, hstatus⟩ | ⟨_, hstatus⟩⟩ :=
    unread_of_step hunread hnone hpoint hfed hstep
  · rw [hstatus]
    exact hbooked
  · rw [hstatus]
    trivial

theorem accounts_receiver (haccounts : Accounts setup ledger world) {move : Move Bool}
    (hsteady : Steady setup next) (hstep : stepReceiver setup world move = some next) :
    Accounts setup (ledger.update setup world (.receiver move)) next := by
  obtain ⟨point, input, link, after, hreceiver, hfed, hmachine, rfl, hupdate⟩ :=
    update_receiver hstep ledger
  rw [hupdate]
  obtain ⟨_, _, hannounced⟩ := opened_of_receiverFed hfed
  have hresumed : link.resumed = world.link.resumed := receiverFed_resumed hfed
  refine ⟨hsteady, haccounts.sender, haccounts.stage, haccounts.saved, ?_, ?_, ?_,
    haccounts.finished⟩
  · intro hnone memory hmemory
    change _ = finishedBytes link.resumed ∧ _ = partBytes _ link.resumed
    rw [hresumed]
    exact haccounts.unannounced (hannounced ▸ hnone) memory hmemory
  · intro info hsome
    change Announces _ link.resumed info
    rw [hresumed]
    exact haccounts.announced info (hannounced ▸ hsome)
  · intro info hhear
    have hbefore : MayHear world.link info := by
      rw [MayHear, ← hannounced]
      exact hhear
    have hbooked := haccounts.receiver info hbefore
    rw [hreceiver] at hbooked
    rcases hbefore with hnone | hsome
    · cases haccounts.steady.standing with
      | silent _ htoReceiver _ hunread _ =>
          exact booked_unread (hunread point hreceiver) htoReceiver hbooked hreceiver hfed hmachine
      | asked hopened _ _ _ _ _ | live hopened _ _ _ | closed hopened _ _ _ =>
          cases hopened.announced.symm.trans hnone
    · have hopened := opened_of_announced haccounts.steady.standing hsome
      have htook := haccounts.steady.flows.took info hsome
      have hsound := haccounts.steady.sound.receiver point
      rw [hreceiver] at htook hsound
      exact booked_step hopened.wellFormed (haccounts.announced info hsome).started
        haccounts.steady.sound.chunkSize (hsound rfl) (hopened.knows point hreceiver) htook hbooked
        hreceiver hmachine

/-! ## Every step -/

theorem tallied_save {outcome : SaveOutcome} {saved : SavedState}
    (hmemory : Tallied memory) (hsaved : ∀ memory, saved = .stored memory → Tallied memory) :
    ∀ other, save outcome memory saved = .stored other → Tallied other := by
  intro other hother
  cases outcome with
  | saved =>
      cases hother
      exact hmemory
  | unchanged => exact hsaved other hother
  | brokenOff => cases hother

theorem accounts_step (hdecode : Invertible setup.codec) (haccounts : Accounts setup ledger world)
    {event : Event} (hhonest : HonestEvent setup (fun _ => True) event)
    (hstep : step setup world event = some next) :
    Accounts setup (ledger.update setup world event) next := by
  have hsteady := steady_step hdecode hhonest haccounts.steady hstep
  cases networkStepped_of_step hstep with
  | start call _ _ =>
      exact accounts_connect hsteady haccounts.saved
        (balanced_start (tallied_loadState haccounts.saved _ _))
  | sender _ => exact accounts_sender haccounts hsteady hstep
  | receiver _ => exact accounts_receiver haccounts hsteady hstep
  | loseForward | loseBackward =>
      exact ⟨hsteady, haccounts.sender, haccounts.stage, haccounts.saved, haccounts.unannounced,
        haccounts.announced, haccounts.receiver, haccounts.finished⟩
  | save outcome hsender =>
      have hmemory := memory?_of_sender hsender rfl
      refine accounts_phase haccounts hsteady ?_ ?_ ?_ ?_
      · rw [memory?_afterFailure, hmemory]
      · intro call attempt point hphase
        exact absurd hphase (StateFile.afterFailure_ne_sending _ _ _ _ _ _ _ _)
      · exact tallied_save (haccounts.sender _ hmemory).tallied haccounts.saved
      · intro memory hphase
        unfold afterFailure at hphase
        dsimp only at hphase
        split at hphase
        · split at hphase <;> cases hphase
        · cases hphase
  | reconnect hsender _ =>
      exact accounts_connect hsteady haccounts.saved
        (haccounts.sender _ (memory?_of_sender hsender rfl))
  | unreachable hsender =>
      refine accounts_phase haccounts hsteady (memory?_of_sender hsender rfl).symm ?_
        haccounts.saved ?_
      · intro _ _ _ hphase
        cases hphase
        trivial
      · intro _ hphase
        cases hphase
  | finish removed hsender =>
      refine accounts_phase haccounts hsteady (memory?_of_sender hsender rfl).symm ?_ ?_ ?_
      · intro _ _ _ hphase
        cases hphase
      · intro other hother
        cases removed with
        | true => cases hother
        | false => exact haccounts.saved other hother
      · intro other hphase
        cases hphase
        exact (haccounts.steady.sound.sender _ _ _ hsender).2.2

/-! ## Successful runs -/

theorem accounts_run (hdecode : Invertible setup.codec) {store : Store} {events : List Event}
    (hhonest : ∀ event ∈ events, HonestEvent setup (fun _ => True) event)
    (hrun : Network.run setup (initial setup store) events = some world) :
    Accounts setup (ledgerOf setup store events) world :=
  @Run.invariant_track _ _ (step setup) _ (Ledger.update setup)
    (HonestEvent setup fun _ => True) (Accounts setup)
    (fun _ _ _ _ haccounts hhonest hstep => accounts_step hdecode haccounts hhonest hstep)
    _ _ _ _ hhonest (accounts_initial store) hrun

/-- A sender that is done has reported all but the chunks its state came with. -/
theorem sender_total (haccounts : Accounts setup ledger world)
    (hsender : world.sender = .returned memory) :
    ledger.sender.transferredBytes + partBytes setup.chunkSize.toNat ledger.loaded =
      ledger.sender.totalBytes := by
  have hbalanced := haccounts.sender memory (by rw [hsender]; rfl)
  have hall := haccounts.finished memory hsender
  have hfinished : finishedBytes memory = memory.totalBytes := by
    rw [finishedBytes, hall, bytesBefore_length, hbalanced.tallied.total]
  have hpart : partBytes setup.chunkSize.toNat memory = 0 := by
    rw [partBytes, bytesOf, hall, List.getElem?_eq_none (Nat.le_refl _)]
  rw [hbalanced.balance, hbalanced.total, hfinished, hpart, Nat.add_zero]

/-- A receiver that was not declined has heard the manifest of its connection. -/
theorem announced_of_returned (haccounts : Accounts setup ledger world)
    {summary : FolderReceiver.TransferSummary}
    (hreceiver : world.receiver.status = .returned summary) (haccepted : summary ≠ .default) :
    ∃ info, world.link.announced = some info := by
  cases hannounced : world.link.announced with
  | some info => exact ⟨info, rfl⟩
  | none =>
      -- it would have taken part in every transfer, also in one without files
      have hbooked := haccounts.receiver
        { transferId := FixedBytes.filled 16 0, items := [], resumeFrom := none, completedFiles := [] }
        (Or.inl hannounced)
      rw [hreceiver] at hbooked
      obtain ⟨plan, hplan, hsummary, _⟩ := hbooked.resolve_left haccepted
      cases hplan.made
      exact absurd hsummary haccepted

/-- The receiver's count ends at its total exactly when its plan counted what the manifest
counts as delivered. -/
theorem receiver_total (haccounts : Accounts setup ledger world)
    {summary : FolderReceiver.TransferSummary}
    (hreceiver : world.receiver.status = .returned summary) (haccepted : summary ≠ .default) :
    (ledger.receiver.transferredBytes = ledger.receiver.totalBytes ↔
        partBytes setup.chunkSize.toNat world.link.resumed ≠ 0 ∨
          finishedBytes world.link.resumed = 0) ∧
      (ledger.receiver.transferredBytes = ledger.receiver.totalBytes →
        summary.bytes = ledger.written) := by
  obtain ⟨info, hannounced⟩ := announced_of_returned haccounts hreceiver haccepted
  have hinfo := (opened_of_announced haccounts.steady.standing hannounced).wellFormed
  have hcounts := haccounts.announced info hannounced
  have hbooked := haccounts.receiver info (Or.inr hannounced)
  rw [hreceiver] at hbooked
  obtain ⟨plan, hplan, hsummary, hall⟩ := hbooked.resolve_left haccepted
  obtain ⟨_, htotal, halready⟩ := FolderReceiver.makePlan_eq_ok hplan.made
  have hsum := eq_of_sum_eq_ok htotal
  rw [Nat.zero_add, ← hall, hcounts.delivered] at hsum
  have hbytes : summary.bytes = plan.totalBytes - plan.alreadyTransferred := by
    rw [hsummary]
    rfl
  rw [hplan.total, hplan.transferred, hbytes]
  rcases alreadyTransferred_cases hinfo hcounts.started halready with
    ⟨hnone, hzero⟩ | ⟨hsome, hdelivered⟩
  · have hpart := hcounts.resumes.mp hnone
    rw [hzero, hsum, hpart]
    omega
  · have hpart : partBytes setup.chunkSize.toNat world.link.resumed ≠ 0 :=
      fun hzero => hsome (hcounts.resumes.mpr hzero)
    rw [hdelivered, hcounts.delivered, hsum]
    omega

/-- The counts close exactly when the call starts from a state that records no chunk of an
unfinished file, and the last connection is opened with one that records such a chunk or
has finished nothing. -/
theorem closes_iff (hdecode : Invertible setup.codec) {store : Store} {events : List Event}
    {summary : FolderReceiver.TransferSummary}
    (hhonest : ∀ event ∈ events, HonestEvent setup (fun _ => True) event)
    (hrun : Network.run setup (initial setup store) events = some world)
    (hsender : world.sender = .returned memory)
    (hreceiver : world.receiver.status = .returned summary) (haccepted : summary ≠ .default) :
    Closes (ledgerOf setup store events) summary ↔
      partBytes setup.chunkSize.toNat (ledgerOf setup store events).loaded = 0 ∧
        (partBytes setup.chunkSize.toNat world.link.resumed ≠ 0 ∨
          finishedBytes world.link.resumed = 0) := by
  have haccounts := accounts_run hdecode hhonest hrun
  have hsent := sender_total haccounts hsender
  obtain ⟨hreceived, hwritten⟩ := receiver_total haccounts hreceiver haccepted
  constructor
  · intro hcloses
    have hsame := hcloses.sender
    exact ⟨by omega, hreceived.mp hcloses.receiver⟩
  · rintro ⟨hloaded, hresumed⟩
    have hcounted := hreceived.mpr hresumed
    exact ⟨by omega, hcounted, hwritten hcounted⟩

/-! ## A folder of two files of one byte -/

def pairSetup : Setup where
  codec := .stored fun _ => FixedBytes.filled 32 0
  chunkSize := 1
  basePath := [105, 110]
  outputDir := [111, 117, 116]
  source := fun _ => some [0]
  maxAttempts := 3

def pairScan : FolderSender.Scan := .folder [102] [([102, 47, 97], 1, 0), ([102, 47, 98], 1, 0)]

/-- Both sides have done with the first file, but for the sender's look at the checksum. -/
def firstFile : List Event :=
  [.start { ConfigMessage.default with compressionEnabled := false, chunkSize := 1 }
      (FixedBytes.filled 16 0) (FixedBytes.filled 16 1) 0,
    .sender .proceed, .sender (.answer pairScan), .sender .proceed] ++
    List.replicate 2 (.receiver .proceed) ++ [.receiver (.answer true)] ++
    List.replicate 2 (.receiver .proceed) ++ List.replicate 9 (.sender .proceed) ++
    List.replicate 18 (.receiver .proceed)

def secondFile : List Event :=
  List.replicate 9 (.sender .proceed) ++ List.replicate 7 (.receiver .proceed) ++
    List.replicate 3 (.sender .proceed) ++ [.receiver .proceed, .finish true]

/-- The connection breaks before a chunk of the second file is through. -/
def brokenBetween : List Event :=
  [.loseForward] ++ List.replicate 6 (.sender .proceed) ++
    [.sender (.fail .disconnected 0), .save .saved, .receiver (.fail .disconnected 0),
      .reconnect true] ++
    List.replicate 2 (.sender .proceed) ++ List.replicate 2 (.receiver .proceed) ++
    [.receiver (.answer true)] ++ List.replicate 2 (.receiver .proceed) ++
    [.sender .proceed] ++ List.replicate 7 (.receiver .proceed)

theorem honest_pairScan : HonestEvent pairSetup (fun _ => True) (.sender (.answer pairScan)) := by
  refine ⟨?_, fun _ _ => trivial⟩
  intro found hfound file hfile
  cases hfound
  refine ⟨[0], rfl, ?_⟩
  simp only [List.mem_cons, List.not_mem_nil, or_false] at hfile
  rcases hfile with rfl | rfl <;> rfl

/-- The scan is the only event an honest sender is bound by. -/
theorem honest_of_noScan {events : List Event}
    (hscan : ∀ scan, .sender (.answer scan) ∈ events → scan = pairScan) :
    ∀ event ∈ events, HonestEvent pairSetup (fun _ => True) event := by
  intro event hevent
  cases event with
  | sender move =>
      cases move with
      | answer scan =>
          rw [hscan scan hevent]
          exact honest_pairScan
      | proceed | fail _ _ => trivial
  | start _ _ _ _ | receiver _ | loseForward | loseBackward | save _ | reconnect _ | finish _ =>
      trivial

theorem closes_iff_pair :
    ∃ final memory summary, Network.run pairSetup (initial pairSetup fun _ => none)
        (firstFile ++ secondFile) = some final ∧ final.sender = .returned memory ∧
      final.receiver.status = .returned summary ∧ summary.bytes = 2 ∧
      Closes (ledgerOf pairSetup (fun _ => none) (firstFile ++ secondFile)) summary := by
  obtain ⟨final, memory, summary, hrun, hsender, hreceiver, hbytes, hloaded, hresumed⟩ :
      ∃ final memory summary, Network.run pairSetup (initial pairSetup fun _ => none)
          (firstFile ++ secondFile) = some final ∧ final.sender = .returned memory ∧
        final.receiver.status = .returned summary ∧ summary.bytes = 2 ∧
        partBytes 1 (ledgerOf pairSetup (fun _ => none) (firstFile ++ secondFile)).loaded = 0 ∧
        finishedBytes final.link.resumed = 0 :=
    ⟨_, _, _, rfl, rfl, rfl, rfl, rfl, rfl⟩
  refine ⟨final, memory, summary, hrun, hsender, hreceiver, hbytes, ?_⟩
  refine (@closes_iff pairSetup _ _ ?_ _ _ _ ?_ hrun hsender hreceiver ?_).mpr
    ⟨hloaded, Or.inr hresumed⟩
  · intro data _ encoded hencode
    cases hencode
    rfl
  · refine honest_of_noScan fun scan hmem => ?_
    simpa [firstFile, secondFile] using hmem
  · rintro rfl
    cases hbytes

/-- After the break the receiver counts the second file only, and its summary both. -/
theorem counts_apart :
    (∀ event ∈ firstFile ++ brokenBetween ++ secondFile,
      HonestEvent pairSetup (fun _ => True) event) ∧
    ∃ final memory summary, Network.run pairSetup (initial pairSetup fun _ => none)
        (firstFile ++ brokenBetween ++ secondFile) = some final ∧
      final.sender = .returned memory ∧ final.receiver.status = .returned summary ∧
      summary ≠ .default ∧ summary.bytes = 2 ∧
      (ledgerOf pairSetup (fun _ => none) (firstFile ++ brokenBetween ++ secondFile)).written = 1 ∧
      (ledgerOf pairSetup (fun _ => none)
        (firstFile ++ brokenBetween ++ secondFile)).receiver = ⟨2, 1⟩ ∧
      ¬Closes (ledgerOf pairSetup (fun _ => none) (firstFile ++ brokenBetween ++ secondFile))
        summary := by
  constructor
  · refine honest_of_noScan fun scan hmem => ?_
    simpa [firstFile, brokenBetween, secondFile] using hmem
  · refine ⟨_, _, _, rfl, rfl, rfl, ?_, rfl, rfl, rfl, ?_⟩
    · exact of_decide_eq_true rfl
    · intro hcloses
      cases hcloses.summary

end P2PFileTransfer.Transfer.Accounting
