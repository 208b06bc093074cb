import P2PFileTransfer.Transfer.Accounting
import P2PFileTransfer.Transfer.Completion
import P2PFileTransfer.Transfer.PartialFile

/-!
# What a resume point lets the receiver skip

A sender records a chunk once its stream is acknowledged, and a file once its checksum has
come back.  The receiver writes the chunk after the acknowledgement and gives up the partial
file before the checksum, so a connection that breaks in between leaves the sender ahead.
As long as no connection is opened with a state that is ahead in this way, the partial file
holds what a resume point lists.
-/

namespace P2PFileTransfer.Transfer.Skipping

open P2PFileTransfer.Foundation.ByteFile
open P2PFileTransfer.Foundation.FileSystem
open P2PFileTransfer.Foundation.Process
open P2PFileTransfer.Foundation.Run
open P2PFileTransfer.Core
open P2PFileTransfer.Core.Protocol
open P2PFileTransfer.Core.TransferFile
open P2PFileTransfer.Core.TransferFolder
open P2PFileTransfer.Core.SendPath
open P2PFileTransfer.Core.FolderReceiver (alreadySent)
open P2PFileTransfer.Core.FolderSender (HonestFiles IsSource Orderly)
open P2PFileTransfer.Transfer.Accounting
open P2PFileTransfer.Transfer.Completion (letter letterSetup)
open P2PFileTransfer.Transfer.Conversation
open P2PFileTransfer.Transfer.Honesty
open P2PFileTransfer.Transfer.Network
open P2PFileTransfer.Transfer.PartialFile
open P2PFileTransfer.Transfer.ReceiverLane
open P2PFileTransfer.Transfer.Schedule
open P2PFileTransfer.Transfer.SenderLane
open P2PFileTransfer.Transfer.Streams

/-- When the receiver starts the file of a resume point, the partial file is there and holds
the chunks listed. -/
def SkipsWhatIsThere (setup : Setup) (world : Network.State) : Prop :=
  ∀ plan index task resume, world.receiver.status = .running (.file plan index task .begin) →
    plan.info.resumeFrom = some resume → resume.fileIndex = index →
    ∃ file bytes contents, plan.info.items[index]? = some file ∧
      IsSource setup.basePath setup.source file bytes ∧
      world.receiver.store task.partialLocation = some contents ∧
      ∀ chunk ∈ resume.completedChunks, SlotAgrees contents bytes setup.chunkSize.toNat chunk

/-- The chunks a state records for its next file. -/
def recorded (memory : FolderTransferState) : List Nat := memory.fileChunks (nextItem memory)

/-- The receiver of the connection so far is not behind a state to start from: the state
records no chunk of its next file, or the sender has not finished that file since, the
receiver has not given up the partial file, and it has written there as many streams as
chunks were recorded on this connection. -/
def KeptUp (world : Network.State) (memory : FolderTransferState) : Prop :=
  recorded memory = [] ∨
    (∃ last, world.sender.memory? = some last ∧ nextItem last = nextItem memory) ∧
      ∀ info, world.link.announced = some info →
        ∃ count, written (nextItem memory) world.receiver.status = some count ∧
          (recorded memory).length ≤ alreadySent info (nextItem memory) + count

/-- A new connection is opened with a state the receiver has kept up with. -/
def OpensKeptUp (world : Network.State) (event : Event) : Prop :=
  ∀ memory, event.resumes world = some memory → KeptUp world memory

/-! ## The states of a sender -/

/-- A state of the same files that is no further. -/
structure Precedes (stored memory : FolderTransferState) : Prop where
  files : stored.files = memory.files
  next_le : nextItem stored ≤ nextItem memory
  recorded_le : nextItem stored = nextItem memory →
    (recorded stored).length ≤ (recorded memory).length

/-- The state lists no files, or is no further than that of the phase. -/
def Behind (phase : Phase) (stored : FolderTransferState) : Prop :=
  stored.files = [] ∨ ∃ memory, phase.memory? = some memory ∧ Precedes stored memory

variable {setup : Setup} {world next : Network.State} {memory stored : FolderTransferState}
  {info : TransferInfo}

theorem precedes_refl (memory : FolderTransferState) : Precedes memory memory :=
  ⟨rfl, le_rfl, fun _ => le_rfl⟩

theorem recorded_eq_nil {chunkSize : Nat} (horderly : Orderly chunkSize memory)
    (hfiles : memory.files = []) : recorded memory = [] := by
  refine List.eq_nil_iff_forall_not_mem.mpr fun chunk hchunk => ?_
  obtain ⟨file, hfile, _⟩ := horderly.bounded chunk hchunk
  rw [hfiles] at hfile
  cases hfile

theorem remembers_of_step {session : FolderSender.Session} {point : FolderSender.Point}
    {source : Store} {input : FolderSender.SenderInput} {after : FolderSender.SenderState}
    (hstep : (FolderSender.machine session).step ⟨.running point, source⟩ input = some after) :
    ∃ reply, Remembers session point reply (statusMemory after.status) := by
  cases stepped_of_step hstep with
  | fail hstatus _ hnext =>
      cases hstatus
      rw [hnext]
      exact ⟨.done, .keeps⟩
  | resume hstatus _ hnext =>
      cases hstatus
      rw [hnext]
      exact ⟨_, remembers_resume session point _⟩

/-- No step takes a sender back. -/
theorem precedes_remembers {session : FolderSender.Session} {source : Store}
    {point : FolderSender.Point} {reply : Reply Message FolderSender.Scan}
    {after : FolderTransferState}
    (hsound : FolderSender.SoundStatus session source (.running point))
    (hprecedes : Precedes stored point.memory) (hafter : Remembers session point reply after) :
    stored.files = [] ∨ Precedes stored after := by
  obtain ⟨memory, stage⟩ := point
  obtain ⟨hmemory, hstage⟩ := hsound
  dsimp only at hmemory hstage hprecedes
  cases hafter with
  | keeps => exact Or.inr hprecedes
  | finds hscan _ _ =>
      dsimp only at hscan
      subst hscan
      exact Or.inl (hprecedes.files.trans hstage)
  | records hstopped =>
      rename_i task
      dsimp only at hstopped
      subst hstopped
      obtain ⟨file, htask, _⟩ := hstage
      refine Or.inr ⟨hprecedes.files, hprecedes.next_le, fun hnext => ?_⟩
      refine Nat.le_trans (hprecedes.recorded_le hnext) ?_
      change (recorded memory).length ≤
        ((memory.markChunkComplete task.index task.next).fileChunks (nextItem memory)).length
      rw [htask.index, show nextItem memory = memory.completedFiles.length from rfl,
        memory.markChunkComplete_fileChunks_self, List.length_append]
      exact Nat.le_add_right _ _
  | finishes hchecksum =>
      rename_i index checksum
      dsimp only at hchecksum
      subst hchecksum
      obtain ⟨_, _, rfl, _⟩ := hstage
      have hcount : nextItem (FolderSender.finishFile memory memory.completedFiles.length) =
          nextItem memory + 1 := hmemory.orderly.finishFile_completedFiles
      refine Or.inr ⟨?_, ?_, fun hnext => ?_⟩
      · exact hprecedes.files.trans (FolderSender.finishFile_files _ _).symm
      · rw [hcount]
        exact Nat.le_succ_of_le hprecedes.next_le
      · rw [hcount] at hnext
        exact absurd hprecedes.next_le (by omega)

/-! ## The invariant -/

/-- A receiver that has read no manifest, or was told to decline it. -/
def Untouched : FolderReceiver.PointStatus → Prop
  | .running point | .failed point _ | .panicked point _ => Unread point
  | .returned summary => summary = .default

/-- A manifest of files as they are, whose resume point lists a chunk. -/
structure Offers (setup : Setup) (info : TransferInfo) : Prop where
  honest : HonestFiles setup.basePath setup.source info.items
  nonempty : ∀ resume, info.resumeFrom = some resume → resume.completedChunks ≠ []

structure Tracked (setup : Setup) (world : Network.State) : Prop where
  accounts : ∃ ledger, Accounts setup ledger world
  untouched : world.link.announced = none → Untouched world.receiver.status
  /-- Before it has announced anything, the sender counts on what is there. -/
  unannounced : world.link.announced = none → ∀ memory, world.sender.memory? = some memory →
    recorded memory ≠ [] →
      Stocked setup world.receiver.store memory.files (nextItem memory) (recorded memory).length
  offers : ∀ info, world.link.announced = some info → Offers setup info
  stocked : ∀ info, world.link.announced = some info →
    StatusStocked setup info world.receiver.store world.receiver.status
  saved : ∀ stored, world.saved = .stored stored → Behind world.sender stored

/-- A sender works on the files it has announced. -/
theorem files_of_announced {terms : Terms} (hstanding : Standing terms world)
    (hannounced : world.link.announced = some info) (hmemory : world.sender.memory? = some memory) :
    memory.files = info.items := by
  cases hstanding with
  | silent hnone _ _ _ _ => cases hnone.symm.trans hannounced
  | asked hopened hsender hfiles _ _ _ =>
      cases hopened.announced.symm.trans hannounced
      rw [hsender] at hmemory
      cases hmemory
      exact hfiles
  | live hopened hsender htalking _ =>
      cases hopened.announced.symm.trans hannounced
      rw [hsender] at hmemory
      cases hmemory
      exact htalking.files
  | closed hopened _ _ hover =>
      cases hopened.announced.symm.trans hannounced
      exact (hover memory hmemory).1

theorem stocked_untouched {store : Store} {status : FolderReceiver.PointStatus}
    (huntouched : Untouched status) (hresumable : Resumable setup info store 0) :
    StatusStocked setup info store status := by
  cases status with
  | running point | failed point _ | panicked point _ =>
      rcases eq_of_unread huntouched with rfl | rfl <;> exact hresumable
  | returned summary => exact fun _ => hresumable

/-- A manifest counts as delivered what its state records. -/
theorem resumable_manifestOf {store : Store} (horderly : Orderly setup.chunkSize.toNat memory)
    {transferId : Uuid} (hfiles : memory.files ≠ []) (hlength : memory.files.length < 2 ^ 32)
    (hstocked : recorded memory ≠ [] →
      Stocked setup store memory.files (nextItem memory) (recorded memory).length) :
    Resumable setup (manifestOf memory transferId) store 0 := by
  intro later _ hpos
  have hinfo := wellFormed_manifestOf horderly transferId hfiles hlength
  have hfirst : firstItem (manifestOf memory transferId) = nextItem memory :=
    firstItem_manifestOf memory transferId
  have hlater : later = nextItem memory := by
    rw [← hfirst]
    by_contra hne
    rw [alreadySent_of_ne hinfo hne] at hpos
    exact Nat.lt_irrefl 0 hpos
  have halready : alreadySent (manifestOf memory transferId) (nextItem memory) =
      (recorded memory).length := by
    rw [← length_startChunks]
    exact congrArg List.length (startChunks_manifestOf horderly transferId hlength)
  rw [hlater, halready] at hpos ⊢
  exact hstocked (List.ne_nil_of_length_pos hpos)

theorem offers_manifestOf (hhonest : HonestFiles setup.basePath setup.source memory.files)
    (transferId : Uuid) : Offers setup (manifestOf memory transferId) :=
  ⟨hhonest, fun _ hresume => completedChunks_ne_nil hresume⟩

/-- A step of the sender. -/
theorem tracked_sender (htracked : Tracked setup world) (haccounts : ∃ ledger, Accounts setup ledger next)
    {move : Move FolderSender.Scan} (hstepped : SenderStepped setup world move next) :
    Tracked setup next := by
  obtain ⟨ledger, hbefore⟩ := htracked.accounts
  cases hstepped with
  | intro hsender hfed hstep =>
      rename_i call attempt point input link sent
      have hsound := hbefore.steady.sound.sender call attempt _ hsender
      have hmemory : world.sender.memory? = some point.memory := by
        rw [hsender]
        rfl
      obtain ⟨reply, hremembers⟩ := remembers_of_step hstep
      have hsilent : link.announced = none → world.link.announced = none := by
        intro hnone
        cases hsome : world.link.announced with
        | none => rfl
        | some info => cases (announced_of_senderFed hfed hsome).symm.trans hnone
      have hwaiting : world.link.announced = none → ¬Live point.stage := by
        intro hnone
        have hphase := waiting_of_unannounced hbefore.steady.standing hnone
        rw [hsender] at hphase
        exact hphase
      have hopens : world.link.announced = none → ∀ info, link.announced = some info →
          info = manifestOf point.memory call.transferId ∧
            point.memory.files ≠ [] ∧ point.memory.files.length < 2 ^ 32 := by
        intro hnone info hsome
        have hwaited := senderWaited_of_step hsound (hwaiting hnone) hfed hstep
        rcases (scanned_of_waited hwaited).2 with hsame | ⟨hlink, hfiles, hlength⟩
        · cases hnone.symm.trans (hsame.symm.trans hsome)
        · have hannounced : link.announced = some (manifestOf point.memory call.transferId) := by
            rw [hlink]
            change world.link.announce _ = _
            simp only [Link.announce, hnone]
          cases hannounced.symm.trans hsome
          exact ⟨rfl, hfiles, hlength⟩
      have hpoint := hbefore.steady.sound.memory point.memory hmemory
      refine ⟨haccounts, fun hnone => htracked.untouched (hsilent hnone), ?_, ?_, ?_, ?_⟩
      · intro hnone memory hlast hrecorded
        rw [memory?_sending] at hlast
        cases hlast
        have hstage := hwaiting (hsilent hnone)
        generalize statusMemory sent.status = after at hremembers hrecorded ⊢
        cases hremembers with
        | keeps => exact htracked.unannounced (hsilent hnone) point.memory hmemory hrecorded
        | finds _ _ _ => exact absurd rfl hrecorded
        | records hlive | finishes hlive =>
            rw [hlive] at hstage
            exact absurd trivial hstage
      · intro info hsome
        cases hcase : world.link.announced with
        | some first =>
            cases (announced_of_senderFed hfed hcase).symm.trans hsome
            exact htracked.offers _ hcase
        | none =>
            obtain ⟨rfl, _, _⟩ := hopens hcase info hsome
            exact offers_manifestOf hpoint.honest _
      · intro info hsome
        cases hcase : world.link.announced with
        | some first =>
            cases (announced_of_senderFed hfed hcase).symm.trans hsome
            exact htracked.stocked _ hcase
        | none =>
            obtain ⟨rfl, hfiles, hlength⟩ := hopens hcase info hsome
            exact stocked_untouched (htracked.untouched hcase)
              (resumable_manifestOf hpoint.orderly hfiles hlength
                (htracked.unannounced hcase point.memory hmemory))
      · intro stored hstored
        rcases htracked.saved stored hstored with hnone | ⟨last, hlast, hprecedes⟩
        · exact Or.inl hnone
        · cases hmemory.symm.trans hlast
          refine (precedes_remembers hsound hprecedes hremembers).imp_right fun hafter => ?_
          exact ⟨_, memory?_sending call attempt sent.status, hafter⟩

/-- A step of the receiver. -/
theorem tracked_receiver (htracked : Tracked setup world)
    (haccounts : ∃ ledger, Accounts setup ledger next) {move : Move Bool}
    (hstepped : ReceiverStepped setup world move next) : Tracked setup next := by
  obtain ⟨ledger, hbefore⟩ := htracked.accounts
  cases hstepped with
  | intro hreceiver hfed hstep =>
      rename_i point input link received
      obtain ⟨_, _, hannounced⟩ := opened_of_receiverFed hfed
      have hunread : world.link.announced = none →
          received.store = world.receiver.store ∧ Untouched received.status := by
        intro hnone
        cases hbefore.steady.standing with
        | silent _ htoReceiver _ hunread _ =>
            have hpoint := hunread point hreceiver
            obtain ⟨_, hstore, ⟨_, _, hstatus⟩ | ⟨_, hstatus⟩⟩ :=
              unread_of_step hpoint htoReceiver hreceiver hfed hstep
            · exact ⟨hstore, hstatus ▸ trivial⟩
            · exact ⟨hstore, hstatus ▸ hpoint⟩
        | asked hopened _ _ _ _ _ | live hopened _ _ _ | closed hopened _ _ _ =>
            cases hopened.announced.symm.trans hnone
      refine ⟨haccounts, fun hnone => (hunread (hannounced ▸ hnone)).2, ?_, ?_, ?_, htracked.saved⟩
      · intro hnone memory hmemory hrecorded
        change Stocked setup received.store _ _ _
        rw [(hunread (hannounced ▸ hnone)).1]
        exact htracked.unannounced (hannounced ▸ hnone) memory hmemory hrecorded
      · exact fun info hsome => htracked.offers info (hannounced ▸ hsome)
      · intro info hsome
        have hbegan : world.link.announced = some info := hannounced ▸ hsome
        have hopened := opened_of_announced hbefore.steady.standing hbegan
        have hstocked := htracked.stocked info hbegan
        have htook := hbefore.steady.flows.took info hbegan
        have hsound := hbefore.steady.sound.receiver point
        rw [hreceiver] at hstocked htook hsound
        exact stocked_step hopened.wellFormed (hbefore.announced info hbegan).started rfl
          hbefore.steady.sound.chunkSize (hsound rfl) (hopened.knows point hreceiver) htook hreceiver
          hstocked hstep

/-- What a state to start from records is there when the receiver has kept up with it. -/
theorem stocked_of_keptUp (htracked : Tracked setup world)
    (horderly : Orderly setup.chunkSize.toNat memory) (hbehind : Behind world.sender memory)
    (hkept : KeptUp world memory) (hrecorded : recorded memory ≠ []) :
    Stocked setup world.receiver.store memory.files (nextItem memory) (recorded memory).length := by
  obtain ⟨ledger, hbefore⟩ := htracked.accounts
  rcases hkept with hnone | ⟨⟨last, hlast, hnext⟩, hwritten⟩
  · exact absurd hnone hrecorded
  · rcases hbehind with hfiles | ⟨other, hother, hprecedes⟩
    · exact absurd (recorded_eq_nil horderly hfiles) hrecorded
    · cases hlast.symm.trans hother
      have hpos := List.length_pos_of_ne_nil hrecorded
      have hless := hprecedes.recorded_le hnext.symm
      rw [hprecedes.files]
      cases hannounced : world.link.announced with
      | none =>
          have hthere := htracked.unannounced hannounced last hlast
            (List.ne_nil_of_length_pos (Nat.lt_of_lt_of_le hpos hless))
          rw [← hnext]
          exact hthere.mono hless
      | some info =>
          obtain ⟨count, hcount, hle⟩ := hwritten info hannounced
          rw [files_of_announced hbefore.steady.standing hannounced hlast]
          exact (stocked_of_written (htracked.stocked info hannounced) hcount
            (Nat.lt_of_lt_of_le hpos hle)).mono hle

theorem tracked_connect {config : ConfigMessage} {call : Call} {attempt : Nat}
    (htracked : Tracked setup world)
    (haccounts : ∃ ledger, Accounts setup ledger (connect world config call attempt memory))
    (hbehind : Behind world.sender memory) (hkept : KeptUp world memory)
    (hsaved : ∀ stored, world.saved = .stored stored →
      Behind (startAttempt call attempt memory) stored) :
    Tracked setup (connect world config call attempt memory) := by
  have horderly : Orderly setup.chunkSize.toNat memory := by
    obtain ⟨ledger, hafter⟩ := haccounts
    exact (hafter.steady.sound.memory memory rfl).orderly
  have hthere := stocked_of_keptUp htracked horderly hbehind hkept
  refine ⟨haccounts, fun _ => trivial, ?_, ?_, ?_, hsaved⟩
  · intro _ other hother
    cases hother
    exact hthere
  · intro info hsome
    cases hsome
  · intro info hsome
    cases hsome

/-- Leaving an attempt, or starting the next one on the same connection. -/
theorem tracked_phase (htracked : Tracked setup world) {phase : Phase} {saved : SavedState}
    (haccounts : ∃ ledger, Accounts setup ledger { world with sender := phase, saved := saved })
    (hmemory : phase.memory? = world.sender.memory?)
    (hsaved : ∀ stored, saved = .stored stored →
      world.saved = .stored stored ∨ world.sender.memory? = some stored) :
    Tracked setup { world with sender := phase, saved := saved } := by
  refine ⟨haccounts, htracked.untouched, ?_, htracked.offers, htracked.stocked, ?_⟩
  · exact fun hnone memory hlast => htracked.unannounced hnone memory (hmemory ▸ hlast)
  · intro stored hstored
    rcases hsaved stored hstored with hbefore | hhere
    · refine (htracked.saved stored hbefore).imp_right ?_
      rintro ⟨memory, hlast, hprecedes⟩
      exact ⟨memory, hmemory.trans hlast, hprecedes⟩
    · exact Or.inr ⟨stored, hmemory.trans hhere, precedes_refl stored⟩

/-! ## Every step -/

theorem tracked_start (htracked : Tracked setup world) {config : ConfigMessage} {freshId : Uuid}
    {call : Call}
    (haccounts : ∃ ledger, Accounts setup ledger
      (connect world config call 0 (loadState world.saved freshId config)))
    (hkept : KeptUp world (loadState world.saved freshId config)) :
    Tracked setup (connect world config call 0 (loadState world.saved freshId config)) := by
  refine tracked_connect htracked haccounts ?_ hkept fun stored hstored => ?_
  · cases hsaved : world.saved with
    | stored stored => exact htracked.saved stored hsaved
    | absent | unreadable => exact Or.inl rfl
  · rw [hstored]
    exact Or.inr ⟨stored, rfl, precedes_refl stored⟩

theorem tracked_step (hdecode : Invertible setup.codec) {event : Event}
    (hhonest : HonestEvent setup (fun _ => True) event) (htracked : Tracked setup world)
    (hopens : OpensKeptUp world event) (hstep : step setup world event = some next) :
    Tracked setup next := by
  have haccounts : ∃ ledger, Accounts setup ledger next := by
    obtain ⟨ledger, hbefore⟩ := htracked.accounts
    exact ⟨_, accounts_step hdecode hbefore hhonest hstep⟩
  cases networkStepped_of_step hstep with
  | start call _ _ => exact tracked_start htracked haccounts (hopens _ rfl)
  | sender hsender => exact tracked_sender htracked haccounts hsender
  | receiver hreceiver => exact tracked_receiver htracked haccounts hreceiver
  | loseForward | loseBackward =>
      exact ⟨haccounts, htracked.untouched, htracked.unannounced, htracked.offers, htracked.stocked,
        htracked.saved⟩
  | save outcome hsender =>
      have hmemory := memory?_of_sender hsender rfl
      refine tracked_phase htracked haccounts ?_ fun stored hstored => ?_
      · rw [memory?_afterFailure, hmemory]
      · cases outcome with
        | saved =>
            cases hstored
            exact Or.inr hmemory
        | unchanged => exact Or.inl hstored
        | brokenOff => cases hstored
  | reconnect hsender _ =>
      rename_i call attempt memory _
      have hmemory := memory?_of_sender hsender rfl
      have hresumes : (Event.reconnect true).resumes world = some memory := by
        simp only [Event.resumes, hsender]
      refine tracked_connect htracked haccounts (Or.inr ⟨memory, hmemory, precedes_refl memory⟩)
        (hopens memory hresumes) ?_
      intro stored hstored
      refine (htracked.saved stored hstored).imp_right ?_
      rintro ⟨other, hother, hprecedes⟩
      cases hmemory.symm.trans hother
      exact ⟨memory, rfl, hprecedes⟩
  | unreachable hsender =>
      exact @tracked_phase setup world htracked _ world.saved haccounts
        (memory?_of_sender hsender rfl).symm fun _ hstored => Or.inl hstored
  | finish removed hsender =>
      refine tracked_phase htracked haccounts (memory?_of_sender hsender rfl).symm
        fun stored hstored => ?_
      cases removed with
      | true => cases hstored
      | false => exact Or.inl hstored

theorem tracked_initial (store : Store) : Tracked setup (initial setup store) := by
  refine ⟨⟨_, accounts_initial store⟩, fun _ => rfl, ?_, ?_, ?_, ?_⟩
  · intro _ memory hmemory
    cases hmemory
  · intro info hsome
    cases hsome
  · intro info hsome
    cases hsome
  · intro stored hstored
    cases hstored

theorem tracked_run (hdecode : Invertible setup.codec) {store : Store} {events : List Event}
    (hhonest : ∀ event ∈ events, HonestEvent setup (fun _ => True) event)
    (hopens : Along (step setup) OpensKeptUp (initial setup store) events)
    (hrun : Network.run setup (initial setup store) events = some world) : Tracked setup world := by
  have hallowed := along_and (along_of_forall (fun _ => hhonest) (initial setup store)) hopens
  exact invariant_along (Tracked setup)
    (fun _ _ _ htracked hallowed hstep => tracked_step hdecode hallowed.1 htracked hallowed.2 hstep)
    hallowed (tracked_initial store) hrun

/-- The partial file of the item a resume point names holds what the point lists. -/
theorem skips_of_tracked (htracked : Tracked setup world) : SkipsWhatIsThere setup world := by
  obtain ⟨ledger, haccounts⟩ := htracked.accounts
  rintro plan index task resume hreceiver hresume rfl
  have hsound := haccounts.steady.sound.receiver (.file plan resume.fileIndex task .begin)
    (by rw [hreceiver]; rfl)
  have hannounced : world.link.announced = some plan.info := by
    cases hcase : world.link.announced with
    | none =>
        have huntouched := htracked.untouched hcase
        rw [hreceiver] at huntouched
        exact huntouched.elim
    | some info =>
        have hopened := opened_of_announced haccounts.steady.standing hcase
        exact congrArg some ((hopened.knows _ hreceiver).resolve_left id).symm
  have hoffers := htracked.offers plan.info hannounced
  have halready : alreadySent plan.info resume.fileIndex = resume.completedChunks.length := by
    rw [alreadySent, hresume]
    exact if_pos rfl
  have hopened := opened_of_announced haccounts.steady.standing hannounced
  have hstart := startChunks_eq hopened.wellFormed (haccounts.announced plan.info hannounced).started
    resume.fileIndex
  have hchunks : resume.completedChunks = List.range (alreadySent plan.info resume.fileIndex) := by
    rw [← hstart, startChunks, hresume]
    exact (if_pos rfl).symm
  have hstocked := htracked.stocked plan.info hannounced
  rw [hreceiver] at hstocked
  have hthere := hstocked (halready ▸ List.length_pos_of_ne_nil (hoffers.nonempty resume hresume))
  obtain ⟨file, _, hfile, _⟩ := hsound.2.1.receives.path
  obtain ⟨bytes, hbytes⟩ := hoffers.honest file (List.mem_of_getElem? hfile)
  obtain ⟨contents, hcontents, hslots⟩ :=
    (stocked_iff rfl hsound.2.1.receives).mp hthere file bytes hfile hbytes
  refine ⟨file, bytes, contents, hfile, hbytes, hcontents, fun chunk hchunk => ?_⟩
  rw [hchunks] at hchunk
  exact hslots chunk (List.mem_range.mp hchunk)

/-- In every run in which no connection is opened with a state ahead of the receiver, what
the receiver is told to skip is there. -/
theorem skips_what_is_there (hdecode : Invertible setup.codec) {store : Store} {events : List Event}
    (hhonest : ∀ event ∈ events, HonestEvent setup (fun _ => True) event)
    (hopens : Along (step setup) OpensKeptUp (initial setup store) events)
    (hrun : Network.run setup (initial setup store) events = some world) :
    SkipsWhatIsThere setup world :=
  skips_of_tracked (tracked_run hdecode hhonest hopens hrun)

/-! ## A file of two chunks, and a connection that breaks -/

def letterScan : FolderSender.Scan := .file [103] 2 0

/-- Both sides have agreed on the file, and the receiver waits for its first stream. -/
def agreed : List Event :=
  [.sender .proceed, .sender (.answer letterScan), .sender .proceed] ++
    List.replicate 2 (.receiver .proceed) ++ [.receiver (.answer true)] ++
    List.replicate 8 (.receiver .proceed)

/-- Both sides notice that the connection is gone, and the sender writes its state file. -/
def broken : List Event :=
  [.loseForward, .loseBackward, .sender (.fail .disconnected 0), .save .saved,
    .receiver (.fail .disconnected 0)]

/-- The receiver reads the next manifest, up to the start of the file. -/
def reopened : List Event :=
  List.replicate 2 (.sender .proceed) ++ List.replicate 2 (.receiver .proceed) ++
    [.receiver (.answer true)] ++ List.replicate 4 (.receiver .proceed)

def opened : Event :=
  .start { ConfigMessage.default with compressionEnabled := false, chunkSize := 1 }
    (FixedBytes.filled 16 0) (FixedBytes.filled 16 1) 0

/-- A connection that carries the given moves and then breaks, and the next one. -/
def attempts (moves : List Event) : List Event :=
  [opened] ++ (agreed ++ moves ++ broken) ++ [.reconnect true] ++ reopened

/-- The sender's moves up to its second stream. -/
def firstRecorded : List Event := List.replicate 9 (.sender .proceed)

/-- The receiver writes the chunk that is recorded. -/
def firstWritten : List Event := firstRecorded ++ List.replicate 2 (.receiver .proceed)

/-- The file is complete at the receiver, and its checksum is not on its way. -/
def renamed : List Event :=
  List.replicate 13 (.sender .proceed) ++ List.replicate 7 (.receiver .proceed)

theorem honest_letterScan :
    HonestEvent letterSetup (fun _ => True) (.sender (.answer letterScan)) := by
  refine ⟨?_, fun _ _ => trivial⟩
  intro found hfound file hfile
  cases hfound
  rw [List.mem_singleton.mp hfile]
  exact ⟨[104, 105], rfl, rfl⟩

theorem honest_of_letterScan {events : List Event}
    (hscan : ∀ scan, .sender (.answer scan) ∈ events → scan = letterScan) :
    ∀ event ∈ events, HonestEvent letterSetup (fun _ => True) event := by
  intro event hevent
  cases event with
  | sender move =>
      cases move with
      | answer scan =>
          rw [hscan scan hevent]
          exact honest_letterScan
      | proceed | fail _ _ => trivial
  | start _ _ _ _ | receiver _ | loseForward | loseBackward | save _ | reconnect _ | finish _ =>
      trivial

/-- A partial file without the first byte of the file. -/
theorem not_skips {world : Network.State} {plan : FolderReceiver.Plan} {task : FileReceiver.Task}
    {resume : ResumePoint} (hreceiver : world.receiver.status = .running (.file plan 0 task .begin))
    (hresume : plan.info.resumeFrom = some resume) (hindex : resume.fileIndex = 0)
    (hfirst : 0 ∈ resume.completedChunks) (hitems : plan.info.items = [letter])
    (hstore : ∀ contents, world.receiver.store task.partialLocation = some contents →
      contents[0]? ≠ some 104) : ¬SkipsWhatIsThere letterSetup world := by
  intro hskips
  obtain ⟨file, bytes, contents, hfile, hbytes, hcontents, hslots⟩ :=
    hskips plan 0 task resume hreceiver hresume hindex
  rw [hitems] at hfile
  cases hfile
  have hsource := hbytes.contents
  change some _ = some bytes at hsource
  cases hsource
  refine hstore contents hcontents ?_
  exact hslots 0 hfirst 0 (Nat.zero_le _) (by decide) (by decide)

/-- Honest attempts that end where the receiver skips a chunk it does not hold. -/
def EndsSkipping (moves : List Event) : Prop :=
  (∀ event ∈ attempts moves, HonestEvent letterSetup (fun _ => True) event) ∧
    ∃ world, Network.run letterSetup (initial letterSetup fun _ => none) (attempts moves) =
      some world ∧ ¬SkipsWhatIsThere letterSetup world

/-- A chunk is recorded before it is written, or its partial file is renamed before the
file is recorded. -/
theorem skips_too_much : EndsSkipping firstRecorded ∧ EndsSkipping renamed := by
  constructor
  · constructor
    · refine honest_of_letterScan fun scan hmem => ?_
      simpa [attempts, opened, agreed, firstRecorded, broken, reopened] using hmem
    · -- the partial file is there, of the right length, and not yet written
      refine ⟨_, rfl, not_skips rfl rfl rfl (by decide) rfl ?_⟩
      intro contents hcontents
      cases hcontents
      decide
  · constructor
    · refine honest_of_letterScan fun scan hmem => ?_
      simpa [attempts, opened, agreed, renamed, broken, reopened] using hmem
    · -- there is no partial file any more
      refine ⟨_, rfl, not_skips rfl rfl rfl (by decide) rfl ?_⟩
      intro contents hcontents
      cases hcontents

/-- The events that open a connection. -/
def opens : Event → Bool
  | .start _ _ _ _ => true
  | .reconnect succeeds => succeeds
  | _ => false

theorem along_of_opens {events : List Event} (hquiet : events.all fun event => !opens event)
    (world : Network.State) : Along (step setup) OpensKeptUp world events := by
  refine along_of_forall (fun state event hevent memory hmemory => ?_) world
  have hnone := List.all_eq_true.mp hquiet event hevent
  cases event with
  | start _ _ _ _ => cases hnone
  | reconnect succeeds =>
      cases succeeds with
      | true => cases hnone
      | false => cases hmemory
  | sender _ | receiver _ | loseForward | loseBackward | save _ | finish _ => cases hmemory

theorem skips_what_is_there_firstWritten : ∃ world,
    Network.run letterSetup (initial letterSetup fun _ => none) (attempts firstWritten) = some world ∧
      (∃ plan task resume, world.receiver.status = .running (.file plan 0 task .begin) ∧
        plan.info.resumeFrom = some resume ∧ resume.completedChunks = [0]) ∧
      SkipsWhatIsThere letterSetup world := by
  obtain ⟨world, hrun, hresumes⟩ : ∃ world,
      Network.run letterSetup (initial letterSetup fun _ => none) (attempts firstWritten) =
        some world ∧
      ∃ plan task resume, world.receiver.status = .running (.file plan 0 task .begin) ∧
        plan.info.resumeFrom = some resume ∧ resume.completedChunks = [0] :=
    ⟨_, rfl, _, _, _, rfl, rfl, rfl⟩
  refine ⟨world, hrun, hresumes, skips_what_is_there ?_ ?_ ?_ hrun⟩
  · intro data _ encoded hencode
    cases hencode
    rfl
  · refine honest_of_letterScan fun scan hmem => ?_
    simpa [attempts, opened, agreed, firstWritten, firstRecorded, broken, reopened] using hmem
  · refine along_append (along_append (along_append ⟨?_, fun _ _ => trivial⟩ ?_) ?_) ?_
    · intro memory hmemory
      cases hmemory
      exact Or.inl rfl
    · exact fun middle _ => along_of_opens rfl middle
    · intro middle hmiddle
      cases hmiddle
      refine ⟨?_, fun _ _ => trivial⟩
      intro memory hmemory
      cases hmemory
      refine Or.inr ⟨⟨_, rfl, rfl⟩, ?_⟩
      intro info hinfo
      cases hinfo
      exact ⟨1, rfl, by decide⟩
    · exact fun middle _ => along_of_opens rfl middle

end P2PFileTransfer.Transfer.Skipping
