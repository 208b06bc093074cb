import P2PFileTransfer.Transfer.Conversation
import P2PFileTransfer.Transfer.SingleFile
import P2PFileTransfer.Transfer.StateFile

/-!
# A finished send has delivered every file

The sender counts an item as finished once the receiver has reported the checksum of what
it has at the place of the item.  No later attempt touches that place, so the count stays
true through every failure, and a send that returns has counted all of them.
-/

namespace P2PFileTransfer.Transfer.Completion

open P2PFileTransfer.Foundation.ByteFile
open P2PFileTransfer.Foundation.FileSystem
open P2PFileTransfer.Foundation.Process
open P2PFileTransfer.Foundation.UnixPath
open P2PFileTransfer.Core
open P2PFileTransfer.Core.Protocol
open P2PFileTransfer.Core.TransferFile
open P2PFileTransfer.Core.TransferFolder
open P2PFileTransfer.Core.SendPath
open P2PFileTransfer.Core.FolderSender (IsSource sourcePath)
open P2PFileTransfer.Transfer.Conversation
open P2PFileTransfer.Transfer.Honesty
open P2PFileTransfer.Transfer.Isolation
open P2PFileTransfer.Transfer.Network
open P2PFileTransfer.Transfer.ReceiverLane
open P2PFileTransfer.Transfer.SenderLane
open P2PFileTransfer.Transfer.SingleFile (greeting greetingDigest)
open P2PFileTransfer.Transfer.StateFile (emptyDigest)

/-! ## What a report says -/

/-- Where the receiver puts an item. -/
def destination (setup : Setup) (clean : OsStr) : Location :=
  components (join setup.outputDir clean)

/-- The message reports item `index` as it is at the receiver now. -/
def Answers (setup : Setup) (store : Store) (items : List FileMetadata) (index : Nat)
    (message : Message) : Prop :=
  ∃ peer clean contents, message = .fileChecksum peer ∧ HasPath items index clean ∧
    store (destination setup clean) = some contents ∧ peer.checksum = setup.codec.sha256 contents

/-- Manifests whose items do not get in each other's way. -/
def Separate (items : List FileMetadata) : Prop := HonestItems items ∧ NoShadow items

/-- Reports are checksums of what the receiver has at the place of an item. -/
def placed (setup : Setup) : Terms where
  chunkSize := setup.chunkSize.toNat
  good := Separate
  answers := Answers setup
  isChecksum := fun _ _ _ _ hanswers => hanswers.imp fun _ hpeer => by
    obtain ⟨_, _, hmessage, _⟩ := hpeer
    exact hmessage

/-- No other bytes have the checksum of a file to send. -/
def NoSecondPreimage (setup : Setup) : Prop :=
  ∀ file bytes other, IsSource setup.basePath setup.source file bytes →
    setup.codec.sha256 other = setup.codec.sha256 bytes → other = bytes

/-- The receiver has the item as the sender has it. -/
def Delivered (setup : Setup) (store : Store) (items : List FileMetadata) (index : Nat) : Prop :=
  ∃ file clean bytes, items[index]? = some file ∧ sanitizeRelativePath file.path = .ok clean ∧
    IsSource setup.basePath setup.source file bytes ∧ store (destination setup clean) = some bytes

/-- The state file lists no files, or is an earlier state of the call at hand. -/
def Behind (phase : Phase) (stored : FolderTransferState) : Prop :=
  stored.files = [] ∨ ∃ memory, phase.memory? = some memory ∧ stored.files = memory.files ∧
    nextItem stored ≤ nextItem memory

structure Kept (setup : Setup) (world : Network.State) : Prop where
  sound : Sound setup Separate world
  standing : Standing (placed setup) world
  fresh : ∀ point, world.receiver.status = .running point →
    Fresh (receiverSession setup world.link) world.receiver.store point
  delivered : ∀ memory, world.sender.memory? = some memory → ∀ index, index < nextItem memory →
    Delivered setup world.receiver.store memory.files index
  saved : ∀ stored, world.saved = .stored stored → Behind world.sender stored
  finished : ∀ memory, world.sender = .returned memory → nextItem memory = memory.files.length

/-- A step finds the first list of files, or keeps the list and finishes at most one item
more, which the receiver has. -/
inductive Progress (setup : Setup) (store : Store) (before after : FolderTransferState) : Prop where
  | scans (hempty : before.files = []) (hnone : nextItem after = 0)
  | stays (hfiles : after.files = before.files) (hitem : nextItem after = nextItem before)
  | finishes (hfiles : after.files = before.files) (hitem : nextItem after = nextItem before + 1)
      (hdelivered : Delivered setup store before.files (nextItem before))

variable {setup : Setup} {world next : Network.State} {store : Store}
  {before after : FolderTransferState}

theorem progress_of_scanned (hscanned : Scanned before after) :
    Progress setup store before after := by
  rcases hscanned with rfl | ⟨hempty, hnone⟩
  · exact .stays rfl rfl
  · exact .scans hempty hnone

theorem progress_of_waited {link link' : Link} {point : FolderSender.Point} {transferId : Uuid}
    {status : FolderSender.PointStatus}
    (hwaited : SenderWaited link point transferId status link') :
    Progress setup store point.memory (statusMemory status) := by
  cases hwaited with
  | fails hmemory _ _ | prepares _ _ hmemory => exact progress_of_scanned hmemory
  | announces _ _ _ | starts _ _ => exact .stays rfl rfl

/-- A confirmed item is delivered. -/
theorem delivered_of_reported (hpreimage : NoSecondPreimage setup) {info : TransferInfo}
    {index : Nat} {peer : FileChecksumMessage} {rest : List Message}
    (hhonest : FolderSender.HonestFiles setup.basePath setup.source info.items)
    (hreplies : Replies (placed setup) store info.items index (.fileChecksum peer :: rest))
    (hsource : ∀ file bytes, info.items[index]? = some file →
      IsSource setup.basePath setup.source file bytes → peer.checksum = setup.codec.sha256 bytes) :
    Delivered setup store info.items index := by
  obtain ⟨⟨reported, clean, contents, hpeer, ⟨file, hfile, hclean⟩, hcontents, hchecksum⟩, _⟩ :=
    hreplies
  cases hpeer
  obtain ⟨bytes, hbytes⟩ := hhonest file (List.mem_of_getElem? hfile)
  have hsame : contents = bytes :=
    hpreimage file bytes contents hbytes (hchecksum.symm.trans (hsource file bytes hfile hbytes))
  exact ⟨file, clean, bytes, hfile, hclean, hbytes, hsame ▸ hcontents⟩

theorem progress_of_moved (hpreimage : NoSecondPreimage setup) {info : TransferInfo} {call : Call}
    {point : FolderSender.Point} {move : Move FolderSender.Scan}
    {status : FolderSender.PointStatus} {link : Link} (htalking : Talking info point)
    (hhonest : FolderSender.HonestFiles setup.basePath setup.source info.items)
    (hreported : Reported (placed setup) info world (nextItem point.memory) world.link.toSender)
    (hmoved : SenderMoved setup info call world.link point move status link) :
    Progress setup world.receiver.store point.memory (statusMemory status) := by
  cases hmoved with
  | fails _ _ | panics | opens _ _ _ _ _ | sends _ _ | completes _ _ => exact .stays rfl rfl
  | goes hnext _ hitem => exact .stays (hnext.files.trans htalking.files.symm) hitem
  | confirms _ hhead hsource hnext hitem =>
      refine .finishes (hnext.files.trans htalking.files.symm) hitem ?_
      have hreplies := hreported.replies
      rw [hhead] at hreplies
      rw [htalking.files]
      exact delivered_of_reported hpreimage hhonest hreplies hsource

/-- What a step of the sender does to its state. -/
theorem progress_of_step (hpreimage : NoSecondPreimage setup) (hkept : Kept setup world)
    {call : Call} {attempt : Nat} {point : FolderSender.Point} {move : Move FolderSender.Scan}
    {input : FolderSender.SenderInput} {link : Link} {sent : FolderSender.SenderState}
    (hsender : world.sender = .sending call attempt (.running point))
    (hfed : SenderFed world.link point
      (FolderSender.action (senderSession setup world.link call) point) move input link)
    (hstep : (FolderSender.machine (senderSession setup world.link call)).step
      ⟨.running point, setup.source⟩ input = some sent) :
    Progress setup world.receiver.store point.memory (statusMemory sent.status) := by
  have hpointSound := hkept.sound.sender call attempt _ hsender
  by_cases hlive : Live point.stage
  · cases hkept.standing with
    | silent _ _ _ _ hwaiting | closed _ hwaiting _ _ =>
        rw [hsender] at hwaiting
        exact absurd hlive hwaiting
    | asked _ hasked =>
        rw [hsender] at hasked
        cases hasked
        exact hlive.elim
    | live hopened hhere htalking hreported =>
        rw [hsender] at hhere
        cases hhere
        have hmemory := hkept.sound.memory point.memory (by rw [hsender]; rfl)
        exact progress_of_moved hpreimage htalking (htalking.files ▸ hmemory.honest) hreported
          (senderMoved_of_step hopened.wellFormed hkept.sound.chunkSize hpointSound htalking hfed
            hstep)
  · exact progress_of_waited (senderWaited_of_step hpointSound hlive hfed hstep)

/-! ## Every step -/

theorem behind_progress {phase : Phase} {call : Call} {attempt : Nat}
    {status : FolderSender.PointStatus} {stored : FolderTransferState}
    (hphase : phase.memory? = some before) (hbehind : Behind phase stored)
    (hprogress : Progress setup store before (statusMemory status)) :
    Behind (.sending call attempt status) stored := by
  rcases hbehind with hempty | ⟨memory, hmemory, hfiles, hitem⟩
  · exact Or.inl hempty
  · rw [hphase] at hmemory
    cases hmemory
    cases hprogress with
    | scans hempty _ => exact Or.inl (hfiles.trans hempty)
    | stays hsame hcount =>
        exact Or.inr ⟨_, memory?_sending call attempt status, hfiles.trans hsame.symm,
          hcount ▸ hitem⟩
    | finishes hsame hcount _ =>
        exact Or.inr ⟨_, memory?_sending call attempt status, hfiles.trans hsame.symm,
          hcount ▸ Nat.le_succ_of_le hitem⟩

theorem delivered_progress
    (hdelivered : ∀ index, index < nextItem before → Delivered setup store before.files index)
    (hprogress : Progress setup store before after) {index : Nat} (hindex : index < nextItem after) :
    Delivered setup store after.files index := by
  cases hprogress with
  | scans _ hnone =>
      rw [hnone] at hindex
      exact absurd hindex (Nat.not_lt_zero _)
  | stays hfiles hitem =>
      rw [hfiles]
      exact hdelivered index (hitem ▸ hindex)
  | finishes hfiles hitem hlast =>
      rw [hfiles]
      rw [hitem] at hindex
      rcases Nat.lt_succ_iff_lt_or_eq.mp hindex with hearlier | rfl
      · exact hdelivered index hearlier
      · exact hlast

theorem kept_senderStepped (hdecode : Invertible setup.codec) (hpreimage : NoSecondPreimage setup)
    (hkept : Kept setup world) {move : Move FolderSender.Scan}
    (hhonest : HonestEvent setup Separate (.sender move))
    (hstepped : SenderStepped setup world move next) (hstanding : Standing (placed setup) next) :
    Kept setup next := by
  have hsound := sound_senderStepped hdecode hkept.sound hhonest hstepped
  cases hstepped with
  | intro hsender hfed hstep =>
      rename_i call attempt point input link sent
      have hprogress := progress_of_step hpreimage hkept hsender hfed hstep
      have hmemory : world.sender.memory? = some point.memory := by
        rw [hsender]
        rfl
      refine ⟨hsound, hstanding, hkept.fresh, ?_, ?_, nofun⟩
      · intro memory hlast index hindex
        rw [memory?_sending] at hlast
        cases hlast
        exact delivered_progress (hkept.delivered point.memory hmemory) hprogress hindex
      · exact fun stored hstored => behind_progress hmemory (hkept.saved stored hstored) hprogress

/-- What the sender has finished lies below the receiver's floor. -/
theorem finished_below_floor (hstanding : Standing (placed setup) world) {memory : FolderTransferState}
    (hmemory : world.sender.memory? = some memory) {point : FolderReceiver.Point}
    (hpoint : world.receiver.status = .running point) :
    Unread point ∨ ∃ info, Opened (placed setup) info world ∧ memory.files = info.items ∧
      nextItem memory ≤ floor info point := by
  cases hstanding with
  | silent _ _ _ hunread _ => exact Or.inl (hunread point hpoint)
  | asked hopened hsender hfiles hfirst _ _ =>
      rw [hsender] at hmemory
      cases hmemory
      exact Or.inr ⟨_, hopened, hfiles, hfirst ▸ Nat.le_max_left _ _⟩
  | live hopened hsender htalking hreported =>
      rw [hsender] at hmemory
      cases hmemory
      exact Or.inr ⟨_, hopened, htalking.files,
        Nat.le_trans (Nat.le_add_right _ _) (hreported.place_le point hpoint)⟩
  | closed hopened _ _ hover =>
      obtain ⟨hfiles, hbound⟩ := hover memory hmemory
      exact Or.inr ⟨_, hopened, hfiles, hbound point hpoint⟩

/-- What the steps of the receiver are known to do to its files. -/
structure Works (setup : Setup) (world : Network.State) (point : FolderReceiver.Point)
    (received : FolderReceiver.ReceiverState) : Prop where
  status : world.receiver.status = .running point
  sound : point.Sound (receiverSession setup world.link)
  fresh : Fresh (receiverSession setup world.link) world.receiver.store point
  frame : ∀ location,
    location ∉ (FolderReceiver.action (receiverSession setup world.link) point).written →
    received.store location = world.receiver.store location

theorem Works.below_floor {point : FolderReceiver.Point} {received : FolderReceiver.ReceiverState}
    (hworks : Works setup world point received) {info : TransferInfo}
    (hopened : Opened (placed setup) info world) {index : Nat} {clean : OsStr}
    (hpath : HasPath info.items index clean) (hbelow : index < floor info point) :
    received.store (destination setup clean) = world.receiver.store (destination setup clean) :=
  hworks.frame _ (not_written_below_floor hopened.wellFormed hopened.good.1 hopened.good.2
    hworks.sound (hopened.knows point hworks.status) hpath hbelow)

theorem Works.serves {point : FolderReceiver.Point} {received : FolderReceiver.ReceiverState}
    (hworks : Works setup world point received) :
    Serves setup (placed setup) world point received := by
  refine ⟨hworks.status, hworks.sound, ?_, ?_⟩
  · rintro info index message hopened hbelow ⟨peer, clean, contents, hpeer, hpath, hcontents, hsame⟩
    refine ⟨peer, clean, contents, hpeer, hpath, ?_, hsame⟩
    exact (hworks.below_floor hopened hpath hbelow).trans hcontents
  · rintro info plan index task checksum hopened rfl hplan
    obtain ⟨clean, hpath, hfinal, _, _⟩ := task_of_sound hworks.sound rfl
    obtain ⟨contents, hcontents, hchecksum⟩ := hworks.fresh plan index task checksum rfl
    refine ⟨_, clean, contents, rfl, hplan ▸ hpath, ?_, hchecksum.symm⟩
    rw [hfinal] at hcontents
    exact (hworks.frame _ List.not_mem_nil).trans hcontents

theorem Delivered.receiver (hstanding : Standing (placed setup) world) {memory : FolderTransferState}
    (hmemory : world.sender.memory? = some memory) {point : FolderReceiver.Point}
    {received : FolderReceiver.ReceiverState} (hworks : Works setup world point received)
    {index : Nat} (hindex : index < nextItem memory)
    (hdelivered : Delivered setup world.receiver.store memory.files index) :
    Delivered setup received.store memory.files index := by
  obtain ⟨file, clean, bytes, hfile, hclean, hbytes, hstored⟩ := hdelivered
  refine ⟨file, clean, bytes, hfile, hclean, hbytes, ?_⟩
  rw [← hstored]
  rcases finished_below_floor hstanding hmemory hworks.status with
    hunread | ⟨info, hopened, hfiles, hbelow⟩
  · apply hworks.frame
    rcases eq_of_unread hunread with rfl | rfl <;> exact List.not_mem_nil
  · exact hworks.below_floor hopened ⟨file, hfiles ▸ hfile, hclean⟩
      (Nat.lt_of_lt_of_le hindex hbelow)

theorem fresh_of_step {session : FolderReceiver.Session}
    {state received : FolderReceiver.ReceiverState} {input : FolderReceiver.ReceiverInput}
    (hstep : (FolderReceiver.machine session).step state input = some received)
    {point : FolderReceiver.Point} (hpoint : received.status = .running point) :
    Fresh session received.store point := by
  cases stepped_of_step hstep with
  | fail _ _ hnext =>
      rw [hnext] at hpoint
      cases hpoint
  | resume _ hreply hnext =>
      rw [hnext] at hpoint ⊢
      exact fresh_resume hreply hpoint

theorem works_of_step (hkept : Kept setup world) {point : FolderReceiver.Point}
    (hreceiver : world.receiver.status = .running point) {input : FolderReceiver.ReceiverInput}
    {received : FolderReceiver.ReceiverState}
    (hstep : (FolderReceiver.machine (receiverSession setup world.link)).step world.receiver input =
      some received) : Works setup world point received := by
  refine ⟨hreceiver, hkept.sound.receiver point ?_, hkept.fresh point hreceiver, ?_⟩
  · rw [hreceiver]
    rfl
  · intro location hlocation
    refine step_frame hstep fun other hother => ?_
    rw [hreceiver] at hother
    cases hother
    exact hlocation

theorem kept_receiverStepped (hkept : Kept setup world) {move : Move Bool}
    (hstepped : ReceiverStepped setup world move next) (hstanding : Standing (placed setup) next) :
    Kept setup next := by
  have hsound := sound_receiverStepped hkept.sound hstepped
  cases hstepped with
  | intro hreceiver hfed hstep =>
      have hworks := works_of_step hkept hreceiver hstep
      refine ⟨hsound, hstanding, fun other hother => fresh_of_step hstep hother, ?_, hkept.saved,
        hkept.finished⟩
      intro memory hmemory index hindex
      exact (hkept.delivered memory hmemory index hindex).receiver hkept.standing hmemory hworks
        hindex

/-- Starting an attempt on a new connection from a state whose finished items are delivered. -/
theorem kept_connect {config : ConfigMessage} (call : Call)
    (attempt : Nat) {memory : FolderTransferState}
    (hsound : Sound setup Separate (connect world config call attempt memory))
    (hdelivered : ∀ index, index < nextItem memory →
      Delivered setup world.receiver.store memory.files index)
    (hsaved : ∀ stored, world.saved = .stored stored →
      Behind (startAttempt call attempt memory) stored) :
    Kept setup (connect world config call attempt memory) := by
  refine ⟨hsound, standing_connect config call attempt memory, ?_, ?_, hsaved, nofun⟩
  · intro point hpoint
    cases hpoint
    nofun
  · intro other hother
    cases hother
    exact hdelivered

theorem nextItem_eq_zero {chunkSize : Nat} {memory : FolderTransferState}
    (horderly : FolderSender.Orderly chunkSize memory) (hempty : memory.files = []) :
    nextItem memory = 0 := by
  have hle := horderly.finished_le
  rw [hempty] at hle
  exact Nat.le_zero.mp hle

/-- The items a state file counts as finished are delivered. -/
theorem delivered_of_saved (hkept : Kept setup world) {stored : FolderTransferState}
    (hstored : world.saved = .stored stored) {index : Nat} (hindex : index < nextItem stored) :
    Delivered setup world.receiver.store stored.files index := by
  rcases hkept.saved stored hstored with hempty | ⟨memory, hmemory, hfiles, hitem⟩
  · rw [nextItem_eq_zero (hkept.sound.saved stored hstored).orderly hempty] at hindex
    exact absurd hindex (Nat.not_lt_zero _)
  · rw [hfiles]
    exact hkept.delivered memory hmemory index (Nat.lt_of_lt_of_le hindex hitem)

theorem kept_start (hkept : Kept setup world) {config : ConfigMessage} (freshId : Uuid) (call : Call)
    (hsound : Sound setup Separate
      (connect world config call 0 (loadState world.saved freshId config))) :
    Kept setup (connect world config call 0 (loadState world.saved freshId config)) := by
  refine kept_connect call 0 hsound ?_ ?_
  · intro index hindex
    cases hsaved : world.saved with
    | stored stored =>
        rw [hsaved] at hindex
        exact delivered_of_saved hkept hsaved hindex
    | absent | unreadable =>
        rw [hsaved] at hindex
        exact absurd hindex (Nat.not_lt_zero _)
  · intro stored hstored
    rw [hstored]
    exact Or.inr ⟨stored, rfl, rfl, Nat.le_refl _⟩

/-- Leaving an attempt, or starting the next one on the same connection. -/
theorem kept_phase (hkept : Kept setup world) {phase : Phase} {saved : SavedState}
    (hsound : Sound setup Separate { world with sender := phase, saved := saved })
    (hstanding : Standing (placed setup) { world with sender := phase, saved := saved })
    (hmemory : phase.memory? = world.sender.memory?)
    (hsaved : ∀ stored, saved = .stored stored →
      world.saved = .stored stored ∨ world.sender.memory? = some stored)
    (hfinished : ∀ memory, phase = .returned memory → nextItem memory = memory.files.length) :
    Kept setup { world with sender := phase, saved := saved } := by
  refine ⟨hsound, hstanding, hkept.fresh, ?_, ?_, hfinished⟩
  · intro memory hlast
    exact hkept.delivered memory (hmemory ▸ hlast)
  · intro stored hstored
    rcases hsaved stored hstored with hbefore | hhere
    · rcases hkept.saved stored hbefore with hempty | ⟨memory, hlast, hfiles, hitem⟩
      · exact Or.inl hempty
      · exact Or.inr ⟨memory, hmemory.trans hlast, hfiles, hitem⟩
    · exact Or.inr ⟨stored, hmemory.trans hhere, rfl, Nat.le_refl _⟩

theorem ne_returned_afterFailure (maxAttempts : Nat) (call : Call) (attempt : Nat)
    (point : FolderSender.Point) (error : Error) (memory : FolderTransferState) :
    afterFailure maxAttempts call attempt point error ≠ .returned memory := by
  unfold afterFailure
  dsimp only
  split
  · split <;> nofun
  · nofun

theorem kept_save (hkept : Kept setup world) {call : Call} {attempt : Nat}
    {point : FolderSender.Point} {error : Error}
    (hsender : world.sender = .sending call attempt (.failed point error)) (outcome : SaveOutcome)
    (hstanding : Standing (placed setup) { world with
      sender := afterFailure setup.maxAttempts call attempt point error
      saved := save outcome point.memory world.saved }) :
    Kept setup { world with
      sender := afterFailure setup.maxAttempts call attempt point error
      saved := save outcome point.memory world.saved } := by
  have hmemory : (afterFailure setup.maxAttempts call attempt point error).memory? =
      world.sender.memory? := by
    rw [memory?_afterFailure, hsender]
    rfl
  refine kept_phase hkept (sound_save hkept.sound hsender outcome) hstanding hmemory ?_ ?_
  · intro stored hstored
    cases outcome with
    | saved =>
        cases hstored
        refine Or.inr ?_
        rw [hsender]
        rfl
    | unchanged => exact Or.inl hstored
    | brokenOff => cases hstored
  · exact fun memory hreturned => absurd hreturned (ne_returned_afterFailure _ _ _ _ _ memory)

theorem separate_nil : Separate [] := by
  refine ⟨⟨nofun, ?_⟩, ?_⟩
  · rintro first second clean ⟨file, hfile, _⟩
    cases hfile
  · rintro earlier later first second _ ⟨file, hfile, _⟩
    cases hfile

theorem kept_step (hdecode : Invertible setup.codec) (hpreimage : NoSecondPreimage setup)
    {event : Event} (hhonest : HonestEvent setup Separate event) (hkept : Kept setup world)
    (hstep : step setup world event = some next) : Kept setup next := by
  have hsound := sound_step hdecode separate_nil hhonest hkept.sound hstep
  have hstanding : Standing (placed setup) next :=
    standing_step rfl hkept.standing hkept.sound
      (fun _ _ _ hreceiver hmachine => (works_of_step hkept hreceiver hmachine).serves) hstep
  cases networkStepped_of_step hstep with
  | start call _ _ => exact kept_start hkept _ _ hsound
  | sender hsender => exact kept_senderStepped hdecode hpreimage hkept hhonest hsender hstanding
  | receiver hreceiver => exact kept_receiverStepped hkept hreceiver hstanding
  | loseForward | loseBackward =>
      exact ⟨hsound, hstanding, hkept.fresh, hkept.delivered, hkept.saved, hkept.finished⟩
  | save outcome hsender => exact kept_save hkept hsender outcome hstanding
  | reconnect hsender _ =>
      rename_i call attempt memory _
      have hmemory := memory?_of_sender hsender rfl
      refine kept_connect call (attempt + 1) hsound (hkept.delivered memory hmemory) ?_
      intro stored hstored
      refine (hkept.saved stored hstored).imp_right ?_
      rintro ⟨other, hother, hfiles, hitem⟩
      rw [hmemory] at hother
      cases hother
      exact ⟨memory, rfl, hfiles, hitem⟩
  | unreachable hsender =>
      refine @kept_phase _ world hkept _ world.saved hsound hstanding
        (memory?_of_sender hsender rfl).symm (fun _ hstored => Or.inl hstored)
        (fun _ hreturned => ?_)
      cases hreturned
  | finish removed hsender =>
      have hall := (hkept.sound.sender _ _ _ hsender).2.2
      refine kept_phase hkept hsound hstanding (memory?_of_sender hsender rfl).symm ?_ ?_
      · intro stored hstored
        cases removed with
        | true => cases hstored
        | false => exact Or.inl hstored
      · intro other hother
        cases hother
        exact hall

theorem kept_initial (store : Store) : Kept setup (initial setup store) :=
  ⟨sound_initial separate_nil store, .silent rfl rfl rfl nofun trivial, nofun, nofun, nofun, nofun⟩

theorem kept_run (hdecode : Invertible setup.codec) (hpreimage : NoSecondPreimage setup)
    {events : List Event} (hhonest : ∀ event ∈ events, HonestEvent setup Separate event)
    (hrun : run setup (initial setup store) events = some next) : Kept setup next :=
  Foundation.Run.invariant_along (Kept setup)
    (fun _ _ _ hkept hevent hstep => kept_step hdecode hpreimage hevent hkept hstep)
    (Foundation.Run.along_of_forall (fun _ => hhonest) _) (kept_initial store) hrun

/-- When `send_path` returns, every file of its manifest is at the receiver as it is at the
sender, whatever was lost on the way there. -/
theorem returned_delivered (hdecode : Invertible setup.codec) (hpreimage : NoSecondPreimage setup)
    {events : List Event} (hhonest : ∀ event ∈ events, HonestEvent setup Separate event)
    {final : Network.State} (hrun : run setup (initial setup store) events = some final)
    {memory : FolderTransferState} (hreturned : final.sender = .returned memory) :
    ∀ file ∈ memory.files, ∃ clean bytes, sanitizeRelativePath file.path = .ok clean ∧
      setup.source (components (sourcePath setup.basePath file)) = some bytes ∧
      final.receiver.store (components (join setup.outputDir clean)) = some bytes := by
  have hkept := kept_run hdecode hpreimage hhonest hrun
  have hall := hkept.finished memory hreturned
  have hmemory : final.sender.memory? = some memory := by
    rw [hreturned]
    rfl
  intro file hfile
  obtain ⟨index, hindex⟩ := List.mem_iff_getElem?.mp hfile
  have hless : index < nextItem memory := by
    rw [hall]
    exact (List.getElem?_eq_some_iff.mp hindex).1
  obtain ⟨other, clean, bytes, hother, hclean, hbytes, hstored⟩ :=
    hkept.delivered memory hmemory index hless
  rw [hindex] at hother
  cases hother
  exact ⟨clean, bytes, hclean, hbytes.contents, hstored⟩

/-! ## A file of two chunks, sent on the second connection -/

def letter : FileMetadata := FolderSender.metadataOf [103] 2 0

/-- The file `in/g` is sent to the directory `out`. -/
def letterSetup : Setup where
  codec := .stored fun bytes => if bytes = greeting then greetingDigest else emptyDigest
  chunkSize := 1
  basePath := [105, 110]
  outputDir := [111, 117, 116]
  source := fun location =>
    if location = components (sourcePath [105, 110] letter) then some greeting else none
  maxAttempts := 3

/-- The first connection breaks before the manifest is through. -/
def lostAnnouncement : List Event :=
  [.start { ConfigMessage.default with compressionEnabled := false, chunkSize := 1 }
      (FixedBytes.filled 16 0) (FixedBytes.filled 16 1) 0,
    .sender .proceed, .sender (.answer (.file [103] 2 0)), .loseForward,
    .sender (.fail .disconnected 0), .save .saved, .receiver (.fail .disconnected 0),
    .reconnect true]

/-- On the next one each side goes as far as it can, then the other. -/
def secondAttempt : List Event :=
  List.replicate 2 (.sender .proceed) ++ List.replicate 2 (.receiver .proceed) ++
    [.receiver (.answer true)] ++ List.replicate 2 (.receiver .proceed) ++
    List.replicate 13 (.sender .proceed) ++ List.replicate 15 (.receiver .proceed) ++
    List.replicate 3 (.sender .proceed) ++ [.finish true]

theorem index_of_letter {index : Nat} {clean : OsStr} (hpath : HasPath [letter] index clean) :
    index = 0 := Nat.lt_one_iff.mp (index_lt_of_hasPath hpath)

theorem separate_letter : Separate [letter] := by
  refine ⟨⟨?_, ?_⟩, ?_⟩
  · intro index hindex
    rw [Nat.lt_one_iff.mp hindex]
    exact ⟨[103], letter, rfl, by decide⟩
  · intro first second clean hfirst hsecond
    rw [index_of_letter hfirst, index_of_letter hsecond]
  · intro earlier later _ _ hless hearlier hlater
    rw [index_of_letter hearlier, index_of_letter hlater] at hless
    exact absurd hless (Nat.lt_irrefl 0)

theorem noSecondPreimage_letter : NoSecondPreimage letterSetup := by
  intro file bytes other hbytes hsame
  have hgreeting : bytes = greeting := by
    have hcontents := hbytes.contents
    change (if _ then some greeting else none) = some bytes at hcontents
    split at hcontents <;> cases hcontents
    rfl
  subst hgreeting
  by_contra hother
  change (if other = greeting then greetingDigest else emptyDigest) = _ at hsame
  rw [if_neg hother] at hsame
  exact absurd hsame (by decide)

theorem returned_delivered_letter :
    ∃ final memory, run letterSetup (initial letterSetup fun _ => none)
        (lostAnnouncement ++ secondAttempt) = some final ∧
      final.sender = .returned memory ∧ memory.files = [letter] ∧
      ∀ file ∈ memory.files, ∃ clean bytes, sanitizeRelativePath file.path = .ok clean ∧
        letterSetup.source (components (sourcePath letterSetup.basePath file)) = some bytes ∧
        final.receiver.store (components (join letterSetup.outputDir clean)) = some bytes := by
  have hscan : HonestEvent letterSetup Separate (.sender (.answer (.file [103] 2 0))) := by
    refine ⟨?_, ?_⟩
    · intro found hfound file hfile
      cases hfound
      rw [List.mem_singleton.mp hfile]
      exact ⟨greeting, rfl, rfl⟩
    · intro found hfound
      cases hfound
      exact separate_letter
  have hhonest : ∀ event ∈ lostAnnouncement ++ secondAttempt,
      HonestEvent letterSetup Separate event := by
    intro event hevent
    simp only [lostAnnouncement, secondAttempt, List.mem_append, List.mem_cons, List.not_mem_nil,
      List.mem_replicate, or_false] at hevent
    rcases hevent with (rfl | rfl | rfl | rfl | rfl | rfl | rfl | rfl) |
      ((((((⟨_, rfl⟩ | ⟨_, rfl⟩) | rfl) | ⟨_, rfl⟩) | ⟨_, rfl⟩) | ⟨_, rfl⟩) | ⟨_, rfl⟩) | rfl
    all_goals first | exact hscan | trivial
  obtain ⟨final, memory, hrun, hreturned, hfiles⟩ :
      ∃ final memory, run letterSetup (initial letterSetup fun _ => none)
          (lostAnnouncement ++ secondAttempt) = some final ∧
        final.sender = .returned memory ∧ memory.files = [letter] := ⟨_, _, rfl, rfl, rfl⟩
  refine ⟨final, memory, hrun, hreturned, hfiles, ?_⟩
  exact returned_delivered (fun data _ encoded hencode => by cases hencode; rfl)
    noSecondPreimage_letter hhonest
    hrun hreturned

end P2PFileTransfer.Transfer.Completion
