import P2PFileTransfer.Transfer.ReceiverLane
import P2PFileTransfer.Transfer.SenderLane

/-!
# What the two sides have told each other

A connection begins silent.  The sender announces a manifest and waits for Ready; from
then on it stands at an item, and the messages under way to it report the items from
that one on.  A sender that stops being told so never hears Ready on this connection
again.  What a report says about the files of the receiver is left open here.
-/

namespace P2PFileTransfer.Transfer.Conversation

open P2PFileTransfer.Foundation.FileSystem
open P2PFileTransfer.Foundation.Process
open P2PFileTransfer.Foundation.UnixPath
open P2PFileTransfer.Core
open P2PFileTransfer.Core.Protocol
open P2PFileTransfer.Core.TransferFolder
open P2PFileTransfer.Core.SendPath
open P2PFileTransfer.Core.FolderSender (IsSource returnedError)
open P2PFileTransfer.Transfer.Honesty
open P2PFileTransfer.Transfer.Isolation
open P2PFileTransfer.Transfer.Network
open P2PFileTransfer.Transfer.ReceiverLane
open P2PFileTransfer.Transfer.Schedule
open P2PFileTransfer.Transfer.SenderLane

/-! ## What is under way to the sender -/

/-- What a conversation goes by: the chunk size, what is known of the lists of files, and
what a message that reports an item says about the store it is in. -/
structure Terms where
  chunkSize : Nat
  good : List FileMetadata → Prop
  answers : Store → List FileMetadata → Nat → Message → Prop
  isChecksum : ∀ store items index message, answers store items index message →
    ∃ peer, message = .fileChecksum peer

/-- The messages report the items from the given one on. -/
def Replies (terms : Terms) (store : Store) (items : List FileMetadata) : Nat → List Message → Prop
  | _, [] => True
  | index, message :: rest =>
      terms.answers store items index message ∧ Replies terms store items (index + 1) rest

/-- The messages report the items from `first` on, up to the floor of the receiver unless
some were lost. -/
structure Reported (terms : Terms) (info : TransferInfo) (world : Network.State) (first : Nat)
    (messages : List Message) : Prop where
  replies : Replies terms world.receiver.store info.items first messages
  ready : ∀ point, world.receiver.status = .running point → ¬ Unready point
  place_le : ∀ point, world.receiver.status = .running point →
    first + messages.length ≤ floor info point
  place_eq : ∀ point, world.receiver.status = .running point → world.link.backward = true →
    first + messages.length = floor info point

/-- What a sender that waits for Ready finds. -/
inductive Answered (terms : Terms) (info : TransferInfo) (world : Network.State) : Prop where
  | pending (hnone : world.link.toSender = [])
      (hunready : ∀ point, world.receiver.status = .running point →
        Unready point ∨ world.link.backward = false) : Answered terms info world
  | cancelled (hcancel : world.link.toSender = [.cancel])
      (hhalted : world.receiver.status.Halted) : Answered terms info world
  | ready {messages : List Message} (hready : world.link.toSender = .ready :: messages)
      (hreported : Reported terms info world (firstItem info) messages) :
      Answered terms info world

/-! ## Where a connection stands -/

/-- The connection has announced `info`, and the receiver goes by it. -/
structure Opened (terms : Terms) (info : TransferInfo) (world : Network.State) : Prop where
  announced : world.link.announced = some info
  wellFormed : WellFormed terms.chunkSize info
  good : terms.good info.items
  knows : ∀ point, world.receiver.status = .running point → Knows info point
  heard : ∀ point, world.receiver.status = .running point → Unread point →
    ∀ message ∈ world.link.toReceiver, message = .transferInfo info

/-- No attempt that has been told Ready is on. -/
def Waiting : Phase → Prop
  | .sending _ _ (.running point) => ¬ Live point.stage
  | _ => True

/-- The call is over, or nothing can continue it. -/
def Finished : Phase → Prop
  | .idle | .returned _ | .failed _ _ => True
  | .sending _ _ (.returned _) | .sending _ _ (.panicked _ _) => True
  | .sending _ _ (.failed point error) => (returnedError point error).isRecoverable = false
  | .sending _ _ (.running _) | .retrying _ _ _ => False

/-- Ready is neither under way nor to come. -/
def Mute (world : Network.State) : Prop :=
  Message.ready ∉ world.link.toSender ∧
    ∀ point, world.receiver.status = .running point → ¬ Unready point

/-- Where the connection of a world stands. -/
inductive Standing (terms : Terms) (world : Network.State) : Prop where
  | silent (hannounced : world.link.announced = none) (htoReceiver : world.link.toReceiver = [])
      (htoSender : world.link.toSender = [])
      (hunread : ∀ point, world.receiver.status = .running point → Unread point)
      (hwaiting : Waiting world.sender) : Standing terms world
  | asked {info : TransferInfo} {call : Call} {attempt : Nat} {memory : FolderTransferState}
      (hopened : Opened terms info world)
      (hsender : world.sender = .sending call attempt (.running ⟨memory, .recvReady⟩))
      (hfiles : memory.files = info.items) (hfirst : nextItem memory = firstItem info)
      (hchunks : memory.fileChunks (nextItem memory) = startChunks info (nextItem memory))
      (hanswered : Answered terms info world) : Standing terms world
  | live {info : TransferInfo} {call : Call} {attempt : Nat} {point : FolderSender.Point}
      (hopened : Opened terms info world)
      (hsender : world.sender = .sending call attempt (.running point))
      (htalking : Talking info point)
      (hreported : Reported terms info world (nextItem point.memory) world.link.toSender) :
      Standing terms world
  | closed {info : TransferInfo} (hopened : Opened terms info world) (hwaiting : Waiting world.sender)
      (hended : Finished world.sender ∨ Mute world)
      (hmemory : ∀ memory, world.sender.memory? = some memory → memory.files = info.items ∧
        ∀ point, world.receiver.status = .running point → nextItem memory ≤ floor info point) :
      Standing terms world

variable {setup : Setup} {terms : Terms} {store after : Store} {items : List FileMetadata} {info : TransferInfo}
  {world next : Network.State} {first : Nat} {messages : List Message}

theorem Replies.frame (hreplies : Replies terms store items first messages)
    (hframe : ∀ index message, index < first + messages.length →
      terms.answers store items index message → terms.answers after items index message) :
    Replies terms after items first messages := by
  induction messages generalizing first with
  | nil => trivial
  | cons message rest ih =>
      have hlength : first + (message :: rest).length = first + 1 + rest.length := by
        rw [List.length_cons]
        omega
      refine ⟨hframe first message (by omega) hreplies.1, ?_⟩
      apply ih hreplies.2
      intro index other hindex
      exact hframe index other (hlength ▸ hindex)

theorem Replies.concat (hreplies : Replies terms store items first messages) {message : Message}
    (hanswers : terms.answers store items (first + messages.length) message) :
    Replies terms store items first (messages ++ [message]) := by
  induction messages generalizing first with
  | nil => exact ⟨hanswers, trivial⟩
  | cons head rest ih =>
      refine ⟨hreplies.1, ih hreplies.2 ?_⟩
      rw [List.length_cons, ← Nat.add_assoc] at hanswers
      rw [Nat.add_right_comm]
      exact hanswers

theorem Replies.ready_notMem (hreplies : Replies terms store items first messages) :
    Message.ready ∉ messages := by
  induction messages generalizing first with
  | nil => exact List.not_mem_nil
  | cons head rest ih =>
      obtain ⟨hhere, hrest⟩ := hreplies
      obtain ⟨peer, rfl⟩ := terms.isChecksum _ _ _ _ hhere
      intro hmem
      rcases List.mem_cons.mp hmem with hhead | htail
      · cases hhead
      · exact ih hrest htail

/-! ## A sender that waits -/

/-- A state that is the one before, or the first that lists files. -/
def Scanned (memory after : FolderTransferState) : Prop :=
  after = memory ∨ memory.files = [] ∧ nextItem after = 0

/-- What a move does to a sender that has not been told Ready. -/
inductive SenderWaited (link : Link) (point : FolderSender.Point) (transferId : Uuid) :
    FolderSender.PointStatus → Link → Prop where
  | fails {failed : FolderSender.Point} {error : Error} {after : Link}
      (hmemory : Scanned point.memory failed.memory)
      (hlink : after = link ∨ ∃ message rest, message ≠ .ready ∧
        link.toSender = message :: rest ∧ after = { link with toSender := rest })
      (hlate : point.stage = .recvReady → (returnedError failed error).isRecoverable = false) :
      SenderWaited link point transferId (.failed failed error) after
  | prepares {next : FolderSender.Point} (hstage : point.stage ≠ .recvReady)
      (hnext : ¬ Live next.stage) (hmemory : Scanned point.memory next.memory) :
      SenderWaited link point transferId (.running next) link
  | announces (hstage : point.stage ≠ .recvReady) (hfiles : point.memory.files ≠ [])
      (hlength : point.memory.files.length < 2 ^ 32) :
      SenderWaited link point transferId (.running ⟨point.memory, .recvReady⟩)
        (link.sendForward (.transferInfo (manifestOf point.memory transferId)))
  | starts {rest : List Message} (hstage : point.stage = .recvReady)
      (hhead : link.toSender = .ready :: rest) :
      SenderWaited link point transferId (.running ⟨point.memory, .fileHead 0⟩)
        { link with toSender := rest }

theorem waited_announce {session : FolderSender.Session} {link : Link} {point : FolderSender.Point}
    {transferId : Uuid} (hstage : point.stage ≠ .recvReady) (stage : FolderSender.Stage)
    {memory : FolderTransferState} (hmemory : Scanned point.memory memory)
    (resumeFrom : Option ResumePoint) :
    SenderWaited link point transferId (FolderSender.announce session stage memory resumeFrom)
      link := by
  rw [FolderSender.announce]
  cases writeMessage (FolderSender.manifest session memory resumeFrom) with
  | error error => exact .fails hmemory (Or.inl rfl) fun hlate => absurd hlate hstage
  | ok done => exact .prepares hstage id hmemory

theorem unrecoverable_at_ready {link : Link} {point : FolderSender.Point} {error : Error}
    (hstage : point.stage = .recvReady) (hpermits : link.permits .receive error = true) :
    (returnedError point error).isRecoverable = false := by
  obtain ⟨memory, stage⟩ := point
  cases hstage
  simp only [Link.permits, Bool.and_eq_true] at hpermits
  cases error <;> first | rfl | exact absurd hpermits.2 Bool.false_ne_true

/-- Anything but Ready ends the call. -/
theorem readReady_cases (memory : FolderTransferState) (message : Message) :
    message = .ready ∨ message ≠ .ready ∧ ∃ error,
      FolderSender.readReady memory message = .failed ⟨memory, .recvReady⟩ error ∧
        (returnedError ⟨memory, .recvReady⟩ error).isRecoverable = false := by
  by_cases hready : message = .ready
  · exact Or.inl hready
  · refine Or.inr ⟨hready, ?_⟩
    unfold FolderSender.readReady
    split
    · exact absurd rfl hready
    · exact ⟨_, rfl, rfl⟩
    · exact ⟨_, rfl, rfl⟩

theorem senderWaited_of_step {link link' : Link} {call : Call} {point : FolderSender.Point}
    (hsound : FolderSender.SoundStatus (senderSession setup link call) setup.source
      (.running point))
    (hwaiting : ¬ Live point.stage) {move : Move FolderSender.Scan} {input : FolderSender.SenderInput}
    {next : FolderSender.SenderState}
    (hfed : SenderFed link point (FolderSender.action (senderSession setup link call) point) move
      input link')
    (hstep : (FolderSender.machine (senderSession setup link call)).step ⟨.running point, setup.source⟩
      input = some next) :
    SenderWaited link point call.transferId next.status link' := by
  cases stepped_of_step hstep with
  | fail hstatus hstore hnext =>
      cases hstatus
      rw [hnext]
      obtain ⟨_, hlink⟩ := fail_of_senderFed hfed
      refine .fails (Or.inl rfl) (Or.inl hlink) fun hstage => ?_
      obtain ⟨memory, stage⟩ := point
      cases hstage
      change SenderFed link _ .receive _ _ _ at hfed
      cases hfed with
      | fail hpermits => exact unrecoverable_at_ready rfl hpermits
  | resume hstatus hreply hnext =>
      rename_i other reply store
      cases hstatus
      rw [hnext]
      obtain ⟨memory, stage⟩ := point
      obtain ⟨hmemory, hstage⟩ := hsound
      dsimp only at hmemory hstage
      change SenderWaited _ _ _ (FolderSender.resume _ ⟨memory, stage⟩ reply) _
      cases stage with
      | begin =>
          change SenderFed link _ .compute _ _ _ at hfed
          cases hfed with
          | fail => cases hreply
          | compute =>
              cases hreply
              change SenderWaited _ _ _ (FolderSender.openTransfer _ memory) _
              rw [FolderSender.openTransfer]
              split
              · refine .prepares (fun hready => ?_) id (Or.inl rfl)
                cases hready
              · refine waited_announce (fun hready => ?_) .begin (Or.inl rfl) _
                cases hready
      | scan =>
          change SenderFed link _ .ask _ _ _ at hfed
          cases hfed with
          | fail => cases hreply
          | answer =>
              rename_i scan
              cases hreply
              change SenderWaited _ _ _ (FolderSender.startTransfer _ memory scan) _
              rw [FolderSender.startTransfer]
              cases hfound : FolderSender.readScan scan with
              | error error =>
                  refine .fails (Or.inl rfl) (Or.inl rfl) fun hready => ?_
                  cases hready
              | ok found =>
                  refine waited_announce (fun hready => ?_) .scan (Or.inr ?_) none
                  · cases hready
                  · exact ⟨hstage, rfl⟩
      | sendInfo resumeFrom =>
          change SenderFed link _ (.send _) _ _ _ at hfed
          obtain ⟨hfiles, rfl, hwrite⟩ := hstage
          cases hfed with
          | fail => cases hreply
          | send =>
              cases hreply
              refine .announces (fun hready => ?_) hfiles (length_items_lt_of_writeMessage hwrite)
              cases hready
      | recvReady =>
          change SenderFed link _ .receive _ _ _ at hfed
          cases hfed with
          | fail => cases hreply
          | receive hhead =>
              rename_i message rest
              cases hreply
              change SenderWaited _ _ _ (FolderSender.readReady memory message) _
              rcases readReady_cases memory message with rfl | ⟨hother, error, hresult, hend⟩
              · exact .starts rfl hhead
              · rw [hresult]
                exact .fails (Or.inl rfl) (Or.inr ⟨message, rest, hother, hhead, rfl⟩) fun _ => hend
      | fileHead _ | openSource _ | chunkHead _ | readChunk _ _ _ => exact absurd trivial hwaiting
      | openStream _ _ | awaitStopped _ | sendChecksum _ _ | recvChecksum _ _ | sendComplete =>
          exact absurd trivial hwaiting

/-! ## Moves of the sender -/

theorem announce_of_some {link : Link} (hannounced : link.announced = some info) (message : Message) :
    link.announce message = some info := by
  unfold Link.announce
  split
  · rename_i hnone
    rw [hannounced] at hnone
    cases hnone
  · exact hannounced

theorem announced_of_senderFed {link after : Link} {point : FolderSender.Point}
    {action : Action Message} {move : Move FolderSender.Scan} {input : FolderSender.SenderInput}
    (hfed : SenderFed link point action move input after) (hannounced : link.announced = some info) :
    after.announced = some info := by
  cases hfed with
  | send => exact announce_of_some hannounced _
  | fail _ | answer | compute | perform | receive _ | openStream | awaitStopped _ => exact hannounced

/-- A move of the sender does not change what the receiver goes by. -/
theorem Opened.sender (hopened : Opened terms info world) {link : Link} (phase : Phase)
    (hannounced : link.announced = some info)
    (hheard : (∀ point, world.receiver.status = .running point → ¬ Unready point) ∨
      link.toReceiver = world.link.toReceiver) :
    Opened terms info { world with sender := phase, link := link } := by
  refine ⟨hannounced, hopened.wellFormed, hopened.good, hopened.knows, ?_⟩
  intro point hpoint hunread
  rcases hheard with hready | hsame
  · exact absurd (unready_of_unread hunread) (hready point hpoint)
  · exact hsame ▸ hopened.heard point hpoint hunread

theorem Reported.sender (hreported : Reported terms info world first messages) {link : Link}
    (phase : Phase) (hbackward : link.backward = world.link.backward) :
    Reported terms info { world with sender := phase, link := link } first messages :=
  ⟨hreported.replies, hreported.ready, hreported.place_le,
    fun point hpoint hup => hreported.place_eq point hpoint (hbackward ▸ hup)⟩

theorem scanned_eq {memory after : FolderTransferState} (hscanned : Scanned memory after)
    (hfiles : memory.files ≠ []) : after = memory :=
  hscanned.resolve_right fun hempty => hfiles hempty.1

/-- An attempt that ends on a connection that has announced `info`. -/
theorem standing_ended (hopened : Opened terms info world) {link : Link} {call : Call}
    {attempt : Nat} {status : FolderSender.PointStatus} (hhalted : status.Halted)
    (hannounced : link.announced = some info)
    (hheard : (∀ point, world.receiver.status = .running point → ¬ Unready point) ∨
      link.toReceiver = world.link.toReceiver)
    (hended : Finished (.sending call attempt status) ∨
      Mute { world with sender := .sending call attempt status, link := link })
    (hfiles : (statusMemory status).files = info.items)
    (hbound : ∀ point, world.receiver.status = .running point →
      nextItem (statusMemory status) ≤ floor info point) :
    Standing terms { world with sender := .sending call attempt status, link := link } := by
  refine .closed (hopened.sender _ hannounced hheard) ?_ hended ?_
  · cases status with
    | running _ => exact hhalted.elim
    | returned _ | failed _ _ | panicked _ _ => trivial
  · intro memory hmemory
    rw [memory?_sending] at hmemory
    cases hmemory
    exact ⟨hfiles, hbound⟩

/-- The sender of a connection on which nothing has been announced. -/
theorem standing_silent_sender (hsize : setup.chunkSize.toNat = terms.chunkSize) (hannounced : world.link.announced = none)
    (htoReceiver : world.link.toReceiver = []) (htoSender : world.link.toSender = [])
    (hunread : ∀ point, world.receiver.status = .running point → Unread point)
    (hsound : Sound setup terms.good world) {call : Call} {attempt : Nat}
    {point : FolderSender.Point} {status : FolderSender.PointStatus} {link : Link}
    (hsender : world.sender = .sending call attempt (.running point))
    (hwaited : SenderWaited world.link point call.transferId status link) :
    Standing terms { world with sender := .sending call attempt status, link := link } := by
  cases hwaited with
  | fails hmemory hlink hlate =>
      have hsame : link = world.link := by
        rcases hlink with hsame | ⟨message, rest, _, hhead, _⟩
        · exact hsame
        · rw [htoSender] at hhead
          cases hhead
      subst hsame
      exact .silent hannounced htoReceiver htoSender hunread trivial
  | prepares hstage hnext hmemory => exact .silent hannounced htoReceiver htoSender hunread hnext
  | announces hstage hfiles hlength =>
      have hmemory := hsound.memory point.memory (by rw [hsender]; rfl)
      have hfirst := firstItem_manifestOf point.memory call.transferId
      have hstart := startChunks_manifestOf hmemory.orderly call.transferId hlength
      have hannounce : (world.link.sendForward
          (.transferInfo (manifestOf point.memory call.transferId))).announced =
            some (manifestOf point.memory call.transferId) := by
        change world.link.announce _ = _
        unfold Link.announce
        rw [hannounced]
      refine .asked ⟨hannounce,
        hsize ▸ wellFormed_manifestOf hmemory.orderly _ hfiles hlength, hmemory.good,
        fun other hother => Or.inl (hunread other hother), ?_⟩ rfl rfl hfirst.symm hstart.symm
        (.pending htoSender fun other hother => ?_)
      · intro other _ _ message hmessage
        change message ∈ if world.link.forward then world.link.toReceiver ++ [_]
          else world.link.toReceiver at hmessage
        rw [htoReceiver] at hmessage
        split at hmessage
        · exact List.mem_singleton.mp hmessage
        · cases hmessage
      · exact Or.inl (unready_of_unread (hunread other hother))
  | starts hstage hhead =>
      rw [htoSender] at hhead
      cases hhead

/-- A sender that waits for Ready. -/
theorem standing_asked_sender (hopened : Opened terms info world) {call : Call} {attempt : Nat}
    {memory : FolderTransferState} {status : FolderSender.PointStatus} {link : Link}
    (hfiles : memory.files = info.items) (hfirst : nextItem memory = firstItem info)
    (hchunks : memory.fileChunks (nextItem memory) = startChunks info (nextItem memory))
    (hanswered : Answered terms info world)
    (hwaited : SenderWaited world.link ⟨memory, .recvReady⟩ call.transferId status link) :
    Standing terms { world with sender := .sending call attempt status, link := link } := by
  cases hwaited with
  | fails hmemory hlink hlate =>
      rename_i failed error
      have hsame : failed.memory = memory :=
        scanned_eq hmemory (hfiles ▸ hopened.wellFormed.nonempty)
      have hlinkSame : link.announced = some info ∧ link.toReceiver = world.link.toReceiver := by
        rcases hlink with rfl | ⟨_, _, _, _, rfl⟩
        · exact ⟨hopened.announced, rfl⟩
        · exact ⟨hopened.announced, rfl⟩
      refine standing_ended hopened trivial hlinkSame.1 (Or.inr hlinkSame.2) (Or.inl (hlate rfl)) ?_ ?_
      · exact (congrArg FolderTransferState.files hsame).trans hfiles
      · intro point _
        change nextItem failed.memory ≤ _
        rw [hsame, hfirst]
        exact Nat.le_max_left _ _
  | prepares hstage | announces hstage => exact absurd rfl hstage
  | starts hstage hhead =>
      rename_i rest
      cases hanswered with
      | pending hnone =>
          rw [hnone] at hhead
          cases hhead
      | cancelled hcancel =>
          rw [hcancel] at hhead
          cases hhead
      | ready hready hreported =>
          rw [hready] at hhead
          cases hhead
          refine .live (hopened.sender _ hopened.announced (Or.inl hreported.ready)) rfl
            ⟨trivial, hfiles, Nat.le_of_eq hfirst.symm, fun _ => hfirst, hchunks⟩ ?_
          change Reported terms info _ (nextItem memory) rest
          rw [hfirst]
          exact hreported.sender _ rfl

/-- A sender that will not hear Ready on this connection. -/
theorem standing_closed_sender (hopened : Opened terms info world) (hmute : Mute world) {call : Call}
    {attempt : Nat} {point : FolderSender.Point} {status : FolderSender.PointStatus} {link : Link}
    (hfiles : point.memory.files = info.items)
    (hbound : ∀ other, world.receiver.status = .running other →
      nextItem point.memory ≤ floor info other)
    (hwaited : SenderWaited world.link point call.transferId status link) :
    Standing terms { world with sender := .sending call attempt status, link := link } := by
  have hnonempty : point.memory.files ≠ [] := hfiles ▸ hopened.wellFormed.nonempty
  cases hwaited with
  | fails hmemory hlink hlate =>
      rename_i failed error
      have hsame := scanned_eq hmemory hnonempty
      have hlinkSame : link.announced = some info ∧ .ready ∉ link.toSender := by
        rcases hlink with rfl | ⟨message, rest, _, hhead, rfl⟩
        · exact ⟨hopened.announced, hmute.1⟩
        · refine ⟨hopened.announced, fun hmem => hmute.1 ?_⟩
          rw [hhead]
          exact List.mem_cons_of_mem _ hmem
      refine standing_ended hopened trivial hlinkSame.1 (Or.inl hmute.2)
        (Or.inr ⟨hlinkSame.2, hmute.2⟩) ?_ ?_
      · exact (congrArg FolderTransferState.files hsame).trans hfiles
      · intro other hother
        change nextItem failed.memory ≤ _
        rw [hsame]
        exact hbound other hother
  | prepares hstage hnext hmemory =>
      rename_i next
      have hsame := scanned_eq hmemory hnonempty
      refine .closed (hopened.sender _ hopened.announced (Or.inl hmute.2)) hnext (Or.inr hmute) ?_
      intro memory hlast
      cases hlast
      rw [hsame]
      exact ⟨hfiles, hbound⟩
  | announces hstage _ hlength =>
      refine .closed (hopened.sender _ (announce_of_some hopened.announced _) (Or.inl hmute.2)) id
        (Or.inr hmute) ?_
      intro memory hlast
      cases hlast
      exact ⟨hfiles, hbound⟩
  | starts hstage hhead =>
      refine absurd ?_ hmute.1
      rw [hhead]
      exact List.mem_cons_self

/-- A sender that works on the item at hand. -/
theorem standing_live_sender (hopened : Opened terms info world) {call : Call} {attempt : Nat}
    {point : FolderSender.Point} {move : Move FolderSender.Scan}
    {status : FolderSender.PointStatus} {link : Link} (htalking : Talking info point)
    (hreported : Reported terms info world (nextItem point.memory) world.link.toSender)
    (hmoved : SenderMoved setup info call world.link point move status link) :
    Standing terms { world with sender := .sending call attempt status, link := link } := by
  have hbound : ∀ other, world.receiver.status = .running other →
      nextItem point.memory ≤ floor info other := fun other hother =>
    Nat.le_trans (Nat.le_add_right _ _) (hreported.place_le other hother)
  have hmute := hreported.replies.ready_notMem
  cases hmoved with
  | fails hlink hreason =>
      have hlinkSame : link.announced = some info ∧ .ready ∉ link.toSender := by
        rcases hlink with rfl | ⟨message, rest, hhead, rfl⟩
        · exact ⟨hopened.announced, hmute⟩
        · refine ⟨hopened.announced, fun hmem => hmute ?_⟩
          rw [hhead]
          exact List.mem_cons_of_mem _ hmem
      exact standing_ended hopened trivial hlinkSame.1 (Or.inl hreported.ready)
        (Or.inr ⟨hlinkSame.2, hreported.ready⟩) htalking.files hbound
  | panics =>
      exact standing_ended hopened trivial hopened.announced (Or.inr rfl) (Or.inl trivial)
        htalking.files hbound
  | goes hnext hsent hitem =>
      rename_i next
      refine .live (hopened.sender _ hopened.announced (Or.inr rfl)) rfl hnext ?_
      rw [hitem]
      exact hreported.sender _ rfl
  | opens hstage hplace hcarries hnext hsent =>
      exact .live (hopened.sender _ hopened.announced (Or.inr rfl)) rfl hnext
        (hreported.sender _ rfl)
  | sends hstage hnext =>
      exact .live (hopened.sender _ (announce_of_some hopened.announced _) (Or.inl hreported.ready))
        rfl hnext (hreported.sender _ rfl)
  | confirms hstage hhead hsource hnext hitem =>
      rename_i peer rest
      refine .live (hopened.sender _ hopened.announced (Or.inr rfl)) rfl hnext ?_
      have hlength : nextItem point.memory + world.link.toSender.length =
          nextItem point.memory + 1 + rest.length := by
        rw [hhead, List.length_cons]
        omega
      rw [hitem]
      refine ⟨?_, hreported.ready, ?_, ?_⟩
      · have hreplies := hreported.replies
        rw [hhead] at hreplies
        exact hreplies.2
      · exact fun other hother => hlength ▸ hreported.place_le other hother
      · exact fun other hother hup => hlength ▸ hreported.place_eq other hother hup
  | completes hstage hall =>
      exact standing_ended hopened trivial (announce_of_some hopened.announced _)
        (Or.inl hreported.ready) (Or.inl trivial) htalking.files hbound

/-! ## Moves of the receiver -/

section Receiver

variable {point : FolderReceiver.Point} {received : FolderReceiver.ReceiverState} {link : Link}

theorem knows_of_moved {status : FolderReceiver.PointStatus}
    (hmoved : ReceiverMoved info world.link point status link) {other : FolderReceiver.Point}
    (hother : status = .running other) : Knows info other := by
  cases hmoved with
  | halts hhalted _ =>
      rw [hother] at hhalted
      exact hhalted.elim
  | declines _ => cases hother
  | goes hknows _ _ _ _ =>
      cases hother
      exact hknows
  | readies _ hplan | reports _ hplan =>
      cases hother
      exact Or.inr hplan

theorem unready_of_moved {status : FolderReceiver.PointStatus}
    (hmoved : ReceiverMoved info world.link point status link) (hready : ¬ Unready point)
    {other : FolderReceiver.Point} (hother : status = .running other) : ¬ Unready other := by
  cases hmoved with
  | halts hhalted _ =>
      rw [hother] at hhalted
      exact hhalted.elim
  | declines _ => cases hother
  | goes _ _ hunready _ _ =>
      cases hother
      exact fun hother => hready (hunready.mp hother)
  | readies _ _ | reports _ _ =>
      cases hother
      exact id

theorem floor_le_of_moved {status : FolderReceiver.PointStatus}
    (hmoved : ReceiverMoved info world.link point status link)
    {other : FolderReceiver.Point} (hother : status = .running other) :
    floor info point ≤ floor info other := by
  cases hmoved with
  | halts hhalted _ =>
      rw [hother] at hhalted
      exact hhalted.elim
  | declines _ => cases hother
  | goes _ _ _ hfloor _ =>
      cases hother
      exact Nat.le_of_eq hfloor.symm
  | readies hpoint _ =>
      cases hother
      subst hpoint
      exact Nat.le_refl _
  | reports hpoint _ =>
      cases hother
      subst hpoint
      exact max_le_max (Nat.le_refl _) (Nat.le_succ _)

theorem announced_of_moved {status : FolderReceiver.PointStatus}
    (hmoved : ReceiverMoved info world.link point status link) :
    link.announced = world.link.announced ∧ link.backward = world.link.backward ∧
      link.toReceiver <:+ world.link.toReceiver := by
  cases hmoved with
  | halts _ htakes | goes _ _ _ _ htakes =>
      obtain ⟨rest, count, hrest, rfl⟩ := htakes
      exact ⟨rfl, rfl, hrest⟩
  | declines _ | readies _ _ | reports _ _ => exact ⟨rfl, rfl, List.suffix_refl _⟩

/-- A move of the receiver keeps it on the manifest it was told. -/
theorem Opened.receiver (hopened : Opened terms info world)
    (hpoint : world.receiver.status = .running point)
    (hmoved : ReceiverMoved info world.link point received.status link) :
    Opened terms info { world with receiver := received, link := link } := by
  obtain ⟨hannounced, _, hsuffix⟩ := announced_of_moved hmoved
  refine ⟨hannounced.trans hopened.announced, hopened.wellFormed, hopened.good,
    fun other hother => knows_of_moved hmoved hother, ?_⟩
  intro other hother hunread message hmessage
  change received.status = .running other at hother
  have hbefore : Unread point := by
    generalize received.status = status at hmoved hother
    cases hmoved with
    | halts hhalted _ =>
        rw [hother] at hhalted
        exact hhalted.elim
    | declines _ => cases hother
    | goes _ hread _ _ _ =>
        cases hother
        exact hread hunread
    | readies _ _ | reports _ _ =>
        cases hother
        exact hunread.elim
  exact hopened.heard point hpoint hbefore message (hsuffix.mem hmessage)

/-- A step of the receiver leaves the reports of the items below its floor true, and what
it sends for the item at hand is one. -/
structure Serves (setup : Setup) (terms : Terms) (world : Network.State)
    (point : FolderReceiver.Point) (received : FolderReceiver.ReceiverState) : Prop where
  status : world.receiver.status = .running point
  sound : point.Sound (receiverSession setup world.link)
  keeps : ∀ info index message, Opened terms info world → index < floor info point →
    terms.answers world.receiver.store info.items index message →
    terms.answers received.store info.items index message
  reports : ∀ info plan index task checksum, Opened terms info world →
    point = .file plan index task (.sendChecksum checksum) → plan.info = info →
    terms.answers received.store info.items index (report info task checksum)

/-- Nothing new is under way to the sender. -/
theorem Reported.quiet (hreported : Reported terms info world first messages)
    (hserves : Serves setup terms world point received) (hopened : Opened terms info world)
    (hmoved : ReceiverMoved info world.link point received.status link)
    (hfloor : ∀ other, received.status = .running other → world.link.backward = true →
      floor info other = floor info point) :
    Reported terms info { world with receiver := received, link := link } first messages := by
  refine ⟨?_, ?_, ?_, ?_⟩
  · refine hreported.replies.frame fun index message hindex => ?_
    exact hserves.keeps info index message hopened
      (Nat.lt_of_lt_of_le hindex (hreported.place_le point hserves.status))
  · exact fun other hother =>
      unready_of_moved hmoved (hreported.ready point hserves.status) hother
  · exact fun other hother =>
      Nat.le_trans (hreported.place_le point hserves.status) (floor_le_of_moved hmoved hother)
  · intro other hother hup
    have hbefore : world.link.backward = true := (announced_of_moved hmoved).2.1 ▸ hup
    rw [hfloor other hother hbefore]
    exact hreported.place_eq point hserves.status hbefore

/-- The checksum of the item at hand is the next message under way. -/
theorem Reported.reports (hreported : Reported terms info world first messages)
    (hserves : Serves setup terms world point received) (hopened : Opened terms info world)
    {plan : FolderReceiver.Plan} {index : Nat} {task : FileReceiver.Task} {checksum : Digest}
    (hpoint : point = .file plan index task (.sendChecksum checksum)) (hplan : plan.info = info)
    (hstatus : received.status = .running (.file plan index task (.recvChecksum checksum)))
    (hup : world.link.backward = true) :
    Reported terms info
      { world with
        receiver := received
        link := world.link.sendBackward (report info task checksum) } first
      (messages ++ [report info task checksum]) := by
  subst hpoint
  have hitem : firstItem info ≤ index :=
    firstItem_le_of_item hopened.wellFormed hserves.sound hplan rfl
  have hfloor : floor info (.file plan index task (.sendChecksum checksum)) = index :=
    max_eq_right hitem
  have hplace := hreported.place_eq _ hserves.status hup
  have hnext : first + (messages ++ [report info task checksum]).length =
      floor info (.file plan index task (.recvChecksum checksum)) := by
    have hafter : floor info (.file plan index task (.recvChecksum checksum)) = index + 1 :=
      max_eq_right (Nat.le_succ_of_le hitem)
    rw [hafter, List.length_append, ← Nat.add_assoc, hplace, hfloor]
    rfl
  refine ⟨?_, ?_, ?_, ?_⟩
  · apply Replies.concat
    · refine hreported.replies.frame fun other message hother => ?_
      exact hserves.keeps info other message hopened
        (Nat.lt_of_lt_of_le hother (hreported.place_le _ hserves.status))
    · rw [hplace, hfloor]
      exact hserves.reports info plan index task checksum hopened rfl hplan
  · intro other hother
    change received.status = _ at hother
    rw [hstatus] at hother
    cases hother
    exact id
  · intro other hother
    change received.status = _ at hother
    rw [hstatus] at hother
    cases hother
    exact Nat.le_of_eq hnext
  · intro other hother _
    change received.status = _ at hother
    rw [hstatus] at hother
    cases hother
    exact hnext

/-- Messages under way stay, and those that join them are checksums. -/
theorem reported_receiver (hreported : Reported terms info world first messages)
    (hserves : Serves setup terms world point received) (hopened : Opened terms info world)
    (hmoved : ReceiverMoved info world.link point received.status link) :
    ∃ more, link.toSender = world.link.toSender ++ more ∧
      Reported terms info { world with receiver := received, link := link } first
        (messages ++ more) := by
  have hready := hreported.ready point hserves.status
  have hquiet : link.toSender = world.link.toSender →
      (∀ other, received.status = .running other → world.link.backward = true →
        floor info other = floor info point) →
      ∃ more, link.toSender = world.link.toSender ++ more ∧
        Reported terms info { world with receiver := received, link := link } first
          (messages ++ more) := by
    intro hsame hfloor
    refine ⟨[], ?_, ?_⟩
    · rw [hsame, List.append_nil]
    · rw [List.append_nil]
      exact hreported.quiet hserves hopened hmoved hfloor
  generalize hstatus : received.status = status at hmoved hquiet
  cases hmoved with
  | halts hhalted htakes =>
      obtain ⟨rest, count, _, rfl⟩ := htakes
      refine hquiet rfl fun other hother => ?_
      rw [hother] at hhalted
      exact hhalted.elim
  | declines hpoint =>
      subst hpoint
      exact absurd trivial hready
  | goes _ _ _ hfloor htakes =>
      obtain ⟨rest, count, _, rfl⟩ := htakes
      refine hquiet rfl fun other hother _ => ?_
      cases hother
      exact hfloor
  | readies hpoint _ =>
      subst hpoint
      exact absurd trivial hready
  | reports hpoint hplan =>
      rename_i plan index task checksum
      by_cases hup : world.link.backward = true
      · refine ⟨[report info task checksum], ?_,
          hreported.reports hserves hopened hpoint hplan hstatus hup⟩
        rw [Link.sendBackward, if_pos hup]
      · refine hquiet ?_ fun other _ hbefore => absurd hbefore hup
        rw [Link.sendBackward, if_neg hup]

/-- The receiver while the sender waits for Ready. -/
theorem answered_receiver (hanswered : Answered terms info world)
    (hserves : Serves setup terms world point received) (hopened : Opened terms info world)
    (hmoved : ReceiverMoved info world.link point received.status link) :
    Answered terms info { world with receiver := received, link := link } := by
  cases hanswered with
  | cancelled _ hhalted =>
      rw [hserves.status] at hhalted
      exact hhalted.elim
  | ready hready hreported =>
      obtain ⟨more, hlink, hafter⟩ := reported_receiver hreported hserves hopened hmoved
      exact .ready (hlink.trans (congrArg (· ++ more) hready)) hafter
  | pending hnone hunready =>
      have hbefore := hunready point hserves.status
      generalize hstatus : received.status = status at hmoved
      have hrunning : ∀ other,
          ({ world with receiver := received, link := link } : Network.State).receiver.status =
            .running other → status = .running other :=
        fun other hother => hstatus.symm.trans hother
      cases hmoved with
      | halts hhalted htakes =>
          obtain ⟨rest, count, _, rfl⟩ := htakes
          refine .pending hnone fun other hother => ?_
          rw [hrunning other hother] at hhalted
          exact hhalted.elim
      | declines _ =>
          by_cases hup : world.link.backward = true
          · refine .cancelled ?_ ?_
            · change (if world.link.backward then world.link.toSender ++ [_]
                else world.link.toSender) = _
              rw [if_pos hup, hnone]
              rfl
            · change received.status.Halted
              rw [hstatus]
              trivial
          · refine .pending ?_ fun _ _ => Or.inr (Bool.eq_false_iff.mpr hup)
            change (if world.link.backward then world.link.toSender ++ [_]
              else world.link.toSender) = _
            rw [if_neg hup, hnone]
      | goes _ _ hsame _ htakes =>
          obtain ⟨rest, count, _, rfl⟩ := htakes
          refine .pending hnone fun other hother => ?_
          cases hrunning other hother
          exact hbefore.imp_left hsame.mpr
      | readies hpoint hplan =>
          rename_i plan
          by_cases hup : world.link.backward = true
          · have hfloor : firstItem info = floor info (.fileHead plan 0) :=
              (Nat.max_zero _).symm
            refine @Answered.ready _ _ _ [] ?_ ⟨trivial, ?_, ?_, ?_⟩
            · change (if world.link.backward then world.link.toSender ++ [_]
                else world.link.toSender) = _
              rw [if_pos hup, hnone]
              rfl
            · intro other hother
              cases hrunning other hother
              exact id
            · intro other hother
              cases hrunning other hother
              exact Nat.le_of_eq hfloor
            · intro other hother _
              cases hrunning other hother
              exact hfloor
          · refine .pending ?_ fun _ _ => Or.inr (Bool.eq_false_iff.mpr hup)
            change (if world.link.backward then world.link.toSender ++ [_]
              else world.link.toSender) = _
            rw [if_neg hup, hnone]
      | reports hpoint hplan =>
          have hdown : world.link.backward = false := by
            subst hpoint
            exact hbefore.resolve_left id
          refine .pending ?_ fun _ _ => Or.inr hdown
          change (if world.link.backward then world.link.toSender ++ [_]
            else world.link.toSender) = _
          rw [hdown, hnone]
          rfl

/-- The receiver on a connection that is over for the sender. -/
theorem mute_receiver (hmute : Mute world) (hserves : Serves setup terms world point received)
    (hmoved : ReceiverMoved info world.link point received.status link) :
    Mute { world with receiver := received, link := link } := by
  have hready := hmute.2 point hserves.status
  refine ⟨?_, fun other hother => unready_of_moved hmoved hready hother⟩
  change .ready ∉ link.toSender
  generalize received.status = status at hmoved
  cases hmoved with
  | halts _ htakes | goes _ _ _ _ htakes =>
      obtain ⟨rest, count, _, rfl⟩ := htakes
      exact hmute.1
  | declines hpoint | readies hpoint _ =>
      subst hpoint
      exact absurd trivial hready
  | reports _ _ =>
      rw [Link.sendBackward]
      split
      · rw [List.mem_append, List.mem_singleton]
        exact fun hmem => hmute.1 (hmem.resolve_right nofun)
      · exact hmute.1

/-- A move of the receiver keeps the standing of the connection. -/
theorem standing_receiver (hstanding : Standing terms world) {move : Move Bool}
    (hserves : Serves setup terms world point received) {input : FolderReceiver.ReceiverInput}
    (hfed : ReceiverFed world.link
      (FolderReceiver.action (receiverSession setup world.link) point) move input link)
    (hstep : (FolderReceiver.machine (receiverSession setup world.link)).step world.receiver input =
      some received) :
    Standing terms { world with receiver := received, link := link } := by
  have hmoved : ∀ {info}, Opened terms info world →
      ReceiverMoved info world.link point received.status link := fun hopened =>
    receiverMoved_of_step hopened.wellFormed hserves.sound (hopened.knows point hserves.status)
      (hopened.heard point hserves.status) hserves.status hfed hstep
  cases hstanding with
  | silent hannounced htoReceiver htoSender hunread hwaiting =>
      obtain ⟨rfl, _, hnext⟩ :=
        unread_of_step (hunread point hserves.status) htoReceiver hserves.status hfed hstep
      refine .silent hannounced htoReceiver htoSender (fun other hother => ?_) hwaiting
      rcases hnext with ⟨_, _, hstatus⟩ | ⟨_, hstatus⟩
      · cases hstatus.symm.trans hother
        trivial
      · cases hstatus.symm.trans hother
  | asked hopened hsender hfiles hfirst hchunks hanswered =>
      exact .asked (hopened.receiver hserves.status (hmoved hopened)) hsender hfiles hfirst hchunks
        (answered_receiver hanswered hserves hopened (hmoved hopened))
  | live hopened hsender htalking hreported =>
      obtain ⟨more, hlink, hafter⟩ :=
        reported_receiver hreported hserves hopened (hmoved hopened)
      refine .live (hopened.receiver hserves.status (hmoved hopened)) hsender htalking ?_
      change Reported _ _ _ _ link.toSender
      rw [hlink]
      exact hafter
  | closed hopened hwaiting hended hmemory =>
      refine .closed (hopened.receiver hserves.status (hmoved hopened)) hwaiting ?_ ?_
      · exact hended.imp_right fun hmute => mute_receiver hmute hserves (hmoved hopened)
      · intro memory hlast
        obtain ⟨hfiles, hbound⟩ := hmemory memory hlast
        refine ⟨hfiles, fun other hother => ?_⟩
        exact Nat.le_trans (hbound point hserves.status) (floor_le_of_moved (hmoved hopened) hother)

end Receiver

/-! ## Every step -/

theorem standing_connect (config : ConfigMessage) (call : Call) (attempt : Nat)
    (memory : FolderTransferState) : Standing terms (connect world config call attempt memory) := by
  refine .silent rfl rfl rfl ?_ id
  intro point hpoint
  cases hpoint
  trivial

theorem standing_senderStepped (hsize : setup.chunkSize.toNat = terms.chunkSize)
    (hstanding : Standing terms world) (hsound : Sound setup terms.good world) {move : Move FolderSender.Scan}
    (hstepped : SenderStepped setup world move next) : Standing terms next := by
  cases hstepped with
  | intro hsender hfed hstep =>
      rename_i call attempt point input link after
      have hpointSound := hsound.sender call attempt _ hsender
      have hwaited : ¬ Live point.stage →
          SenderWaited world.link point call.transferId after.status link :=
        fun hwaiting => senderWaited_of_step hpointSound hwaiting hfed hstep
      cases hstanding with
      | silent hannounced htoReceiver htoSender hunread hwaiting =>
          rw [hsender] at hwaiting
          exact standing_silent_sender hsize hannounced htoReceiver htoSender hunread hsound hsender
            (hwaited hwaiting)
      | asked hopened hasked hfiles hfirst hchunks hanswered =>
          rw [hsender] at hasked
          cases hasked
          exact standing_asked_sender hopened hfiles hfirst hchunks hanswered (hwaited id)
      | live hopened hlive htalking hreported =>
          rw [hsender] at hlive
          cases hlive
          exact standing_live_sender hopened htalking hreported
            (senderMoved_of_step hopened.wellFormed hsound.chunkSize hpointSound htalking hfed hstep)
      | closed hopened hwaiting hended hmemory =>
          rw [hsender] at hwaiting hended hmemory
          obtain ⟨hfiles, hbound⟩ := hmemory point.memory rfl
          exact standing_closed_sender hopened (hended.resolve_left id) hfiles hbound
            (hwaited hwaiting)

/-- A direction that breaks takes nothing back. -/
theorem standing_lose (hstanding : Standing terms world) {link : Link}
    (hannounced : link.announced = world.link.announced)
    (htoReceiver : link.toReceiver = world.link.toReceiver)
    (htoSender : link.toSender = world.link.toSender)
    (hbackward : link.backward = true → world.link.backward = true) :
    Standing terms { world with link := link } := by
  have hopen : ∀ {info}, Opened terms info world → Opened terms info { world with link := link } := by
    intro info hopened
    exact ⟨hannounced.trans hopened.announced, hopened.wellFormed, hopened.good,
      hopened.knows, fun point hpoint hunread => htoReceiver ▸ hopened.heard point hpoint hunread⟩
  have hreport : ∀ {info first messages}, Reported terms info world first messages →
      Reported terms info { world with link := link } first messages := by
    intro info first messages hreported
    exact ⟨hreported.replies, hreported.ready, hreported.place_le,
      fun point hpoint hup => hreported.place_eq point hpoint (hbackward hup)⟩
  cases hstanding with
  | silent hnone htoReceiverNone htoSenderNone hunread hwaiting =>
      exact .silent (hannounced.trans hnone) (htoReceiver.trans htoReceiverNone)
        (htoSender.trans htoSenderNone) hunread hwaiting
  | asked hopened hsender hfiles hfirst hchunks hanswered =>
      refine .asked (hopen hopened) hsender hfiles hfirst hchunks ?_
      cases hanswered with
      | pending hnone hunready =>
          refine .pending (htoSender.trans hnone) fun point hpoint => ?_
          exact (hunready point hpoint).imp_right fun hdown =>
            Bool.eq_false_iff.mpr fun hup => Bool.eq_false_iff.mp hdown (hbackward hup)
      | cancelled hcancel hhalted => exact .cancelled (htoSender.trans hcancel) hhalted
      | ready hready hreported => exact .ready (htoSender.trans hready) (hreport hreported)
  | live hopened hsender htalking hreported =>
      refine .live (hopen hopened) hsender htalking ?_
      change Reported _ _ _ _ link.toSender
      rw [htoSender]
      exact hreport hreported
  | closed hopened hwaiting hended hmemory =>
      refine .closed (hopen hopened) hwaiting (hended.imp_right fun hmute => ?_) hmemory
      exact ⟨fun hmem => hmute.1 (htoSender ▸ hmem), hmute.2⟩

/-- Leaving an attempt, or starting the next one on the same connection. -/
theorem standing_phase (hstanding : Standing terms world) {phase : Phase} (saved : SavedState)
    (hbefore : ∀ call attempt point, world.sender ≠ .sending call attempt (.running point))
    (hwaiting : Waiting phase) (hfinished : Finished world.sender → Finished phase)
    (hmemory : phase.memory? = world.sender.memory?) :
    Standing terms { world with sender := phase, saved := saved } := by
  cases hstanding with
  | silent hannounced htoReceiver htoSender hunread _ =>
      exact .silent hannounced htoReceiver htoSender hunread hwaiting
  | asked _ hsender | live _ hsender => exact absurd hsender (hbefore _ _ _)
  | closed hopened _ hended hbound =>
      refine .closed ⟨hopened.announced, hopened.wellFormed, hopened.good,
        hopened.knows, hopened.heard⟩ hwaiting (hended.imp hfinished id) ?_
      intro memory hlast
      exact hbound memory (hmemory ▸ hlast)

theorem waiting_afterFailure (maxAttempts : Nat) (call : Call) (attempt : Nat)
    (point : FolderSender.Point) (error : Error) :
    Waiting (afterFailure maxAttempts call attempt point error) := by
  unfold afterFailure
  dsimp only
  split
  · split <;> trivial
  · trivial

theorem finished_afterFailure (maxAttempts : Nat) {call : Call} {attempt : Nat}
    {point : FolderSender.Point} {error : Error}
    (hfinished : Finished (.sending call attempt (.failed point error))) :
    Finished (afterFailure maxAttempts call attempt point error) := by
  have hend : (FolderSender.returnedError point error).isRecoverable = false := hfinished
  unfold afterFailure
  dsimp only
  rw [if_neg (Bool.eq_false_iff.mp hend)]
  trivial

/-- Every step keeps the standing of the connection, if the receiver's keep to the terms. -/
theorem standing_step (hsize : setup.chunkSize.toNat = terms.chunkSize)
    (hstanding : Standing terms world) (hsound : Sound setup terms.good world)
    (hserves : ∀ point received input, world.receiver.status = .running point →
      (FolderReceiver.machine (receiverSession setup world.link)).step world.receiver input =
        some received → Serves setup terms world point received)
    {event : Event} (hstep : step setup world event = some next) : Standing terms next := by
  cases networkStepped_of_step hstep with
  | start _ _ _ | reconnect _ _ => exact standing_connect _ _ _ _
  | sender hsender => exact standing_senderStepped hsize hstanding hsound hsender
  | receiver hreceiver =>
      cases hreceiver with
      | intro hreceiver hfed hmachine =>
          exact standing_receiver hstanding (hserves _ _ _ hreceiver hmachine) hfed hmachine
  | loseForward => exact standing_lose hstanding rfl rfl rfl id
  | loseBackward =>
      refine standing_lose hstanding rfl rfl rfl fun hup => ?_
      cases hup
  | save outcome hsender =>
      refine standing_phase hstanding _ ?_ (waiting_afterFailure _ _ _ _ _) ?_ ?_
      · intro _ _ _ hrunning
        rw [hsender] at hrunning
        cases hrunning
      · intro hfinished
        rw [hsender] at hfinished
        exact finished_afterFailure _ hfinished
      · rw [memory?_afterFailure, memory?_of_sender hsender rfl]
  | unreachable hsender =>
      refine @standing_phase _ world hstanding _ world.saved ?_ id ?_
        (memory?_of_sender hsender rfl).symm
      · intro _ _ _ hrunning
        rw [hsender] at hrunning
        cases hrunning
      · intro hfinished
        rw [hsender] at hfinished
        exact hfinished.elim
  | finish removed hsender =>
      refine standing_phase hstanding _ ?_ trivial (fun _ => trivial)
        (memory?_of_sender hsender rfl).symm
      intro _ _ _ hrunning
      rw [hsender] at hrunning
      cases hrunning

end P2PFileTransfer.Transfer.Conversation
