import P2PFileTransfer.Transfer.Completion
import P2PFileTransfer.Transfer.Lockstep
import P2PFileTransfer.Transfer.ReceiverArithmetic

/-!
# What is waited for is sent

The two sides of a connection that holds, at any moment of any run: neither has met a
protocol error, they skip the same items, every item has as many streams as are waited
for and each goes to the call it was cut for, and no side waits for what does not come.
-/

namespace P2PFileTransfer.Transfer.Concord

open P2PFileTransfer.Foundation.ByteFile
open P2PFileTransfer.Foundation.FileSystem
open P2PFileTransfer.Foundation.FixedWidth
open P2PFileTransfer.Foundation.Process
open P2PFileTransfer.Foundation.Run
open P2PFileTransfer.Foundation.UnixPath
open P2PFileTransfer.Core
open P2PFileTransfer.Core.Protocol
open P2PFileTransfer.Core.TransferFile
open P2PFileTransfer.Core.TransferFolder
open P2PFileTransfer.Core.SendPath
open P2PFileTransfer.Core.FolderSender (HonestScan readScan returnedError)
open P2PFileTransfer.Core.FolderReceiver (alreadySent)
open P2PFileTransfer.Transfer.Completion (letterSetup lostAnnouncement)
open P2PFileTransfer.Transfer.Conversation
open P2PFileTransfer.Transfer.Honesty
open P2PFileTransfer.Transfer.Isolation (received_of_item)
open P2PFileTransfer.Transfer.Lockstep
open P2PFileTransfer.Transfer.Network
open P2PFileTransfer.Transfer.ReceiverLane
open P2PFileTransfer.Transfer.Schedule
open P2PFileTransfer.Transfer.Script
open P2PFileTransfer.Transfer.SenderLane
open P2PFileTransfer.Transfer.SingleFile (greeting)
open P2PFileTransfer.Transfer.Streams

/-! ## What is claimed of a moment -/

/-- The sender waits for a message or an acknowledgement that is not there. -/
def SenderBlocked (setup : Setup) (world : Network.State) : Prop :=
  ∃ call attempt point, world.sender = .sending call attempt (.running point) ∧
    match FolderSender.action (senderSession setup world.link call) point with
    | .receive => world.link.toSender = []
    | .awaitStopped => world.link.delivered = false
    | _ => False

/-- The receiver waits for a message or a stream that is not there. -/
def ReceiverBlocked (setup : Setup) (world : Network.State) : Prop :=
  ∃ point, world.receiver.status = .running point ∧
    match FolderReceiver.action (receiverSession setup world.link) point with
    | .receive => world.link.toReceiver = []
    | .acceptStream => world.link.opened[world.link.accepted]? = none
    | _ => False

/-- How many streams were opened for an item. -/
def openedFor (link : Link) (index : Nat) : Nat := (link.opened.map Prod.fst).count index

/-- How many streams `receive_folder` computes for an item. -/
def StreamsToReceive (setup : Setup) (info : TransferInfo) (index count : Nat) : Prop :=
  ∃ file totalChunks, info.items[index]? = some file ∧
    chunkCount file.size setup.chunkSize = .ok totalChunks ∧
    count = totalChunks - alreadySent info index

/-- The sender is done with the chunks of an item. -/
def PastChunks (index : Nat) : FolderSender.PointStatus → Prop
  | .running point =>
      index ∈ point.memory.completedFiles ∨ ∃ checksum,
        point.stage = .sendChecksum index checksum ∨ point.stage = .recvChecksum index checksum
  | .returned _ => True
  | .failed _ _ | .panicked _ _ => False

structure InStep (setup : Setup) (world : Network.State) : Prop where
  senderPlain : ∀ call attempt point error,
    world.sender = .sending call attempt (.failed point error) →
      (returnedError point error).isProtocol = false
  receiverPlain : ∀ point error, world.receiver.status = .failed point error →
    error.isProtocol = false
  /-- The receiver goes by the manifest that was announced. -/
  agreed : ∀ info point, world.link.announced = some info →
    world.receiver.status = .running point → Unread point ∨ point.Carries info
  skips : ∀ info call attempt memory index, world.link.announced = some info →
    world.sender = .sending call attempt (.running ⟨memory, .fileHead index⟩) →
      memory.files = info.items ∧ (index < memory.files.length →
        (index ∈ memory.completedFiles ↔ FolderReceiver.skips info index = true))
  opens : ∀ info call attempt status index, world.link.announced = some info →
    world.sender = .sending call attempt status → PastChunks index status →
      index < info.items.length → FolderReceiver.skips info index = false →
      StreamsToReceive setup info index (openedFor world.link index)
  expects : ∀ plan index task stage,
    world.receiver.status = .running (.file plan index task stage) →
      StreamsToReceive setup plan.info index task.streamsToReceive
  /-- The next stream belongs to the item at hand. -/
  takes : ∀ plan index task seen item raw,
    world.receiver.status = .running (.file plan index task (.acceptUni seen)) →
      world.link.opened[world.link.accepted]? = some (item, raw) → item = index
  /-- The streams of the items before have been taken. -/
  taken : ∀ plan index task stage place item raw,
    world.receiver.status = .running (.file plan index task stage) →
      world.link.opened[place]? = some (item, raw) → item < index → place < world.link.accepted
  consumed : ∀ summary, world.receiver.status = .returned summary →
    world.link.accepted = world.link.opened.length
  senderFree : SenderBlocked setup world →
    ¬ReceiverBlocked setup world ∧ ∀ summary, world.receiver.status ≠ .returned summary
  receiverFree : ReceiverBlocked setup world →
    ¬SenderBlocked setup world ∧
      ∀ call attempt memory, world.sender ≠ .sending call attempt (.returned memory)

variable {setup : Setup} {info : TransferInfo} {world : Network.State}

/-! ## Streams and items -/

theorem isProtocol_returnedError (point : FolderSender.Point) {error : Error}
    (hplain : error.isProtocol = false) : (returnedError point error).isProtocol = false := by
  unfold returnedError
  split
  · rfl
  · rfl
  · rfl
  · exact hplain

/-- The items of the streams that were opened, in order. -/
theorem items_of_follows {config : ConfigMessage} {opened : List (Nat × Bytes)}
    (hfollows : Follows setup config info opened) :
    opened.map Prod.fst =
      ((schedule setup.chunkSize.toNat info).take opened.length).map Prod.fst := by
  refine List.ext_getElem? fun place => ?_
  rw [List.getElem?_map, List.getElem?_map]
  cases hentry : opened[place]? with
  | none =>
      have hbehind := List.getElem?_eq_none_iff.mp hentry
      rw [List.getElem?_eq_none_iff.mpr (Nat.le_trans (List.length_take_le _ _) hbehind)]
      rfl
  | some entry =>
      obtain ⟨item, raw⟩ := entry
      obtain ⟨chunk, hplace, _⟩ := hfollows place item raw hentry
      rw [List.getElem?_take_of_lt (List.getElem?_eq_some_iff.mp hentry).1, hplace]
      rfl

theorem length_of_follows {config : ConfigMessage} {opened : List (Nat × Bytes)}
    (hfollows : Follows setup config info opened) :
    opened.length ≤ offset setup.chunkSize.toNat info info.items.length := by
  refine Nat.le_of_not_lt fun hlonger => ?_
  obtain ⟨chunk, hplace, _⟩ := hfollows _ _ _ (List.getElem?_eq_getElem hlonger)
  exact Nat.lt_irrefl _ (List.getElem?_eq_some_iff.mp hplace).1

theorem streamsToReceive_of_followed (hpos : setup.chunkSize ≠ 0)
    (hopen : Opened (terms setup) info world) (hflows : Flows setup world) {index : Nat}
    (hfirst : firstItem info ≤ index) (hindex : index < info.items.length)
    (hall : offset setup.chunkSize.toNat info (index + 1) ≤ world.link.opened.length) :
    StreamsToReceive setup info index (openedFor world.link index) := by
  have hinfo : WellFormed setup.chunkSize.toNat info := hopen.wellFormed
  have hfile := List.getElem?_eq_getElem hindex
  have hsize := (hopen.good _ (List.getElem_mem hindex)).1
  refine ⟨_, _, hfile, (ReceiverArithmetic.chunkCount_of_bounded hpos hsize).1, ?_⟩
  rw [openedFor, items_of_follows (hflows.follows info hopen.announced),
    count_schedule _ _ hfirst hindex hall, length_expected hinfo hfile]

theorem offset_le_sent {chunkSize : Nat} {point : FolderSender.Point} {index : Nat}
    (hindex : index ≤ nextItem point.memory) :
    offset chunkSize info index ≤ sent chunkSize info point := by
  have hbefore := offset_mono chunkSize info hindex
  have hafter := offset_mono chunkSize info (Nat.le_add_right (nextItem point.memory) 1)
  obtain ⟨memory, stage⟩ := point
  dsimp only at hbefore hafter
  cases stage <;> simp only [sent] <;> omega

theorem offset_le_of_took {accepted index : Nat} {stage : FileReceiver.Stage}
    (htook : FileTook setup info index accepted stage) :
    offset setup.chunkSize.toNat info index ≤ accepted := by
  have hafter := offset_mono setup.chunkSize.toNat info (Nat.le_add_right index 1)
  cases stage <;> simp only [FileTook] at htook <;> omega

/-! ## Both sides once the manifest is announced -/

/-- The sender and the receiver of a connection that has announced a manifest. -/
theorem exchange_of_announced (hpaired : Paired setup world)
    (hannounced : world.link.announced = some info) :
    ∃ call attempt place status, world.sender = .sending call attempt status ∧
      Spoke info place status ∧ 1 ≤ place ∧ Speaks setup info world status ∧
      Listens setup info place world := by
  cases hpaired.exchange with
  | early _ _ _ hsilent _ _ => cases hsilent.symm.trans hannounced
  | opened hother hsender hspoke hplace hspeaks hlistens =>
      cases hother.symm.trans hannounced
      exact ⟨_, _, _, _, hsender, hspoke, hplace, hspeaks, hlistens⟩

theorem announced_of_read (hpaired : Paired setup world) {point : FolderReceiver.Point}
    (hreceiver : world.receiver.status = .running point) (hread : ¬Unread point) :
    ∃ info, world.link.announced = some info ∧ point.Carries info := by
  cases hpaired.exchange with
  | early _ _ _ _ hother hunread =>
      cases hreceiver.symm.trans hother
      exact absurd hunread hread
  | opened hannounced _ _ _ _ _ =>
      have hopen := opened_of_holding hpaired.holding hannounced
      exact ⟨_, hannounced, (hopen.knows point hreceiver).resolve_left hread⟩

/-- All streams of a sender behind Ready got through. -/
theorem opened_of_live (hpaired : Paired setup world) (hannounced : world.link.announced = some info)
    {call : Call} {attempt : Nat} {point : FolderSender.Point}
    (hsender : world.sender = .sending call attempt (.running point)) (hlive : Live point.stage) :
    world.link.opened.length = sent setup.chunkSize.toNat info point := by
  have hcount := hpaired.holding.flows.counted info call attempt point hannounced hsender hlive
  obtain ⟨_, _, _, _, hother, _, _, hspeaks, _⟩ := exchange_of_announced hpaired hannounced
  cases hsender.symm.trans hother
  have hnone : lost world.link point.stage = 0 := by
    cases hstage : point.stage with
    | awaitStopped task => exact if_pos (hspeaks.2 task hstage)
    | begin | scan | sendInfo _ | recvReady | fileHead _ | openSource _ | chunkHead _ => rfl
    | readChunk _ _ _ | openStream _ _ | sendChecksum _ _ | recvChecksum _ _ | sendComplete => rfl
  rw [hnone] at hcount
  exact hcount

/-- The first item of a sender is the one of its manifest, until it finishes one. -/
theorem firstItem_le_nextItem (hpaired : Paired setup world)
    (hannounced : world.link.announced = some info) {call : Call} {attempt : Nat}
    {point : FolderSender.Point} (hsender : world.sender = .sending call attempt (.running point)) :
    Live point.stage ∨ nextItem point.memory = firstItem info := by
  obtain ⟨_, _, place, _, hother, hspoke, hplace, hspeaks, _⟩ :=
    exchange_of_announced hpaired hannounced
  cases hsender.symm.trans hother
  obtain ⟨memory, stage⟩ := point
  cases stage with
  | begin | scan | sendInfo _ =>
      have hzero : 0 = place := hspoke
      omega
  | recvReady => exact Or.inr (hspeaks.1 rfl).1
  | fileHead _ | openSource _ | chunkHead _ | readChunk _ _ _ => exact Or.inl trivial
  | openStream _ _ | awaitStopped _ | sendChecksum _ _ | recvChecksum _ _ | sendComplete =>
      exact Or.inl trivial

/-- Behind the chunks of an item all its streams have been opened. -/
theorem offset_le_opened (hpaired : Paired setup world)
    (hannounced : world.link.announced = some info) {call : Call} {attempt index : Nat}
    {status : FolderSender.PointStatus} (hsender : world.sender = .sending call attempt status)
    (hpast : PastChunks index status) (hfirst : firstItem info ≤ index)
    (hindex : index < info.items.length) :
    offset setup.chunkSize.toNat info (index + 1) ≤ world.link.opened.length := by
  cases status with
  | failed _ _ | panicked _ _ => exact hpast.elim
  | returned memory =>
      obtain ⟨_, _, _, _, hother, _, _, hspeaks, _⟩ := exchange_of_announced hpaired hannounced
      cases hsender.symm.trans hother
      exact Nat.le_trans (offset_mono _ _ hindex) (Nat.le_of_eq hspeaks.symm)
  | running point =>
      have hsound := hpaired.holding.sound.sender call attempt _ hsender
      rcases hpast with hfinished | ⟨checksum, hstage⟩
      · have hless := (mem_completedFiles_iff hsound.1.orderly).mp hfinished
        rcases firstItem_le_nextItem hpaired hannounced hsender with hlive | hsame
        · rw [opened_of_live hpaired hannounced hsender hlive]
          exact offset_le_sent hless
        · omega
      · obtain ⟨hlive, hsent⟩ : Live point.stage ∧
            sent setup.chunkSize.toNat info point =
              offset setup.chunkSize.toNat info (index + 1) := by
          obtain ⟨memory, stage⟩ := point
          obtain ⟨_, hhere⟩ := hsound
          dsimp only at hstage hhere
          rcases hstage with rfl | rfl
          · obtain ⟨_, _, hitem, _⟩ := hhere
            exact ⟨trivial, congrArg (fun item => offset _ info (item + 1)) hitem.symm⟩
          · obtain ⟨_, _, hitem, _⟩ := hhere
            exact ⟨trivial, congrArg (fun item => offset _ info (item + 1)) hitem.symm⟩
        rw [opened_of_live hpaired hannounced hsender hlive, hsent]

/-- A receiver that has returned has taken every stream. -/
theorem consumed_of_returned (hpaired : Paired setup world) {summary : FolderReceiver.TransferSummary}
    (hreturned : world.receiver.status = .returned summary) :
    world.link.accepted = world.link.opened.length := by
  cases hpaired.exchange with
  | early _ _ _ _ hreceiver _ => cases hreceiver.symm.trans hreturned
  | opened hannounced _ _ _ _ hlistens =>
      unfold Listens at hlistens
      rw [hreturned] at hlistens
      rcases hlistens with ⟨_, hall⟩ | hdeclined
      · refine Nat.le_antisymm hpaired.accepted_le ?_
        rw [hall]
        exact length_of_follows (hpaired.holding.flows.follows _ hannounced)
      · rw [hdeclined.opened, hdeclined.accepted]
        rfl

/-! ## Nobody waits in vain -/

/-- Where a receiver that is blocked stands when so many messages have been written. -/
inductive Starved (setup : Setup) (info : TransferInfo) (place : Nat) (world : Network.State)
    (point : FolderReceiver.Point) : Prop where
  | info (hunread : Unready point) (hplace : place = 0) : Starved setup info place world point
  | complete (hready : ¬Unready point) (hplace : place = info.items.length - firstItem info + 1)
      (hfloor : floor info point = info.items.length) : Starved setup info place world point
  | checksum {index : Nat} (hready : ¬Unready point) (hfirst : firstItem info ≤ index)
      (hindex : index < info.items.length) (hplace : place = index - firstItem info + 1)
      (hfloor : floor info point = index + 1) : Starved setup info place world point
  | stream {index : Nat} (hready : ¬Unready point) (hindex : index < info.items.length)
      (hshort : world.link.opened.length < offset setup.chunkSize.toNat info (index + 1))
      (hfloor : floor info point = index) : Starved setup info place world point

theorem starved_of_blocked (hpaired : Paired setup world)
    (hannounced : world.link.announced = some info) {place : Nat}
    (hlistens : Listens setup info place world) (hblocked : ReceiverBlocked setup world) :
    ∃ point, world.receiver.status = .running point ∧ Starved setup info place world point := by
  obtain ⟨point, hreceiver, hnone⟩ := hblocked
  refine ⟨point, hreceiver, ?_⟩
  have hopen := opened_of_holding hpaired.holding hannounced
  have hinfo : WellFormed setup.chunkSize.toNat info := hopen.wellFormed
  have hknows := hopen.knows point hreceiver
  have hsound := hpaired.holding.sound.receiver point (by rw [hreceiver]; rfl)
  unfold Listens at hlistens
  rw [hreceiver] at hlistens
  obtain ⟨hcount, -, -⟩ := hlistens
  cases point with
  | recvInfo =>
      have hempty : world.link.toReceiver = [] := hnone
      rw [hempty] at hcount
      exact .info trivial hcount.symm
  | recvComplete plan =>
      have hempty : world.link.toReceiver = [] := hnone
      have hplan : plan.info = info := hknows.resolve_left id
      rw [hempty] at hcount
      refine .complete id hcount.symm ?_
      change max (firstItem info) plan.info.items.length = _
      rw [hplan, max_eq_right hinfo.first_le]
  | file plan index task stage =>
      have hplan : plan.info = info := hknows.resolve_left id
      have hfirst := firstItem_le_of_item hinfo hsound hplan rfl
      have hindex := (received_of_item hsound hplan rfl).1
      cases stage with
      | recvChecksum checksum =>
          have hempty : world.link.toReceiver = [] := hnone
          rw [hempty] at hcount
          exact .checksum id hfirst hindex hcount.symm (max_eq_right (Nat.le_succ_of_le hfirst))
      | acceptUni seen =>
          refine .stream id hindex ?_ (max_eq_right hfirst)
          have hchunkSize : (receiverSession setup world.link).config.chunkSize = setup.chunkSize :=
            hpaired.holding.sound.chunkSize
          obtain ⟨_, _, _, hstreams⟩ := streamsToReceive_eq hinfo hchunkSize (hplan ▸ hsound.2.1)
          have hshort : seen.length < (expected setup.chunkSize.toNat info index).length :=
            hstreams ▸ hsound.2.2.2.2
          have htook := hpaired.holding.flows.took info hannounced
          rw [hreceiver] at htook
          have haccepted : world.link.accepted =
              offset setup.chunkSize.toNat info index + seen.length := htook.1
          have hbehind : world.link.opened.length ≤ world.link.accepted :=
            List.getElem?_eq_none_iff.mp hnone
          rw [offset_succ _ _ hfirst]
          omega
      | begin | rename | reread | createParent _ | openPartial _ | setLen _ => exact hnone.elim
      | writeChunk _ _ _ _ | sendChecksum _ => exact hnone.elim
  | prepare | decide _ | sendCancel | createOutputDir _ | sendReady _ => exact hnone.elim
  | fileHead _ _ | createParent _ _ _ => exact hnone.elim

/-- What a sender that is blocked waits for. -/
theorem waits_of_blocked (hpaired : Paired setup world) (hblocked : SenderBlocked setup world) :
    ∃ info call attempt memory, world.link.announced = some info ∧ world.link.toSender = [] ∧
      (world.sender = .sending call attempt (.running ⟨memory, .recvReady⟩) ∨
        ∃ index checksum,
          world.sender = .sending call attempt (.running ⟨memory, .recvChecksum index checksum⟩)) := by
  obtain ⟨call, attempt, point, hsender, hnone⟩ := hblocked
  cases hpaired.exchange with
  | early hother hearly _ _ _ _ =>
      cases hsender.symm.trans hother
      obtain ⟨memory, stage⟩ := point
      cases stage with
      | begin | scan | sendInfo _ => exact hnone.elim
      | recvReady | fileHead _ | openSource _ | chunkHead _ | readChunk _ _ _ => exact hearly.elim
      | openStream _ _ | awaitStopped _ | sendChecksum _ _ | recvChecksum _ _ | sendComplete =>
          exact hearly.elim
  | opened hannounced hother _ _ hspeaks _ =>
      cases hsender.symm.trans hother
      obtain ⟨memory, stage⟩ := point
      cases stage with
      | recvReady => exact ⟨_, call, attempt, memory, hannounced, hnone, Or.inl hsender⟩
      | recvChecksum index checksum =>
          exact ⟨_, call, attempt, memory, hannounced, hnone, Or.inr ⟨index, checksum, hsender⟩⟩
      | awaitStopped task =>
          have hdown : world.link.delivered = false := hnone
          rw [hspeaks.2 task rfl] at hdown
          cases hdown
      | begin | scan | sendInfo _ | fileHead _ | openSource _ | chunkHead _ => exact hnone.elim
      | readChunk _ _ _ | openStream _ _ | sendChecksum _ _ | sendComplete => exact hnone.elim

/-- A sender that waits for Ready leaves the receiver something to do. -/
theorem free_of_asked (hpaired : Paired setup world) (hannounced : world.link.announced = some info)
    {call : Call} {attempt : Nat} {memory : FolderTransferState}
    (hsender : world.sender = .sending call attempt (.running ⟨memory, .recvReady⟩))
    (hnone : world.link.toSender = []) :
    ¬ReceiverBlocked setup world ∧ ∀ summary, world.receiver.status ≠ .returned summary := by
  obtain ⟨_, _, place, _, hother, hspoke, _, hspeaks, hlistens⟩ :=
    exchange_of_announced hpaired hannounced
  cases hsender.symm.trans hother
  have hone : 1 = place := hspoke
  refine ⟨fun hblocked => ?_, fun summary hreturned => ?_⟩
  · obtain ⟨point, hreceiver, hstarved⟩ := starved_of_blocked hpaired hannounced hlistens hblocked
    have hunready : Unready point := by
      cases (hspeaks.1 rfl).2 with
      | pending _ hunready =>
          refine (hunready point hreceiver).resolve_right fun hdown => ?_
          exact Bool.false_ne_true (hdown.symm.trans hpaired.backward)
      | cancelled hcancel _ =>
          rw [hnone] at hcancel
          cases hcancel
      | ready hready _ =>
          rw [hnone] at hready
          cases hready
    cases hstarved with
    | info _ hplace => omega
    | complete hready _ _ | checksum hready _ _ _ _ | stream hready _ _ _ =>
        exact hready hunready
  · unfold Listens at hlistens
    rw [hreturned] at hlistens
    rcases hlistens with ⟨htotal, _⟩ | hdeclined
    · rw [total] at htotal
      omega
    · have hcancel := (hdeclined.cancelled call attempt _ hsender).2
      rw [hnone] at hcancel
      cases hcancel

/-- So does one that waits for a checksum. -/
theorem free_of_checksum (hpaired : Paired setup world)
    (hannounced : world.link.announced = some info) {call : Call} {attempt index : Nat}
    {memory : FolderTransferState} {checksum : Digest}
    (hsender : world.sender = .sending call attempt (.running ⟨memory, .recvChecksum index checksum⟩))
    (hnone : world.link.toSender = []) :
    ¬ReceiverBlocked setup world ∧ ∀ summary, world.receiver.status ≠ .returned summary := by
  obtain ⟨_, _, place, _, hother, hspoke, _, _, hlistens⟩ :=
    exchange_of_announced hpaired hannounced
  cases hsender.symm.trans hother
  obtain ⟨htalking, hreported⟩ := live_of_holding hpaired.holding hannounced hsender trivial
  have hsound := hpaired.holding.sound.sender call attempt _ hsender
  have hplace : nextItem memory - firstItem info + 2 = place := hspoke
  have hfirst : firstItem info ≤ nextItem memory := htalking.first_le
  have hless : nextItem memory < info.items.length := by
    obtain ⟨_, hfile, _⟩ := hsound.2
    exact htalking.files ▸ (List.getElem?_eq_some_iff.mp hfile).1
  refine ⟨fun hblocked => ?_, fun summary hreturned => ?_⟩
  · obtain ⟨point, hreceiver, hstarved⟩ := starved_of_blocked hpaired hannounced hlistens hblocked
    have hfloor := hreported.place_eq point hreceiver hpaired.backward
    rw [hnone, List.length_nil, Nat.add_zero] at hfloor
    change nextItem memory = _ at hfloor
    have hopened := opened_of_live hpaired hannounced hsender trivial
    change _ = offset _ info (nextItem memory + 1) at hopened
    cases hstarved with
    | info hunready _ => exact hreported.ready point hreceiver hunready
    | complete _ _ hend => omega
    | checksum _ _ _ hhere hend => omega
    | stream _ _ hshort hend =>
        rw [hopened, hfloor, hend] at hshort
        exact Nat.lt_irrefl _ hshort
  · unfold Listens at hlistens
    rw [hreturned] at hlistens
    rcases hlistens with ⟨htotal, _⟩ | hdeclined
    · rw [total] at htotal
      omega
    · cases (hdeclined.cancelled call attempt _ hsender).1

theorem free_of_blocked (hpaired : Paired setup world) (hblocked : SenderBlocked setup world) :
    ¬ReceiverBlocked setup world ∧ ∀ summary, world.receiver.status ≠ .returned summary := by
  obtain ⟨info, call, attempt, memory, hannounced, hnone, hasked | ⟨index, checksum, hsent⟩⟩ :=
    waits_of_blocked hpaired hblocked
  · exact free_of_asked hpaired hannounced hasked hnone
  · exact free_of_checksum hpaired hannounced hsent hnone

/-- A sender that has returned leaves the receiver all it waits for. -/
theorem free_of_returned (hpaired : Paired setup world) {call : Call} {attempt : Nat}
    {memory : FolderTransferState} (hsender : world.sender = .sending call attempt (.returned memory)) :
    ¬ReceiverBlocked setup world := by
  intro hblocked
  cases hpaired.exchange with
  | early hother _ _ _ _ _ => cases hsender.symm.trans hother
  | @opened info _ _ place _ hannounced hother hspoke _ hspeaks hlistens =>
      cases hsender.symm.trans hother
      have htotal : info.items.length - firstItem info + 2 = place := hspoke
      have hall : world.link.opened.length = offset setup.chunkSize.toNat info info.items.length :=
        hspeaks
      obtain ⟨point, hreceiver, hstarved⟩ :=
        starved_of_blocked hpaired hannounced hlistens hblocked
      cases hstarved with
      | info _ hplace => omega
      | complete _ hplace _ => omega
      | checksum _ _ hindex hplace _ => omega
      | stream _ hindex hshort _ =>
          have hlater := offset_mono setup.chunkSize.toNat info (Nat.succ_le_of_lt hindex)
          rw [hall] at hshort
          exact Nat.not_lt_of_le hlater hshort

/-! ## Every moment -/

/-- The sender skips an item exactly when the manifest lists it as finished. -/
theorem skips_of_paired (hpaired : Paired setup world)
    (hannounced : world.link.announced = some info) {call : Call} {attempt index : Nat}
    {memory : FolderTransferState}
    (hsender : world.sender = .sending call attempt (.running ⟨memory, .fileHead index⟩)) :
    memory.files = info.items ∧ (index < memory.files.length →
      (index ∈ memory.completedFiles ↔ FolderReceiver.skips info index = true)) := by
  have hinfo : WellFormed setup.chunkSize.toNat info :=
    (opened_of_holding hpaired.holding hannounced).wellFormed
  obtain ⟨⟨_, hfiles, hfirst, hhead, _⟩, _⟩ :=
    live_of_holding hpaired.holding hannounced hsender trivial
  have horderly := (hpaired.holding.sound.sender call attempt _ hsender).1.orderly
  dsimp only at hfiles hfirst hhead horderly
  refine ⟨hfiles, fun hindex => ?_⟩
  rw [mem_completedFiles_iff horderly, skips_iff_lt hinfo (hfiles ▸ hindex)]
  exact ⟨fun hless => hhead hless ▸ hless, fun hless => Nat.lt_of_lt_of_le hless hfirst⟩

/-- The streams of the items before have been taken. -/
theorem taken_of_paired (hpaired : Paired setup world) {plan : FolderReceiver.Plan}
    {index place item : Nat} {task : FileReceiver.Task} {stage : FileReceiver.Stage} {raw : Bytes}
    (hreceiver : world.receiver.status = .running (.file plan index task stage))
    (hopened : world.link.opened[place]? = some (item, raw)) (hbefore : item < index) :
    place < world.link.accepted := by
  obtain ⟨info, hannounced, _⟩ := announced_of_read hpaired hreceiver id
  obtain ⟨chunk, hplace, _⟩ :=
    hpaired.holding.flows.follows info hannounced place item raw hopened
  have htook := hpaired.holding.flows.took info hannounced
  rw [hreceiver] at htook
  calc place < offset setup.chunkSize.toNat info (item + 1) := lt_offset_of_schedule _ _ hplace
    _ ≤ offset setup.chunkSize.toNat info index := offset_mono _ _ hbefore
    _ ≤ world.link.accepted := offset_le_of_took htook

theorem expects_of_paired (hpaired : Paired setup world) {plan : FolderReceiver.Plan} {index : Nat}
    {task : FileReceiver.Task} {stage : FileReceiver.Stage}
    (hreceiver : world.receiver.status = .running (.file plan index task stage)) :
    StreamsToReceive setup plan.info index task.streamsToReceive := by
  have hsound := hpaired.holding.sound.receiver _ (by rw [hreceiver]; rfl)
  obtain ⟨_, htask, _⟩ := hsound
  obtain ⟨file, _, hfile, _⟩ := htask.receives.path
  have hchunkSize : (receiverSession setup world.link).config.chunkSize = setup.chunkSize :=
    hpaired.holding.sound.chunkSize
  refine ⟨file, task.totalChunks, hfile, ?_, htask.streams⟩
  rw [← hchunkSize]
  exact htask.totalChunks file hfile

theorem senderPlain_of_paired (hpaired : Paired setup world) {call : Call} {attempt : Nat}
    {point : FolderSender.Point} {error : Error}
    (hsender : world.sender = .sending call attempt (.failed point error)) :
    (returnedError point error).isProtocol = false := by
  cases hpaired.exchange with
  | early hother _ _ _ _ _ => cases hsender.symm.trans hother
  | opened _ hother _ _ hspeaks _ =>
      cases hsender.symm.trans hother
      exact isProtocol_returnedError point hspeaks

theorem receiverPlain_of_paired (hpaired : Paired setup world) {point : FolderReceiver.Point}
    {error : Error} (hreceiver : world.receiver.status = .failed point error) :
    error.isProtocol = false := by
  cases hpaired.exchange with
  | early _ _ _ _ hother _ => cases hreceiver.symm.trans hother
  | opened _ _ _ _ _ hlistens =>
      unfold Listens at hlistens
      rw [hreceiver] at hlistens
      exact hlistens

theorem inStep_of_paired (hpos : setup.chunkSize ≠ 0) (hpaired : Paired setup world) :
    InStep setup world := by
  refine ⟨?_, ?_, ?_, ?_, ?_, ?_, ?_, ?_, ?_, free_of_blocked hpaired, ?_⟩
  · exact fun call attempt point error hsender => senderPlain_of_paired hpaired hsender
  · exact fun point error hreceiver => receiverPlain_of_paired hpaired hreceiver
  · exact fun info point hannounced hreceiver =>
      (opened_of_holding hpaired.holding hannounced).knows point hreceiver
  · intro info call attempt memory index hannounced hsender
    exact skips_of_paired hpaired hannounced hsender
  · intro info call attempt status index hannounced hsender hpast hindex hskip
    have hopen := opened_of_holding hpaired.holding hannounced
    have hinfo : WellFormed setup.chunkSize.toNat info := hopen.wellFormed
    have hfirst : firstItem info ≤ index := by
      refine Nat.le_of_not_lt fun hless => ?_
      rw [(skips_iff_lt hinfo hindex).mpr hless] at hskip
      cases hskip
    exact streamsToReceive_of_followed hpos hopen hpaired.holding.flows hfirst hindex
      (offset_le_opened hpaired hannounced hsender hpast hfirst hindex)
  · exact fun plan index task stage hreceiver => expects_of_paired hpaired hreceiver
  · intro plan index task seen item raw hreceiver hopened
    obtain ⟨info, hannounced, _⟩ := announced_of_read hpaired hreceiver id
    exact (plain_stream hpaired hannounced hreceiver hopened).1
  · exact fun plan index task stage place item raw hreceiver hopened hbefore =>
      taken_of_paired hpaired hreceiver hopened hbefore
  · exact fun summary hreturned => consumed_of_returned hpaired hreturned
  · intro hblocked
    refine ⟨fun hother => (free_of_blocked hpaired hother).1 hblocked, ?_⟩
    exact fun call attempt memory hsender => free_of_returned hpaired hsender hblocked

/-- Whatever came before, on a connection that holds the two sides stay in step. -/
theorem in_step (hdecode : Invertible setup.codec) (hpos : setup.chunkSize ≠ 0) {source : Store}
    {before : Network.State} (hreached : Reached setup source before) {event : Event}
    (hconnects : (event.resumes before).isSome = true)
    (hconnect : step { setup with source := source } before event = some world)
    (hframe : ∀ call attempt memory,
      world.sender = .sending call attempt (.running ⟨memory, .begin⟩) → memory.files ≠ [] →
        FitsFrame memory call.transferId)
    {events : List Event}
    (hsmooth : Along (step { setup with source := source }) (Smooth { setup with source := source })
      world events)
    {final : Network.State}
    (hrun : Network.run { setup with source := source } world events = some final) :
    InStep { setup with source := source } final := by
  have hsound := sound_of_reached hdecode hreached
  obtain ⟨config, call, attempt, memory, rfl, hchunkSize, hmemory⟩ :=
    connected_of_step hsound hconnects hconnect
  have hstart := paired_connect hsound hchunkSize attempt hmemory (hframe call attempt memory rfl)
  refine inStep_of_paired hpos ?_
  exact invariant_along (Paired { setup with source := source })
    (fun state event next hpaired hallowed hstep => paired_step hdecode hpaired hallowed hstep)
    hsmooth hstart hrun

/-! ## A file of two chunks, and an empty folder -/

/-- The second connection for the file `in/g`, turn by turn. -/
def letterTurns : List Event :=
  List.replicate 2 (.sender .proceed) ++ List.replicate 2 (.receiver .proceed) ++
    [.receiver (.answer true)] ++ List.replicate 2 (.receiver .proceed) ++
    List.replicate 13 (.sender .proceed) ++ List.replicate 15 (.receiver .proceed) ++
    List.replicate 3 (.sender .proceed)

theorem smooth_letterTurns (world : Network.State) :
    ∀ event ∈ letterTurns, Smooth letterSetup world event := by
  intro event hevent
  simp only [letterTurns, List.mem_append, List.mem_singleton, List.mem_replicate] at hevent
  rcases hevent with (((((⟨_, rfl⟩ | ⟨_, rfl⟩) | rfl) | ⟨_, rfl⟩) | ⟨_, rfl⟩) | ⟨_, rfl⟩) | ⟨_, rfl⟩
  all_goals trivial

theorem scans_letter : Scans letterSetup (.file [103] 2 0) := by
  refine ⟨?_, ?_, ?_⟩
  · intro found hfound file hfile
    cases hfound
    rw [List.mem_singleton.mp hfile]
    exact ⟨greeting, rfl, rfl⟩
  · intro found hfound file hfile
    cases hfound
    rw [List.mem_singleton.mp hfile]
    decide
  · intro name size modified hname
    cases hname
    exact ⟨by decide, by decide, by decide, by decide⟩

theorem scansEvent_lostAnnouncement :
    ∀ event ∈ lostAnnouncement.dropLast, ScansEvent letterSetup event := by
  intro event hevent
  simp only [lostAnnouncement, List.dropLast, List.mem_cons, List.not_mem_nil, or_false] at hevent
  rcases hevent with rfl | rfl | rfl | rfl | rfl | rfl | rfl
  all_goals first | exact scans_letter | trivial

/-- The first connection breaks while the manifest is under way. -/
theorem in_step_letter :
    ∃ before world final,
      Network.run letterSetup (initial letterSetup fun _ => none) lostAnnouncement.dropLast =
        some before ∧
      step letterSetup before (.reconnect true) = some world ∧
      Network.run letterSetup world letterTurns = some final ∧ InStep letterSetup final := by
  obtain ⟨before, world, call, attempt, memory, final, hbefore, hconnects, hconnect, hsender, hframe,
      hrun⟩ : ∃ before world call attempt memory final,
      Network.run letterSetup (initial letterSetup fun _ => none) lostAnnouncement.dropLast =
        some before ∧
      ((Event.reconnect true).resumes before).isSome = true ∧
      step letterSetup before (.reconnect true) = some world ∧
      world.sender = .sending call attempt (.running ⟨memory, .begin⟩) ∧
      FitsFrame memory call.transferId ∧
      Network.run letterSetup world letterTurns = some final :=
    ⟨_, _, _, _, _, _, rfl, rfl, rfl, rfl, rfl, rfl⟩
  refine ⟨before, world, final, hbefore, hconnect, hrun, ?_⟩
  refine in_step (fun data _ encoded hencode => by cases hencode; rfl) (by decide)
    (reached_of_run scansEvent_lostAnnouncement hbefore) hconnects hconnect ?_
    (along_of_forall smooth_letterTurns world) hrun
  intro other again another hother _
  cases hsender.symm.trans hother
  exact hframe

/-- An empty folder is refused with a protocol error before anything is sent. -/
theorem empty_folder_refused :
    ∃ world final call attempt point error,
      step letterSetup (initial letterSetup fun _ => none)
        (.start { ConfigMessage.default with compressionEnabled := false, chunkSize := 1 }
          (FixedBytes.filled 16 0) (FixedBytes.filled 16 1) 0) = some world ∧
      Network.run letterSetup world
        [.sender .proceed, .sender (.answer (.folder [105, 110] []))] = some final ∧
      final.sender = .sending call attempt (.failed point error) ∧
      (returnedError point error).isProtocol = true ∧ ¬InStep letterSetup final := by
  obtain ⟨world, final, call, attempt, point, error, hstart, hrun, hsender, hprotocol⟩ :
      ∃ world final call attempt point error,
        step letterSetup (initial letterSetup fun _ => none)
          (.start { ConfigMessage.default with compressionEnabled := false, chunkSize := 1 }
            (FixedBytes.filled 16 0) (FixedBytes.filled 16 1) 0) = some world ∧
        Network.run letterSetup world
          [.sender .proceed, .sender (.answer (.folder [105, 110] []))] = some final ∧
        final.sender = .sending call attempt (.failed point error) ∧
        (returnedError point error).isProtocol = true :=
    ⟨_, _, _, _, _, _, rfl, rfl, rfl, rfl⟩
  refine ⟨world, final, call, attempt, point, error, hstart, hrun, hsender, hprotocol, ?_⟩
  intro hstep
  rw [hstep.senderPlain call attempt point error hsender] at hprotocol
  cases hprotocol

end P2PFileTransfer.Transfer.Concord
