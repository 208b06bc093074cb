import P2PFileTransfer.Transfer.Concord

/-!
# What a transfer leaves on its connection

Once the files have been sent or declined, nothing is under way to the sender any more, and
once the receiver's call has returned, nothing is under way to the receiver and it has taken
every stream.  So a connection that holds can carry the next transfer.
-/

namespace P2PFileTransfer.Transfer.Leftovers

open P2PFileTransfer.Foundation
open P2PFileTransfer.Foundation.ByteFile
open P2PFileTransfer.Foundation.FileSystem
open P2PFileTransfer.Foundation.Process
open P2PFileTransfer.Foundation.Run
open P2PFileTransfer.Core
open P2PFileTransfer.Core.Protocol
open P2PFileTransfer.Core.TransferFile
open P2PFileTransfer.Core.TransferFolder
open P2PFileTransfer.Core.SendPath
open P2PFileTransfer.Core.FolderSender (readScan returnedError)
open P2PFileTransfer.Transfer.Completion (letterSetup lostAnnouncement)
open P2PFileTransfer.Transfer.Concord
open P2PFileTransfer.Transfer.Conversation
open P2PFileTransfer.Transfer.Honesty
open P2PFileTransfer.Transfer.Isolation (received_of_item)
open P2PFileTransfer.Transfer.Lockstep
open P2PFileTransfer.Transfer.Network
open P2PFileTransfer.Transfer.ReceiverLane
open P2PFileTransfer.Transfer.Schedule
open P2PFileTransfer.Transfer.Script
open P2PFileTransfer.Transfer.SenderLane
open P2PFileTransfer.Transfer.Streams

variable {setup : Setup} {info : TransferInfo} {world next : Network.State}

/-! ## Errors of a sender at work -/

/-- Behind Ready a sender never takes what it meets for a rejection. -/
theorem ne_cancelled_of_resume {session : FolderSender.Session} {point last : FolderSender.Point}
    {reply : Reply Message FolderSender.Scan} {error : Error}
    (hfits : (FolderSender.action session point).Fits reply) (hlive : Live point.stage)
    (hfailed : FolderSender.resume session point reply = .failed last error) :
    error ≠ .cancelled := by
  obtain ⟨memory, stage⟩ := point
  cases stage with
  | begin | scan | sendInfo _ | recvReady => exact hlive.elim
  | openStream _ _ | awaitStopped _ | sendChecksum _ _ | sendComplete =>
      cases reply <;> first | exact hfits.elim | cases hfailed
  | fileHead index =>
      cases reply <;> try exact hfits.elim
      change FolderSender.visitFile memory index = _ at hfailed
      unfold FolderSender.visitFile at hfailed
      split at hfailed
      · split at hfailed <;> cases hfailed
      · cases hfailed
  | openSource index =>
      cases reply <;> try exact hfits.elim
      rename_i value
      cases value with
      | unit | bytes _ => cases hfailed
      | size fileSize =>
          change FolderSender.openReader session memory index fileSize = _ at hfailed
          rw [FolderSender.openReader] at hfailed
          cases hcount : chunkCount fileSize session.config.chunkSize <;> rw [hcount] at hfailed <;>
            cases hfailed
  | chunkHead task =>
      cases reply <;> try exact hfits.elim
      change FolderSender.visitChunk session memory task = _ at hfailed
      unfold FolderSender.visitChunk at hfailed
      split at hfailed
      · cases hmul : FixedWidth.mul 64 task.next session.config.chunkSize.toNat with
        | error fault =>
            rw [hmul] at hfailed
            cases hfailed
        | ok position =>
            rw [hmul] at hfailed
            change Status.ofChecked _ (FixedWidth.sub task.fileSize position) _ = _ at hfailed
            cases hsub : FixedWidth.sub task.fileSize position <;> rw [hsub] at hfailed <;>
              cases hfailed
      · cases hfailed
  | readChunk task position length =>
      cases reply <;> try exact hfits.elim
      rename_i value
      cases value with
      | unit | size _ => cases hfailed
      | bytes data =>
          change FolderSender.handleChunk session memory task position length data = _ at hfailed
          rw [FolderSender.handleChunk] at hfailed
          split at hfailed
          · cases hfailed
          · cases hprepare : prepareChunk session.codec task.compressor data with
            | ok prepared =>
                rw [hprepare] at hfailed
                cases hfailed
            | error other =>
                rw [hprepare] at hfailed
                cases hfailed
                obtain ⟨detail, rfl⟩ := compression_of_prepareChunk hprepare
                rintro ⟨⟩
  | recvChecksum index checksum =>
      cases reply <;> try exact hfits.elim
      rename_i message
      change FolderSender.compareChecksum memory index checksum message = _ at hfailed
      unfold FolderSender.compareChecksum at hfailed
      split at hfailed
      · split at hfailed <;> cases hfailed
        rintro ⟨⟩
      · cases hfailed
        rintro ⟨⟩

theorem ne_cancelled_of_step {session : FolderSender.Session} {point : FolderSender.Point}
    {source : Store} {link after : Link} {move : Move FolderSender.Scan}
    (hmove : ∀ error written, move ≠ .fail error written) (hlive : Live point.stage)
    {input : FolderSender.SenderInput} {sent : FolderSender.SenderState}
    (hfed : SenderFed link point (FolderSender.action session point) move input after)
    (hstep : (FolderSender.machine session).step ⟨.running point, source⟩ input = some sent)
    {last : FolderSender.Point} {error : Error} (hfailed : sent.status = .failed last error) :
    error ≠ .cancelled := by
  cases stepped_of_step hstep with
  | fail _ _ _ => exact absurd (fail_of_senderFed hfed).1 (hmove _ _)
  | resume hstatus hreply hnext =>
      cases hstatus
      rw [hnext] at hfailed
      exact ne_cancelled_of_resume (Action.fits_of_reply hreply) hlive hfailed

/-! ## A step of the sender -/

/-- What a step of the sender is, on a connection that holds. -/
inductive Turn (setup : Setup) (world : Network.State) (call : Call) (point : FolderSender.Point)
    (move : Move FolderSender.Scan) : FolderSender.PointStatus → Link → Prop where
  | prepares {other : FolderSender.Point} {link : Link} (hearly : Early point.stage) :
      Turn setup world call point move (.running other) link
  | hears {memory : FolderTransferState} {message : Message} {rest : List Message}
      (hpoint : point = ⟨memory, .recvReady⟩) (hhead : world.link.toSender = message :: rest) :
      Turn setup world call point move (FolderSender.readReady memory message)
        { world.link with toSender := rest }
  | talks {info : TransferInfo} {status : FolderSender.PointStatus} {link : Link}
      (hannounced : world.link.announced = some info) (hlive : Live point.stage)
      (hmoved : SenderMoved setup info call world.link point move status link)
      (herror : ∀ last error, status = .failed last error → error ≠ .cancelled) :
      Turn setup world call point move status link

theorem not_live_of_early {stage : FolderSender.Stage} (hearly : Early stage) : ¬Live stage := by
  intro hlive
  cases stage with
  | begin | scan | sendInfo _ => exact hlive
  | recvReady | fileHead _ | openSource _ | chunkHead _ | readChunk _ _ _ => exact hearly
  | openStream _ _ | awaitStopped _ | sendChecksum _ _ | recvChecksum _ _ | sendComplete =>
      exact hearly

/-- Behind Ready the manifest is out. -/
theorem announced_of_live (hpaired : Paired setup world) {call : Call} {attempt : Nat}
    {point : FolderSender.Point} (hsender : world.sender = .sending call attempt (.running point))
    (hlive : Live point.stage) : ∃ info, world.link.announced = some info := by
  cases hpaired.exchange with
  | early hother hearly _ _ _ _ =>
      cases hsender.symm.trans hother
      exact absurd hlive (not_live_of_early hearly)
  | opened hannounced _ _ _ _ _ => exact ⟨_, hannounced⟩

/-- Up to the manifest a step that does not fail leads on. -/
theorem running_of_early {call : Call} {attempt : Nat} {memory : FolderTransferState}
    {stage : FolderSender.Stage}
    (hsender : world.sender = .sending call attempt (.running ⟨memory, stage⟩))
    (hpoint : FolderSender.SoundStatus (senderSession setup world.link call) setup.source
      (.running ⟨memory, stage⟩))
    (hearly : Early stage)
    (hfits : stage = .begin → memory.files ≠ [] → FitsFrame memory call.transferId)
    {move : Move FolderSender.Scan} (hsmooth : Smooth setup world (.sender move))
    {input : FolderSender.SenderInput} {link : Link} {after : FolderSender.SenderState}
    (hfed : SenderFed world.link ⟨memory, stage⟩
      (FolderSender.action (senderSession setup world.link call) ⟨memory, stage⟩) move input link)
    (hstep : (FolderSender.machine (senderSession setup world.link call)).step
      ⟨.running ⟨memory, stage⟩, setup.source⟩ input = some after) :
    ∃ other, after.status = .running other := by
  have hmove := smooth_sender hsmooth
  by_cases hstage : stage = .begin ∨ stage = .scan
  · have hscan : ∀ scan, move = .answer scan → ∃ found, readScan scan = .ok found ∧
        FitsFrame (scanned (senderSession setup world.link call) found)
          (senderSession setup world.link call).transferId := by
      rintro scan rfl
      obtain ⟨_, found, hfound, hframe⟩ := hsmooth
      exact ⟨found, hfound, hframe call attempt _ hsender⟩
    have hresumed : stage = .begin → memory.files ≠ [] →
        FitsFrame memory (senderSession setup world.link call).transferId := hfits
    obtain ⟨_, other, hother, _⟩ := prepares_of_step hstage hresumed hmove hscan hfed hstep
    exact ⟨other, hother⟩
  · cases stage with
    | begin | scan => simp at hstage
    | sendInfo resumeFrom => exact ⟨_, (announces_of_step hpoint.2.2.1 hmove hfed hstep).2⟩
    | recvReady | fileHead _ | openSource _ | chunkHead _ | readChunk _ _ _ => exact hearly.elim
    | openStream _ _ | awaitStopped _ | sendChecksum _ _ | recvChecksum _ _ | sendComplete =>
        exact hearly.elim

theorem turn_of_step (hpaired : Paired setup world) {call : Call} {attempt : Nat}
    {point : FolderSender.Point} (hsender : world.sender = .sending call attempt (.running point))
    {move : Move FolderSender.Scan} (hsmooth : Smooth setup world (.sender move))
    {input : FolderSender.SenderInput} {link : Link} {after : FolderSender.SenderState}
    (hfed : SenderFed world.link point
      (FolderSender.action (senderSession setup world.link call) point) move input link)
    (hstep : (FolderSender.machine (senderSession setup world.link call)).step
      ⟨.running point, setup.source⟩ input = some after) :
    Turn setup world call point move after.status link := by
  have hmove := smooth_sender hsmooth
  have hpoint := hpaired.holding.sound.sender call attempt _ hsender
  by_cases hlive : Live point.stage
  · obtain ⟨info, hannounced⟩ := announced_of_live hpaired hsender hlive
    have hopened := opened_of_holding hpaired.holding hannounced
    obtain ⟨htalking, _⟩ := live_of_holding hpaired.holding hannounced hsender hlive
    refine .talks hannounced hlive (senderMoved_of_step hopened.wellFormed
      hpaired.holding.sound.chunkSize hpoint htalking hfed hstep) ?_
    exact fun last error hfailed => ne_cancelled_of_step hmove hlive hfed hstep hfailed
  · obtain ⟨memory, stage⟩ := point
    by_cases hready : stage = .recvReady
    · subst hready
      obtain ⟨message, hhead, hlink, hstatus⟩ := answers_of_step hmove hfed hstep
      rw [hstatus, hlink]
      exact .hears rfl hhead
    · cases hpaired.exchange with
      | opened _ hother hspoke hplace _ _ =>
          cases hsender.symm.trans hother
          cases stage with
          | begin | scan | sendInfo _ =>
              have hzero : 0 = _ := hspoke
              exact absurd hplace (hzero ▸ Nat.not_succ_le_zero 0)
          | recvReady => exact absurd rfl hready
          | fileHead _ | openSource _ | chunkHead _ | readChunk _ _ _ => exact absurd trivial hlive
          | openStream _ _ | awaitStopped _ | sendChecksum _ _ | recvChecksum _ _ | sendComplete =>
              exact absurd trivial hlive
      | early hother hearly hfits hsilent hreceiver hunread =>
          cases hsender.symm.trans hother
          obtain ⟨next, hnext⟩ :=
            running_of_early hsender hpoint hearly hfits hsmooth hfed hstep
          rw [hnext]
          exact .prepares hearly

/-! ## A connection that is clear -/

/-- Reports of items that the manifest lists. -/
def listed (setup : Setup) : Terms where
  chunkSize := setup.chunkSize.toNat
  good := Acceptable
  answers := fun _ items index message =>
    index < items.length ∧ ∃ peer, message = .fileChecksum peer
  isChecksum := fun _ _ _ _ hanswers => hanswers.2

/-- The call sent the files, or they were declined. -/
def Served : FolderSender.PointStatus → Prop
  | .returned _ => True
  | .failed point error => returnedError point error = .cancelled
  | .running _ | .panicked _ _ => False

/-- Nothing is under way to the sender, and the receiver is past Ready or over. -/
structure Hushed (world : Network.State) : Prop where
  empty : world.link.toSender = []
  ready : ∀ point, world.receiver.status = .running point → ¬Unready point

/-- What has been read of the script and what is under way. -/
def Within (info : TransferInfo) (world : Network.State) : Prop :=
  ∀ point, world.receiver.status = .running point →
    heard info point + world.link.toReceiver.length ≤ total info ∧
      (Unready point → heard info point + world.link.toReceiver.length ≤ 1)

structure Cleared (setup : Setup) (world : Network.State) : Prop where
  paired : Paired setup world
  standing : Standing (listed setup) world
  served : ∀ call attempt status, world.sender = .sending call attempt status → Served status →
    Hushed world
  declined : ∀ call attempt point error,
    world.sender = .sending call attempt (.failed point error) →
    returnedError point error = .cancelled → world.receiver.status.Halted
  within : ∀ info, world.link.announced = some info → Within info world
  received : ∀ summary, world.receiver.status = .returned summary → world.link.toReceiver = []

theorem two_le_total (info : TransferInfo) : 2 ≤ total info := Nat.le_add_left 2 _

/-- A sender that is not over has something left to say. -/
theorem said_lt_total {session : FolderSender.Session} {source : Store} {point : FolderSender.Point}
    (hsound : FolderSender.SoundStatus session source (.running point))
    (htalking : Live point.stage → Talking info point) : said info point < total info := by
  obtain ⟨memory, stage⟩ := point
  obtain ⟨hmemory, hstage⟩ := hsound
  have hle : nextItem memory ≤ memory.files.length := hmemory.orderly.finished_le
  cases stage with
  | begin | scan | sendInfo _ => exact Nat.lt_of_lt_of_le Nat.zero_lt_two (two_le_total info)
  | recvReady => exact Nat.lt_of_lt_of_le Nat.one_lt_two (two_le_total info)
  | recvChecksum index checksum =>
      obtain ⟨file, hfile, _, _⟩ := hstage
      have hless : nextItem memory < memory.files.length := (List.getElem?_eq_some_iff.mp hfile).1
      have hfirst : firstItem info ≤ nextItem memory := (htalking trivial).first_le
      rw [(htalking trivial).files] at hless
      change nextItem memory - firstItem info + 2 < info.items.length - firstItem info + 2
      omega
  | fileHead _ | openSource _ | chunkHead _ | readChunk _ _ _ | openStream _ _ =>
      rw [(htalking trivial).files] at hle
      change nextItem memory - firstItem info + 1 < info.items.length - firstItem info + 2
      omega
  | awaitStopped _ | sendChecksum _ _ | sendComplete =>
      rw [(htalking trivial).files] at hle
      change nextItem memory - firstItem info + 1 < info.items.length - firstItem info + 2
      omega

theorem place_lt_total (hpaired : Paired setup world)
    (hannounced : world.link.announced = some info) {call : Call} {attempt : Nat}
    {point : FolderSender.Point} (hsender : world.sender = .sending call attempt (.running point)) :
    said info point < total info :=
  said_lt_total (hpaired.holding.sound.sender call attempt _ hsender) fun hlive =>
    (live_of_holding hpaired.holding hannounced hsender hlive).1

/-- As long as the sender's call has not broken off, no more is under way than the script has. -/
theorem within_of_paired (hpaired : Paired setup world)
    (hannounced : world.link.announced = some info) {call : Call} {attempt : Nat}
    {status : FolderSender.PointStatus} (hsender : world.sender = .sending call attempt status)
    (hstatus : (∃ point, status = .running point) ∨ ∃ memory, status = .returned memory)
    (hserved : Served status → Hushed world) : Within info world := by
  obtain ⟨_, _, place, _, hother, hspoke, hplace, hspeaks, hlistens⟩ :=
    exchange_of_announced hpaired hannounced
  cases hsender.symm.trans hother
  intro listener hreceiver
  unfold Listens at hlistens
  rw [hreceiver] at hlistens
  rw [hlistens.1]
  rcases hstatus with ⟨point, rfl⟩ | ⟨memory, rfl⟩
  · have hsaid : said info point = place := hspoke
    have hless := place_lt_total hpaired hannounced hsender
    refine ⟨by omega, fun hunready => ?_⟩
    obtain ⟨hstage, _⟩ :=
      asked_of_unready hpaired hannounced hsender hspoke hplace hspeaks hreceiver hunready
    obtain ⟨memory, stage⟩ := point
    cases hstage
    exact Nat.le_of_eq hsaid.symm
  · have htotal : total info = place := hspoke
    exact ⟨Nat.le_of_eq htotal.symm, fun hunready =>
      absurd hunready ((hserved trivial).ready listener hreceiver)⟩

theorem reported_of_live {terms : Terms} (hstanding : Standing terms world) {call : Call}
    {attempt : Nat} {point : FolderSender.Point}
    (hsender : world.sender = .sending call attempt (.running point)) (hlive : Live point.stage) :
    ∃ info, world.link.announced = some info ∧
      Reported terms info world (nextItem point.memory) world.link.toSender := by
  cases hstanding with
  | silent _ _ _ _ hwaiting | closed _ hwaiting _ _ =>
      rw [hsender] at hwaiting
      exact absurd hlive hwaiting
  | asked _ hasked _ _ _ _ =>
      rw [hsender] at hasked
      cases hasked
      exact hlive.elim
  | live hopened hhere _ hreported =>
      rw [hsender] at hhere
      cases hhere
      exact ⟨_, hopened.announced, hreported⟩

/-- No item is reported behind the last one. -/
theorem eq_nil_of_reported {messages : List Message}
    (hreported : Reported (listed setup) info world info.items.length messages) :
    messages = [] := by
  have hreplies := hreported.replies
  cases messages with
  | nil => rfl
  | cons message rest => exact absurd hreplies.1.1 (Nat.lt_irrefl _)

/-- The end of a call that went well finds the connection quiet. -/
theorem hushed_of_turn (hcleared : Cleared setup world) {call : Call} {attempt : Nat}
    {point : FolderSender.Point} (hsender : world.sender = .sending call attempt (.running point))
    {move : Move FolderSender.Scan} {status : FolderSender.PointStatus} {link : Link}
    (hturn : Turn setup world call point move status link) (hserved : Served status) :
    (link.toSender = [] ∧
        ∀ listener, world.receiver.status = .running listener → ¬Unready listener) ∧
      ∀ last error, status = .failed last error → world.receiver.status.Halted := by
  cases hturn with
  | prepares _ => exact hserved.elim
  | hears hpoint hhead =>
      rename_i memory message rest
      subst hpoint
      have hcancel : message = .cancel := by
        unfold FolderSender.readReady at hserved
        split at hserved
        · exact hserved.elim
        · rfl
        · cases hserved
      subst hcancel
      cases hcleared.paired.exchange with
      | early hother hearly _ _ _ _ =>
          cases hsender.symm.trans hother
          exact hearly.elim
      | opened _ hother _ _ hspeaks _ =>
          cases hsender.symm.trans hother
          cases (hspeaks.1 rfl).2 with
          | pending hnone _ =>
              rw [hnone] at hhead
              cases hhead
          | ready hready _ =>
              rw [hready] at hhead
              cases hhead
          | cancelled hcancel hhalted =>
              rw [hcancel] at hhead
              cases hhead
              refine ⟨⟨rfl, fun listener hlistener => ?_⟩, fun _ _ _ => hhalted⟩
              rw [hlistener] at hhalted
              exact hhalted.elim
  | talks hannounced hlive hmoved herror =>
      obtain ⟨other, hother, hreported⟩ := reported_of_live hcleared.standing hsender hlive
      cases hannounced.symm.trans hother
      cases hmoved with
      | panics | goes _ _ _ | opens _ _ _ _ _ | sends _ _ | confirms _ _ _ _ _ =>
          exact hserved.elim
      | @fails error _ _ _ =>
          have hsame : returnedError point error = error := by
            obtain ⟨memory, stage⟩ := point
            cases stage <;> first | exact hlive.elim | rfl
          exact absurd (hsame.symm.trans hserved) (herror _ _ rfl)
      | completes _ hall =>
          rw [hall] at hreported
          refine ⟨⟨eq_nil_of_reported hreported, hreported.ready⟩, fun _ _ hfailed => ?_⟩
          cases hfailed

/-- A sender that breaks off leaves the receiver what was under way. -/
theorem kept_of_turn {call : Call} {point : FolderSender.Point} {move : Move FolderSender.Scan}
    {status : FolderSender.PointStatus} {link : Link}
    (hturn : Turn setup world call point move status link)
    (hbroken : ¬((∃ other, status = .running other) ∨ ∃ memory, status = .returned memory)) :
    link.toReceiver = world.link.toReceiver ∧ link.announced = world.link.announced := by
  cases hturn with
  | prepares _ => exact absurd (Or.inl ⟨_, rfl⟩) hbroken
  | hears _ _ => exact ⟨rfl, rfl⟩
  | talks _ _ hmoved _ =>
      cases hmoved with
      | fails hlink _ =>
          rcases hlink with rfl | ⟨_, _, _, rfl⟩
          · exact ⟨rfl, rfl⟩
          · exact ⟨rfl, rfl⟩
      | panics => exact ⟨rfl, rfl⟩
      | goes _ _ _ | opens _ _ _ _ _ | sends _ _ | confirms _ _ _ _ _ =>
          exact absurd (Or.inl ⟨_, rfl⟩) hbroken
      | completes _ _ => exact absurd (Or.inr ⟨_, rfl⟩) hbroken

theorem within_kept (hwithin : Within info world) (phase : Phase) {link : Link}
    (hkept : link.toReceiver = world.link.toReceiver) :
    Within info { world with sender := phase, link := link } := by
  intro listener hreceiver
  change heard info listener + link.toReceiver.length ≤ _ ∧
    (_ → heard info listener + link.toReceiver.length ≤ 1)
  rw [hkept]
  exact hwithin listener hreceiver

/-- Once the receiver's call has returned, a sender can only hear that it was declined. -/
theorem quiet_of_returned (hcleared : Cleared setup world) {call : Call} {attempt : Nat}
    {point : FolderSender.Point} (hsender : world.sender = .sending call attempt (.running point))
    {summary : FolderReceiver.TransferSummary}
    (hreturned : world.receiver.status = .returned summary)
    {move : Move FolderSender.Scan} {status : FolderSender.PointStatus} {link : Link}
    (hturn : Turn setup world call point move status link) : link.toReceiver = [] := by
  have hready : point.stage = .recvReady := by
    cases hcleared.paired.exchange with
    | early _ _ _ _ hreceiver _ => cases hreceiver.symm.trans hreturned
    | opened hannounced hother hspoke _ _ hlistens =>
        cases hsender.symm.trans hother
        unfold Listens at hlistens
        rw [hreturned] at hlistens
        rcases hlistens with ⟨htotal, _⟩ | hdeclined
        · have hsaid : said _ point = _ := hspoke
          have hless := place_lt_total hcleared.paired hannounced hsender
          omega
        · exact (hdeclined.cancelled call attempt point hsender).1
  cases hturn with
  | prepares hearly =>
      rw [hready] at hearly
      exact hearly.elim
  | hears _ _ => exact hcleared.received summary hreturned
  | talks _ hlive _ _ =>
      rw [hready] at hlive
      exact hlive.elim

theorem listed_serves (hsound : Sound setup Acceptable world) {point : FolderReceiver.Point}
    (hreceiver : world.receiver.status = .running point) (received : FolderReceiver.ReceiverState) :
    Serves setup (listed setup) world point received := by
  have hpoint : point.Sound (receiverSession setup world.link) :=
    hsound.receiver point (by rw [hreceiver]; rfl)
  refine ⟨hreceiver, hpoint, fun _ _ _ _ _ hanswers => hanswers, ?_⟩
  rintro info plan index task checksum _ rfl hplan
  exact ⟨(received_of_item hpoint hplan rfl).1, _, rfl⟩

theorem cleared_sender (hcleared : Cleared setup world) {move : Move FolderSender.Scan}
    (hsmooth : Smooth setup world (.sender move)) (hstepped : SenderStepped setup world move next)
    (hpaired : Paired setup next) (hstanding : Standing (listed setup) next) :
    Cleared setup next := by
  cases hstepped with
  | @intro call attempt point input link after hsender hfed hstep =>
      have hturn := turn_of_step hcleared.paired hsender hsmooth hfed hstep
      have hserved : Served after.status →
          Hushed { world with sender := .sending call attempt after.status, link := link } ∧
            ∀ last error, after.status = .failed last error → world.receiver.status.Halted := by
        intro hhere
        obtain ⟨⟨hempty, hready⟩, hhalted⟩ := hushed_of_turn hcleared hsender hturn hhere
        exact ⟨⟨hempty, hready⟩, hhalted⟩
      refine ⟨hpaired, hstanding, ?_, ?_, ?_, ?_⟩
      · intro _ _ status hother hhere
        cases hother
        exact (hserved hhere).1
      · intro _ _ last error hother hcancelled
        obtain ⟨rfl, rfl, hstatus⟩ := Phase.sending.inj hother
        have hhere : Served after.status := by
          rw [hstatus]
          exact hcancelled
        exact (hserved hhere).2 last error hstatus
      · intro info hannounced
        by_cases hon : (∃ other, after.status = .running other) ∨
            ∃ memory, after.status = .returned memory
        · exact within_of_paired hpaired hannounced rfl hon fun hhere => (hserved hhere).1
        · obtain ⟨hkept, hsame⟩ := kept_of_turn hturn hon
          exact within_kept (hcleared.within info (hsame.symm.trans hannounced)) _ hkept
      · exact fun summary hreturned => quiet_of_returned hcleared hsender hreturned hturn

/-! ## A step of the receiver -/

/-- A sender that has returned has every item reported. -/
theorem all_reported (hpaired : Paired setup world) (hannounced : world.link.announced = some info)
    {call : Call} {attempt : Nat} {memory : FolderTransferState}
    (hsender : world.sender = .sending call attempt (.returned memory))
    {point : FolderReceiver.Point} (hreceiver : world.receiver.status = .running point) :
    info.items.length ≤ floor info point := by
  have hsound := hpaired.holding.sound.sender call attempt _ hsender
  cases hpaired.holding.standing with
  | silent hsilent _ _ _ _ => cases hannounced.symm.trans hsilent
  | asked _ hasked _ _ _ _ => cases hsender.symm.trans hasked
  | live _ hlive _ _ => cases hsender.symm.trans hlive
  | closed hopened _ _ hmemory =>
      cases hannounced.symm.trans hopened.announced
      obtain ⟨hfiles, hfloor⟩ := hmemory memory (by rw [hsender]; rfl)
      have hall : nextItem memory = memory.files.length := hsound.2.2
      rw [← hfiles, ← hall]
      exact hfloor point hreceiver

/-- Behind a call that went well the receiver has nothing to send. -/
theorem hushed_receiver (hcleared : Cleared setup world) {call : Call} {attempt : Nat}
    {status : FolderSender.PointStatus} (hsender : world.sender = .sending call attempt status)
    (hserved : Served status) (hannounced : world.link.announced = some info)
    {point : FolderReceiver.Point} (hreceiver : world.receiver.status = .running point)
    {received : FolderReceiver.ReceiverState} {link : Link}
    (hmoved : ReceiverMoved info world.link point received.status link) :
    Hushed { world with receiver := received, link := link } := by
  obtain ⟨hempty, hready⟩ := hcleared.served call attempt status hsender hserved
  have hhere : ¬Unready point := hready point hreceiver
  refine ⟨?_, fun other hother => unready_of_moved hmoved hhere hother⟩
  change link.toSender = []
  generalize received.status = after at hmoved
  cases hmoved with
  | halts _ htakes | goes _ _ _ _ htakes =>
      obtain ⟨_, _, _, rfl⟩ := htakes
      exact hempty
  | declines hpoint | readies hpoint _ =>
      rw [hpoint] at hhere
      exact absurd trivial hhere
  | reports hpoint hplan =>
      cases status with
      | running _ | panicked _ _ => exact hserved.elim
      | failed last error =>
          have hhalted := hcleared.declined call attempt last error hsender hserved
          rw [hreceiver] at hhalted
          exact hhalted.elim
      | returned memory =>
          have hall := all_reported hcleared.paired hannounced hsender hreceiver
          have hsound := hcleared.paired.holding.sound.receiver point (by rw [hreceiver]; rfl)
          subst hpoint
          have hindex := (received_of_item hsound hplan rfl).1
          have hinfo : WellFormed setup.chunkSize.toNat info :=
            (opened_of_holding hcleared.paired.holding hannounced).wellFormed
          rename_i plan index task checksum
          have hfloor : floor info (.file plan index task (.sendChecksum checksum)) = index :=
            max_eq_right (firstItem_le_of_item hinfo hsound hplan rfl)
          rw [hfloor] at hall
          exact absurd hall (Nat.not_le_of_lt hindex)

/-- What the receiver reads is no longer under way. -/
theorem within_receiver (hpaired : Paired setup world)
    (hannounced : world.link.announced = some info) (hwithin : Within info world)
    {point : FolderReceiver.Point} (hreceiver : world.receiver.status = .running point)
    {move : Move Bool} (hmove : ∀ error written, move ≠ .fail error written)
    {input : FolderReceiver.ReceiverInput} {link : Link} {received : FolderReceiver.ReceiverState}
    (hfed : ReceiverFed world.link
      (FolderReceiver.action (receiverSession setup world.link) point) move input link)
    (hstep : (FolderReceiver.machine (receiverSession setup world.link)).step world.receiver input =
      some received) :
    Within info { world with receiver := received, link := link } := by
  have hopen := opened_of_holding hpaired.holding hannounced
  have hsound := hpaired.holding.sound.receiver point (by rw [hreceiver]; rfl)
  have hknows := hopen.knows point hreceiver
  have hmoved := receiverMoved_of_step hopen.wellFormed hsound hknows
    (hopen.heard point hreceiver) hreceiver hfed hstep
  obtain ⟨hall, hone⟩ := hwithin point hreceiver
  intro listener hlistener
  change received.status = .running listener at hlistener
  have hsame : heard info listener + link.toReceiver.length =
      heard info point + world.link.toReceiver.length := by
    cases stepped_of_step hstep with
    | fail _ _ _ => exact absurd hfed (not_fail_of_fed hmove)
    | resume hstatus hreply hnext =>
        cases hreceiver.symm.trans hstatus
        rw [hnext] at hlistener
        have hheard := heard_resume hopen.wellFormed hsound hknows (Action.fits_of_reply hreply)
          hlistener
        rcases taken_of_fed hmove hfed with ⟨haction, _, _, hhead⟩ | ⟨haction, _, hkept⟩
        · rw [if_pos haction] at hheard
          rw [hheard, hhead, List.length_cons, Nat.add_assoc, Nat.add_comm 1]
        · rw [if_neg haction, Nat.add_zero] at hheard
          rw [hheard, hkept]
  refine ⟨hsame ▸ hall, fun hunready => ?_⟩
  have hbefore : Unready point := by
    by_contra hready
    exact unready_of_moved hmoved hready hlistener hunready
  exact hsame ▸ hone hbefore

/-- A call of the receiver that returns has read everything. -/
theorem empty_of_returns (hwithin : Within info world) {point : FolderReceiver.Point}
    (hreceiver : world.receiver.status = .running point) {move : Move Bool}
    (hmove : ∀ error written, move ≠ .fail error written) {input : FolderReceiver.ReceiverInput}
    {link : Link} {received : FolderReceiver.ReceiverState}
    (hfed : ReceiverFed world.link
      (FolderReceiver.action (receiverSession setup world.link) point) move input link)
    (hstep : (FolderReceiver.machine (receiverSession setup world.link)).step world.receiver input =
      some received) {summary : FolderReceiver.TransferSummary}
    (hreturned : received.status = .returned summary) : link.toReceiver = [] := by
  obtain ⟨hall, hone⟩ := hwithin point hreceiver
  cases stepped_of_step hstep with
  | fail _ _ _ => exact absurd hfed (not_fail_of_fed hmove)
  | resume hstatus hreply hnext =>
      cases hreceiver.symm.trans hstatus
      rw [hnext] at hreturned
      rcases FolderReceiver.resume_returned (Action.fits_of_reply hreply) hreturned with
        ⟨rfl, _⟩ | ⟨plan, rfl, _⟩
      · have hless : 1 + world.link.toReceiver.length ≤ 1 := hone trivial
        change ReceiverFed _ (.send .cancel) _ _ _ at hfed
        cases hfed with
        | fail _ => exact absurd rfl (hmove _ _)
        | send =>
            change world.link.toReceiver = []
            exact List.eq_nil_of_length_eq_zero (by omega)
      · change info.items.length - firstItem info + 1 + _ ≤ info.items.length - firstItem info + 2
          at hall
        change ReceiverFed _ .receive _ _ _ at hfed
        cases hfed with
        | fail _ => exact absurd rfl (hmove _ _)
        | @receive message rest hhead =>
            rw [hhead, List.length_cons] at hall
            change rest = []
            exact List.eq_nil_of_length_eq_zero (by omega)

theorem cleared_receiver (hcleared : Cleared setup world) {move : Move Bool}
    (hsmooth : Smooth setup world (.receiver move))
    (hstepped : ReceiverStepped setup world move next) (hpaired : Paired setup next)
    (hstanding : Standing (listed setup) next) : Cleared setup next := by
  have hmove := smooth_receiver hsmooth
  cases hstepped with
  | @intro point input link received hreceiver hfed hstep =>
      have hsame := (opened_of_receiverFed hfed).2.2
      refine ⟨hpaired, hstanding, ?_, ?_, ?_, ?_⟩
      · intro call attempt status hsender hserved
        obtain ⟨info, hannounced⟩ : ∃ info, world.link.announced = some info := by
          cases hcleared.paired.exchange with
          | early hother _ _ _ _ _ =>
              cases hsender.symm.trans hother
              exact hserved.elim
          | opened hannounced _ _ _ _ _ => exact ⟨_, hannounced⟩
        have hopen := opened_of_holding hcleared.paired.holding hannounced
        have hsound := hcleared.paired.holding.sound.receiver point (by rw [hreceiver]; rfl)
        exact hushed_receiver hcleared hsender hserved hannounced hreceiver
          (receiverMoved_of_step hopen.wellFormed hsound (hopen.knows point hreceiver)
            (hopen.heard point hreceiver) hreceiver hfed hstep)
      · intro call attempt last error hsender hcancelled
        have hhalted := hcleared.declined call attempt last error hsender hcancelled
        rw [hreceiver] at hhalted
        exact hhalted.elim
      · intro info hannounced
        have hbefore := hsame.symm.trans hannounced
        exact within_receiver hcleared.paired hbefore (hcleared.within info hbefore) hreceiver hmove
          hfed hstep
      · intro summary hreturned
        obtain ⟨info, hannounced⟩ : ∃ info, world.link.announced = some info := by
          cases hpaired.exchange with
          | early _ _ _ _ hother _ => cases hreturned.symm.trans hother
          | opened hannounced _ _ _ _ _ => exact ⟨_, hsame.symm.trans hannounced⟩
        exact empty_of_returns (hcleared.within info hannounced) hreceiver hmove hfed hstep
          hreturned

/-! ## Every moment -/

theorem cleared_step (hdecode : Invertible setup.codec) (hcleared : Cleared setup world)
    {event : Event} (hsmooth : Smooth setup world event)
    (hstep : step setup world event = some next) : Cleared setup next := by
  have hpaired := paired_step hdecode hcleared.paired hsmooth hstep
  have hstanding : Standing (listed setup) next :=
    standing_step rfl hcleared.standing hcleared.paired.holding.sound
      (fun _ received _ hreceiver _ =>
        listed_serves hcleared.paired.holding.sound hreceiver received) hstep
  cases event with
  | sender move =>
      exact cleared_sender hcleared hsmooth (senderStepped_of_step hstep) hpaired hstanding
  | receiver move =>
      exact cleared_receiver hcleared hsmooth (receiverStepped_of_step hstep) hpaired hstanding
  | start _ _ _ _ | loseForward | loseBackward | save _ | reconnect _ | finish _ =>
      exact hsmooth.elim

theorem cleared_connect (hsound : Sound setup Acceptable world) {config : ConfigMessage}
    (hchunkSize : config.chunkSize = setup.chunkSize) {call : Call} (attempt : Nat)
    {memory : FolderTransferState} (hmemory : SoundMemory setup Acceptable memory)
    (hframe : memory.files ≠ [] → FitsFrame memory call.transferId) :
    Cleared setup (connect world config call attempt memory) := by
  refine ⟨paired_connect hsound hchunkSize attempt hmemory hframe, standing_connect _ _ _ _,
    ?_, ?_, ?_, ?_⟩
  · intro _ _ _ hsender hserved
    cases hsender
    exact hserved.elim
  · intro _ _ _ _ hsender _
    cases hsender
  · intro _ hannounced
    cases hannounced
  · intro _ hreturned
    cases hreturned

/-- What the calls that went well leave on their connection. -/
structure LeavesNothing (world : Network.State) : Prop where
  toSender : ∀ call attempt status, world.sender = .sending call attempt status → Served status →
    world.link.toSender = []
  toReceiver : ∀ summary, world.receiver.status = .returned summary → world.link.toReceiver = []
  streams : ∀ summary, world.receiver.status = .returned summary →
    world.link.accepted = world.link.opened.length

/-- Whatever came before, on a connection that holds neither call leaves anything unread behind,
even while the other one goes on. -/
theorem leaves_nothing (hdecode : Invertible setup.codec) {source : Store} {before : Network.State}
    (hreached : Reached setup source before) {event : Event}
    (hconnects : (event.resumes before).isSome = true)
    (hconnect : step { setup with source := source } before event = some world)
    (hframe : ∀ call attempt memory,
      world.sender = .sending call attempt (.running ⟨memory, .begin⟩) → memory.files ≠ [] →
        FitsFrame memory call.transferId)
    {events : List Event}
    (hsmooth : Along (step { setup with source := source }) (Smooth { setup with source := source })
      world events)
    {final : Network.State}
    (hrun : Network.run { setup with source := source } world events = some final) :
    LeavesNothing final := by
  have hsound := sound_of_reached hdecode hreached
  obtain ⟨config, call, attempt, memory, rfl, hchunkSize, hmemory⟩ :=
    connected_of_step hsound hconnects hconnect
  have hstart := cleared_connect hsound hchunkSize attempt hmemory (hframe call attempt memory rfl)
  have hcleared := invariant_along (Cleared { setup with source := source })
    (fun state event next hbefore hallowed hstep => cleared_step hdecode hbefore hallowed hstep)
    hsmooth hstart hrun
  refine ⟨?_, hcleared.received, fun _ hreturned => consumed_of_returned hcleared.paired hreturned⟩
  exact fun again other status hsender hserved =>
    (hcleared.served again other status hsender hserved).empty

/-- Both calls for the file `in/g` return, and the connection is as good as new. -/
theorem leaves_nothing_letter :
    ∃ before world final call attempt memory summary,
      Network.run letterSetup (initial letterSetup fun _ => none) lostAnnouncement.dropLast =
        some before ∧
      step letterSetup before (.reconnect true) = some world ∧
      Network.run letterSetup world (letterTurns ++ [.receiver .proceed]) = some final ∧
      final.sender = .sending call attempt (.returned memory) ∧
      final.receiver.status = .returned summary ∧
      final.link.toSender = [] ∧ final.link.toReceiver = [] ∧
      final.link.accepted = final.link.opened.length := by
  have hturns : ∀ world, ∀ event ∈ letterTurns ++ [.receiver .proceed],
      Smooth letterSetup world event := by
    intro world event hevent
    rcases List.mem_append.mp hevent with hbefore | hlast
    · exact smooth_letterTurns world event hbefore
    · rw [List.mem_singleton.mp hlast]
      trivial
  obtain ⟨before, world, call, attempt, memory, final, memory', summary, hbefore, hconnects,
      hconnect, hsender, hframe, hrun, hreturned, hreceived⟩ :
      ∃ before world call attempt memory final memory' summary,
      Network.run letterSetup (initial letterSetup fun _ => none) lostAnnouncement.dropLast =
        some before ∧
      ((Event.reconnect true).resumes before).isSome = true ∧
      step letterSetup before (.reconnect true) = some world ∧
      world.sender = .sending call attempt (.running ⟨memory, .begin⟩) ∧
      FitsFrame memory call.transferId ∧
      Network.run letterSetup world (letterTurns ++ [.receiver .proceed]) = some final ∧
      final.sender = .sending call attempt (.returned memory') ∧
      final.receiver.status = .returned summary :=
    ⟨_, _, _, _, _, _, _, _, rfl, rfl, rfl, rfl, rfl, rfl, rfl, rfl⟩
  have hleaves := leaves_nothing (fun data _ encoded hencode => by cases hencode; rfl)
    (reached_of_run scansEvent_lostAnnouncement hbefore) hconnects hconnect
    (fun other again another hother _ => by cases hsender.symm.trans hother; exact hframe)
    (along_of_forall hturns world) hrun
  exact ⟨before, world, final, call, attempt, memory', summary, hbefore, hconnect, hrun, hreturned,
    hreceived, hleaves.toSender _ _ _ hreturned trivial, hleaves.toReceiver _ hreceived,
    hleaves.streams _ hreceived⟩

end P2PFileTransfer.Transfer.Leftovers
