import P2PFileTransfer.Transfer.PathSafety
import P2PFileTransfer.Transfer.Script

/-!
# Sender and receiver in step

One connection that does not break, between a sender that starts from whatever state the
attempts before have left and a receiver with whatever files are there.  However the two
sides take turns, they agree on what is skipped and on how many streams an item has, and
neither waits for what the other does not send.
-/

namespace P2PFileTransfer.Transfer.Lockstep

open P2PFileTransfer.Foundation.ByteFile
open P2PFileTransfer.Foundation.FileSystem
open P2PFileTransfer.Foundation.FixedWidth
open P2PFileTransfer.Foundation.Process
open P2PFileTransfer.Foundation.Run
open P2PFileTransfer.Foundation.UnixPath
open P2PFileTransfer.Core
open P2PFileTransfer.Core.Protocol
open P2PFileTransfer.Core.TransferFile
open P2PFileTransfer.Core.TransferFolder
open P2PFileTransfer.Core.SendPath
open P2PFileTransfer.Core.FolderSender (HonestFiles HonestScan IsSource readScan returnedError)
open P2PFileTransfer.Core.FolderReceiver (alreadySent)
open P2PFileTransfer.Transfer.Conversation
open P2PFileTransfer.Transfer.Honesty
open P2PFileTransfer.Transfer.Network
open P2PFileTransfer.Transfer.ReceiverLane
open P2PFileTransfer.Transfer.Schedule
open P2PFileTransfer.Transfer.Script
open P2PFileTransfer.Transfer.SenderLane
open P2PFileTransfer.Transfer.Streams

/-! ## Before the connection -/

/-- The same files, each with as many bytes. -/
def SameSizes (source other : Store) : Prop :=
  ∀ location, (source location).map List.length = (other location).map List.length

/-- A scan that finds the files as they are, none above the size bound; the name of a
single file is one component. -/
def Scans (setup : Setup) (scan : FolderSender.Scan) : Prop :=
  HonestScan setup.basePath setup.source scan ∧
    (∀ found, readScan scan = .ok found → ∀ file ∈ found.2, file.size ≤ maxTransferFileSize) ∧
    ∀ name size modified, scan = .file name size modified → IsName name

def ScansEvent (setup : Setup) : Event → Prop
  | .sender (.answer scan) => Scans setup scan
  | _ => True

/-- The worlds and the files at the sender after any steps, any failures, any changes of the
sender's files between two attempts that keep their sizes, and with any files at the
receiver. -/
inductive Reached (setup : Setup) : Store → Network.State → Prop where
  | initial (store : Store) : Reached setup setup.source (initial setup store)
  | step {source : Store} {world next : Network.State} {event : Event}
      (hbefore : Reached setup source world)
      (hscans : ScansEvent { setup with source := source } event)
      (hstep : step { setup with source := source } world event = some next) :
      Reached setup source next
  | rewrites {source other : Store} {world : Network.State} (hbefore : Reached setup source world)
      (hsizes : SameSizes source other)
      (hidle : ∀ call attempt point, world.sender ≠ .sending call attempt (.running point)) :
      Reached setup other world
  | leaves {source : Store} {world : Network.State} (hbefore : Reached setup source world)
      (store : Store) :
      Reached setup source { world with receiver := { world.receiver with store := store } }

variable {setup : Setup} {info : TransferInfo} {world next : Network.State}

theorem sanitize_of_isName {name : OsStr} (hname : IsName name) :
    sanitizeRelativePath name = .ok name := by
  have hnames : ∀ other ∈ [name], IsName other := by
    intro other hother
    rw [List.mem_singleton.mp hother]
    exact hname
  have hrender : render [name] = name := by simp [render]
  have hroot := hasRoot_render hnames
  have hcomponents := components_render hnames
  rw [hrender] at hroot hcomponents
  exact (sanitizeRelativePath_eq_ok_iff _ _).mpr
    ⟨hroot, [name], List.cons_ne_nil _ _, hcomponents, hrender.symm⟩

theorem accepted_of_scanFolder {entries : List (OsStr × Nat × Nat)} {files : List FileMetadata}
    (hscan : FolderSender.scanFolder entries = .ok files) :
    ∀ file ∈ files, ∃ clean, sanitizeRelativePath file.path = .ok clean := by
  induction entries generalizing files with
  | nil =>
      cases hscan
      exact nofun
  | cons entry rest ih =>
      obtain ⟨path, size, modified⟩ := entry
      rw [FolderSender.scanFolder] at hscan
      cases hsanitize : sanitizeRelativePath path with
      | error error =>
          rw [hsanitize] at hscan
          cases hscan
      | ok clean =>
          rw [hsanitize] at hscan
          cases hrest : FolderSender.scanFolder rest with
          | error error =>
              rw [hrest] at hscan
              cases hscan
          | ok others =>
              rw [hrest] at hscan
              cases hscan
              intro file hfile
              rcases List.mem_cons.mp hfile with rfl | hother
              · exact ⟨clean, PathSafety.sanitize_idempotent hsanitize⟩
              · exact ih hrest file hother

/-- The receiver takes what the sender has scanned. -/
theorem acceptable_of_scans {scan : FolderSender.Scan} (hscans : Scans setup scan)
    {found : OsStr × List FileMetadata} (hfound : readScan scan = .ok found) :
    Acceptable found.2 := by
  obtain ⟨_, hsizes, hname⟩ := hscans
  intro file hfile
  refine ⟨hsizes found hfound file hfile, ?_⟩
  cases scan with
  | unnamed | neither => cases hfound
  | file name size modified =>
      cases hfound
      rw [List.mem_singleton.mp hfile]
      exact ⟨name, sanitize_of_isName (hname name size modified rfl)⟩
  | folder name entries =>
      rw [readScan] at hfound
      cases hfolder : FolderSender.scanFolder entries with
      | error error =>
          rw [hfolder] at hfound
          cases hfound
      | ok files =>
          rw [hfolder] at hfound
          cases files with
          | nil => cases hfound
          | cons first rest =>
              cases hfound
              exact accepted_of_scanFolder hfolder file hfile

theorem honest_of_scans {event : Event} (hscans : ScansEvent setup event) :
    HonestEvent setup Acceptable event := by
  cases event with
  | sender move =>
      cases move with
      | answer scan => exact ⟨hscans.1, fun found hfound => acceptable_of_scans hscans hfound⟩
      | proceed | fail _ _ => trivial
  | start _ _ _ _ | receiver _ | loseForward | loseBackward | save _ | reconnect _ | finish _ =>
      trivial

theorem honestFiles_rewritten {source other : Store} {basePath : OsStr} {files : List FileMetadata}
    (hsizes : SameSizes source other) (hhonest : HonestFiles basePath source files) :
    HonestFiles basePath other files := by
  intro file hfile
  obtain ⟨bytes, hcontents, hlength⟩ := hhonest file hfile
  have hsame := hsizes (components (FolderSender.sourcePath basePath file))
  rw [hcontents] at hsame
  obtain ⟨found, hfound, hsize⟩ := Option.map_eq_some_iff.mp hsame.symm
  exact ⟨found, hfound, hsize.trans hlength⟩

/-- What holds of the states does not depend on the contents, only on the sizes. -/
theorem sound_rewritten {source other : Store} {good : List FileMetadata → Prop}
    (hsizes : SameSizes source other)
    (hidle : ∀ call attempt point, world.sender ≠ .sending call attempt (.running point))
    (hsound : Sound { setup with source := source } good world) :
    Sound { setup with source := other } good world := by
  have hmemory : ∀ memory, SoundMemory { setup with source := source } good memory →
      SoundMemory { setup with source := other } good memory := fun memory hbefore =>
    ⟨hbefore.orderly, honestFiles_rewritten hsizes hbefore.honest, hbefore.good⟩
  refine ⟨hsound.chunkSize, ?_, fun memory hlast => hmemory memory (hsound.memory memory hlast),
    fun memory hsaved => hmemory memory (hsound.saved memory hsaved), hmemory _ hsound.resumed,
    hsound.receiver⟩
  intro call attempt status hsender
  have hbefore := hsound.sender call attempt status hsender
  cases status with
  | running point => exact absurd hsender (hidle call attempt point)
  | returned memory =>
      exact ⟨⟨hbefore.1.orderly, honestFiles_rewritten hsizes hbefore.1.honest⟩, hbefore.2⟩
  | failed _ _ | panicked _ _ =>
      exact ⟨hbefore.orderly, honestFiles_rewritten hsizes hbefore.honest⟩

theorem sound_of_reached (hdecode : Invertible setup.codec) {source : Store}
    (hreached : Reached setup source world) :
    Sound { setup with source := source } Acceptable world := by
  have hnone : Acceptable [] := nofun
  induction hreached with
  | initial store => exact sound_initial hnone store
  | step _ hscans hstep ih => exact sound_step hdecode hnone (honest_of_scans hscans) ih hstep
  | rewrites _ hsizes hidle ih => exact sound_rewritten hsizes hidle ih
  | leaves _ store ih =>
      exact ⟨ih.chunkSize, ih.sender, ih.memory, ih.saved, ih.resumed, ih.receiver⟩

theorem reached_of_run {store : Store} {events : List Event}
    (hscans : ∀ event ∈ events, ScansEvent setup event)
    (hrun : Network.run setup (initial setup store) events = some world) :
    Reached setup setup.source world :=
  invariant_along (Reached setup setup.source)
    (fun _ _ _ hbefore hallowed hstep => .step hbefore hallowed hstep)
    (along_of_forall (fun _ => hscans) _) (.initial store) hrun

/-! ## On the connection -/

/-- A step of one of the two sides in which nothing fails: a scan finds files, and their
manifest fits a frame. -/
def Smooth (setup : Setup) (world : Network.State) : Event → Prop
  | .sender .proceed | .receiver .proceed | .receiver (.answer _) => True
  | .sender (.answer scan) =>
      Scans setup scan ∧ ∃ found, readScan scan = .ok found ∧
        ∀ call attempt status, world.sender = .sending call attempt status →
          FitsFrame (scanned (senderSession setup world.link call) found) call.transferId
  | .sender (.fail _ _) | .receiver (.fail _ _) | .start _ _ _ _ | .loseForward | .loseBackward
  | .save _ | .reconnect _ | .finish _ => False

/-- A conversation about files the receiver takes. -/
def terms (setup : Setup) : Terms := { bare setup with good := Acceptable }

structure Holding (setup : Setup) (world : Network.State) : Prop where
  sound : Sound setup Acceptable world
  standing : Standing (terms setup) world
  flows : Flows setup world

/-- The receiver has declined the files. -/
structure Declined (world : Network.State) : Prop where
  opened : world.link.opened = []
  accepted : world.link.accepted = 0
  cancelled : ∀ call attempt point, world.sender = .sending call attempt (.running point) →
    point.stage = .recvReady ∧ world.link.toSender = [.cancel]

/-- The receiver has read the messages before those under way. -/
def Listens (setup : Setup) (info : TransferInfo) (place : Nat) (world : Network.State) : Prop :=
  match world.receiver.status with
  | .running point =>
      heard info point + world.link.toReceiver.length = place ∧
        Reads info (heard info point) world.link.toReceiver ∧
        (Unready point → world.link.opened = [])
  | .returned _ =>
      (total info ≤ place ∧
        world.link.accepted = offset setup.chunkSize.toNat info info.items.length) ∨ Declined world
  | .failed _ error => error.isProtocol = false
  | .panicked _ _ => True

/-- What the status of the sender says about the connection. -/
def Speaks (setup : Setup) (info : TransferInfo) (world : Network.State) :
    FolderSender.PointStatus → Prop
  | .running point =>
      (point.stage = .recvReady →
        nextItem point.memory = firstItem info ∧ Answered (terms setup) info world) ∧
        ∀ task, point.stage = .awaitStopped task → world.link.delivered = true
  | .returned _ => world.link.opened.length = offset setup.chunkSize.toNat info info.items.length
  | .failed _ error => error.isProtocol = false
  | .panicked _ _ => True

/-- How far the two sides have come. -/
inductive Exchange (setup : Setup) (world : Network.State) : Prop where
  | early {call : Call} {attempt : Nat} {point : FolderSender.Point}
      {listener : FolderReceiver.Point}
      (hsender : world.sender = .sending call attempt (.running point)) (hearly : Early point.stage)
      (hfits : point.stage = .begin → point.memory.files ≠ [] →
        FitsFrame point.memory call.transferId)
      (hsilent : world.link.announced = none)
      (hreceiver : world.receiver.status = .running listener) (hunread : Unread listener) :
      Exchange setup world
  | opened {info : TransferInfo} {call : Call} {attempt place : Nat}
      {status : FolderSender.PointStatus} (hannounced : world.link.announced = some info)
      (hsender : world.sender = .sending call attempt status) (hspoke : Spoke info place status)
      (hplace : 1 ≤ place) (hspeaks : Speaks setup info world status)
      (hlistens : Listens setup info place world) : Exchange setup world

structure Paired (setup : Setup) (world : Network.State) : Prop where
  holding : Holding setup world
  forward : world.link.forward = true
  backward : world.link.backward = true
  accepted_le : world.link.accepted ≤ world.link.opened.length
  exchange : Exchange setup world

theorem serves_of_sound (hsound : Sound setup Acceptable world) {point : FolderReceiver.Point}
    (hreceiver : world.receiver.status = .running point) (received : FolderReceiver.ReceiverState) :
    Serves setup (terms setup) world point received := by
  refine ⟨hreceiver, hsound.receiver point ?_, fun _ _ _ _ _ hanswers => hanswers, ?_⟩
  · rw [hreceiver]
    rfl
  · intro _ _ _ _ _ _ _ _
    exact ⟨_, rfl⟩

theorem holding_step (hdecode : Invertible setup.codec) {event : Event}
    (hhonest : HonestEvent setup Acceptable event) (hholding : Holding setup world)
    (hstep : step setup world event = some next) : Holding setup next := by
  have hserves : ∀ point received input, world.receiver.status = .running point →
      (FolderReceiver.machine (receiverSession setup world.link)).step world.receiver input =
        some received → Serves setup (terms setup) world point received :=
    fun _ received _ hreceiver _ => serves_of_sound hholding.sound hreceiver received
  exact ⟨sound_step hdecode nofun hhonest hholding.sound hstep,
    standing_step rfl hholding.standing hholding.sound hserves hstep,
    flows_step rfl hholding.sound hholding.standing hserves hholding.flows hstep⟩

theorem opened_of_holding (hholding : Holding setup world)
    (hannounced : world.link.announced = some info) : Opened (terms setup) info world :=
  opened_of_announced hholding.standing hannounced

/-- A sender behind Ready. -/
theorem live_of_holding (hholding : Holding setup world)
    (hannounced : world.link.announced = some info) {call : Call} {attempt : Nat}
    {point : FolderSender.Point} (hsender : world.sender = .sending call attempt (.running point))
    (hlive : Live point.stage) :
    Talking info point ∧
      Reported (terms setup) info world (nextItem point.memory) world.link.toSender := by
  cases hholding.standing with
  | silent _ _ _ _ hwaiting | closed _ hwaiting _ _ =>
      rw [hsender] at hwaiting
      exact absurd hlive hwaiting
  | asked _ hasked _ _ _ _ =>
      rw [hsender] at hasked
      cases hasked
      exact hlive.elim
  | live hopened hhere htalking hreported =>
      rw [hsender] at hhere
      cases hhere
      cases hopened.announced.symm.trans hannounced
      exact ⟨htalking, hreported⟩

/-! ## Steps of the sender -/

theorem kept_of_senderFed {link after : Link} {point : FolderSender.Point} {action : Action Message}
    {move : Move FolderSender.Scan} {input : FolderSender.SenderInput}
    (hfed : SenderFed link point action move input after) :
    after.forward = link.forward ∧ after.backward = link.backward ∧
      link.opened <+: after.opened := by
  cases hfed with
  | openStream =>
      refine ⟨rfl, rfl, ?_⟩
      change link.opened <+: if link.forward then link.opened ++ [_] else link.opened
      split
      · exact List.prefix_append _ _
      · exact List.prefix_rfl
  | fail _ | answer | compute | perform | send | receive _ | awaitStopped _ =>
      exact ⟨rfl, rfl, List.prefix_rfl⟩

theorem smooth_sender {move : Move FolderSender.Scan} (hsmooth : Smooth setup world (.sender move)) :
    ∀ error written, move ≠ .fail error written := by
  rintro error written rfl
  exact hsmooth

theorem silent_of_holding (hholding : Holding setup world) (hsilent : world.link.announced = none) :
    world.link.toReceiver = [] ∧ world.link.toSender = [] := by
  cases hholding.standing with
  | silent _ htoReceiver htoSender _ _ => exact ⟨htoReceiver, htoSender⟩
  | asked hopened _ _ _ _ _ | live hopened _ _ _ | closed hopened _ _ _ =>
      cases hopened.announced.symm.trans hsilent

/-- What the sender writes joins what the receiver has not read. -/
theorem listens_spoken {place : Nat} (hlistens : Listens setup info place world) {call : Call}
    {attempt : Nat} {point : FolderSender.Point} {status : FolderSender.PointStatus} {link : Link}
    {more : List Message} (hplace : said info point = place)
    (hadds : Adds info world.link point status link more)
    (haccepted : link.accepted = world.link.accepted)
    (hopened : (∀ listener, world.receiver.status = .running listener → ¬Unready listener) ∨
      link.opened = world.link.opened)
    (hdeclined : Declined world →
      Declined { world with sender := .sending call attempt status, link := link }) :
    Listens setup info (place + more.length)
      { world with sender := .sending call attempt status, link := link } := by
  unfold Listens at hlistens ⊢
  dsimp only
  cases hstatus : world.receiver.status with
  | running listener =>
      rw [hstatus] at hlistens
      obtain ⟨hcount, hreads, hnone⟩ := hlistens
      refine ⟨?_, ?_, fun hunready => ?_⟩
      · rw [hadds.written, List.length_append, ← hcount, Nat.add_assoc]
      · rw [hadds.written]
        refine hreads.append ?_
        rw [hcount, ← hplace]
        exact hadds.reads
      · rcases hopened with hready | hsame
        · exact absurd hunready (hready listener hstatus)
        · exact hsame.trans (hnone hunready)
  | returned summary =>
      rw [hstatus] at hlistens
      rcases hlistens with ⟨htotal, htook⟩ | hother
      · exact Or.inl ⟨Nat.le_add_right_of_le htotal, haccepted.trans htook⟩
      · exact Or.inr (hdeclined hother)
  | failed _ error =>
      rw [hstatus] at hlistens
      exact hlistens
  | panicked _ _ => trivial

/-- Up to the manifest. -/
theorem exchange_early (hpaired : Paired setup world) {call : Call} {attempt : Nat}
    {point : FolderSender.Point} {listener : FolderReceiver.Point}
    (hsender : world.sender = .sending call attempt (.running point)) (hearly : Early point.stage)
    (hfits : point.stage = .begin → point.memory.files ≠ [] → FitsFrame point.memory call.transferId)
    (hsilent : world.link.announced = none) (hreceiver : world.receiver.status = .running listener)
    (hunread : Unread listener) {move : Move FolderSender.Scan}
    (hsmooth : Smooth setup world (.sender move)) {input : FolderSender.SenderInput} {link : Link}
    {after : FolderSender.SenderState}
    (hfed : SenderFed world.link point
      (FolderSender.action (senderSession setup world.link call) point) move input link)
    (hstep : (FolderSender.machine (senderSession setup world.link call)).step
      ⟨.running point, setup.source⟩ input = some after) :
    Exchange setup { world with sender := .sending call attempt after.status, link := link } := by
  have hmove := smooth_sender hsmooth
  obtain ⟨htoReceiver, htoSender⟩ := silent_of_holding hpaired.holding hsilent
  have hpoint := hpaired.holding.sound.sender call attempt _ hsender
  obtain ⟨memory, stage⟩ := point
  by_cases hstage : stage = .begin ∨ stage = .scan
  · have hscan : ∀ scan, move = .answer scan → ∃ found, readScan scan = .ok found ∧
        FitsFrame (scanned (senderSession setup world.link call) found)
          (senderSession setup world.link call).transferId := by
      rintro scan rfl
      obtain ⟨_, found, hfound, hframe⟩ := hsmooth
      exact ⟨found, hfound, hframe call attempt _ hsender⟩
    have hresumed : stage = .begin → memory.files ≠ [] →
        FitsFrame memory (senderSession setup world.link call).transferId := hfits
    obtain ⟨rfl, next, hnext, hstill, hother⟩ :=
      prepares_of_step hstage hresumed hmove hscan hfed hstep
    exact .early (congrArg (Phase.sending call attempt) hnext) hstill (fun hbegin => absurd hbegin hother) hsilent hreceiver
      hunread
  · cases stage with
    | begin | scan => simp at hstage
    | sendInfo resumeFrom =>
        obtain ⟨hafter, hnext⟩ := announces_of_step hpoint.2.2.1 hmove hfed hstep
        subst hafter
        refine @Exchange.opened _ _ (manifestOf memory call.transferId) call attempt 1 _ ?_
          (congrArg (Phase.sending call attempt) hnext) rfl le_rfl ⟨fun _ => ⟨?_, ?_⟩, nofun⟩ ?_
        · change world.link.announce _ = _
          unfold Link.announce
          rw [hsilent]
          rfl
        · exact (firstItem_manifestOf memory call.transferId).symm
        · refine .pending htoSender fun other hother => Or.inl ?_
          cases hreceiver.symm.trans hother
          exact unready_of_unread hunread
        · have hheard : heard (manifestOf memory call.transferId) listener = 0 := by
            rcases eq_of_unread hunread with rfl | rfl <;> rfl
          unfold Listens
          dsimp only
          rw [hreceiver]
          change _ + (if world.link.forward then world.link.toReceiver ++ [_] else _).length = 1 ∧
            Reads _ _ (if world.link.forward then world.link.toReceiver ++ [_] else _) ∧
              (_ → world.link.opened = [])
          rw [if_pos hpaired.forward, htoReceiver, hheard]
          exact ⟨rfl, ⟨rfl, trivial⟩, fun _ => (hpaired.holding.flows.quiet hsilent).1⟩
    | recvReady | fileHead _ | openSource _ | chunkHead _ | readChunk _ _ _ => exact hearly.elim
    | openStream _ _ | awaitStopped _ | sendChecksum _ _ | recvChecksum _ _ | sendComplete =>
        exact hearly.elim

/-- A sender that ends leaves what the receiver reads. -/
theorem listens_ended {place : Nat} (hlistens : Listens setup info place world) {call : Call}
    {attempt : Nat} {status : FolderSender.PointStatus} {link : Link} (hhalted : status.Halted)
    (hlink : link = { world.link with toSender := link.toSender }) :
    Listens setup info place
      { world with sender := .sending call attempt status, link := link } := by
  rw [hlink]
  unfold Listens at hlistens ⊢
  dsimp only
  cases hstatus : world.receiver.status with
  | running listener =>
      rw [hstatus] at hlistens
      exact hlistens
  | returned summary =>
      rw [hstatus] at hlistens
      refine hlistens.imp_right fun hdeclined => ⟨hdeclined.opened, hdeclined.accepted, ?_⟩
      intro _ _ point hpoint
      cases hpoint
      exact hhalted.elim
  | failed _ error =>
      rw [hstatus] at hlistens
      exact hlistens
  | panicked _ _ => trivial

/-- The answer to the manifest. -/
theorem exchange_answered {call : Call} {attempt place : Nat}
    {memory : FolderTransferState} (hannounced : world.link.announced = some info)
    (hsender : world.sender = .sending call attempt (.running ⟨memory, .recvReady⟩))
    (hspoke : Spoke info place (.running ⟨memory, .recvReady⟩))
    (hfirst : nextItem memory = firstItem info)
    (hanswered : Answered (terms setup) info world) (hlistens : Listens setup info place world)
    {move : Move FolderSender.Scan} (hmove : ∀ error written, move ≠ .fail error written)
    {input : FolderSender.SenderInput} {link : Link} {after : FolderSender.SenderState}
    (hfed : SenderFed world.link ⟨memory, .recvReady⟩
      (FolderSender.action (senderSession setup world.link call) ⟨memory, .recvReady⟩) move input
      link)
    (hstep : (FolderSender.machine (senderSession setup world.link call)).step
      ⟨.running ⟨memory, .recvReady⟩, setup.source⟩ input = some after) :
    Exchange setup { world with sender := .sending call attempt after.status, link := link } := by
  obtain ⟨message, hhead, hlink, hnext⟩ := answers_of_step hmove hfed hstep
  have hafter := announced_of_senderFed hfed hannounced
  have hone : 1 = place := hspoke
  subst hone
  cases hanswered with
  | pending hnone _ =>
      rw [hnone] at hhead
      cases hhead
  | cancelled hcancel _ =>
      rw [hcancel] at hhead
      obtain ⟨rfl, _⟩ := List.cons.inj hhead
      have hstatus : after.status = .failed ⟨memory, .recvReady⟩ .cancelled := hnext
      refine @Exchange.opened _ _ info call attempt 1 _ hafter
        (congrArg (Phase.sending call attempt) hstatus) trivial le_rfl rfl ?_
      rw [hstatus]
      exact listens_ended hlistens trivial hlink
  | ready hready _ =>
      rw [hready] at hhead
      obtain ⟨rfl, _⟩ := List.cons.inj hhead
      have hstatus : after.status = .running ⟨memory, .fileHead 0⟩ := hnext
      have hspoken : said info ⟨memory, .fileHead 0⟩ = 1 := by
        change nextItem memory - firstItem info + 1 = 1
        rw [hfirst, Nat.sub_self]
      refine @Exchange.opened _ _ info call attempt 1 _ hafter
        (congrArg (Phase.sending call attempt) hstatus) hspoken le_rfl ⟨nofun, nofun⟩ ?_
      have hwritten : link.toReceiver = world.link.toReceiver := by rw [hlink]
      have haccepted : link.accepted = world.link.accepted := by rw [hlink]
      have hsaid : said info ⟨memory, .recvReady⟩ = 1 := rfl
      have hopened : link.opened = world.link.opened := by rw [hlink]
      refine listens_spoken hlistens hsaid (adds_nothing hwritten ?_) haccepted (Or.inr hopened) ?_
      · rw [hstatus]
        exact hspoken
      · intro hdeclined
        have hcancel := (hdeclined.cancelled call attempt _ hsender).2
        rw [hready] at hcancel
        cases hcancel

theorem live_of_moved {call : Call} {link after : Link} {point other : FolderSender.Point}
    {move : Move FolderSender.Scan} {status : FolderSender.PointStatus}
    (hmoved : SenderMoved setup info call link point move status after)
    (hnext : status = .running other) : Live other.stage := by
  cases hmoved with
  | fails _ _ | panics | completes _ _ => cases hnext
  | goes htalking _ _ =>
      cases hnext
      exact htalking.live
  | opens _ _ _ _ _ | sends _ _ | confirms _ _ _ _ _ =>
      cases hnext
      trivial

/-- A stream that is opened on a connection that holds is acknowledged. -/
theorem delivered_of_step {session : FolderSender.Session} {link after : Link}
    (hforward : link.forward = true) {point other : FolderSender.Point} {source : Store}
    {move : Move FolderSender.Scan} (hmove : ∀ error written, move ≠ .fail error written)
    {input : FolderSender.SenderInput} {sent : FolderSender.SenderState}
    (hfed : SenderFed link point (FolderSender.action session point) move input after)
    (hstep : (FolderSender.machine session).step ⟨.running point, source⟩ input = some sent)
    (hnext : sent.status = .running other) {task : FolderSender.FileTask}
    (hstage : other.stage = .awaitStopped task) : after.delivered = true := by
  have hasks := asks_of_step hstep hnext
  rw [hstage] at hasks
  obtain ⟨memory, stage⟩ := point
  cases hasks trivial with
  | stopped =>
      change SenderFed link _ (.openStream _) _ _ _ at hfed
      cases hfed with
      | fail _ => exact absurd rfl (hmove _ _)
      | openStream => exact hforward

/-- From Ready on. -/
theorem exchange_live (hpaired : Paired setup world) {call : Call} {attempt place : Nat}
    {point : FolderSender.Point} (hannounced : world.link.announced = some info)
    (hsender : world.sender = .sending call attempt (.running point)) (hlive : Live point.stage)
    (hspoke : Spoke info place (.running point)) (hplace : 1 ≤ place)
    (hlistens : Listens setup info place world) {move : Move FolderSender.Scan}
    (hmove : ∀ error written, move ≠ .fail error written) {input : FolderSender.SenderInput}
    {link : Link} {after : FolderSender.SenderState}
    (hfed : SenderFed world.link point
      (FolderSender.action (senderSession setup world.link call) point) move input link)
    (hstep : (FolderSender.machine (senderSession setup world.link call)).step
      ⟨.running point, setup.source⟩ input = some after) :
    Exchange setup { world with sender := .sending call attempt after.status, link := link } := by
  have hopened := opened_of_holding hpaired.holding hannounced
  obtain ⟨htalking, hreported⟩ := live_of_holding hpaired.holding hannounced hsender hlive
  have hpoint := hpaired.holding.sound.sender call attempt _ hsender
  have hmoved := senderMoved_of_step hopened.wellFormed hpaired.holding.sound.chunkSize hpoint
    htalking hfed hstep
  obtain ⟨more, hadds⟩ := adds_of_moved hopened.wellFormed hpaired.forward hpoint htalking hmove
    hfed hstep hmoved
  have hsaid : said info point = place := hspoke
  have hcount := hpaired.holding.flows.counted info call attempt point hannounced hsender hlive
  have hspeaks : Speaks setup info
      { world with sender := .sending call attempt after.status, link := link } after.status := by
    have hdelivered := fun other hnext task hstage =>
      @delivered_of_step _ _ _ hpaired.forward _ other _ _ hmove _ _ hfed hstep hnext task hstage
    have hstill := fun other => @live_of_moved _ _ _ _ _ _ other _ _ hmoved
    cases hstatus : after.status with
    | running other =>
        refine ⟨fun hready => ?_, hdelivered other hstatus⟩
        have hnext := hstill other hstatus
        rw [hready] at hnext
        exact hnext.elim
    | returned memory =>
        rw [hstatus] at hmoved
        cases hmoved with
        | completes hstage hall =>
            obtain ⟨memory, stage⟩ := point
            dsimp only at hstage hall
            subst hstage
            change world.link.opened.length = _
            change world.link.opened.length + 0 = offset _ info (nextItem memory) at hcount
            rw [← hall]
            exact hcount
    | failed failed error =>
        rw [hstatus] at hmoved
        cases hmoved with
        | fails _ hreason =>
            refine Bool.eq_false_iff.mpr fun hprotocol => ?_
            rcases hreason hprotocol with ⟨written, hfails⟩ | ⟨message, rest, hhead, hother⟩
            · exact hmove _ _ hfails
            · have hreplies := hreported.replies
              rw [hhead] at hreplies
              obtain ⟨peer, hpeer⟩ := hreplies.1
              exact hother peer hpeer
    | panicked _ _ => trivial
  refine @Exchange.opened _ _ info call attempt (place + more.length) _
    (announced_of_senderFed hfed hannounced) rfl ?_ (Nat.le_add_right_of_le hplace) hspeaks ?_
  · rw [← hsaid]
    exact hadds.spoke
  · refine listens_spoken hlistens hsaid hadds (accepted_of_senderFed hfed) (Or.inl hreported.ready)
      fun hdeclined => ?_
    have hready := (hdeclined.cancelled call attempt point hsender).1
    rw [hready] at hlive
    exact hlive.elim

theorem paired_sender (hpaired : Paired setup world) {move : Move FolderSender.Scan}
    (hsmooth : Smooth setup world (.sender move)) (hstepped : SenderStepped setup world move next)
    (hholding : Holding setup next) : Paired setup next := by
  have hmove := smooth_sender hsmooth
  cases hstepped with
  | intro hsender hfed hstep =>
      rename_i call attempt point input link after
      obtain ⟨hforward, hbackward, hprefix⟩ := kept_of_senderFed hfed
      refine ⟨hholding, hforward.trans hpaired.forward, hbackward.trans hpaired.backward, ?_, ?_⟩
      · change link.accepted ≤ link.opened.length
        rw [accepted_of_senderFed hfed]
        exact Nat.le_trans hpaired.accepted_le hprefix.length_le
      · cases hpaired.exchange with
        | early hother hearly hfits hsilent hreceiver hunread =>
            rw [hsender] at hother
            cases hother
            exact exchange_early hpaired hsender hearly hfits hsilent hreceiver hunread hsmooth hfed
              hstep
        | opened hannounced hother hspoke hplace hspeaks hlistens =>
            rw [hsender] at hother
            cases hother
            by_cases hlive : Live point.stage
            · exact exchange_live hpaired hannounced hsender hlive hspoke hplace hlistens hmove hfed
                hstep
            · obtain ⟨memory, stage⟩ := point
              cases stage with
              | begin | scan | sendInfo _ =>
                  have hzero : 0 = _ := hspoke
                  exact absurd hplace (hzero ▸ Nat.not_succ_le_zero 0)
              | recvReady =>
                  obtain ⟨hfirst, hanswered⟩ := hspeaks.1 rfl
                  exact exchange_answered hannounced hsender hspoke hfirst hanswered hlistens hmove
                    hfed hstep
              | fileHead _ | openSource _ | chunkHead _ | readChunk _ _ _ =>
                  exact absurd trivial hlive
              | openStream _ _ | awaitStopped _ | sendChecksum _ _ | recvChecksum _ _
              | sendComplete => exact absurd trivial hlive

/-! ## Steps of the receiver -/

theorem smooth_receiver {move : Move Bool} (hsmooth : Smooth setup world (.receiver move)) :
    ∀ error written, move ≠ .fail error written := by
  rintro error written rfl
  exact hsmooth

theorem not_fail_of_fed {link after : Link} {action : Action Message} {move : Move Bool}
    {error : Error} {written : Nat} (hmove : ∀ error written, move ≠ .fail error written) :
    ¬ReceiverFed link action move (.fail error written) after := by
  intro hfed
  cases hfed with
  | fail _ => exact hmove _ _ rfl

/-- Only a receiver that waits for a message takes one. -/
theorem taken_of_fed {link after : Link} {action : Action Message} {move : Move Bool}
    {input : FolderReceiver.ReceiverInput} (hmove : ∀ error written, move ≠ .fail error written)
    (hfed : ReceiverFed link action move input after) :
    (action = .receive ∧ ∃ message, input = .message message ∧
        link.toReceiver = message :: after.toReceiver) ∨
      action ≠ .receive ∧ (∀ message, input ≠ .message message) ∧
        after.toReceiver = link.toReceiver := by
  cases hfed with
  | fail _ => exact absurd rfl (hmove _ _)
  | receive hhead => exact Or.inl ⟨rfl, _, rfl, hhead⟩
  | answer | compute | perform | send | acceptStream _ => exact Or.inr ⟨nofun, nofun, rfl⟩

theorem kept_of_receiverFed {link after : Link} {action : Action Message} {move : Move Bool}
    {input : FolderReceiver.ReceiverInput} (hfed : ReceiverFed link action move input after) :
    after.forward = link.forward ∧ after.backward = link.backward := by
  cases hfed <;> exact ⟨rfl, rfl⟩

theorem accepted_le_of_fed {link after : Link} {action : Action Message} {move : Move Bool}
    {input : FolderReceiver.ReceiverInput} (hfed : ReceiverFed link action move input after)
    (hle : link.accepted ≤ link.opened.length) : after.accepted ≤ after.opened.length := by
  rw [(opened_of_receiverFed hfed).1]
  rcases accepted_of_fed hfed with ⟨hsame, _⟩ | ⟨_, _, hopened, _, htaken⟩
  · rw [hsame]
    exact hle
  · rw [htaken]
    exact (List.getElem?_eq_some_iff.mp hopened).1

/-- The receiver before the manifest: it is ready to read it. -/
theorem status_of_unread {session : FolderReceiver.Session} {point : FolderReceiver.Point}
    (hunread : Unread point) {link after : Link} (hnone : link.toReceiver = [])
    {state received : FolderReceiver.ReceiverState} (hpoint : state.status = .running point)
    {move : Move Bool} (hmove : ∀ error written, move ≠ .fail error written)
    {input : FolderReceiver.ReceiverInput}
    (hfed : ReceiverFed link (FolderReceiver.action session point) move input after)
    (hstep : (FolderReceiver.machine session).step state input = some received) :
    received.status = .running .recvInfo := by
  rcases eq_of_unread hunread with rfl | rfl
  · cases stepped_of_step hstep with
    | fail _ _ _ => exact absurd hfed (not_fail_of_fed hmove)
    | resume hstatus hreply hnext =>
        cases hpoint.symm.trans hstatus
        obtain ⟨_, value, rfl, _⟩ := Action.performed hreply
        rw [hnext]
        rfl
  · rcases taken_of_fed hmove hfed with ⟨_, message, _, hhead⟩ | ⟨hother, _, _⟩
    · rw [hnone] at hhead
      cases hhead
    · exact absurd rfl hother

/-- The stream the receiver takes is in order. -/
theorem plain_stream (hpaired : Paired setup world) (hannounced : world.link.announced = some info)
    {plan : FolderReceiver.Plan} {index item : Nat} {task : FileReceiver.Task} {seen : List Nat}
    {raw : Bytes} (hreceiver : world.receiver.status = .running (.file plan index task (.acceptUni seen)))
    (hopened : world.link.opened[world.link.accepted]? = some (item, raw)) :
    item = index ∧ Plain (FileReceiver.handleStream
      (FolderReceiver.fileSession (receiverSession setup world.link) plan.info) task seen raw) := by
  have hopen := opened_of_holding hpaired.holding hannounced
  have hinfo : WellFormed setup.chunkSize.toNat info := hopen.wellFormed
  have hsound := hpaired.holding.sound.receiver _ (by rw [hreceiver]; rfl)
  have hplan : plan.info = info := (hopen.knows _ hreceiver).resolve_left id
  subst hplan
  have hchunkSize : (receiverSession setup world.link).config.chunkSize = setup.chunkSize :=
    hpaired.holding.sound.chunkSize
  obtain ⟨file, hfile, hcount, hstreams⟩ := streamsToReceive_eq hinfo hchunkSize hsound.2.1
  have htook := hpaired.holding.flows.took plan.info hannounced
  rw [hreceiver] at htook
  have hshort : seen.length < (expected setup.chunkSize.toNat plan.info index).length :=
    hstreams ▸ hsound.2.2.2.2
  have hsize := hsound.1.size_le file (List.mem_of_getElem? hfile)
  obtain ⟨hitem, ⟨_, _, _, _, hcarries⟩, hfresh⟩ :=
    next_stream (firstItem_le_of_item hinfo hsound rfl rfl) (List.getElem?_eq_some_iff.mp hfile).1
      (hpaired.holding.flows.follows plan.info hannounced) hshort htook.1 htook.2 hopened
  have hrange : ∀ chunk ∈ expected setup.chunkSize.toNat plan.info index, chunk < task.totalChunks := by
    intro chunk hchunk
    rw [expected, hfile] at hchunk
    rw [FolderSender.eq_chunksOf_of_chunkCount hcount]
    exact (FolderSender.mem_remaining.mp hchunk).1
  have hmem := List.getElem_mem hshort
  exact ⟨hitem, plain_handleStream (width_of_expected hfile hsize _ hmem) (hrange _ hmem) hfresh
    hcarries⟩

/-- Whatever the receiver meets next, it does not call it a protocol error. -/
theorem plain_receiver (hpaired : Paired setup world) (hannounced : world.link.announced = some info)
    {point : FolderReceiver.Point} (hreceiver : world.receiver.status = .running point)
    (hreads : Reads info (heard info point) world.link.toReceiver) {move : Move Bool}
    (hmove : ∀ error written, move ≠ .fail error written) {input : FolderReceiver.ReceiverInput}
    {link : Link} {reply : Reply Message Bool} {store : Store}
    (hfed : ReceiverFed world.link
      (FolderReceiver.action (receiverSession setup world.link) point) move input link)
    (hreply : (FolderReceiver.action (receiverSession setup world.link) point).reply input
      world.receiver.store = some (reply, store)) :
    Plain (FolderReceiver.resume (receiverSession setup world.link) point reply) := by
  have hopen := opened_of_holding hpaired.holding hannounced
  have hsound := hpaired.holding.sound.receiver point (by rw [hreceiver]; rfl)
  refine plain_resume hopen.wellFormed hopen.good hsound (hopen.knows point hreceiver)
    (Action.fits_of_reply hreply) ?_ ?_
  · rintro plan index task seen raw rfl rfl
    change ReceiverFed _ .acceptStream _ _ _ at hfed
    cases hfed with
    | fail _ => exact absurd rfl (hmove _ _)
    | acceptStream hopened =>
        cases hreply
        exact (plain_stream hpaired hannounced hreceiver hopened).2
  · rintro message rfl
    have hinput := Action.input_of_reply_message hreply
    rcases taken_of_fed hmove hfed with ⟨_, other, hother, hhead⟩ | ⟨_, hnone, _⟩
    · cases hinput.symm.trans hother
      rw [hhead] at hreads
      exact hreads.1
    · exact absurd hinput (hnone message)

/-- While the receiver has not sent Ready, the sender waits for it. -/
theorem asked_of_unready (hpaired : Paired setup world)
    (hannounced : world.link.announced = some info) {call : Call} {attempt place : Nat}
    {speaker : FolderSender.Point}
    (hsender : world.sender = .sending call attempt (.running speaker))
    (hspoke : Spoke info place (.running speaker)) (hplace : 1 ≤ place)
    (hspeaks : Speaks setup info world (.running speaker)) {point : FolderReceiver.Point}
    (hreceiver : world.receiver.status = .running point) (hunready : Unready point) :
    speaker.stage = .recvReady ∧ world.link.toSender = [] := by
  by_cases hlive : Live speaker.stage
  · obtain ⟨_, hreported⟩ := live_of_holding hpaired.holding hannounced hsender hlive
    exact absurd hunready (hreported.ready point hreceiver)
  · obtain ⟨memory, stage⟩ := speaker
    cases stage with
    | begin | scan | sendInfo _ =>
        have hzero : 0 = place := hspoke
        omega
    | recvReady =>
        refine ⟨rfl, ?_⟩
        cases (hspeaks.1 rfl).2 with
        | pending hnone _ => exact hnone
        | cancelled _ hhalted =>
            rw [hreceiver] at hhalted
            exact hhalted.elim
        | ready _ hreported => exact absurd hunready (hreported.ready point hreceiver)
    | fileHead _ | openSource _ | chunkHead _ | readChunk _ _ _ => exact absurd trivial hlive
    | openStream _ _ | awaitStopped _ | sendChecksum _ _ | recvChecksum _ _ | sendComplete =>
        exact absurd trivial hlive

/-- What the receiver's step makes of what it has read. -/
theorem listens_received (hpaired : Paired setup world)
    (hannounced : world.link.announced = some info) {call : Call} {attempt place : Nat}
    {status : FolderSender.PointStatus} (hsender : world.sender = .sending call attempt status)
    (hspoke : Spoke info place status) (hplace : 1 ≤ place)
    (hspeaks : Speaks setup info world status) {point : FolderReceiver.Point}
    (hreceiver : world.receiver.status = .running point)
    (hlistens : Listens setup info place world) {move : Move Bool}
    (hmove : ∀ error written, move ≠ .fail error written) {input : FolderReceiver.ReceiverInput}
    {link : Link} {received : FolderReceiver.ReceiverState}
    (hfed : ReceiverFed world.link
      (FolderReceiver.action (receiverSession setup world.link) point) move input link)
    (hstep : (FolderReceiver.machine (receiverSession setup world.link)).step world.receiver input =
      some received) :
    Listens setup info place { world with receiver := received, link := link } := by
  have hopen := opened_of_holding hpaired.holding hannounced
  have hsound := hpaired.holding.sound.receiver point (by rw [hreceiver]; rfl)
  have hknows := hopen.knows point hreceiver
  have hopened := (opened_of_receiverFed hfed).1
  have hmoved := receiverMoved_of_step hopen.wellFormed hsound hknows
    (hopen.heard point hreceiver) hreceiver hfed hstep
  have htook := hpaired.holding.flows.took info hannounced
  rw [hreceiver] at htook
  unfold Listens at hlistens
  rw [hreceiver] at hlistens
  obtain ⟨hcount, hreads, hnone⟩ := hlistens
  cases stepped_of_step hstep with
  | fail _ _ _ => exact absurd hfed (not_fail_of_fed hmove)
  | resume hstatus hreply hnext =>
      rename_i other reply store
      cases hreceiver.symm.trans hstatus
      have hfits : (FolderReceiver.action (receiverSession setup world.link) point).Fits reply :=
        Action.fits_of_reply hreply
      have hplain := plain_receiver hpaired hannounced hreceiver hreads hmove hfed hreply
      unfold Listens
      cases hresult : received.status with
      | running next =>
          have hresume : FolderReceiver.resume (receiverSession setup world.link) point reply =
              .running next := by
            rw [hnext] at hresult
            exact hresult
          have hheard := heard_resume hopen.wellFormed hsound hknows hfits hresume
          have hunready : Unready next → link.opened = [] := by
            intro hlater
            refine hopened.trans (hnone ?_)
            by_contra hready
            exact unready_of_moved hmoved hready hresult hlater
          rcases taken_of_fed hmove hfed with ⟨haction, message, _, hhead⟩ | ⟨haction, _, hsame⟩
          · rw [if_pos haction] at hheard
            rw [hhead] at hcount hreads
            refine ⟨?_, ?_, hunready⟩
            · rw [List.length_cons] at hcount
              change heard info next + link.toReceiver.length = place
              omega
            · change Reads info (heard info next) link.toReceiver
              rw [hheard]
              exact hreads.2
          · rw [if_neg haction, Nat.add_zero] at hheard
            refine ⟨?_, ?_, hunready⟩
            · change heard info next + link.toReceiver.length = place
              rw [hheard, hsame]
              exact hcount
            · change Reads info (heard info next) link.toReceiver
              rw [hheard, hsame]
              exact hreads
      | returned summary =>
          have hresume : FolderReceiver.resume (receiverSession setup world.link) point reply =
              .returned summary := by
            rw [hnext] at hresult
            exact hresult
          rcases FolderReceiver.resume_returned hfits hresume with ⟨rfl, _⟩ | ⟨plan, rfl, _⟩
          · change ReceiverFed _ (.send .cancel) _ _ _ at hfed
            cases hfed with
            | fail _ => exact absurd rfl (hmove _ _)
            | send =>
                refine Or.inr ⟨hnone trivial, htook, ?_⟩
                intro other again speaker hspeaker
                cases hsender.symm.trans hspeaker
                obtain ⟨hstage, hempty⟩ :=
                  asked_of_unready hpaired hannounced hsender hspoke hplace hspeaks hreceiver trivial
                refine ⟨hstage, ?_⟩
                change (if world.link.backward then world.link.toSender ++ [_] else _) = _
                rw [if_pos hpaired.backward, hempty]
                rfl
          · have hplan : plan.info = info := hknows.resolve_left id
            change ReceiverFed _ .receive _ _ _ at hfed
            cases hfed with
            | fail _ => exact absurd rfl (hmove _ _)
            | receive hhead =>
                refine Or.inl ⟨?_, htook⟩
                rw [hhead, List.length_cons] at hcount
                change info.items.length - firstItem info + 1 + _ = place at hcount
                rw [total]
                omega
      | failed last error =>
          refine hplain last error ?_
          rw [hnext] at hresult
          exact hresult
      | panicked _ _ => trivial

theorem paired_receiver (hpaired : Paired setup world) {move : Move Bool}
    (hsmooth : Smooth setup world (.receiver move)) (hstepped : ReceiverStepped setup world move next)
    (hholding : Holding setup next) : Paired setup next := by
  have hmove := smooth_receiver hsmooth
  cases hstepped with
  | intro hreceiver hfed hstep =>
      rename_i point input link received
      obtain ⟨hforward, hbackward⟩ := kept_of_receiverFed hfed
      obtain ⟨hopened, hdelivered, hannouncedSame⟩ := opened_of_receiverFed hfed
      refine ⟨hholding, hforward.trans hpaired.forward, hbackward.trans hpaired.backward,
        accepted_le_of_fed hfed hpaired.accepted_le, ?_⟩
      cases hpaired.exchange with
      | early hsender hearly hfits hsilent hother hunread =>
          cases hreceiver.symm.trans hother
          have hempty := (silent_of_holding hpaired.holding hsilent).1
          exact .early hsender hearly hfits (hannouncedSame.trans hsilent)
            (status_of_unread hunread hempty hreceiver hmove hfed hstep) trivial
      | opened hannounced hsender hspoke hplace hspeaks hlistens =>
          rename_i info call attempt place status
          have hopen := opened_of_holding hpaired.holding hannounced
          have hserves := serves_of_sound hpaired.holding.sound hreceiver received
          have hmoved := receiverMoved_of_step hopen.wellFormed hserves.sound
            (hopen.knows point hreceiver) (hopen.heard point hreceiver) hreceiver hfed hstep
          refine .opened (hannouncedSame.trans hannounced) hsender hspoke hplace ?_
            (listens_received hpaired hannounced hsender hspoke hplace hspeaks hreceiver hlistens
              hmove hfed hstep)
          cases status with
          | running speaker =>
              exact ⟨fun hready => (hspeaks.1 hready).imp_right fun hanswered =>
                  answered_receiver hanswered hserves hopen hmoved,
                fun task hstage => hdelivered.trans (hspeaks.2 task hstage)⟩
          | returned _ => exact (congrArg List.length hopened).trans hspeaks
          | failed _ _ => exact hspeaks
          | panicked _ _ => trivial

theorem paired_step (hdecode : Invertible setup.codec) (hpaired : Paired setup world) {event : Event}
    (hsmooth : Smooth setup world event) (hstep : step setup world event = some next) :
    Paired setup next := by
  have hhonest : HonestEvent setup Acceptable event := by
    cases event with
    | sender move =>
        cases move with
        | answer scan => exact @honest_of_scans setup (.sender (.answer scan)) hsmooth.1
        | proceed | fail _ _ => trivial
    | start _ _ _ _ | receiver _ | loseForward | loseBackward | save _ | reconnect _ | finish _ =>
        trivial
  have hholding := holding_step hdecode hhonest hpaired.holding hstep
  cases event with
  | sender move => exact paired_sender hpaired hsmooth (senderStepped_of_step hstep) hholding
  | receiver move => exact paired_receiver hpaired hsmooth (receiverStepped_of_step hstep) hholding
  | start _ _ _ _ | loseForward | loseBackward | save _ | reconnect _ | finish _ =>
      exact hsmooth.elim

/-! ## The beginning -/

theorem paired_connect (hsound : Sound setup Acceptable world) {config : ConfigMessage}
    (hchunkSize : config.chunkSize = setup.chunkSize) {call : Call} (attempt : Nat)
    {memory : FolderTransferState} (hmemory : SoundMemory setup Acceptable memory)
    (hframe : memory.files ≠ [] → FitsFrame memory call.transferId) :
    Paired setup (connect world config call attempt memory) := by
  refine ⟨⟨sound_connect hsound hchunkSize call attempt hmemory, standing_connect _ _ _ _,
    flows_connect _ _ _ _⟩, rfl, rfl, le_rfl, ?_⟩
  exact .early rfl trivial (fun _ => hframe) rfl rfl trivial

/-- What an attempt on a new connection starts from. -/
theorem connected_of_step (hsound : Sound setup Acceptable world) {event : Event}
    (hconnects : (event.resumes world).isSome = true) (hstep : step setup world event = some next) :
    ∃ config call attempt memory, next = connect world config call attempt memory ∧
      config.chunkSize = setup.chunkSize ∧ SoundMemory setup Acceptable memory := by
  cases networkStepped_of_step hstep with
  | start call _ hchunkSize =>
      refine ⟨_, _, 0, _, rfl, hchunkSize, soundMemory_loadState ?_ hsound.saved _ _⟩
      intro file hfile
      cases hfile
  | reconnect hsender _ =>
      exact ⟨world.link.config, _, _, _, rfl, hsound.chunkSize,
        hsound.memory _ (memory?_of_sender hsender rfl)⟩
  | unreachable _ | sender _ | receiver _ | loseForward | loseBackward | save _ _ | finish _ _ =>
      cases hconnects

end P2PFileTransfer.Transfer.Lockstep
