import P2PFileTransfer.Transfer.Streams

/-!
# The messages to the receiver

What a sender writes to one connection is fixed by its manifest: the manifest itself, one
checksum for each item that is not finished, then Complete.  Each side stands at a place
of this script, and moves on by one when it writes or reads a message.
-/

namespace P2PFileTransfer.Transfer.Script

open P2PFileTransfer.Foundation.ByteFile
open P2PFileTransfer.Foundation.FileSystem
open P2PFileTransfer.Foundation.FixedWidth
open P2PFileTransfer.Foundation.Process
open P2PFileTransfer.Foundation.UnixPath
open P2PFileTransfer.Core
open P2PFileTransfer.Core.Protocol
open P2PFileTransfer.Core.TransferFile
open P2PFileTransfer.Core.TransferFolder
open P2PFileTransfer.Transfer.Network
open P2PFileTransfer.Transfer.ReceiverLane
open P2PFileTransfer.Transfer.Schedule
open P2PFileTransfer.Transfer.SenderLane
open P2PFileTransfer.Transfer.Streams

/-- The message at a place of the script. -/
def Says (info : TransferInfo) (place : Nat) (message : Message) : Prop :=
  match place with
  | 0 => message = .transferInfo info
  | place + 1 =>
      if firstItem info + place < info.items.length then
        ∃ peer, message = .fileChecksum peer ∧ peer.fileIndex = truncate 32 (firstItem info + place)
      else ∃ complete, message = .complete complete

/-- The messages stand one after the other in the script. -/
def Reads (info : TransferInfo) : Nat → List Message → Prop
  | _, [] => True
  | place, message :: rest => Says info place message ∧ Reads info (place + 1) rest

/-- The length of the script. -/
def total (info : TransferInfo) : Nat := info.items.length - firstItem info + 2

/-- How many messages a receiver has read. -/
def heard (info : TransferInfo) : FolderReceiver.Point → Nat
  | .prepare | .recvInfo => 0
  | .decide _ | .sendCancel | .createOutputDir _ | .sendReady _ => 1
  | .fileHead _ index | .createParent _ index _ | .file _ index _ _ => index - firstItem info + 1
  | .recvComplete _ => info.items.length - firstItem info + 1

/-- How many messages a sender has written. -/
def said (info : TransferInfo) (point : FolderSender.Point) : Nat :=
  match point.stage with
  | .begin | .scan | .sendInfo _ => 0
  | .recvReady => 1
  | .fileHead _ | .openSource _ | .chunkHead _ | .readChunk _ _ _ | .openStream _ _
  | .awaitStopped _ | .sendChecksum _ _ | .sendComplete =>
      nextItem point.memory - firstItem info + 1
  | .recvChecksum _ _ => nextItem point.memory - firstItem info + 2

/-- A sender that has written so many messages, or has given up. -/
def Spoke (info : TransferInfo) (place : Nat) : FolderSender.PointStatus → Prop
  | .running point => said info point = place
  | .returned _ => total info = place
  | .failed _ _ | .panicked _ _ => True

variable {setup : Setup} {info : TransferInfo} {place index accepted : Nat} {messages : List Message}

theorem Reads.append (hreads : Reads info place messages) {more : List Message}
    (hmore : Reads info (place + messages.length) more) : Reads info place (messages ++ more) := by
  induction messages generalizing place with
  | nil => exact hmore
  | cons head rest ih =>
      refine ⟨hreads.1, ih hreads.2 ?_⟩
      rw [List.length_cons, ← Nat.add_assoc] at hmore
      rw [Nat.add_right_comm]
      exact hmore

/-- The checksum of an item, at its place. -/
theorem says_checksum (hfirst : firstItem info ≤ index) (hindex : index < info.items.length)
    {message : Message} :
    Says info (index - firstItem info + 1) message ↔
      ∃ peer, message = .fileChecksum peer ∧ peer.fileIndex = truncate 32 index := by
  simp only [Says, Nat.add_sub_cancel' hfirst, if_pos hindex]

theorem says_complete (hfirst : firstItem info ≤ info.items.length) (message : CompleteMessage) :
    Says info (info.items.length - firstItem info + 1) (.complete message) := by
  simp only [Says, Nat.add_sub_cancel' hfirst, if_neg (Nat.lt_irrefl _)]
  exact ⟨message, rfl⟩

/-! ## The receiver -/

/-- What the call that receives an item makes of the place in the script. -/
theorem heard_started {session : FolderReceiver.Session} {plan : FolderReceiver.Plan}
    {point next : FolderReceiver.Point} {size : Nat} {fullPath : OsStr}
    {status : FolderReceiver.PointStatus}
    (hstarted : FolderReceiver.Started session plan point index size fullPath status)
    (hnext : status = .running next) : heard info next = index - firstItem info + 1 := by
  cases hstarted <;> cases hnext
  rfl

theorem heard_visited {session : FolderReceiver.Session} {plan : FolderReceiver.Plan}
    {next : FolderReceiver.Point} {status : FolderReceiver.PointStatus} {chunkSize : Nat}
    (hinfo : WellFormed chunkSize info) (hplan : plan.info = info)
    (hindex : index ≤ info.items.length)
    (hvisited : FolderReceiver.Visited session plan index status) (hnext : status = .running next) :
    heard info next = index - firstItem info + 1 := by
  subst hplan
  cases hvisited with
  | ends hnone =>
      cases hnext
      rw [Nat.le_antisymm hindex (List.getElem?_eq_none_iff.mp hnone)]
      rfl
  | skips hfile hskip =>
      cases hnext
      have hless := (skips_iff_lt hinfo (List.getElem?_eq_some_iff.mp hfile).1).mp hskip
      change index + 1 - firstItem plan.info + 1 = index - firstItem plan.info + 1
      omega
  | refuses _ _ => cases hnext
  | creates _ _ _ =>
      cases hnext
      rfl
  | starts _ _ _ hstarted => exact heard_started hstarted hnext

/-- Reading the checksum of the peer ends the call that receives an item. -/
theorem ne_receive_of_running {session : FileReceiver.Session} {task : FileReceiver.Task}
    {stage next : FileReceiver.Stage} {reply : Reply Message Bool}
    (hfits : (FileReceiver.action session task stage).Fits reply)
    (hnext : FileReceiver.resume session task stage reply = .running next) :
    FileReceiver.action session task stage ≠ .receive := by
  cases stage with
  | recvChecksum checksum =>
      cases reply with
      | message message =>
          change FileReceiver.compareChecksum task checksum message = .running next at hnext
          rcases FileReceiver.compareChecksum_cases task checksum message with
            ⟨_, hresult⟩ | ⟨hresult, _⟩ <;> rw [hresult] at hnext <;> cases hnext
      | done | answer _ | value _ | stream _ => exact hfits.elim
  | begin | createParent _ | openPartial _ | setLen _ | acceptUni _ => nofun
  | writeChunk _ _ _ _ | rename | reread | sendChecksum _ => nofun

/-- A step of the receiver moves on by one exactly when it reads a message. -/
theorem heard_resume {session : FolderReceiver.Session} {chunkSize : Nat}
    (hinfo : WellFormed chunkSize info) {point next : FolderReceiver.Point}
    {reply : Reply Message Bool} (hsound : point.Sound session) (hknows : Knows info point)
    (hfits : (FolderReceiver.action session point).Fits reply)
    (hnext : FolderReceiver.resume session point reply = .running next) :
    heard info next =
      heard info point + if FolderReceiver.action session point = .receive then 1 else 0 := by
  refine FolderReceiver.resume_elim (motive := fun point status => point.Sound session →
      Knows info point → ∀ next, status = .running next → heard info next =
        heard info point + if FolderReceiver.action session point = .receive then 1 else 0)
    ?prepare ?info ?accept ?reject ?cancel ?output ?ready ?head ?parent ?file ?complete
    point reply hfits hsound hknows next hnext
  case prepare =>
      intro _ _ next hnext
      cases hnext
      rfl
  case info =>
      intro message status hread _ _ next hnext
      cases hread <;> cases hnext
      rfl
  case accept =>
      intro info status hplanned _ _ next hnext
      cases hplanned <;> cases hnext
      rfl
  case reject | output =>
      intro _ _ _ next hnext
      cases hnext
      rfl
  case cancel | complete => exact fun _ _ => nofun
  case ready =>
      intro plan _ _ next hnext
      cases hnext
      change 0 - firstItem info + 1 = 1
      rw [Nat.zero_sub]
  case head =>
      intro plan index status hvisited hhead hknows next hnext
      have hplan : plan.info = info := hknows.resolve_left id
      exact heard_visited hinfo hplan (hplan ▸ hhead.2) hvisited hnext
  case parent =>
      exact fun plan index fullPath status hstarted _ _ next hnext => heard_started hstarted hnext
  case file =>
      intro plan index task stage reply hfits hpoint hknows next hnext
      have hplan : plan.info = info := hknows.resolve_left id
      have hfirst : firstItem info ≤ index := firstItem_le_of_item hinfo hpoint hplan rfl
      have hreturned := (FileReceiver.resume_ends hfits).1
      cases hinner : FileReceiver.resume (FolderReceiver.fileSession session plan.info) task stage
          reply with
      | running other =>
          rw [hinner] at hnext
          cases hnext
          have hquiet : FolderReceiver.action session (.file plan index task stage) ≠ .receive :=
            ne_receive_of_running hfits hinner
          rw [if_neg hquiet]
          rfl
      | returned done =>
          rw [hinner] at hnext
          cases hnext
          obtain ⟨checksum, rfl⟩ := hreturned done hinner
          change index + 1 - firstItem info + 1 = index - firstItem info + 1 + 1
          omega
      | failed _ _ | panicked _ _ =>
          rw [hinner] at hnext
          cases hnext

/-! ## Errors of the receiver -/

/-- The status is no protocol error. -/
def Plain {Point Result : Type} (status : Status Point Result Error) : Prop :=
  ∀ point error, status = .failed point error → error.isProtocol = false

/-- The stream at hand belongs to the item at hand and is in order, though it may be too long. -/
theorem plain_handleStream {session : FileReceiver.Session} {task : FileReceiver.Task}
    {seen : List Nat} {chunk : Nat} {raw data : Bytes} (hwidth : chunk < 2 ^ 64)
    (hrange : chunk < task.totalChunks) (hfresh : chunk ∉ seen)
    (hcarries : FolderSender.CarriesChunk session.codec session.config raw chunk data) :
    Plain (FileReceiver.handleStream session task seen raw) := by
  obtain ⟨payload, compressed, rfl, hpayload⟩ := hcarries
  intro stage error hfailed
  rcases FileReceiver.handleStream_cases session task seen (chunkStream chunk compressed payload) with
    ⟨other, haccept, hresult⟩ | ⟨_, hresult⟩ | ⟨_, _, _, ⟨_, hresult, _⟩ | hresult⟩ <;>
    rw [hresult] at hfailed <;> cases hfailed
  by_cases hlong : maxChunkStreamBytes < (chunkStream chunk compressed payload).length
  · rw [acceptChunk, if_pos hlong] at haccept
    cases haccept
    rfl
  · have hlength := length_chunkStream chunk compressed payload
    rw [acceptChunk_chunkStream hwidth (by omega) hrange hfresh hpayload] at haccept
    cases haccept

/-- The call that receives an item fails with a protocol error only over what it is sent. -/
theorem plain_resume_file {session : FileReceiver.Session} {task : FileReceiver.Task}
    (hstreams : task.streamsToReceive ≤ task.totalChunks) {stage : FileReceiver.Stage}
    {reply : Reply Message Bool} (hfits : (FileReceiver.action session task stage).Fits reply)
    (hstream : ∀ seen raw, stage = .acceptUni seen → reply = .stream raw →
      Plain (FileReceiver.handleStream session task seen raw))
    (hmessage : ∀ checksum message, stage = .recvChecksum checksum → reply = .message message →
      ∃ peer, message = .fileChecksum peer ∧ peer.fileIndex = task.fileIndex) :
    Plain (FileReceiver.resume session task stage reply) := by
  intro point error hfailed
  cases stage <;> cases reply <;> try exact hfits.elim
  case begin.done =>
      rcases FileReceiver.openWriter_cases session task with
        ⟨_, _, hmany⟩ | ⟨_, hresult⟩ | ⟨_, hresult⟩ | ⟨_, hresult⟩
      · exact absurd hstreams (Nat.not_le.mpr hmany)
      · rw [FileReceiver.resume, hresult] at hfailed
        cases hfailed
      · rw [FileReceiver.resume, hresult] at hfailed
        cases hfailed
      · rw [FileReceiver.resume, hresult] at hfailed
        cases hfailed
  case setLen.value expected value =>
      rcases FileReceiver.continueLoop_cases task [] with ⟨_, hresult⟩ | ⟨_, hresult⟩ <;>
        rw [FileReceiver.resume, hresult] at hfailed <;> cases hfailed
  case writeChunk.value seen _ _ _ value =>
      rcases FileReceiver.continueLoop_cases task seen with ⟨_, hresult⟩ | ⟨_, hresult⟩ <;>
        rw [FileReceiver.resume, hresult] at hfailed <;> cases hfailed
  case acceptUni.stream seen raw => exact hstream seen raw rfl rfl point error hfailed
  case recvChecksum.message checksum message =>
      obtain ⟨peer, rfl, hindex⟩ := hmessage checksum message rfl rfl
      simp only [FileReceiver.resume, FileReceiver.compareChecksum, hindex, ne_eq,
        not_true_eq_false, if_false] at hfailed
      split at hfailed <;> cases hfailed
      rfl
  case reread.value value => cases value <;> cases hfailed
  case createParent.value | openPartial.value | rename.value | sendChecksum.done => cases hfailed

/-- Files a receiver takes: within the bound, under a path it accepts. -/
def Acceptable (files : List FileMetadata) : Prop :=
  ∀ file ∈ files, file.size ≤ maxTransferFileSize ∧ ∃ clean, sanitizeRelativePath file.path = .ok clean

theorem plain_started {session : FolderReceiver.Session} {plan : FolderReceiver.Plan}
    {point : FolderReceiver.Point} {size : Nat} {fullPath : OsStr}
    {status : FolderReceiver.PointStatus}
    (hstarted : FolderReceiver.Started session plan point index size fullPath status) :
    Plain status := by
  intro other error hfailed
  cases hstarted <;> cases hfailed

/-- A receiver of acceptable files fails with a protocol error only over what it is sent. -/
theorem plain_resume {session : FolderReceiver.Session} {chunkSize : Nat}
    (hinfo : WellFormed chunkSize info) (hacceptable : Acceptable info.items)
    {point : FolderReceiver.Point} {reply : Reply Message Bool} (hsound : point.Sound session)
    (hknows : Knows info point) (hfits : (FolderReceiver.action session point).Fits reply)
    (hstream : ∀ plan index task seen raw, point = .file plan index task (.acceptUni seen) →
      reply = .stream raw →
      Plain (FileReceiver.handleStream (FolderReceiver.fileSession session plan.info) task seen raw))
    (hmessage : ∀ message, reply = .message message → Says info (heard info point) message) :
    Plain (FolderReceiver.resume session point reply) := by
  intro last error hfailed
  cases point
  case file plan index task stage =>
      have hplan : plan.info = info := hknows.resolve_left id
      have hfile := hsound.2.1
      have hinner : Plain (FileReceiver.resume (FolderReceiver.fileSession session plan.info) task
          stage reply) := by
        refine plain_resume_file ?_ hfits ?_ ?_
        · rw [hfile.streams]
          exact Nat.sub_le _ _
        · intro seen raw hstage
          exact hstream plan index task seen raw (by rw [hstage])
        · intro checksum message _ hreply
          obtain ⟨file, _, hitem, _⟩ := hfile.receives.path
          rw [hfile.fileIndex]
          refine (says_checksum (firstItem_le_of_item hinfo hsound hplan rfl) ?_).mp
            (hmessage message hreply)
          exact hplan ▸ (List.getElem?_eq_some_iff.mp hitem).1
      cases hresult : FileReceiver.resume (FolderReceiver.fileSession session plan.info) task stage
          reply with
      | running _ | returned _ | panicked _ _ =>
          rw [FolderReceiver.resume, hresult] at hfailed
          cases hfailed
      | failed other reason =>
          rw [FolderReceiver.resume, hresult] at hfailed
          cases hfailed
          exact hinner other error hresult
  all_goals cases reply <;> try exact hfits.elim
  case recvInfo.message message =>
      obtain rfl : message = .transferInfo info := hmessage message rfl
      rw [FolderReceiver.resume, FolderReceiver.readManifest_eq hinfo.nonempty fun file hfile =>
        (hacceptable file hfile).1] at hfailed
      cases hfailed
  case decide.answer other accept =>
      cases accept with
      | false => cases hfailed
      | true =>
          have hplanned := FolderReceiver.planned session other
          change FolderReceiver.resume session (.decide other) (.answer true) = _ at hfailed
          change FolderReceiver.Planned session other
            (FolderReceiver.resume session (.decide other) (.answer true)) at hplanned
          rw [hfailed] at hplanned
          cases hplanned
  case fileHead.done plan index =>
      have hplan : plan.info = info := hknows.resolve_left id
      have hvisited := FolderReceiver.visited session plan index
      change FolderReceiver.visitFile session plan index = _ at hfailed
      rw [hfailed] at hvisited
      cases hvisited with
      | refuses hfile hsanitize =>
          obtain ⟨_, clean, hclean⟩ := hacceptable _ (hplan ▸ List.mem_of_getElem? hfile)
          rw [hclean] at hsanitize
          cases hsanitize
      | starts _ _ _ hstarted => exact plain_started hstarted last error rfl
  case createParent.value plan index fullPath value =>
      exact plain_started (FolderReceiver.started _ _ _ _ _ _) last error hfailed
  case prepare.value | sendCancel.done | createOutputDir.value | sendReady.done => cases hfailed
  case recvComplete.message => cases hfailed

/-! ## The sender -/

/-- What a sender adds to the script. -/
structure Adds (info : TransferInfo) (link : Link) (point : FolderSender.Point)
    (status : FolderSender.PointStatus) (after : Link) (more : List Message) : Prop where
  written : after.toReceiver = link.toReceiver ++ more
  reads : Reads info (said info point) more
  spoke : Spoke info (said info point + more.length) status

theorem adds_nothing {link after : Link} {point : FolderSender.Point}
    {status : FolderSender.PointStatus} (hwritten : after.toReceiver = link.toReceiver)
    (hspoke : Spoke info (said info point) status) : Adds info link point status after [] :=
  ⟨hwritten.trans (List.append_nil _).symm, trivial, hspoke⟩

theorem adds_message {link : Link} (hforward : link.forward = true) {point : FolderSender.Point}
    {status : FolderSender.PointStatus} {message : Message}
    (hsaid : Says info (said info point) message)
    (hspoke : Spoke info (said info point + 1) status) :
    Adds info link point status (link.sendForward message) [message] := by
  refine ⟨?_, ⟨hsaid, trivial⟩, hspoke⟩
  change (if link.forward then _ else _) = _
  rw [if_pos hforward]

/-- Between two checksums a sender stands at the place of its item. -/
theorem said_of_live {point : FolderSender.Point} (hlive : Live point.stage)
    (hstage : ∀ index checksum, point.stage ≠ .recvChecksum index checksum) :
    said info point = nextItem point.memory - firstItem info + 1 := by
  obtain ⟨memory, stage⟩ := point
  cases stage with
  | begin | scan | sendInfo _ | recvReady => exact hlive.elim
  | recvChecksum index checksum => exact absurd rfl (hstage index checksum)
  | fileHead _ | openSource _ | chunkHead _ | readChunk _ _ _ | openStream _ _ => rfl
  | awaitStopped _ | sendChecksum _ _ | sendComplete => rfl

theorem sends_of_fed {link after : Link} {point : FolderSender.Point} {message : Message}
    {move : Move FolderSender.Scan} {input : FolderSender.SenderInput}
    (hmove : ∀ error written, move ≠ .fail error written)
    (hfed : SenderFed link point (.send message) move input after) :
    after = link.sendForward message := by
  cases hfed with
  | fail _ => exact absurd rfl (hmove _ _)
  | send => rfl

theorem receives_of_fed {link after : Link} {point : FolderSender.Point}
    {move : Move FolderSender.Scan} {input : FolderSender.SenderInput}
    (hmove : ∀ error written, move ≠ .fail error written)
    (hfed : SenderFed link point .receive move input after) :
    ∃ message, input = .message message ∧ link.toSender = message :: after.toSender ∧
      after = { link with toSender := after.toSender } := by
  cases hfed with
  | fail _ => exact absurd rfl (hmove _ _)
  | receive hhead => exact ⟨_, rfl, hhead, rfl⟩

/-- A step that leaves the connection alone is no exchange of checksums. -/
theorem no_exchange {session : FolderSender.Session} {link : Link} (hforward : link.forward = true)
    {point next : FolderSender.Point} {source : Store} {move : Move FolderSender.Scan}
    (hmove : ∀ error written, move ≠ .fail error written) {input : FolderSender.SenderInput}
    {sent : FolderSender.SenderState}
    (hfed : SenderFed link point (FolderSender.action session point) move input link)
    (hstep : (FolderSender.machine session).step ⟨.running point, source⟩ input = some sent)
    (hnext : sent.status = .running next) :
    (∀ index checksum, point.stage ≠ .recvChecksum index checksum) ∧
      ∀ index checksum, next.stage ≠ .recvChecksum index checksum := by
  refine ⟨?_, ?_⟩
  · intro index checksum hstage
    rw [FolderSender.action, hstage] at hfed
    obtain ⟨message, _, hhead, _⟩ := receives_of_fed hmove hfed
    exact List.cons_ne_self message _ hhead.symm
  · intro index checksum hstage
    have hasks := asks_of_step hstep hnext
    rw [hstage] at hasks
    generalize hbefore : point.stage = before at hasks
    cases hasks trivial with
    | checksum =>
        rw [FolderSender.action, hbefore] at hfed
        have hwritten := congrArg Link.toReceiver (sends_of_fed hmove hfed)
        change link.toReceiver = if link.forward then link.toReceiver ++ [_] else _ at hwritten
        rw [if_pos hforward] at hwritten
        exact List.cons_ne_nil _ _ (List.self_eq_append_right.mp hwritten)

/-- A sender that has been told Ready goes on along the script. -/
theorem adds_of_moved {chunkSize : Nat} (hinfo : WellFormed chunkSize info) {call : SendPath.Call}
    {link after : Link} (hforward : link.forward = true) {point : FolderSender.Point}
    (hsound : FolderSender.SoundStatus (senderSession setup link call) setup.source (.running point))
    (htalking : Talking info point) {move : Move FolderSender.Scan}
    (hmove : ∀ error written, move ≠ .fail error written) {input : FolderSender.SenderInput}
    {sent : FolderSender.SenderState}
    (hfed : SenderFed link point (FolderSender.action (senderSession setup link call) point) move
      input after)
    (hstep : (FolderSender.machine (senderSession setup link call)).step
      ⟨.running point, setup.source⟩ input = some sent)
    (hmoved : SenderMoved setup info call link point move sent.status after) :
    ∃ more, Adds info link point sent.status after more := by
  generalize hstatus : sent.status = status at hmoved
  have hfirst := htalking.first_le
  cases hmoved with
  | fails hlink _ =>
      refine ⟨[], adds_nothing ?_ trivial⟩
      rcases hlink with rfl | ⟨_, _, _, rfl⟩ <;> rfl
  | panics => exact ⟨[], adds_nothing rfl trivial⟩
  | goes hnext _ hitem =>
      obtain ⟨hbefore, hafter⟩ := no_exchange hforward hmove hfed hstep hstatus
      refine ⟨[], adds_nothing rfl ?_⟩
      change said info _ = said info point
      rw [said_of_live hnext.live hafter, said_of_live htalking.live hbefore, hitem]
  | opens hstage _ _ hnext _ =>
      refine ⟨[], adds_nothing rfl ?_⟩
      have hbefore : said info point = nextItem point.memory - firstItem info + 1 :=
        said_of_live htalking.live fun _ _ hother => by
          rw [hstage] at hother
          cases hother
      rw [hbefore]
      rfl
  | sends hstage hnext =>
      obtain ⟨memory, stage⟩ := point
      dsimp only at hstage
      subst hstage
      obtain ⟨_, file, hfile, _, _⟩ := hsound
      have hindex : nextItem memory < info.items.length :=
        htalking.files ▸ (List.getElem?_eq_some_iff.mp hfile).1
      exact ⟨_, adds_message hforward ((says_checksum hfirst hindex).mpr ⟨_, rfl, rfl⟩) rfl⟩
  | confirms hstage _ _ hnext hitem =>
      obtain ⟨memory, stage⟩ := point
      dsimp only at hstage
      subst hstage
      refine ⟨[], adds_nothing rfl ?_⟩
      dsimp only at hfirst hitem
      change nextItem (FolderSender.finishFile _ _) - firstItem info + 1 =
        nextItem memory - firstItem info + 2
      rw [hitem, Nat.succ_sub hfirst]
  | completes hstage hall =>
      obtain ⟨memory, stage⟩ := point
      dsimp only at hstage hall
      subst hstage
      have hplace : said info ⟨memory, .sendComplete⟩ = info.items.length - firstItem info + 1 :=
        congrArg (fun item => item - firstItem info + 1) hall
      refine ⟨_, adds_message hforward ?_ ?_⟩
      · rw [hplace]
        exact says_complete hinfo.first_le _
      · rw [hplace]
        rfl

/-! ## Up to Ready -/

/-- The stages before the manifest is written. -/
def Early : FolderSender.Stage → Prop
  | .begin | .scan | .sendInfo _ => True
  | .recvReady | .fileHead _ | .openSource _ | .chunkHead _ | .readChunk _ _ _ | .openStream _ _
  | .awaitStopped _ | .sendChecksum _ _ | .recvChecksum _ _ | .sendComplete => False

/-- The manifest of a state fits a frame. -/
def FitsFrame (memory : FolderTransferState) (transferId : Uuid) : Prop :=
  writeMessage (.transferInfo (manifestOf memory transferId)) = .ok ()

/-- The state a scan leads to. -/
def scanned (session : FolderSender.Session) (found : OsStr × List FileMetadata) :
    FolderTransferState :=
  .new session.transferId found.1 found.2 session.config

variable {session : FolderSender.Session} {memory : FolderTransferState}

theorem announce_of_fits (stage : FolderSender.Stage) {resumeFrom : Option ResumePoint}
    (hresume : resumeFrom = memory.resumePoint session.transferId)
    (hfits : FitsFrame memory session.transferId) :
    FolderSender.announce session stage memory resumeFrom =
      .running ⟨memory, .sendInfo resumeFrom⟩ := by
  subst hresume
  have hwrite : writeMessage (FolderSender.manifest session memory
      (memory.resumePoint session.transferId)) = .ok () := hfits
  rw [FolderSender.announce, hwrite]
  rfl

/-- A call whose files can be read and announced gets to its manifest. -/
theorem prepares_of_step {link after : Link} {stage : FolderSender.Stage}
    (hstage : stage = .begin ∨ stage = .scan)
    (hfits : stage = .begin → memory.files ≠ [] → FitsFrame memory session.transferId)
    {move : Move FolderSender.Scan} (hmove : ∀ error written, move ≠ .fail error written)
    (hscan : ∀ scan, move = .answer scan → ∃ found, FolderSender.readScan scan = .ok found ∧
      FitsFrame (scanned session found) session.transferId)
    {source : Store} {input : FolderSender.SenderInput} {sent : FolderSender.SenderState}
    (hfed : SenderFed link ⟨memory, stage⟩ (FolderSender.action session ⟨memory, stage⟩) move input
      after)
    (hstep : (FolderSender.machine session).step ⟨.running ⟨memory, stage⟩, source⟩ input =
      some sent) :
    after = link ∧ ∃ next, sent.status = .running next ∧ Early next.stage ∧
      next.stage ≠ .begin := by
  rcases hstage with rfl | rfl
  · change SenderFed link _ .compute _ _ _ at hfed
    cases hfed with
    | fail _ => exact absurd rfl (hmove _ _)
    | compute =>
        cases hstep
        refine ⟨rfl, ?_⟩
        change ∃ next, FolderSender.openTransfer session memory = _ ∧ _
        rw [FolderSender.openTransfer]
        split
        · exact ⟨_, rfl, trivial, by simp⟩
        · rename_i hfiles
          exact ⟨_, announce_of_fits .begin rfl (hfits rfl hfiles), trivial, by simp⟩
  · change SenderFed link _ .ask _ _ _ at hfed
    cases hfed with
    | fail _ => exact absurd rfl (hmove _ _)
    | answer =>
        rename_i scan
        cases hstep
        obtain ⟨found, hfound, hscanned⟩ := hscan scan rfl
        have hresume := FolderSender.resumePoint_new session.transferId session.transferId found.1
          found.2 session.config
        refine ⟨rfl, ⟨scanned session found, .sendInfo none⟩, ?_, trivial, by simp⟩
        change FolderSender.startTransfer session memory scan = _
        rw [FolderSender.startTransfer, hfound]
        exact announce_of_fits .scan hresume.symm hscanned

/-- The manifest is written as it stands in the transfer state. -/
theorem announces_of_step {link after : Link} {resumeFrom : Option ResumePoint}
    (hresume : resumeFrom = memory.resumePoint session.transferId) {move : Move FolderSender.Scan}
    (hmove : ∀ error written, move ≠ .fail error written) {source : Store}
    {input : FolderSender.SenderInput} {sent : FolderSender.SenderState}
    (hfed : SenderFed link ⟨memory, .sendInfo resumeFrom⟩
      (FolderSender.action session ⟨memory, .sendInfo resumeFrom⟩) move input after)
    (hstep : (FolderSender.machine session).step
      ⟨.running ⟨memory, .sendInfo resumeFrom⟩, source⟩ input = some sent) :
    after = link.sendForward (.transferInfo (manifestOf memory session.transferId)) ∧
      sent.status = .running ⟨memory, .recvReady⟩ := by
  subst hresume
  change SenderFed link _ (.send _) _ _ _ at hfed
  cases hfed with
  | fail _ => exact absurd rfl (hmove _ _)
  | send =>
      cases hstep
      exact ⟨rfl, rfl⟩

/-- What is read while Ready is waited for decides. -/
theorem answers_of_step {link after : Link} {move : Move FolderSender.Scan}
    (hmove : ∀ error written, move ≠ .fail error written) {source : Store}
    {input : FolderSender.SenderInput} {sent : FolderSender.SenderState}
    (hfed : SenderFed link ⟨memory, .recvReady⟩ (FolderSender.action session ⟨memory, .recvReady⟩)
      move input after)
    (hstep : (FolderSender.machine session).step ⟨.running ⟨memory, .recvReady⟩, source⟩ input =
      some sent) :
    ∃ message, link.toSender = message :: after.toSender ∧
      after = { link with toSender := after.toSender } ∧
      sent.status = FolderSender.readReady memory message := by
  obtain ⟨message, rfl, hhead, hafter⟩ := receives_of_fed hmove hfed
  cases hstep
  exact ⟨message, hhead, hafter, rfl⟩

end P2PFileTransfer.Transfer.Script
