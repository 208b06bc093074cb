import P2PFileTransfer.Transfer.Conversation
import P2PFileTransfer.Transfer.StateFile

/-!
# The chunk streams of a connection

The streams that get through are the first ones of the schedule of the manifest, in its
order, and the receiver takes them in that order.  It counts them item by item, so every
stream goes to the item it was cut from, and no chunk comes twice.
-/

namespace P2PFileTransfer.Transfer.Streams

open P2PFileTransfer.Foundation.ByteFile
open P2PFileTransfer.Foundation.FileSystem
open P2PFileTransfer.Foundation.FixedWidth
open P2PFileTransfer.Foundation.Process
open P2PFileTransfer.Foundation.UnixPath
open P2PFileTransfer.Core
open P2PFileTransfer.Core.Protocol
open P2PFileTransfer.Core.TransferFile
open P2PFileTransfer.Core.TransferFolder
open P2PFileTransfer.Core.SendPath
open P2PFileTransfer.Core.FolderSender (IsSource)
open P2PFileTransfer.Transfer.Conversation
open P2PFileTransfer.Transfer.Honesty
open P2PFileTransfer.Transfer.Isolation
open P2PFileTransfer.Transfer.Network
open P2PFileTransfer.Transfer.ReceiverLane
open P2PFileTransfer.Transfer.Schedule
open P2PFileTransfer.Transfer.SenderLane

/-- The streams are the first ones of the schedule. -/
def Follows (setup : Setup) (config : ConfigMessage) (info : TransferInfo)
    (opened : List (Nat × Bytes)) : Prop :=
  ∀ (place item : Nat) (raw : Bytes), opened[place]? = some (item, raw) →
    ∃ chunk, (schedule setup.chunkSize.toNat info)[place]? = some (item, chunk) ∧
      Carries setup config info item raw chunk

/-! ## The receiver -/

/-- What the receiver of an item has taken: the streams of the items before, and so many
of its own. -/
def FileTook (setup : Setup) (info : TransferInfo) (index accepted : Nat) :
    FileReceiver.Stage → Prop
  | .begin | .createParent _ | .openPartial _ | .setLen _ =>
      accepted = offset setup.chunkSize.toNat info index
  | .acceptUni seen =>
      accepted = offset setup.chunkSize.toNat info index + seen.length ∧
        seen.reverse = (expected setup.chunkSize.toNat info index).take seen.length
  | .writeChunk seen chunk _ data =>
      accepted = offset setup.chunkSize.toNat info index + seen.length ∧
        seen.reverse = (expected setup.chunkSize.toNat info index).take seen.length ∧
        seen.head? = some chunk ∧
        ∃ file bytes, info.items[index]? = some file ∧
          IsSource setup.basePath setup.source file bytes ∧
          data = chunkAt bytes setup.chunkSize.toNat chunk
  | .rename | .reread | .sendChecksum _ | .recvChecksum _ =>
      accepted = offset setup.chunkSize.toNat info (index + 1)

/-- The same of the call that receives an item; at its end the item has all its streams. -/
def FileTookStatus (setup : Setup) (info : TransferInfo) (index accepted : Nat) :
    Status FileReceiver.Stage Unit Error → Prop
  | .running stage => FileTook setup info index accepted stage
  | .returned _ => accepted = offset setup.chunkSize.toNat info (index + 1)
  | .failed _ _ | .panicked _ _ => True

def Took (setup : Setup) (info : TransferInfo) (accepted : Nat) : FolderReceiver.Point → Prop
  | .prepare | .recvInfo | .decide _ | .sendCancel | .createOutputDir _ | .sendReady _ =>
      accepted = 0
  | .fileHead _ index | .createParent _ index _ =>
      accepted = offset setup.chunkSize.toNat info index
  | .file _ index _ stage => FileTook setup info index accepted stage
  | .recvComplete _ => accepted = offset setup.chunkSize.toNat info info.items.length

/-- A call that was not declined ends with the whole schedule. -/
def TookStatus (setup : Setup) (info : TransferInfo) (accepted : Nat) :
    FolderReceiver.PointStatus → Prop
  | .running point => Took setup info accepted point
  | .returned summary =>
      summary = .default ∨ accepted = offset setup.chunkSize.toNat info info.items.length
  | .failed _ _ | .panicked _ _ => True

variable {setup : Setup} {info : TransferInfo} {link : Link} {index accepted : Nat}

/-- The streams an item waits for are those of its part of the schedule. -/
theorem streamsToReceive_eq {session : FolderReceiver.Session} {task : FileReceiver.Task}
    (hinfo : WellFormed setup.chunkSize.toNat info)
    (hchunkSize : session.config.chunkSize = setup.chunkSize)
    (htask : FolderReceiver.IsTask session info index task) :
    ∃ file, info.items[index]? = some file ∧
      chunkCount file.size setup.chunkSize = .ok task.totalChunks ∧
      task.streamsToReceive = (expected setup.chunkSize.toNat info index).length := by
  obtain ⟨file, _, hfile, _⟩ := htask.receives.path
  have hcount := htask.totalChunks file hfile
  rw [hchunkSize] at hcount
  refine ⟨file, hfile, hcount, ?_⟩
  rw [htask.streams, length_expected hinfo hfile, FolderSender.eq_chunksOf_of_chunkCount hcount]

/-- The loop goes on until the item has all its streams. -/
theorem took_continueLoop {task : FileReceiver.Task} {seen : List Nat}
    (hfirst : firstItem info ≤ index)
    (hstreams : task.streamsToReceive = (expected setup.chunkSize.toNat info index).length)
    (hcount : accepted = offset setup.chunkSize.toNat info index + seen.length)
    (hseen : seen.reverse = (expected setup.chunkSize.toNat info index).take seen.length) :
    FileTookStatus setup info index accepted (FileReceiver.continueLoop task seen) := by
  rw [FileReceiver.continueLoop]
  split
  · exact ⟨hcount, hseen⟩
  · rename_i hall
    have hlength := congrArg List.length hseen
    rw [List.length_reverse, List.length_take] at hlength
    change accepted = _
    rw [hcount, offset_succ _ info hfirst]
    omega

/-- The stream that is next belongs to the item at hand, and to its next chunk. -/
theorem next_stream {config : ConfigMessage} {seen : List Nat} {item : Nat} {raw : Bytes}
    (hfirst : firstItem info ≤ index) (hindex : index < info.items.length)
    (hfollows : Follows setup config info link.opened)
    (hshort : seen.length < (expected setup.chunkSize.toNat info index).length)
    (hcount : link.accepted = offset setup.chunkSize.toNat info index + seen.length)
    (hseen : seen.reverse = (expected setup.chunkSize.toNat info index).take seen.length)
    (hopened : link.opened[link.accepted]? = some (item, raw)) :
    item = index ∧
      Carries setup config info index raw (expected setup.chunkSize.toNat info index)[seen.length] ∧
      (expected setup.chunkSize.toNat info index)[seen.length] ∉ seen := by
  obtain ⟨chunk, hplace, hcarries⟩ := hfollows _ _ _ hopened
  rw [hcount, getElem?_schedule _ info hfirst hindex hshort] at hplace
  cases hplace
  refine ⟨rfl, hcarries, fun hmem => ?_⟩
  have hnodup : (expected setup.chunkSize.toNat info index).Nodup := by
    rw [expected, List.getElem?_eq_getElem hindex]
    exact nodup_remaining _ _
  have hapart := hnodup.sublist (List.take_sublist (seen.length + 1) _)
  rw [List.take_succ_eq_append_getElem hshort, ← hseen] at hapart
  exact (List.nodup_append.mp hapart).2.2 _ (List.mem_reverse.mpr hmem) _
    (List.mem_singleton_self _) rfl

/-- The next stream carries the next chunk of the item. -/
theorem took_handleStream {session : FileReceiver.Session} {task : FileReceiver.Task}
    {seen : List Nat} {item : Nat} {raw : Bytes} (hcodec : session.codec = setup.codec)
    (hfirst : firstItem info ≤ index) (hindex : index < info.items.length)
    (hfollows : Follows setup session.config info link.opened)
    (hwidth : ∀ chunk ∈ expected setup.chunkSize.toNat info index, chunk < 2 ^ 64)
    (hshort : seen.length < (expected setup.chunkSize.toNat info index).length)
    (hcount : link.accepted = offset setup.chunkSize.toNat info index + seen.length)
    (hseen : seen.reverse = (expected setup.chunkSize.toNat info index).take seen.length)
    (hopened : link.opened[link.accepted]? = some (item, raw)) :
    FileTookStatus setup info index (link.accepted + 1)
      (FileReceiver.handleStream session task seen raw) := by
  obtain ⟨_, ⟨file, bytes, hfile, hbytes, payload, compressed, hraw, hpayload⟩, hunseen⟩ :=
    next_stream hfirst hindex hfollows hshort hcount hseen hopened
  have hnext := hwidth _ (List.getElem_mem hshort)
  have hstream : streamIndex raw = (expected setup.chunkSize.toNat info index)[seen.length] := by
    rw [hraw]
    exact streamIndex_chunkStream hnext compressed payload
  have hfresh : streamIndex raw ∉ seen := hstream ▸ hunseen
  rcases FileReceiver.handleStream_cases session task seen raw with
    ⟨error, _, hresult⟩ | ⟨hnone, _⟩ | ⟨chunk, data, haccept, hresult⟩
  · rw [hresult]
    trivial
  · exact absurd (mem_of_acceptChunk hnone) hfresh
  · obtain ⟨_, _, hchunk, _, _, hdata⟩ := acceptChunk_eq_some_iff.mp haccept
    rcases hresult with ⟨fault, hresult, _⟩ | hresult
    · rw [hresult]
      trivial
    · rw [hresult]
      refine ⟨?_, ?_, rfl, file, bytes, hfile, hbytes, ?_⟩
      · rw [hcount, List.length_cons, Nat.add_assoc]
      · rw [List.reverse_cons, List.length_cons, List.take_succ_eq_append_getElem hshort, hseen,
          hchunk, hstream]
      · rw [hraw, streamCompressed_chunkStream, streamPayload_chunkStream] at hdata
        rw [hchunk, hstream]
        rcases hpayload with ⟨hflag, _, hdecode⟩ | ⟨hflag, hplain⟩
        · obtain ⟨_, _, hother⟩ := hdata.resolve_right fun hplain =>
            Bool.false_ne_true (hplain.1.symm.trans hflag)
          rw [hcodec, hdecode] at hother
          exact (Except.ok.inj hother).symm
        · obtain ⟨_, hother⟩ := hdata.resolve_left fun hcompressed =>
            Bool.false_ne_true (hflag.symm.trans hcompressed.1)
          exact hother.trans hplain.symm

theorem took_openWriter {session : FileReceiver.Session} {task : FileReceiver.Task}
    (hcount : accepted = offset setup.chunkSize.toNat info index) :
    FileTookStatus setup info index accepted (FileReceiver.openWriter session task) := by
  rw [FileReceiver.openWriter]
  split
  · trivial
  · cases hmul : mul 64 task.totalChunks session.config.chunkSize.toNat with
    | error fault => trivial
    | ok expected =>
        simp only [Status.ofChecked]
        split
        · exact hcount
        · exact hcount

theorem took_compareChecksum {task : FileReceiver.Task} {checksum : Digest} {message : Message}
    (hcount : accepted = offset setup.chunkSize.toNat info (index + 1)) :
    FileTookStatus setup info index accepted
      (FileReceiver.compareChecksum task checksum message) := by
  unfold FileReceiver.compareChecksum
  split
  · split
    · trivial
    · split
      · trivial
      · exact hcount
  · trivial

/-- Nothing but the arrival of a stream changes what an item has taken. -/
theorem took_resume_file {session : FileReceiver.Session} {task : FileReceiver.Task}
    (hfirst : firstItem info ≤ index)
    (hstreams : task.streamsToReceive = (expected setup.chunkSize.toNat info index).length)
    {stage : FileReceiver.Stage} {reply : Reply Message Bool}
    (hfits : (FileReceiver.action session task stage).Fits reply)
    (hquiet : ∀ seen, stage ≠ .acceptUni seen) (htook : FileTook setup info index accepted stage) :
    FileTookStatus setup info index accepted (FileReceiver.resume session task stage reply) := by
  refine FileReceiver.resume_elim (motive := fun stage status => (∀ seen, stage ≠ .acceptUni seen) →
      FileTook setup info index accepted stage → FileTookStatus setup info index accepted status)
    ?begin ?parent ?opened ?setLen ?accept ?write ?rename ?reread ?noBytes ?send ?recv
    stage reply hfits hquiet htook
  case begin => exact fun _ hcount => took_openWriter hcount
  case parent | opened => exact fun _ _ hcount => hcount
  case setLen =>
      intro _ _ hcount
      exact took_continueLoop hfirst hstreams hcount rfl
  case accept => exact fun seen _ hother _ => absurd rfl (hother seen)
  case write =>
      intro seen _ _ _ _ hwritten
      exact took_continueLoop hfirst hstreams hwritten.1 hwritten.2.1
  case rename | noBytes => exact fun _ hcount => hcount
  case reread | send => exact fun _ _ hcount => hcount
  case recv => exact fun _ _ _ hcount => took_compareChecksum hcount

section Folder

variable {session : FolderReceiver.Session} (hinfo : WellFormed setup.chunkSize.toNat info)
  (hchunkSize : session.config.chunkSize = setup.chunkSize)

theorem took_started {plan : FolderReceiver.Plan} {point : FolderReceiver.Point} {size : Nat}
    {fullPath : OsStr} {status : FolderReceiver.PointStatus}
    (hcount : accepted = offset setup.chunkSize.toNat info index)
    (hstarted : FolderReceiver.Started session plan point index size fullPath status) :
    TookStatus setup info accepted status := by
  cases hstarted with
  | overflows _ => trivial
  | begins _ => exact hcount

include hinfo

theorem took_visited {plan : FolderReceiver.Plan} {status : FolderReceiver.PointStatus}
    (hplan : plan.info = info) (hindex : index ≤ info.items.length)
    (hcount : accepted = offset setup.chunkSize.toNat info index)
    (hvisited : FolderReceiver.Visited session plan index status) :
    TookStatus setup info accepted status := by
  subst hplan
  cases hvisited with
  | ends hnone =>
      have hend := Nat.le_antisymm hindex (List.getElem?_eq_none_iff.mp hnone)
      change accepted = _
      rw [hcount, hend]
  | skips hfile hskip =>
      have hless := (skips_iff_lt hinfo (List.getElem?_eq_some_iff.mp hfile).1).mp hskip
      change accepted = _
      rw [hcount, offset_of_le _ _ (Nat.le_of_lt hless), offset_of_le _ _ hless]
  | refuses _ _ => trivial
  | creates _ _ _ => exact hcount
  | starts _ _ _ hstarted => exact took_started hcount hstarted

include hchunkSize

/-- Nothing but the arrival of a stream changes what was taken. -/
theorem took_resume {point : FolderReceiver.Point} {reply : Reply Message Bool}
    (hsound : point.Sound session) (hknows : Knows info point)
    (hfits : (FolderReceiver.action session point).Fits reply)
    (hquiet : FolderReceiver.action session point ≠ .acceptStream)
    (htook : Took setup info accepted point) :
    TookStatus setup info accepted (FolderReceiver.resume session point reply) := by
  refine FolderReceiver.resume_elim (motive := fun point status => point.Sound session →
      Knows info point → FolderReceiver.action session point ≠ .acceptStream →
      Took setup info accepted point → TookStatus setup info accepted status)
    ?prepare ?info ?accept ?reject ?cancel ?output ?ready ?head ?parent ?file ?complete
    point reply hfits hsound hknows hquiet htook
  case prepare => exact fun _ _ _ hcount => hcount
  case info =>
      intro message status hread _ _ _ hcount
      cases hread with
      | refused => trivial
      | admitted _ _ => exact hcount
  case accept =>
      intro _ status hplanned _ _ _ hcount
      cases hplanned with
      | overflows _ => trivial
      | plans _ => exact hcount
  case reject | output => exact fun _ _ _ _ hcount => hcount
  case cancel => exact fun _ _ _ _ => Or.inl rfl
  case ready =>
      intro plan _ _ _ hcount
      change accepted = _
      rw [offset_of_le _ _ (Nat.zero_le _)]
      exact hcount
  case head =>
      intro plan index status hvisited hhead hknows _ hcount
      have hplan : plan.info = info := hknows.resolve_left id
      exact took_visited hinfo hplan (hplan ▸ hhead.2) hcount hvisited
  case parent => exact fun _ _ _ _ hstarted _ _ _ hcount => took_started hcount hstarted
  case file =>
      intro plan index task stage reply hfits hpoint hknows hquiet hcount
      have hplan : plan.info = info := hknows.resolve_left id
      obtain ⟨_, _, _, hstreams⟩ := streamsToReceive_eq hinfo hchunkSize (hplan ▸ hpoint.2.1)
      have hinner := took_resume_file (firstItem_le_of_item hinfo hpoint hplan rfl) hstreams hfits
        (fun seen hstage => hquiet (congrArg
          (FileReceiver.action (FolderReceiver.fileSession session plan.info) task) hstage)) hcount
      cases hresult : FileReceiver.resume (FolderReceiver.fileSession session plan.info) task stage
          reply with
      | running next =>
          rw [hresult] at hinner
          exact hinner
      | returned done =>
          rw [hresult] at hinner
          exact hinner
      | failed _ _ | panicked _ _ => trivial
  case complete => exact fun _ _ _ _ hcount => Or.inr hcount

omit hinfo hchunkSize in
theorem width_of_expected {file : FileMetadata} (hfile : info.items[index]? = some file)
    (hsize : file.size ≤ maxTransferFileSize) :
    ∀ chunk ∈ expected setup.chunkSize.toNat info index, chunk < 2 ^ 64 := by
  intro chunk hchunk
  rw [expected, hfile] at hchunk
  have hless := (FolderSender.mem_remaining.mp hchunk).1
  have hdiv : chunksOf file.size setup.chunkSize.toNat ≤
      file.size + setup.chunkSize.toNat - 1 := Nat.div_le_self _ _
  have hwidth := setup.chunkSize.toNat_lt
  rw [maxTransferFileSize] at hsize
  omega

omit hinfo hchunkSize in
/-- Streams are accepted for an item. -/
theorem file_of_acceptStream {point : FolderReceiver.Point}
    (haccepts : FolderReceiver.action session point = .acceptStream) :
    ∃ plan index task seen, point = .file plan index task (.acceptUni seen) := by
  cases point with
  | file plan index task stage =>
      cases stage with
      | acceptUni seen => exact ⟨plan, index, task, seen, rfl⟩
      | begin | rename | reread | createParent _ | openPartial _ | setLen _ => cases haccepts
      | writeChunk _ _ _ _ | sendChecksum _ | recvChecksum _ => cases haccepts
  | prepare | recvInfo | decide _ | sendCancel | createOutputDir _ | sendReady _ => cases haccepts
  | fileHead _ _ | createParent _ _ _ | recvComplete _ => cases haccepts

omit hinfo hchunkSize in
theorem accepted_of_fed {action : Action Message} {move : Move Bool}
    {input : FolderReceiver.ReceiverInput} {after : Link}
    (hfed : ReceiverFed link action move input after) :
    after.accepted = link.accepted ∧
        (action = .acceptStream → ∃ error written, input = .fail error written) ∨
      ∃ item raw, link.opened[link.accepted]? = some (item, raw) ∧ input = .stream raw ∧
        after.accepted = link.accepted + 1 := by
  cases hfed with
  | acceptStream hopened => exact Or.inr ⟨_, _, hopened, rfl, rfl⟩
  | fail _ => exact Or.inl ⟨rfl, fun _ => ⟨_, _, rfl⟩⟩
  | answer | compute | perform | send | receive _ =>
      refine Or.inl ⟨rfl, fun haccepts => ?_⟩
      cases haccepts

/-- A move of the receiver takes at most the stream that is next. -/
theorem took_of_step {point : FolderReceiver.Point} (hcodec : session.codec = setup.codec)
    (hsound : point.Sound session) (hknows : Knows info point)
    (hfollows : Follows setup session.config info link.opened)
    (htook : Took setup info link.accepted point) {state next : FolderReceiver.ReceiverState}
    (hpoint : state.status = .running point) {move : Move Bool}
    {input : FolderReceiver.ReceiverInput} {after : Link}
    (hfed : ReceiverFed link (FolderReceiver.action session point) move input after)
    (hstep : (FolderReceiver.machine session).step state input = some next) :
    TookStatus setup info after.accepted next.status := by
  obtain ⟨status, store⟩ := state
  cases hpoint
  cases stepped_of_step hstep with
  | fail hstatus hstore hnext =>
      rw [hnext]
      trivial
  | resume hstatus hreply hnext =>
      rename_i other reply final
      cases hstatus
      rw [hnext]
      have hfits : (FolderReceiver.action session point).Fits reply := Action.fits_of_reply hreply
      change (FolderReceiver.action session point).reply input store = some (reply, final) at hreply
      change TookStatus setup info after.accepted (FolderReceiver.resume session point reply)
      rcases accepted_of_fed hfed with ⟨hsame, hfailed⟩ | ⟨item, raw, hopened, rfl, htaken⟩
      · rw [hsame]
        refine took_resume hinfo hchunkSize hsound hknows hfits (fun haccepts => ?_) htook
        obtain ⟨error, written, rfl⟩ := hfailed haccepts
        rw [haccepts] at hreply
        cases hreply
      · have haccepts := Action.eq_of_reply_stream hreply
        obtain ⟨plan, index, task, seen, rfl⟩ := file_of_acceptStream haccepts
        cases hreply
        have hplan : plan.info = info := hknows.resolve_left id
        subst hplan
        obtain ⟨file, hfile, _, hstreams⟩ := streamsToReceive_eq hinfo hchunkSize hsound.2.1
        have hsize := hsound.1.size_le file (List.mem_of_getElem? hfile)
        have hstream := @took_handleStream setup plan.info link index
          (FolderReceiver.fileSession session plan.info) task seen item raw hcodec
          (firstItem_le_of_item hinfo hsound rfl rfl) (List.getElem?_eq_some_iff.mp hfile).1
          hfollows (width_of_expected hfile hsize) (hstreams ▸ hsound.2.2.2.2) htook.1 htook.2 hopened
        rw [htaken]
        change TookStatus setup plan.info (link.accepted + 1)
          ((FileReceiver.handleStream (FolderReceiver.fileSession session plan.info) task seen
            raw).embed _ _)
        cases hresult : FileReceiver.handleStream (FolderReceiver.fileSession session plan.info) task
            seen raw with
        | running next =>
            rw [hresult] at hstream
            exact hstream
        | returned done =>
            rw [hresult] at hstream
            exact hstream
        | failed _ _ | panicked _ _ => trivial

end Folder

/-! ## The sender -/

/-- Whether the stream that was just opened did not get through. -/
def lost (link : Link) : FolderSender.Stage → Nat
  | .awaitStopped _ => if link.delivered then 0 else 1
  | _ => 0

/-- The status is no wait for an acknowledgement. -/
def Calm (status : FolderSender.PointStatus) : Prop :=
  ∀ next, status = .running next → ∀ link, lost link next.stage = 0

/-! ## Both sides -/

structure Flows (setup : Setup) (world : Network.State) : Prop where
  quiet : world.link.announced = none → world.link.opened = [] ∧
    ∀ info, TookStatus setup info world.link.accepted world.receiver.status
  follows : ∀ info, world.link.announced = some info →
    Follows setup world.link.config info world.link.opened
  /-- A sender that may still be told Ready has opened no stream. -/
  waiting : ∀ call attempt point, world.sender = .sending call attempt (.running point) →
    ¬Live point.stage → world.link.opened = [] ∨ Mute world
  counted : ∀ info call attempt point, world.link.announced = some info →
    world.sender = .sending call attempt (.running point) → Live point.stage →
    world.link.opened.length + lost world.link point.stage = sent setup.chunkSize.toNat info point
  took : ∀ info, world.link.announced = some info →
    TookStatus setup info world.link.accepted world.receiver.status

variable {terms : Terms} {world next : Network.State}

theorem follows_nil (config : ConfigMessage) : Follows setup config info [] := by
  intro place item raw hplace
  cases hplace

theorem mute_of_suffix (hmute : Mute world) {phase : Phase}
    (hsuffix : link.toSender <:+ world.link.toSender) :
    Mute { world with sender := phase, link := link } :=
  ⟨fun hready => hmute.1 (hsuffix.mem hready), hmute.2⟩

/-- A move of the sender that opens no stream. -/
theorem Flows.sender (hflows : Flows setup world) {phase : Phase}
    (hopened : link.opened = world.link.opened) (haccepted : link.accepted = world.link.accepted)
    (hconfig : link.config = world.link.config)
    (hannounced : link.announced = world.link.announced ∨ world.link.announced = none)
    (hwaiting : ∀ call attempt point, phase = .sending call attempt (.running point) →
      ¬Live point.stage → world.link.opened = [] ∨ Mute { world with sender := phase, link := link })
    (hcounted : ∀ info call attempt point, link.announced = some info →
      phase = .sending call attempt (.running point) → Live point.stage →
      world.link.opened.length + lost link point.stage = sent setup.chunkSize.toNat info point) :
    Flows setup { world with sender := phase, link := link } := by
  have hbefore : ∀ info, TookStatus setup info world.link.accepted world.receiver.status ∨
      link.announced ≠ some info := by
    intro info
    by_cases hsome : link.announced = some info
    · rcases hannounced with hsame | hnone
      · exact Or.inl (hflows.took info (hsame ▸ hsome))
      · exact Or.inl ((hflows.quiet hnone).2 info)
    · exact Or.inr hsome
  refine ⟨?_, ?_, ?_, ?_, ?_⟩
  · intro hnone
    have hquiet : world.link.announced = none := by
      rcases hannounced with hsame | hquiet
      · exact hsame ▸ hnone
      · exact hquiet
    change link.opened = [] ∧ ∀ info, TookStatus setup info link.accepted _
    rw [hopened, haccepted]
    exact hflows.quiet hquiet
  · intro info hsome
    change Follows setup link.config info link.opened
    rw [hopened, hconfig]
    rcases hannounced with hsame | hquiet
    · exact hflows.follows info (hsame ▸ hsome)
    · rw [(hflows.quiet hquiet).1]
      exact follows_nil _
  · intro call attempt point hphase hlive
    change link.opened = [] ∨ _
    rw [hopened]
    exact hwaiting call attempt point hphase hlive
  · intro info call attempt point hsome hphase hlive
    change link.opened.length + _ = _
    rw [hopened]
    exact hcounted info call attempt point hsome hphase hlive
  · intro info hsome
    change TookStatus setup info link.accepted _
    rw [haccepted]
    exact (hbefore info).resolve_right (not_not.mpr hsome)

/-- A sender that has not been told Ready. -/
theorem flows_waited (hflows : Flows setup world) (hstanding : Standing terms world)
    {call : Call} {attempt : Nat}
    {point : FolderSender.Point} (hsender : world.sender = .sending call attempt (.running point))
    (hlive : ¬Live point.stage) {status : FolderSender.PointStatus}
    (hconfig : link.config = world.link.config) (haccepted : link.accepted = world.link.accepted)
    (hwaited : SenderWaited world.link point call.transferId status link) :
    Flows setup { world with sender := .sending call attempt status, link := link } := by
  have hbefore := hflows.waiting call attempt point hsender hlive
  cases hwaited with
  | fails hmemory hlink hlate =>
      have hsame : link.opened = world.link.opened ∧ link.announced = world.link.announced := by
        rcases hlink with rfl | ⟨_, _, _, _, rfl⟩ <;> exact ⟨rfl, rfl⟩
      refine hflows.sender hsame.1 haccepted hconfig (Or.inl hsame.2) ?_ ?_
      · intro _ _ _ hphase
        cases hphase
      · intro _ _ _ _ _ hphase
        cases hphase
  | prepares hstage hnext hmemory =>
      refine hflows.sender rfl rfl rfl (Or.inl rfl) ?_ ?_
      · intro _ _ _ hphase _
        exact hbefore.imp_right fun hmute => mute_of_suffix hmute (List.suffix_refl _)
      · intro _ _ _ _ _ hphase hother
        cases hphase
        exact absurd hother hnext
  | announces hstage hfiles hlength =>
      refine hflows.sender rfl rfl rfl ?_ ?_ ?_
      · cases hannounced : world.link.announced with
        | none => exact Or.inr rfl
        | some info => exact Or.inl (announce_of_some hannounced _)
      · intro _ _ _ hphase _
        exact hbefore.imp_right fun hmute => mute_of_suffix hmute (List.suffix_refl _)
      · intro _ _ _ _ _ hphase hother
        cases hphase
        exact hother.elim
  | starts hstage hhead =>
      have hready : Message.ready ∈ world.link.toSender := hhead ▸ List.mem_cons_self
      have hnone := hbefore.resolve_right fun hmute => hmute.1 hready
      refine hflows.sender rfl rfl rfl (Or.inl rfl) ?_ ?_
      · intro _ _ _ hphase hother
        cases hphase
        exact absurd trivial hother
      · intro info _ _ other hannounced hphase _
        cases hphase
        rw [hnone]
        cases hstanding with
        | silent _ _ htoSender _ _ =>
            rw [hhead] at htoSender
            cases htoSender
        | asked hopened hhere _ hfirst _ _ =>
            rw [hsender] at hhere
            cases hhere
            cases hannounced.symm.trans hopened.announced
            change 0 = offset _ info (nextItem _)
            rw [hfirst, offset_of_le _ _ le_rfl]
        | live _ hhere htalking _ =>
            rw [hsender] at hhere
            cases hhere
            exact absurd htalking.live hlive
        | closed _ _ hended _ =>
            rw [hsender] at hended
            exact absurd hready (hended.resolve_left id).1

/-- The stream that is opened is the next of the schedule. -/
theorem follows_open (hfollows : Follows setup link.config info link.opened)
    {point : FolderSender.Point} {task : FolderSender.FileTask} {raw : Bytes}
    (hcount : link.opened.length = sent setup.chunkSize.toNat info point)
    (hplace : (schedule setup.chunkSize.toNat info)[sent setup.chunkSize.toNat info point]? =
      some (nextItem point.memory, task.next))
    (hcarries : Carries setup link.config info (nextItem point.memory) raw task.next) :
    Follows setup link.config info (link.openStream (nextItem point.memory) raw).opened := by
  change Follows _ _ _ (if link.forward then link.opened ++ [_] else link.opened)
  split
  · intro place item other hentry
    by_cases hbefore : place < link.opened.length
    · rw [List.getElem?_append_left hbefore] at hentry
      exact hfollows place item other hentry
    · rw [List.getElem?_append_right (Nat.le_of_not_lt hbefore)] at hentry
      obtain ⟨hlast, hvalue⟩ := List.getElem?_eq_some_iff.mp hentry
      have hend : place = link.opened.length := by
        rw [List.length_singleton] at hlast
        omega
      subst hend
      rw [List.getElem_singleton] at hvalue
      cases hvalue
      rw [hcount]
      exact ⟨task.next, hplace, hcarries⟩
  · exact hfollows

/-- An acknowledgement is waited for as long as the stream is lost. -/
theorem lost_of_step {session : FolderSender.Session} {point other : FolderSender.Point}
    {source : Store} {move : Move FolderSender.Scan} {input : FolderSender.SenderInput} {after : Link}
    {sent : FolderSender.SenderState}
    (hfed : SenderFed link point (FolderSender.action session point) move input after)
    (hstep : (FolderSender.machine session).step ⟨.running point, source⟩ input = some sent)
    (hnext : sent.status = .running other) : lost link point.stage = 0 := by
  obtain ⟨memory, stage⟩ := point
  cases stage with
  | awaitStopped task =>
      change SenderFed link _ .awaitStopped _ _ _ at hfed
      cases hfed with
      | fail _ =>
          cases hstep
          cases hnext
      | awaitStopped hdelivered => exact if_pos hdelivered
  | begin | scan | sendInfo _ | recvReady | fileHead _ | openSource _ | chunkHead _ => rfl
  | readChunk _ _ _ | openStream _ _ | sendChecksum _ _ | recvChecksum _ _ | sendComplete => rfl

/-- Behind an opened stream there is its acknowledgement. -/
theorem awaits_of_step {session : FolderSender.Session} {memory : FolderTransferState}
    {task : FolderSender.FileTask} {raw : Bytes} {source : Store} {input : FolderSender.SenderInput}
    {sent : FolderSender.SenderState} {next : FolderSender.Point}
    (hstep : (FolderSender.machine session).step ⟨.running ⟨memory, .openStream task raw⟩, source⟩
      input = some sent)
    (hnext : sent.status = .running next) : next = ⟨memory, .awaitStopped task⟩ := by
  cases input with
  | proceed =>
      cases hstep
      cases hnext
      rfl
  | fail _ _ =>
      cases hstep
      cases hnext
  | answer _ | message _ | stream _ => cases hstep

theorem calm_of_step {session : FolderSender.Session} {point : FolderSender.Point} {source : Store}
    {input : FolderSender.SenderInput} {sent : FolderSender.SenderState}
    (hstage : ∀ task raw, point.stage ≠ .openStream task raw)
    (hstep : (FolderSender.machine session).step ⟨.running point, source⟩ input = some sent) :
    Calm sent.status := by
  rintro ⟨memory, stage⟩ hnext link
  have hasks := asks_of_step hstep hnext
  generalize hbefore : point.stage = before at hasks hstage
  cases stage with
  | awaitStopped task =>
      cases hasks trivial with
      | stopped => exact absurd rfl (hstage _ _)
  | begin | scan | sendInfo _ | recvReady | fileHead _ | openSource _ | chunkHead _ => rfl
  | readChunk _ _ _ | openStream _ _ | sendChecksum _ _ | recvChecksum _ _ | sendComplete => rfl

/-- A sender that has been told Ready. -/
theorem flows_moved (hflows : Flows setup world) {call : Call} {attempt : Nat}
    {point : FolderSender.Point} (hsender : world.sender = .sending call attempt (.running point))
    (hannounced : world.link.announced = some info) (hlive : Live point.stage)
    {move : Move FolderSender.Scan} {input : FolderSender.SenderInput}
    {after : FolderSender.SenderState}
    (hfed : SenderFed world.link point
      (FolderSender.action (senderSession setup world.link call) point) move input link)
    (hstep : (FolderSender.machine (senderSession setup world.link call)).step
      ⟨.running point, setup.source⟩ input = some after)
    (hmoved : SenderMoved setup info call world.link point move after.status link) :
    Flows setup { world with sender := .sending call attempt after.status, link := link } := by
  have hcount := hflows.counted info call attempt point hannounced hsender hlive
  have hrest : ∀ {status : FolderSender.PointStatus} {link : Link}, after.status = status →
      link.opened = world.link.opened → link.accepted = world.link.accepted →
      link.config = world.link.config → link.announced = world.link.announced →
      (∀ next, status = .running next → Live next.stage ∧
        (∀ task raw, point.stage ≠ .openStream task raw) ∧
        sent setup.chunkSize.toNat info next = sent setup.chunkSize.toNat info point) →
      Flows setup { world with sender := .sending call attempt status, link := link } := by
    intro status link hstatus hopened haccepted hconfig hsame hnext
    refine hflows.sender hopened haccepted hconfig (Or.inl hsame) ?_ ?_
    · intro _ _ next hphase hwaiting
      cases hphase
      exact absurd (hnext next rfl).1 hwaiting
    · intro other _ _ next hother hphase _
      cases hphase
      cases hannounced.symm.trans (hsame.symm.trans hother)
      obtain ⟨_, hstage, hsent⟩ := hnext next rfl
      rw [calm_of_step hstage hstep next hstatus link, hsent, ← hcount,
        lost_of_step hfed hstep hstatus]
  have hshut : ∀ next, after.status = .running next →
      sent setup.chunkSize.toNat info next = sent setup.chunkSize.toNat info point →
      ∀ task raw, point.stage ≠ .openStream task raw := by
    intro next hstatus hsent task raw hstage
    obtain ⟨memory, stage⟩ := point
    cases hstage
    rw [awaits_of_step hstep hstatus] at hsent
    exact Nat.succ_ne_self _ hsent
  generalize hstatus : after.status = status at hmoved
  cases hmoved with
  | fails hlink _ =>
      have hsame : link.opened = world.link.opened ∧ link.accepted = world.link.accepted ∧
          link.config = world.link.config ∧ link.announced = world.link.announced := by
        rcases hlink with rfl | ⟨_, _, _, rfl⟩ <;> exact ⟨rfl, rfl, rfl, rfl⟩
      refine hrest hstatus hsame.1 hsame.2.1 hsame.2.2.1 hsame.2.2.2 fun next hnext => ?_
      cases hnext
  | panics =>
      refine hrest hstatus rfl rfl rfl rfl fun next hnext => ?_
      cases hnext
  | goes htalking hsent _ =>
      refine hrest hstatus rfl rfl rfl rfl fun next hnext => ?_
      cases hnext
      exact ⟨htalking.live, hshut _ hstatus hsent, hsent⟩
  | opens hstage hplace hcarries htalking hsent =>
      obtain ⟨memory, stage⟩ := point
      cases hstage
      refine ⟨?_, ?_, ?_, ?_, hflows.took⟩
      · intro hnone
        cases hannounced.symm.trans hnone
      · intro other hother
        cases hannounced.symm.trans hother
        exact follows_open (hflows.follows info hannounced) hcount hplace hcarries
      · intro _ _ next hphase hwaiting
        cases hphase
        exact absurd trivial hwaiting
      · intro other _ _ next hother hphase _
        cases hphase
        cases hannounced.symm.trans hother
        rw [hsent, ← hcount]
        change (if world.link.forward then world.link.opened ++ [_] else world.link.opened).length +
          (if world.link.forward then 0 else 1) = world.link.opened.length + 0 + 1
        split
        · rw [List.length_append]
          rfl
        · rfl
  | sends hstage htalking =>
      refine hrest hstatus rfl rfl rfl ?_ fun next hnext => ?_
      · exact (announce_of_some hannounced _).trans hannounced.symm
      · cases hnext
        obtain ⟨memory, stage⟩ := point
        dsimp only at hstage
        subst hstage
        exact ⟨trivial, fun _ _ => FolderSender.Stage.noConfusion, rfl⟩
  | confirms hstage hhead hsource htalking hnext =>
      refine hrest hstatus rfl rfl rfl rfl fun next hlater => ?_
      cases hlater
      obtain ⟨memory, stage⟩ := point
      dsimp only at hstage
      subst hstage
      refine ⟨trivial, fun _ _ => FolderSender.Stage.noConfusion, ?_⟩
      change offset _ info (nextItem _) = offset _ info (nextItem memory + 1)
      rw [hnext]
  | completes hstage hall =>
      refine hrest hstatus rfl rfl rfl ?_ fun next hnext => ?_
      · exact (announce_of_some hannounced _).trans hannounced.symm
      · cases hnext

theorem opened_of_announced (hstanding : Standing terms world)
    (hannounced : world.link.announced = some info) : Opened terms info world := by
  cases hstanding with
  | silent hnone _ _ _ _ => cases hnone.symm.trans hannounced
  | asked hopened _ _ _ _ _ | live hopened _ _ _ | closed hopened _ _ _ =>
      cases hopened.announced.symm.trans hannounced
      exact hopened

theorem opened_of_receiverFed {action : Action Message} {move : Move Bool}
    {input : FolderReceiver.ReceiverInput} {after : Link}
    (hfed : ReceiverFed link action move input after) :
    after.opened = link.opened ∧ after.delivered = link.delivered ∧
      after.announced = link.announced := by
  cases hfed <;> exact ⟨rfl, rfl, rfl⟩

/-- A receiver that has nothing to read. -/
theorem took_unread {session : FolderReceiver.Session} {point : FolderReceiver.Point}
    (hunread : Unread point) (hnone : link.toReceiver = [])
    (htook : Took setup info link.accepted point) {state next : FolderReceiver.ReceiverState}
    (hpoint : state.status = .running point) {move : Move Bool}
    {input : FolderReceiver.ReceiverInput} {after : Link}
    (hfed : ReceiverFed link (FolderReceiver.action session point) move input after)
    (hstep : (FolderReceiver.machine session).step state input = some next) :
    TookStatus setup info after.accepted next.status := by
  obtain ⟨rfl, _, ⟨rfl, _, hstatus⟩ | ⟨_, hstatus⟩⟩ :=
    unread_of_step hunread hnone hpoint hfed hstep
  · rw [hstatus]
    exact htook
  · rw [hstatus]
    trivial

theorem flows_receiverStepped (hflows : Flows setup world) (hstanding : Standing terms world)
    (hsize : setup.chunkSize.toNat = terms.chunkSize)
    (hchunkSize : world.link.config.chunkSize = setup.chunkSize)
    (hserves : ∀ point received input, world.receiver.status = .running point →
      (FolderReceiver.machine (receiverSession setup world.link)).step world.receiver input =
        some received → Serves setup terms world point received)
    {move : Move Bool} (hstepped : ReceiverStepped setup world move next) : Flows setup next := by
  cases hstepped with
  | intro hreceiver hfed hstep =>
      rename_i point input link received
      obtain ⟨hopened, hdelivered, hannounced⟩ := opened_of_receiverFed hfed
      have hconfig := receiverFed_config hfed
      have hserved := hserves point received input hreceiver hstep
      have hlost : ∀ stage, lost link stage = lost world.link stage := by
        intro stage
        cases stage with
        | awaitStopped task => exact congrArg (fun delivered => if delivered then 0 else 1) hdelivered
        | begin | scan | sendInfo _ | recvReady | fileHead _ | openSource _ | chunkHead _ => rfl
        | readChunk _ _ _ | openStream _ _ | sendChecksum _ _ | recvChecksum _ _ => rfl
        | sendComplete => rfl
      have hmoved : ∀ {info}, Opened terms info world →
          ReceiverMoved info world.link point received.status link := fun hopened =>
        receiverMoved_of_step hopened.wellFormed hserved.sound (hopened.knows point hreceiver)
          (hopened.heard point hreceiver) hreceiver hfed hstep
      refine ⟨?_, ?_, ?_, ?_, ?_⟩
      · intro hnone
        have hbefore := hflows.quiet (hannounced ▸ hnone)
        refine ⟨hopened.trans hbefore.1, fun info => ?_⟩
        cases hstanding with
        | silent _ htoReceiver _ hunread _ =>
            have htook := hbefore.2 info
            rw [hreceiver] at htook
            exact took_unread (hunread point hreceiver) htoReceiver htook hreceiver hfed hstep
        | asked hother _ _ _ _ _ | live hother _ _ _ | closed hother _ _ _ =>
            cases hother.announced.symm.trans (hannounced ▸ hnone)
      · intro info hsome
        change Follows setup link.config info link.opened
        rw [hconfig, hopened]
        exact hflows.follows info (hannounced ▸ hsome)
      · intro call attempt other hsender hwaiting
        change link.opened = [] ∨ _
        rw [hopened]
        rcases hflows.waiting call attempt other hsender hwaiting with hnone | hmute
        · exact Or.inl hnone
        · cases hsome : world.link.announced with
          | none => exact Or.inl (hflows.quiet hsome).1
          | some info =>
              exact Or.inr (mute_receiver hmute hserved
                (hmoved (opened_of_announced hstanding hsome)))
      · intro info call attempt other hsome hsender hlive
        change link.opened.length + lost link _ = _
        rw [hopened, hlost]
        exact hflows.counted info call attempt other (hannounced ▸ hsome) hsender hlive
      · intro info hsome
        have hother := opened_of_announced hstanding (hannounced ▸ hsome : world.link.announced = _)
        have htook := hflows.took info (hannounced ▸ hsome)
        rw [hreceiver] at htook
        exact took_of_step (hsize ▸ hother.wellFormed) hchunkSize rfl hserved.sound
          (hother.knows point hreceiver) (hflows.follows info hother.announced) htook hreceiver hfed
          hstep

theorem accepted_of_senderFed {point : FolderSender.Point} {action : Action Message}
    {move : Move FolderSender.Scan} {input : FolderSender.SenderInput} {after : Link}
    (hfed : SenderFed link point action move input after) : after.accepted = link.accepted := by
  cases hfed <;> rfl

/-! ## Every step -/

theorem flows_connect (config : ConfigMessage) (call : Call) (attempt : Nat)
    (memory : FolderTransferState) : Flows setup (connect world config call attempt memory) := by
  refine ⟨fun _ => ⟨rfl, fun _ => rfl⟩, ?_, ?_, ?_, ?_⟩
  · intro info hannounced
    cases hannounced
  · intro _ _ _ _ _
    exact Or.inl rfl
  · intro info _ _ _ hannounced
    cases hannounced
  · intro info hannounced
    cases hannounced

/-- Leaving an attempt, or starting the next one on the same connection. -/
theorem flows_phase (hflows : Flows setup world) {phase : Phase} (saved : SavedState)
    (hrunning : ∀ call attempt point, phase = .sending call attempt (.running point) →
      ¬Live point.stage ∧ (world.link.opened = [] ∨ Mute world)) :
    Flows setup { world with sender := phase, saved := saved } := by
  refine ⟨hflows.quiet, hflows.follows, ?_, ?_, hflows.took⟩
  · exact fun call attempt point hphase _ => (hrunning call attempt point hphase).2
  · intro _ call attempt point _ hphase hlive
    exact absurd hlive (hrunning call attempt point hphase).1

theorem flows_step (hsize : setup.chunkSize.toNat = terms.chunkSize)
    (hsound : Sound setup terms.good world) (hstanding : Standing terms world)
    (hserves : ∀ point received input, world.receiver.status = .running point →
      (FolderReceiver.machine (receiverSession setup world.link)).step world.receiver input =
        some received → Serves setup terms world point received)
    (hflows : Flows setup world) {event : Event} (hstep : step setup world event = some next) :
    Flows setup next := by
  cases networkStepped_of_step hstep with
  | start _ _ _ | reconnect _ _ => exact flows_connect _ _ _ _
  | sender hstepped =>
      cases hstepped with
      | intro hsender hfed hmachine =>
          rename_i call attempt point input link after
          have hpoint := hsound.sender call attempt _ hsender
          by_cases hlive : Live point.stage
          · cases hstanding with
            | silent _ _ _ _ hwaiting | closed _ hwaiting _ _ =>
                rw [hsender] at hwaiting
                exact absurd hlive hwaiting
            | asked _ hasked _ _ _ _ =>
                rw [hsender] at hasked
                cases hasked
                exact hlive.elim
            | live hopened hhere htalking _ =>
                rw [hsender] at hhere
                cases hhere
                exact flows_moved hflows hsender hopened.announced hlive hfed hmachine
                  (senderMoved_of_step (hsize ▸ hopened.wellFormed) hsound.chunkSize hpoint htalking
                    hfed hmachine)
          · exact flows_waited hflows hstanding hsender hlive (senderFed_config hfed)
              (accepted_of_senderFed hfed)
              (senderWaited_of_step hpoint hlive hfed hmachine)
  | receiver hreceiver =>
      exact flows_receiverStepped hflows hstanding hsize hsound.chunkSize hserves hreceiver
  | loseForward | loseBackward =>
      exact ⟨hflows.quiet, hflows.follows, hflows.waiting, hflows.counted, hflows.took⟩
  | save outcome _ =>
      refine flows_phase hflows _ fun _ _ _ hphase => ?_
      exact absurd hphase (StateFile.afterFailure_ne_sending _ _ _ _ _ _ _ _)
  | unreachable hsender =>
      refine flows_phase hflows world.saved fun _ _ _ hphase => ?_
      cases hphase
      refine ⟨id, ?_⟩
      cases hstanding with
      | silent hannounced _ _ _ _ => exact Or.inl (hflows.quiet hannounced).1
      | asked _ hother _ _ _ _ | live _ hother _ _ =>
          rw [hsender] at hother
          cases hother
      | closed _ _ hended _ =>
          rw [hsender] at hended
          exact Or.inr (hended.resolve_left id)
  | finish removed _ =>
      refine flows_phase hflows _ fun _ _ _ hphase => ?_
      cases hphase

theorem flows_initial (store : Store) : Flows setup (initial setup store) := by
  refine ⟨fun _ => ⟨rfl, fun _ => Or.inl rfl⟩, ?_, ?_, ?_, ?_⟩
  · intro info hannounced
    cases hannounced
  · intro _ _ _ hphase
    cases hphase
  · intro info _ _ _ hannounced
    cases hannounced
  · intro info hannounced
    cases hannounced

/-! ## Runs -/

/-- A conversation of which only the kinds of messages are kept in view. -/
def bare (setup : Setup) : Terms where
  chunkSize := setup.chunkSize.toNat
  good := fun _ => True
  answers := fun _ _ _ message => ∃ peer, message = .fileChecksum peer
  isChecksum := fun _ _ _ _ hanswers => hanswers

structure Steady (setup : Setup) (world : Network.State) : Prop where
  sound : Sound setup (fun _ => True) world
  standing : Standing (bare setup) world
  flows : Flows setup world

theorem steady_initial (store : Store) : Steady setup (initial setup store) :=
  ⟨sound_initial trivial store, .silent rfl rfl rfl nofun trivial, flows_initial store⟩

theorem steady_step (hdecode : Invertible setup.codec) {event : Event}
    (hhonest : HonestEvent setup (fun _ => True) event) (hsteady : Steady setup world)
    (hstep : step setup world event = some next) : Steady setup next := by
  have hserves : ∀ point received input, world.receiver.status = .running point →
      (FolderReceiver.machine (receiverSession setup world.link)).step world.receiver input =
        some received → Serves setup (bare setup) world point received := by
    intro point received input hreceiver _
    refine ⟨hreceiver, hsteady.sound.receiver point ?_, fun _ _ _ _ _ hanswers => hanswers, ?_⟩
    · rw [hreceiver]
      rfl
    · intro _ _ _ _ _ _ _ _
      exact ⟨_, rfl⟩
  exact ⟨sound_step hdecode trivial hhonest hsteady.sound hstep,
    standing_step rfl hsteady.standing hsteady.sound hserves hstep,
    flows_step rfl hsteady.sound hsteady.standing hserves hsteady.flows hstep⟩

end P2PFileTransfer.Transfer.Streams
