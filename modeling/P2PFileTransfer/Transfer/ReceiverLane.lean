import P2PFileTransfer.Transfer.Isolation
import P2PFileTransfer.Transfer.Network
import P2PFileTransfer.Transfer.Schedule

/-!
# The receiver on one connection

Until a receiver has read its manifest it touches nothing.  From then on it leaves alone
what the manifest lists as finished and what it has itself reported, and the only
messages it sends are Cancel, Ready and the checksums of its items, one after the other.
-/

namespace P2PFileTransfer.Transfer.ReceiverLane

open P2PFileTransfer.Foundation.FileSystem
open P2PFileTransfer.Foundation.FixedWidth
open P2PFileTransfer.Foundation.Process
open P2PFileTransfer.Foundation.UnixPath
open P2PFileTransfer.Core
open P2PFileTransfer.Core.Protocol
open P2PFileTransfer.Core.TransferFile
open P2PFileTransfer.Core.TransferFolder
open P2PFileTransfer.Core.FolderReceiver
open P2PFileTransfer.Transfer.Isolation
open P2PFileTransfer.Transfer.Network
open P2PFileTransfer.Transfer.Schedule

/-- The points of a call that has not read its manifest. -/
def Unread : Point → Prop
  | .prepare | .recvInfo => True
  | _ => False

/-- The points of a call that has not sent Ready. -/
def Unready : Point → Prop
  | .prepare | .recvInfo | .decide _ | .sendCancel | .createOutputDir _ | .sendReady _ => True
  | .fileHead _ _ | .createParent _ _ _ | .file _ _ _ _ | .recvComplete _ => False

/-- The items below are finished for the manifest or reported by the call. -/
def floor (info : TransferInfo) (point : Point) : Nat := max (firstItem info) point.reported

/-- The point has read the manifest `info`, or none. -/
def Knows (info : TransferInfo) (point : Point) : Prop := Unread point ∨ point.Carries info

/-- What a step that sends nothing does to the connection. -/
def Takes (link after : Link) : Prop :=
  ∃ rest count, rest <:+ link.toReceiver ∧
    after = { link with toReceiver := rest, accepted := count }

/-- The message an item is reported with. -/
def report (info : TransferInfo) (task : FileReceiver.Task) (checksum : Digest) : Message :=
  .fileChecksum
    { transferId := info.transferId, fileIndex := task.fileIndex, checksum := checksum }

/-- What a move of the receiver does on a connection that announces `info`. -/
inductive ReceiverMoved (info : TransferInfo) (link : Link) (point : Point) :
    PointStatus → Link → Prop where
  | halts {status : PointStatus} {after : Link} (hhalted : status.Halted)
      (htakes : Takes link after) : ReceiverMoved info link point status after
  | declines (hpoint : point = .sendCancel) :
      ReceiverMoved info link point (.returned .default) (link.sendBackward .cancel)
  | goes {next : Point} {after : Link} (hknows : Knows info next)
      (hread : Unread next → Unread point) (hunready : Unready next ↔ Unready point) (hfloor : floor info next = floor info point)
      (htakes : Takes link after) : ReceiverMoved info link point (.running next) after
  | readies {plan : Plan} (hpoint : point = .sendReady plan) (hplan : plan.info = info) :
      ReceiverMoved info link point (.running (.fileHead plan 0)) (link.sendBackward .ready)
  | reports {plan : Plan} {index : Nat} {task : FileReceiver.Task} {checksum : Digest}
      (hpoint : point = .file plan index task (.sendChecksum checksum)) (hplan : plan.info = info) :
      ReceiverMoved info link point (.running (.file plan index task (.recvChecksum checksum)))
        (link.sendBackward (report info task checksum))

variable {setup : Setup} {session : Session} {info : TransferInfo} {link : Link} {point : Point}

theorem takes_refl (link : Link) : Takes link link :=
  ⟨link.toReceiver, link.accepted, List.suffix_refl _, rfl⟩

theorem eq_of_unread (hunread : Unread point) : point = .prepare ∨ point = .recvInfo := by
  cases point with
  | prepare => exact Or.inl rfl
  | recvInfo => exact Or.inr rfl
  | decide _ | sendCancel | createOutputDir _ | sendReady _ => exact hunread.elim
  | fileHead _ _ | createParent _ _ _ | file _ _ _ _ | recvComplete _ => exact hunread.elim

theorem unready_of_unread (hunread : Unread point) : Unready point := by
  rcases eq_of_unread hunread with rfl | rfl <;> trivial

/-! ## What stays as it is -/

/-- Only the call that receives an item writes to the store. -/
theorem written_eq_nil_of_item_none (hitem : item? point = none) :
    (action session point).written = [] := by
  cases point with
  | createParent _ _ _ | file _ _ _ _ => cases hitem
  | prepare | recvInfo | decide _ | sendCancel | createOutputDir _ | sendReady _ => rfl
  | fileHead _ _ | recvComplete _ => rfl

/-- An item that is received is not among the finished ones. -/
theorem firstItem_le_of_item {chunkSize : Nat} (hinfo : WellFormed chunkSize info)
    (hsound : point.Sound session) (hcarries : point.Carries info) {index : Nat}
    (hitem : item? point = some index) : firstItem info ≤ index := by
  obtain ⟨hindex, hreceived⟩ := received_of_item hsound hcarries hitem
  refine Nat.le_of_not_lt fun hless => ?_
  rw [(skips_iff_lt hinfo hindex).mpr hless] at hreceived
  cases hreceived

/-- The files below the floor are not written. -/
theorem not_written_below_floor {chunkSize : Nat} (hinfo : WellFormed chunkSize info)
    (hhonest : HonestItems info.items) (hshadow : NoShadow info.items)
    (hsound : point.Sound session) (hknows : Knows info point) {index : Nat} {clean : OsStr}
    (hpath : HasPath info.items index clean) (hbelow : index < floor info point) :
    finalLocation session clean ∉ (action session point).written := by
  cases hitem : item? point with
  | none =>
      rw [written_eq_nil_of_item_none hitem]
      exact List.not_mem_nil
  | some current =>
      have hcarries : point.Carries info := by
        rcases hknows with hunread | hcarries
        · rcases eq_of_unread hunread with rfl | rfl <;> cases hitem
        · exact hcarries
      refine not_written_of_reported hhonest (fun _ => hshadow) hsound hcarries rfl hpath ?_
      rcases lt_max_iff.mp hbelow with hfinished | hreported
      · have hlater := firstItem_le_of_item hinfo hsound hcarries hitem
        exact Nat.lt_of_lt_of_le (Nat.lt_of_lt_of_le hfinished hlater) (le_reported_of_item hitem)
      · exact hreported

/-! ## What a step does -/

theorem not_unready_of_started {plan : Plan} {index size : Nat} {fullPath : OsStr} {next : Point}
    {status : PointStatus} (hstarted : Started session plan point index size fullPath status)
    (hnext : status = .running next) : ¬ Unready next := by
  cases hstarted <;> cases hnext
  exact id

theorem not_unready_of_visited {plan : Plan} {index : Nat} {next : Point} {status : PointStatus}
    (hvisited : Visited session plan index status) (hnext : status = .running next) :
    ¬ Unready next := by
  cases hvisited with
  | starts _ _ _ hstarted => exact not_unready_of_started hstarted hnext
  | refuses _ _ => cases hnext
  | ends _ | skips _ _ | creates _ _ _ =>
      cases hnext
      exact id

/-- Ready is sent once, between the preparations and the files. -/
theorem unready_resume {next : Point} {reply : Reply Message Bool}
    (hfits : (action session point).Fits reply)
    (hnext : resume session point reply = .running next) :
    (Unready next ↔ Unready point) ∨ ∃ plan, point = .sendReady plan ∧ next = .fileHead plan 0 := by
  refine resume_elim (motive := fun point status => ∀ next, status = .running next →
      (Unready next ↔ Unready point) ∨ ∃ plan, point = .sendReady plan ∧ next = .fileHead plan 0)
    ?prepare ?info ?accept ?reject ?cancel ?output ?ready ?head ?parent ?file ?complete
    point reply hfits next hnext
  case prepare =>
      intro next hnext
      cases hnext
      exact Or.inl Iff.rfl
  case info =>
      intro message status hread next hnext
      cases hread <;> cases hnext
      exact Or.inl Iff.rfl
  case accept =>
      intro info status hplanned next hnext
      cases hplanned <;> cases hnext
      exact Or.inl Iff.rfl
  case reject | output =>
      intro _ next hnext
      cases hnext
      exact Or.inl Iff.rfl
  case ready =>
      intro plan next hnext
      cases hnext
      exact Or.inr ⟨plan, rfl, rfl⟩
  case cancel | complete => exact nofun
  case head =>
      intro plan index status hvisited next hnext
      exact Or.inl (iff_of_false (not_unready_of_visited hvisited hnext) id)
  case parent =>
      intro plan index fullPath status hstarted next hnext
      exact Or.inl (iff_of_false (not_unready_of_started hstarted hnext) id)
  case file =>
      intro plan index task stage reply _ next hnext
      cases hinner : FileReceiver.resume (fileSession session plan.info) task stage reply <;>
        rw [hinner] at hnext <;> cases hnext <;> exact Or.inl Iff.rfl

theorem not_unread_of_carries (hcarries : point.Carries info) : ¬ Unread point := by
  intro hunread
  rcases eq_of_unread hunread with rfl | rfl <;> exact hcarries

theorem carries_resume {next : Point} {reply : Reply Message Bool}
    (hfits : (action session point).Fits reply) (hcarries : point.Carries info)
    (hnext : resume session point reply = .running next) : next.Carries info := by
  refine carriesStatus_inductive.1 point reply hfits ?_ next ?_
  · intro other hother
    cases hother
    exact hcarries
  · change (resume session point reply).point? = some next
    rw [hnext]
    rfl

/-- What is read first is the manifest of the connection. -/
theorem knows_resume {next : Point} {reply : Reply Message Bool}
    (hfits : (action session point).Fits reply) (hknows : Knows info point)
    (hmessage : ∀ message, point = .recvInfo → reply = .message message →
      message = .transferInfo info)
    (hnext : resume session point reply = .running next) : Knows info next := by
  rcases hknows with hunread | hcarries
  · rcases eq_of_unread hunread with rfl | rfl
    · cases reply <;> try exact hfits.elim
      cases hnext
      exact Or.inl trivial
    · cases reply <;> try exact hfits.elim
      rename_i message
      obtain rfl := hmessage message rfl rfl
      change readManifest (.transferInfo info) = .running next at hnext
      rcases readManifest_cases info with hread | ⟨error, hread⟩ <;> rw [hread] at hnext <;>
        cases hnext
      exact Or.inr rfl
  · exact Or.inr (carries_resume hfits hcarries hnext)

theorem floor_skip {chunkSize : Nat} (hinfo : WellFormed chunkSize info) {plan : Plan} {index : Nat}
    (hplan : plan.info = info) (hindex : index ≤ plan.info.items.length)
    (hskip : skips plan.info index = true) :
    floor info (.fileHead plan (index + 1)) = floor info (.fileHead plan index) := by
  subst hplan
  have hless : index < firstItem plan.info := by
    rw [skips, truncate_eq_self (Nat.lt_of_le_of_lt hindex hinfo.length_lt), hinfo.completed] at hskip
    exact List.mem_range.mp (of_decide_eq_true hskip)
  change max (firstItem plan.info) (index + 1) = max (firstItem plan.info) index
  rw [max_eq_left hless, max_eq_left (Nat.le_of_lt hless)]

/-- The messages of a receiver. -/
theorem point_of_send {message : Message} (hsend : action session point = .send message) :
    point = .sendCancel ∧ message = .cancel ∨
      (∃ plan, point = .sendReady plan ∧ message = .ready) ∨
      ∃ plan index task checksum, point = .file plan index task (.sendChecksum checksum) ∧
        message = report plan.info task checksum := by
  cases point with
  | sendCancel =>
      cases hsend
      exact Or.inl ⟨rfl, rfl⟩
  | sendReady plan =>
      cases hsend
      exact Or.inr (Or.inl ⟨plan, rfl, rfl⟩)
  | file plan index task stage =>
      cases stage <;> cases hsend
      exact Or.inr (Or.inr ⟨plan, index, task, _, rfl, rfl⟩)
  | prepare | recvInfo | decide _ | createOutputDir _ => cases hsend
  | fileHead _ _ | createParent _ _ _ | recvComplete _ => cases hsend

/-- A step that sends nothing. -/
theorem moved_of_takes {chunkSize : Nat} (hinfo : WellFormed chunkSize info)
    (hsound : point.Sound session) (hknows : Knows info point) {reply : Reply Message Bool}
    (hfits : (action session point).Fits reply)
    (hquiet : ∀ message, action session point ≠ .send message)
    (hmessage : ∀ message, point = .recvInfo → reply = .message message →
      message = .transferInfo info)
    {after : Link} (htakes : Takes link after) :
    ReceiverMoved info link point (resume session point reply) after := by
  cases hresume : resume session point reply with
  | returned _ | failed _ _ | panicked _ _ => exact .halts trivial htakes
  | running next =>
      refine .goes (knows_resume hfits hknows hmessage hresume) ?_ ?_ ?_ htakes
      · intro hunread
        refine hknows.resolve_right fun hcarries => ?_
        exact not_unread_of_carries (carries_resume hfits hcarries hresume) hunread
      · rcases unready_resume hfits hresume with hsame | ⟨plan, rfl, _⟩
        · exact hsame
        · exact absurd rfl (hquiet _)
      · cases advances_resume hsound hfits hresume with
        | stays hsame => rw [floor, floor, hsame]
        | skips hskip =>
            rcases hknows with hunread | hcarries
            · exact hunread.elim
            · exact floor_skip hinfo hcarries hsound.2 hskip
        | sends => exact absurd rfl (hquiet _)

/-- A move either takes from the connection or puts one message on it. -/
theorem takes_or_sends {after : Link} {waits : Action Message} {move : Move Bool}
    {input : ReceiverInput} (hfed : ReceiverFed link waits move input after) :
    (Takes link after ∧ (∀ message, input = .message message → message ∈ link.toReceiver) ∧
        ∀ message, waits = .send message → ∃ error written, input = .fail error written) ∨
      ∃ message, waits = .send message ∧ input = .proceed ∧ after = link.sendBackward message := by
  cases hfed with
  | fail _ => exact Or.inl ⟨takes_refl link, nofun, fun _ _ => ⟨_, _, rfl⟩⟩
  | answer | compute | perform => exact Or.inl ⟨takes_refl link, nofun, nofun⟩
  | send => exact Or.inr ⟨_, rfl, rfl, rfl⟩
  | receive hhead =>
      rename_i message rest
      refine Or.inl ⟨⟨rest, link.accepted, ?_, rfl⟩, ?_, nofun⟩
      · rw [hhead]
        exact List.suffix_cons message rest
      · intro other hother
        cases hother
        rw [hhead]
        exact List.mem_cons_self
  | acceptStream _ =>
      exact Or.inl ⟨⟨link.toReceiver, link.accepted + 1, List.suffix_refl _, rfl⟩, nofun, nofun⟩

theorem receiverMoved_of_step {chunkSize : Nat} (hinfo : WellFormed chunkSize info)
    (hsound : point.Sound session) (hknows : Knows info point)
    (hheard : Unread point → ∀ message ∈ link.toReceiver, message = .transferInfo info)
    {state next : ReceiverState} (hpoint : state.status = .running point) {move : Move Bool}
    {input : ReceiverInput} {after : Link}
    (hfed : ReceiverFed link (action session point) move input after)
    (hstep : (machine session).step state input = some next) :
    ReceiverMoved info link point next.status after := by
  have huse := takes_or_sends hfed
  cases stepped_of_step hstep with
  | fail hstatus hstore hnext =>
      rw [hnext]
      rcases huse with ⟨htakes, _, _⟩ | ⟨message, _, hinput, _⟩
      · exact .halts trivial htakes
      · cases hinput
  | resume hstatus hreply hnext =>
      rename_i other reply store
      rw [hpoint] at hstatus
      cases hstatus
      rw [hnext]
      change ReceiverMoved info link point (resume session point reply) after
      have hfits : (action session point).Fits reply := Action.fits_of_reply hreply
      change (action session point).reply input state.store = some (reply, store) at hreply
      rcases huse with ⟨htakes, htaken, hfailed⟩ | ⟨message, hsend, rfl, rfl⟩
      · refine moved_of_takes hinfo hsound hknows hfits ?_ ?_ htakes
        · intro message hsend
          obtain ⟨error, written, rfl⟩ := hfailed message hsend
          rw [hsend] at hreply
          cases hreply
        · rintro message rfl rfl
          exact hheard trivial message (htaken message (Action.input_of_reply_message hreply))
      · rw [hsend] at hreply
        cases hreply
        rcases point_of_send hsend with
          ⟨rfl, rfl⟩ | ⟨plan, rfl, rfl⟩ | ⟨plan, index, task, checksum, rfl, rfl⟩
        · exact .declines rfl
        · exact .readies rfl (hknows.resolve_left id)
        · have hplan : plan.info = info := hknows.resolve_left id
          subst hplan
          exact .reports rfl rfl

/-- Without a manifest there is nothing to read: a receiver prepares, or fails, and its
files stay as they are. -/
theorem unread_of_step (hunread : Unread point) (hnone : link.toReceiver = [])
    {state next : ReceiverState} (hpoint : state.status = .running point) {move : Move Bool}
    {input : ReceiverInput} {after : Link}
    (hfed : ReceiverFed link (action session point) move input after)
    (hstep : (machine session).step state input = some next) :
    after = link ∧ next.store = state.store ∧
      (point = .prepare ∧ input = .proceed ∧ next.status = .running .recvInfo ∨
        ∃ error, next.status = .failed point error) := by
  obtain ⟨status, store⟩ := state
  cases hpoint
  rcases eq_of_unread hunread with rfl | rfl
  · change ReceiverFed link (.perform _) _ _ _ at hfed
    cases hfed with
    | fail _ =>
        cases hstep
        exact ⟨rfl, rfl, Or.inr ⟨_, rfl⟩⟩
    | perform =>
        cases hstep
        exact ⟨rfl, rfl, Or.inl ⟨rfl, rfl, rfl⟩⟩
  · change ReceiverFed link .receive _ _ _ at hfed
    cases hfed with
    | fail _ =>
        cases hstep
        exact ⟨rfl, rfl, Or.inr ⟨_, rfl⟩⟩
    | receive hhead =>
        rw [hnone] at hhead
        cases hhead

end P2PFileTransfer.Transfer.ReceiverLane
