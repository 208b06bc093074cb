import Mathlib.Data.Finset.Card
import Mathlib.Data.Finset.Range
import P2PFileTransfer.Transfer.ReceiverArithmetic

/-!
# What the stream count leaves out

The loop of `receive_file` ends when it has seen as many distinct chunks as the length of the
resume point's list leaves over.  A list that repeats chunks or names chunks out of range is
too long, and a sender that sends a listed chunk again is counted as if it had sent another
one.
-/

namespace P2PFileTransfer.Transfer.StreamCount

open P2PFileTransfer.Core
open P2PFileTransfer.Foundation.ByteFile
open P2PFileTransfer.Foundation.FileSystem
open P2PFileTransfer.Foundation.FixedWidth
open P2PFileTransfer.Foundation.Process
open P2PFileTransfer.Foundation.UnixPath
open P2PFileTransfer.Foundation.Run (along_of_forall invariant_history)
open P2PFileTransfer.Core.Protocol
open P2PFileTransfer.Core.TransferFile
open P2PFileTransfer.Core.FolderReceiver
open P2PFileTransfer.Transfer.ReceiverArithmetic (sessionWith)

/-- The chunks that the resume point lists for an item. -/
def listed (info : TransferInfo) (index : Nat) : List Nat :=
  match info.resumeFrom with
  | none => []
  | some point => if point.fileIndex = index then point.completedChunks else []

/-- How many different chunks of an item are listed. -/
def distinct (total : Nat) (chunks : List Nat) : Nat :=
  ((Finset.range total).filter (· ∈ chunks)).card

/-- The chunk index of a stream that arrives. -/
def arrival : ReceiverInput → Option Nat
  | .stream raw => some (streamIndex raw)
  | _ => none

/-- The indices of the streams among some inputs. -/
def arrived (inputs : List ReceiverInput) : List Nat := inputs.filterMap arrival

/-- What the loop has seen is what has arrived; at its end it has counted enough. -/
def Counted (task : FileReceiver.Task) (indices : List Nat) : FileReceiver.Stage → Prop
  | .begin | .createParent _ | .openPartial _ | .setLen _ => indices = []
  | .acceptUni seen | .writeChunk seen _ _ _ => ∀ chunk, chunk ∈ seen ↔ chunk ∈ indices
  | .rename => ∃ seen : List Nat, seen.Nodup ∧ (∀ chunk ∈ seen, chunk < task.totalChunks) ∧
      seen.length = task.streamsToReceive ∧ ∀ chunk, chunk ∈ seen ↔ chunk ∈ indices
  | .reread | .sendChecksum _ | .recvChecksum _ => True

def CountedStatus (task : FileReceiver.Task) (indices : List Nat) :
    Status FileReceiver.Stage Unit Error → Prop
  | .running stage => Counted task indices stage
  | .returned _ | .failed _ _ | .panicked _ _ => True

/-- The items before and at this one are done with. -/
def Later (index : Nat) : Point → Prop
  | .file _ other _ _ | .fileHead _ other | .createParent _ other _ => index < other
  | .recvComplete _ => True
  | _ => False

def LaterStatus (index : Nat) (status : PointStatus) : Prop :=
  ∀ point, status = .running point → Later index point

/-- In the call for an item, or after it. -/
def Within (plan : Plan) (index : Nat) (task : FileReceiver.Task) (indices : List Nat)
    (status : PointStatus) : Prop :=
  (∃ stage, status = .running (.file plan index task stage) ∧ Counted task indices stage) ∨
    LaterStatus index status

/-! ## Counting -/

/-- So many chunks as the list leaves over cover the rest exactly when the list is as long as
it says and none of its chunks is among them. -/
theorem covered_iff_count {total : Nat} {seen chunks : List Nat} (hnodup : seen.Nodup)
    (hrange : ∀ chunk ∈ seen, chunk < total) (hcount : seen.length = total - chunks.length) :
    (∀ chunk < total, chunk ∈ seen ∨ chunk ∈ chunks) ↔
      distinct total chunks = min chunks.length total ∧ ∀ chunk ∈ seen, chunk ∉ chunks := by
  unfold distinct
  have hseen : seen.toFinset.card = total - chunks.length :=
    (List.toFinset_card_of_nodup hnodup).trans hcount
  have hsubset : (Finset.range total).filter (· ∈ chunks) ⊆ chunks.toFinset := by
    intro chunk hchunk
    exact List.mem_toFinset.mpr (Finset.mem_filter.mp hchunk).2
  have hlisted : ((Finset.range total).filter (· ∈ chunks)).card ≤ chunks.length :=
    le_trans (Finset.card_le_card hsubset) chunks.toFinset_card_le
  have hinside : ((Finset.range total).filter (· ∈ chunks)).card ≤ total :=
    le_trans (Finset.card_filter_le _ _) (Finset.card_range total).le
  have hunion : seen.toFinset ∪ (Finset.range total).filter (· ∈ chunks) ⊆ Finset.range total := by
    apply Finset.union_subset
    · intro chunk hchunk
      exact Finset.mem_range.mpr (hrange chunk (List.mem_toFinset.mp hchunk))
    · exact Finset.filter_subset _ _
  have hsum := Finset.card_union_add_card_inter seen.toFinset
    ((Finset.range total).filter (· ∈ chunks))
  constructor
  · intro hcovered
    have hall : seen.toFinset ∪ (Finset.range total).filter (· ∈ chunks) = Finset.range total := by
      apply Finset.Subset.antisymm hunion
      intro chunk hchunk
      rcases hcovered chunk (Finset.mem_range.mp hchunk) with hin | hin
      · exact Finset.mem_union_left _ (List.mem_toFinset.mpr hin)
      · exact Finset.mem_union_right _ (Finset.mem_filter.mpr ⟨hchunk, hin⟩)
    rw [hall, Finset.card_range, hseen] at hsum
    have hnone : (seen.toFinset ∩ (Finset.range total).filter (· ∈ chunks)).card = 0 := by omega
    refine ⟨by omega, ?_⟩
    intro chunk hin hlist
    have hmem : chunk ∈ seen.toFinset ∩ (Finset.range total).filter (· ∈ chunks) :=
      Finset.mem_inter.mpr ⟨List.mem_toFinset.mpr hin,
        Finset.mem_filter.mpr ⟨Finset.mem_range.mpr (hrange chunk hin), hlist⟩⟩
    rw [Finset.card_eq_zero.mp hnone] at hmem
    cases hmem
  · rintro ⟨hlong, hapart⟩ chunk hchunk
    have hnone : seen.toFinset ∩ (Finset.range total).filter (· ∈ chunks) = ∅ := by
      apply Finset.eq_empty_of_forall_notMem
      intro other hother
      obtain ⟨hin, hlist⟩ := Finset.mem_inter.mp hother
      exact hapart other (List.mem_toFinset.mp hin) (Finset.mem_filter.mp hlist).2
    rw [hnone, Finset.card_empty, hseen] at hsum
    have hall : seen.toFinset ∪ (Finset.range total).filter (· ∈ chunks) = Finset.range total :=
      Finset.eq_of_subset_of_card_le hunion (by rw [Finset.card_range]; omega)
    have hmem : chunk ∈ seen.toFinset ∪ (Finset.range total).filter (· ∈ chunks) := by
      rw [hall]
      exact Finset.mem_range.mpr hchunk
    rcases Finset.mem_union.mp hmem with hin | hin
    · exact .inl (List.mem_toFinset.mp hin)
    · exact .inr (Finset.mem_filter.mp hin).2

theorem length_listed (info : TransferInfo) (index : Nat) :
    (listed info index).length = alreadySent info index := by
  unfold listed alreadySent
  cases info.resumeFrom with
  | none => rfl
  | some point =>
      dsimp only
      split <;> rfl

/-! ## The loop -/

variable {session : Session} {plan : Plan} {index : Nat} {task : FileReceiver.Task}
  {indices : List Nat}

/-- The chunk index in a reply. -/
def taken : Reply Message Bool → List Nat
  | .stream raw => [streamIndex raw]
  | _ => []

theorem arrived_append (first second : List ReceiverInput) :
    arrived (first ++ second) = arrived first ++ arrived second := List.filterMap_append

theorem arrived_of_reply {action : Action Message} {input : ReceiverInput} {store after : Store}
    {reply : Reply Message Bool} (hreply : action.reply input store = some (reply, after)) :
    arrived [input] = taken reply := by
  cases action with
  | perform operation =>
      obtain ⟨rfl, value, rfl, _⟩ := Action.performed hreply
      rfl
  | compute | ask | send _ | receive | openStream _ | awaitStopped | acceptStream =>
      cases input <;> first | cases hreply; rfl | cases hreply

theorem counted_continueLoop {seen : List Nat} (hnodup : seen.Nodup)
    (hrange : ∀ chunk ∈ seen, chunk < task.totalChunks)
    (hlength : seen.length ≤ task.streamsToReceive)
    (hsame : ∀ chunk, chunk ∈ seen ↔ chunk ∈ indices) :
    CountedStatus task indices (FileReceiver.continueLoop task seen) := by
  rcases FileReceiver.continueLoop_cases task seen with ⟨_, hnext⟩ | ⟨hdone, hnext⟩
  · rw [hnext]
    exact hsame
  · rw [hnext]
    exact ⟨seen, hnodup, hrange, Nat.le_antisymm hlength hdone, hsame⟩

theorem counted_openWriter {session : FileReceiver.Session} :
    CountedStatus task [] (FileReceiver.openWriter session task) := by
  rcases FileReceiver.openWriter_cases session task with
    ⟨_, hnext, _⟩ | ⟨_, hnext⟩ | ⟨_, hnext⟩ | ⟨_, hnext⟩
  · rw [hnext]
    trivial
  · rw [hnext]
    trivial
  · rw [hnext]
    rfl
  · rw [hnext]
    rfl

/-- A stream is counted unless it repeats one. -/
theorem counted_handleStream {session : FileReceiver.Session} {seen : List Nat}
    (hsame : ∀ chunk, chunk ∈ seen ↔ chunk ∈ indices) (raw : Bytes) :
    CountedStatus task (indices ++ [streamIndex raw])
      (FileReceiver.handleStream session task seen raw) := by
  rcases FileReceiver.handleStream_cases session task seen raw with
    ⟨_, _, hnext⟩ | ⟨haccept, hnext⟩ | ⟨chunk, data, haccept, ⟨_, hnext, _⟩ | hnext⟩
  · rw [hnext]
    trivial
  · rw [hnext]
    intro other
    rw [List.mem_append, List.mem_singleton, ← hsame other]
    refine ⟨.inl, ?_⟩
    rintro (hold | rfl)
    · exact hold
    · exact mem_of_acceptChunk haccept
  · rw [hnext]
    trivial
  · rw [hnext]
    obtain ⟨_, _, rfl, _⟩ := acceptChunk_eq_some_iff.mp haccept
    intro other
    rw [List.mem_cons, List.mem_append, List.mem_singleton, ← hsame other, or_comm]

theorem counted_resume {session : FileReceiver.Session} {stage : FileReceiver.Stage}
    {reply : Reply Message Bool} (hfits : (FileReceiver.action session task stage).Fits reply)
    (hsound : stage.Sound session task) (hcounted : Counted task indices stage) :
    CountedStatus task (indices ++ taken reply) (FileReceiver.resume session task stage reply) := by
  cases stage <;> cases reply <;> try exact hfits.elim
  case acceptUni.stream seen raw => exact counted_handleStream hcounted raw
  all_goals simp only [taken, List.append_nil]
  case begin.done =>
      rw [show indices = [] from hcounted]
      exact counted_openWriter
  case createParent.value expected value => exact hcounted
  case openPartial.value expected value => exact hcounted
  case setLen.value expected value =>
      rw [show indices = [] from hcounted]
      exact counted_continueLoop List.nodup_nil (by simp) (Nat.zero_le _) (fun _ => Iff.rfl)
  case writeChunk.value seen index offset data value =>
      exact counted_continueLoop hsound.1 hsound.2.1 hsound.2.2.1 hcounted
  case rename.value value => trivial
  case reread.value value => cases value <;> trivial
  case sendChecksum.done checksum => trivial
  case recvChecksum.message checksum message =>
      rcases FileReceiver.compareChecksum_cases task checksum message with
        ⟨_, hnext⟩ | ⟨hnext, _⟩
      · rw [FileReceiver.resume, hnext]
        trivial
      · rw [FileReceiver.resume, hnext]
        trivial

/-! ## The calls around it -/

theorem laterStatus_of_running {point : Point} (hlater : Later index point) :
    LaterStatus index (.running point) := by
  rintro _ ⟨⟩
  exact hlater

theorem laterStatus_of_started {point : Point} {other size : Nat} {fullPath : OsStr}
    {status : PointStatus} (hlater : index < other)
    (hstarted : Started session plan point other size fullPath status) :
    LaterStatus index status := by
  cases hstarted with
  | overflows hcount => exact nofun
  | begins hcount => exact laterStatus_of_running hlater

theorem laterStatus_of_visited {other : Nat} {status : PointStatus} (hlater : index < other)
    (hvisited : Visited session plan other status) : LaterStatus index status := by
  cases hvisited with
  | ends hnone => exact laterStatus_of_running trivial
  | skips hfile hskip => exact laterStatus_of_running (Nat.lt_succ_of_lt hlater)
  | refuses hfile hsanitize => exact nofun
  | creates hfile hskip hsanitize => exact laterStatus_of_running hlater
  | starts hfile hskip hsanitize hstarted => exact laterStatus_of_started hlater hstarted

theorem laterStatus_inductive (index : Nat) : Inductive (machine session) (LaterStatus index) := by
  constructor
  · intro point reply hfits hlater
    have hpoint : Later index point := hlater point rfl
    refine resume_elim (motive := fun point status => Later index point → LaterStatus index status)
      ?prepare ?info ?accept ?reject ?cancel ?output ?ready ?head ?parent ?file ?complete
      point reply hfits hpoint
    case prepare | cancel => exact nofun
    case info => exact fun _ _ _ => nofun
    case accept => exact fun _ _ _ => nofun
    case reject => exact fun _ => nofun
    case output | ready => exact fun _ => nofun
    case head => exact fun _ _ _ hvisited hother => laterStatus_of_visited hother hvisited
    case parent => exact fun _ _ _ _ hstarted hother => laterStatus_of_started hother hstarted
    case file =>
        intro plan other task stage reply _ hother
        cases FileReceiver.resume (fileSession session plan.info) task stage reply with
        | running next => exact laterStatus_of_running hother
        | returned done => exact laterStatus_of_running (Nat.lt_succ_of_lt hother)
        | failed next error => exact nofun
        | panicked next fault => exact nofun
    case complete => exact fun _ _ => nofun
  · exact fun _ _ _ => nofun

/-- The call for an item counts what arrives, until it is over. -/
theorem within_step {state next : ReceiverState} {input : ReceiverInput}
    (hwithin : Within plan index task indices state.status)
    (hsound : SoundStatus session state.status)
    (hstep : (machine session).step state input = some next) :
    Within plan index task (indices ++ arrived [input]) next.status := by
  rcases hwithin with ⟨stage, hstatus, hcounted⟩ | hlater
  · cases stepped_of_step hstep with
    | fail hrunning hstore hnext =>
        rw [hnext]
        exact .inr nofun
    | resume hrunning hreply hnext =>
        rw [hstatus] at hrunning
        cases hrunning
        have hpoint := hsound _ (by rw [hstatus]; rfl)
        have hfits := Action.fits_of_reply hreply
        have hresume := counted_resume hfits hpoint.2.2 hcounted
        rw [hnext, arrived_of_reply hreply]
        change Within plan index task _ (Status.embed _ _ (FileReceiver.resume _ task stage _))
        cases hstage : FileReceiver.resume (fileSession session plan.info) task stage _ with
        | running other =>
            rw [hstage] at hresume
            exact .inl ⟨other, rfl, hresume⟩
        | returned done => exact .inr (laterStatus_of_running (Nat.lt_succ_self index))
        | failed other error => exact .inr nofun
        | panicked other fault => exact .inr nofun
  · exact .inr ((laterStatus_inductive index).step hstep hlater)

/-- The loop for an item has counted as many distinct chunks as it was started for, all of
them in range, and they are those of the streams that arrived. -/
theorem counted_of_run {earlier later : List ReceiverInput} {store files left : Store}
    (hopened : run session (start store) earlier =
      some ⟨.running (.file plan index task .begin), files⟩)
    (hloop : run session ⟨.running (.file plan index task .begin), files⟩ later =
      some ⟨.running (.file plan index task .rename), left⟩) :
    Counted task (arrived later) .rename := by
  have hsound := sound_of_run hopened
  have hkeep : ∀ past state input next, (Within plan index task (arrived past) state.status ∧
      SoundStatus session state.status) → True → (machine session).step state input = some next →
        Within plan index task (arrived (past ++ [input])) next.status ∧
          SoundStatus session next.status := by
    rintro past state input next ⟨hwithin, hpoint⟩ _ hstep
    refine ⟨?_, soundStatus_inductive.step hstep hpoint⟩
    rw [arrived_append]
    exact within_step hwithin hpoint hstep
  have hstart : Within plan index task (arrived []) (.running (.file plan index task .begin)) :=
    .inl ⟨.begin, rfl, rfl⟩
  have hhistory := invariant_history (fun past state => Within plan index task (arrived past)
    state.status ∧ SoundStatus session state.status) hkeep
    (along_of_forall (fun _ _ _ => trivial) _) ⟨hstart, hsound⟩ hloop
  rcases hhistory.1 with ⟨stage, hstatus, hcounted⟩ | hlater
  · cases hstatus
    exact hcounted
  · exact absurd (hlater _ rfl) (Nat.lt_irrefl index)

/-- In the loop that receives an item, every chunk arrives or is listed exactly when the list
of the resume point is as long as it says and no listed chunk arrives. -/
theorem covered_iff {earlier later : List ReceiverInput} {store files left : Store}
    (hopened : run session (start store) earlier =
      some ⟨.running (.file plan index task .begin), files⟩)
    (hloop : run session ⟨.running (.file plan index task .begin), files⟩ later =
      some ⟨.running (.file plan index task .rename), left⟩) :
    (∃ file, plan.info.items[index]? = some file ∧
      chunkCount file.size session.config.chunkSize = .ok task.totalChunks) ∧
    ((∀ chunk < task.totalChunks, chunk ∈ arrived later ∨ chunk ∈ listed plan.info index) ↔
      distinct task.totalChunks (listed plan.info index) =
          min (listed plan.info index).length task.totalChunks ∧
        ∀ chunk ∈ arrived later, chunk ∉ listed plan.info index) := by
  obtain ⟨_, htask, _⟩ := sound_of_run hopened _ rfl
  obtain ⟨file, _, hfile, _⟩ := htask.receives.path
  refine ⟨⟨file, hfile, htask.totalChunks file hfile⟩, ?_⟩
  obtain ⟨seen, hnodup, hrange, hlength, hsame⟩ := counted_of_run hopened hloop
  rw [htask.streams, ← length_listed] at hlength
  have hcount : (∀ chunk < task.totalChunks, chunk ∈ seen ∨ chunk ∈ listed plan.info index) ↔ _ :=
    covered_iff_count hnodup hrange hlength
  constructor
  · intro hcovered
    obtain ⟨hdistinct, hapart⟩ := hcount.mp fun chunk hchunk =>
      (hcovered chunk hchunk).imp_left (hsame chunk).mpr
    exact ⟨hdistinct, fun chunk hchunk => hapart chunk ((hsame chunk).mpr hchunk)⟩
  · rintro ⟨hdistinct, hapart⟩ chunk hchunk
    have hcovered := hcount.mpr ⟨hdistinct, fun other hother => hapart other
      ((hsame other).mp hother)⟩
    exact (hcovered chunk hchunk).imp_left (hsame chunk).mp

/-! ## A chunk that is sent again -/

/-- A file `f` of two chunks of one byte, of which the first one is listed. -/
def halfSent : TransferInfo where
  transferId := FixedBytes.filled 16 0
  items := [{ path := [102], size := 2, modified := 0, checksum := FixedBytes.filled 32 0 }]
  resumeFrom := some ⟨FixedBytes.filled 16 0, 0, [0]⟩
  completedFiles := []

/-- Up to the call that receives the file. -/
def opening : List ReceiverInput :=
  [.proceed, .message (.transferInfo halfSent), .answer true, .proceed, .proceed, .proceed,
    .proceed]

/-- The loop with one stream. -/
def oneStream (chunk : Nat) : List ReceiverInput :=
  [.proceed, .proceed, .proceed, .proceed, .stream (chunkStream chunk false [7]), .proceed]

def halfPlan : Plan := ⟨halfSent, 2, 1⟩

def halfTask : FileReceiver.Task := taskOf halfPlan 0 2 [111, 47, 102]

theorem covered_iff_halfSent :
    ∃ left, run (sessionWith 1) ⟨.running (.file halfPlan 0 halfTask .begin), fun _ => none⟩
        (oneStream 1) = some ⟨.running (.file halfPlan 0 halfTask .rename), left⟩ ∧
      (∃ file, halfSent.items[0]? = some file ∧
        chunkCount file.size (sessionWith 1).config.chunkSize = .ok 2) ∧
      ((∀ chunk < 2, chunk ∈ arrived (oneStream 1) ∨ chunk ∈ listed halfSent 0) ↔
        distinct 2 (listed halfSent 0) = min (listed halfSent 0).length 2 ∧
          ∀ chunk ∈ arrived (oneStream 1), chunk ∉ listed halfSent 0) :=
  have hopened : run (sessionWith 1) (start fun _ => none) opening =
      some ⟨.running (.file halfPlan 0 halfTask .begin), fun _ => none⟩ := rfl
  ⟨_, rfl, covered_iff hopened rfl⟩

/-- The listed chunk is sent again, and the loop ends without the other one. -/
theorem other_chunk_missing : ¬ ∀ (session : Session) (plan : Plan) (index : Nat)
    (task : FileReceiver.Task) (earlier later : List ReceiverInput) (store files left : Store),
    run session (start store) earlier =
        some ⟨.running (.file plan index task .begin), files⟩ →
      run session ⟨.running (.file plan index task .begin), files⟩ later =
          some ⟨.running (.file plan index task .rename), left⟩ →
        ∀ chunk < task.totalChunks, chunk ∈ arrived later ∨ chunk ∈ listed plan.info index := by
  intro hclaim
  have hcovered := hclaim (sessionWith 1) halfPlan 0 halfTask opening (oneStream 0) (fun _ => none)
    _ _ rfl rfl 1 (by decide)
  exact absurd hcovered (by decide)

end P2PFileTransfer.Transfer.StreamCount
