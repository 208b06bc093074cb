import P2PFileTransfer.Core.FileReceiver

/-!
# The destination of a failed receive

The rename onto the destination happens before the checksums are compared.  A
call that fails up to the rename leaves the destination as it was; a call that
fails after it leaves the bytes it assembled from the accepted streams, and no
partial file.
-/

namespace P2PFileTransfer.Transfer.Destination

open P2PFileTransfer.Core
open P2PFileTransfer.Foundation.ByteFile
open P2PFileTransfer.Foundation.FileSystem
open P2PFileTransfer.Foundation.FixedWidth
open P2PFileTransfer.Foundation.Process
open P2PFileTransfer.Foundation.UnixPath
open P2PFileTransfer.Core.Protocol
open P2PFileTransfer.Core.TransferFile
open P2PFileTransfer.Core.FileReceiver

abbrev FileState := State Stage Unit Error

/-- The rename has been carried out. -/
def Stage.Renamed : Stage → Prop
  | .reread | .sendChecksum _ | .recvChecksum _ => True
  | _ => False

/-- The contents of a partial file after the streams for `seen`, in that order, were
written over what an earlier session left. -/
inductive Assembled (session : Session) (task : Task) (earlier : Option Bytes) :
    List Nat → Bytes → Prop where
  | opened : Assembled session task earlier []
      (shrinkTo (earlier.getD []) (task.totalChunks * session.config.chunkSize.toNat))
  | chunk {seen : List Nat} {bytes raw data : Bytes} {index : Nat}
      (rest : Assembled session task earlier seen bytes)
      (haccept : acceptChunk session.codec session.config task.totalChunks seen raw =
        .ok (some (index, data))) :
      Assembled session task earlier (index :: seen)
        (writeAt bytes (index * session.config.chunkSize.toNat) data)

/-- The stored partial file is one assembled from all the streams the call waits for. -/
def Complete (session : Session) (task : Task) (earlier contents : Option Bytes) : Prop :=
  ∃ seen bytes, contents = some bytes ∧ Assembled session task earlier seen bytes ∧
    seen.length = task.streamsToReceive ∧ seen.Nodup ∧ ∀ index ∈ seen, index < task.totalChunks

variable {session : Session} {task : Task}

theorem partialLocation_ne (task : Task) : task.partialLocation ≠ task.finalLocation :=
  components_append_suffix_ne task.path (by decide) (by decide)

theorem Assembled.distinct {earlier : Option Bytes} {seen : List Nat} {bytes : Bytes}
    (hassembled : Assembled session task earlier seen bytes) :
    seen.Nodup ∧ ∀ index ∈ seen, index < task.totalChunks := by
  induction hassembled with
  | opened => exact ⟨List.nodup_nil, by simp⟩
  | chunk rest haccept ih =>
      obtain ⟨hrange, hfresh⟩ := index_of_acceptChunk haccept
      refine ⟨List.nodup_cons.mpr ⟨hfresh, ih.1⟩, ?_⟩
      intro other hother
      rcases List.mem_cons.mp hother with rfl | hold
      · exact hrange
      · exact ih.2 other hold

/-- The two files of the call while it runs, by stage: before the partial file is
open, while streams are written to it, and after it was moved. -/
def Progress (session : Session) (task : Task) (before : Store) : Stage → Store → Prop
  | .begin, store | .createParent _, store | .openPartial _, store =>
      store task.finalLocation = before task.finalLocation ∧
        store task.partialLocation = before task.partialLocation
  | .setLen expectedFileSize, store =>
      store task.finalLocation = before task.finalLocation ∧
        store task.partialLocation = some ((before task.partialLocation).getD []) ∧
        expectedFileSize = task.totalChunks * session.config.chunkSize.toNat
  | .acceptUni seen, store =>
      store task.finalLocation = before task.finalLocation ∧
        seen.length < task.streamsToReceive ∧
        ∃ bytes, store task.partialLocation = some bytes ∧
          Assembled session task (before task.partialLocation) seen bytes
  | .writeChunk seen index offset data, store =>
      store task.finalLocation = before task.finalLocation ∧
        seen.length ≤ task.streamsToReceive ∧
        offset = index * session.config.chunkSize.toNat ∧
        ∃ bytes, store task.partialLocation = some bytes ∧
          Assembled session task (before task.partialLocation) seen (writeAt bytes offset data)
  | .rename, store =>
      store task.finalLocation = before task.finalLocation ∧
        Complete session task (before task.partialLocation) (store task.partialLocation)
  | .reread, store | .sendChecksum _, store | .recvChecksum _, store =>
      store task.partialLocation = none ∧
        Complete session task (before task.partialLocation) (store task.finalLocation)

/-- What remains true when the action of a stage fails half-way. -/
def Settled (session : Session) (task : Task) (before : Store) (stage : Stage) (store : Store) :
    Prop :=
  ¬ Stage.Renamed stage ∧ store task.finalLocation = before task.finalLocation ∨
    Stage.Renamed stage ∧ store task.partialLocation = none ∧
      Complete session task (before task.partialLocation) (store task.finalLocation)

theorem settled_of_progress {before store : Store} {stage : Stage}
    (hprogress : Progress session task before stage store) :
    Settled session task before stage store := by
  cases stage with
  | begin | createParent _ | openPartial _ | setLen _ | acceptUni _ | writeChunk _ _ _ _ | rename =>
      exact Or.inl ⟨id, hprogress.1⟩
  | reread | sendChecksum _ | recvChecksum _ => exact Or.inr ⟨trivial, hprogress⟩

/-- A failing action keeps the destination: only a write can leave a trace, and it
goes to the partial file. -/
theorem settled_of_interrupted {before store after : Store} {stage : Stage} {written : Nat}
    (hprogress : Progress session task before stage store)
    (hfail : (action session task stage).interrupted written store = some after) :
    Settled session task before stage after := by
  cases stage with
  | writeChunk seen index offset data =>
      cases hfail
      refine Or.inl ⟨id, ?_⟩
      rw [← hprogress.1]
      exact set_ne _ _ (Ne.symm (partialLocation_ne task))
  | begin => cases hfail
  | createParent _ | openPartial _ | setLen _ | acceptUni _ | rename =>
      cases hfail
      exact settled_of_progress hprogress
  | reread | sendChecksum _ | recvChecksum _ =>
      cases hfail
      exact settled_of_progress hprogress

theorem progress_continueLoop {before store : Store} {seen : List Nat} {bytes : Bytes}
    (hfinal : store task.finalLocation = before task.finalLocation)
    (hlength : seen.length ≤ task.streamsToReceive)
    (hbytes : store task.partialLocation = some bytes)
    (hassembled : Assembled session task (before task.partialLocation) seen bytes)
    {stage : Stage} (hstage : (continueLoop task seen).point? = some stage) :
    Progress session task before stage store := by
  rw [continueLoop] at hstage
  split at hstage
  · rename_i hshort
    cases hstage
    exact ⟨hfinal, hshort, bytes, hbytes, hassembled⟩
  · rename_i hdone
    cases hstage
    exact ⟨hfinal, seen, bytes, hbytes, hassembled,
      Nat.le_antisymm hlength (Nat.le_of_not_lt hdone), hassembled.distinct⟩

theorem progress_openWriter {before store : Store}
    (hprogress : Progress session task before .begin store) {stage : Stage}
    (hstage : (openWriter session task).point? = some stage) :
    Progress session task before stage store := by
  rw [openWriter] at hstage
  split at hstage
  · cases hstage
    exact hprogress
  · cases hmul : mul 64 task.totalChunks session.config.chunkSize.toNat with
    | error fault =>
        rw [hmul] at hstage
        cases hstage
        exact hprogress
    | ok expected =>
        rw [hmul] at hstage
        simp only [Status.ofChecked] at hstage
        split at hstage <;> cases hstage <;> exact hprogress

theorem progress_handleStream {before store : Store} {seen : List Nat} {raw : Bytes}
    (hprogress : Progress session task before (.acceptUni seen) store) {stage : Stage}
    (hstage : (handleStream session task seen raw).point? = some stage) :
    Progress session task before stage store := by
  rcases handleStream_cases session task seen raw with
    ⟨error, _, hresult⟩ | ⟨_, hresult⟩ | ⟨index, data, haccept, ⟨fault, hresult, _⟩ | hresult⟩
  · rw [hresult] at hstage
    cases hstage
    exact hprogress
  · rw [hresult] at hstage
    cases hstage
    exact hprogress
  · rw [hresult] at hstage
    cases hstage
    exact hprogress
  · rw [hresult] at hstage
    cases hstage
    obtain ⟨hfinal, hshort, bytes, hbytes, hassembled⟩ := hprogress
    exact ⟨hfinal, hshort, rfl, bytes, hbytes, hassembled.chunk haccept⟩

/-- Every reply carries the progress to the next stage. -/
theorem progress_resume {before store after : Store} {stage : Stage}
    {input : Input Message Bool Error} {reply : Reply Message Bool}
    (hsound : stage.Sound session task) (hprogress : Progress session task before stage store)
    (hreply : (action session task stage).reply input store = some (reply, after))
    {next : Stage} (hnext : (resume session task stage reply).point? = some next) :
    Progress session task before next after := by
  have hne := partialLocation_ne task
  cases stage with
  | begin =>
      cases input <;> cases hreply
      exact progress_openWriter hprogress hnext
  | createParent expected =>
      cases input <;> cases hreply
      cases hnext
      exact hprogress
  | openPartial expected =>
      cases input <;> cases hreply
      cases hnext
      refine ⟨?_, ?_, hsound.2⟩
      · rw [← hprogress.1]
        exact set_ne _ _ hne.symm
      · rw [← hprogress.2]
        exact set_self _ _ _
  | setLen expected =>
      cases input <;> cases hreply
      obtain ⟨hfinal, hbytes, rfl⟩ := hprogress
      refine progress_continueLoop ?_ (Nat.zero_le _) ?_ Assembled.opened hnext
      · rw [← hfinal]
        exact set_ne _ _ hne.symm
      · exact (set_self _ _ _).trans (by rw [hbytes]; rfl)
  | acceptUni seen =>
      cases input <;> cases hreply
      exact progress_handleStream hprogress hnext
  | writeChunk seen index offset data =>
      cases input <;> cases hreply
      obtain ⟨hfinal, hlength, _, bytes, hbytes, hassembled⟩ := hprogress
      refine progress_continueLoop ?_ hlength ?_ hassembled hnext
      · rw [← hfinal]
        exact set_ne _ _ hne.symm
      · exact (set_self _ _ _).trans (by rw [hbytes]; rfl)
  | rename =>
      cases input <;> try cases hreply
      obtain ⟨hfinal, hcomplete⟩ := hprogress
      obtain ⟨⟨moved, value⟩, hrun, hresult⟩ := Option.map_eq_some_iff.mp hreply
      obtain ⟨bytes, hbytes, hmoved⟩ := Option.map_eq_some_iff.mp hrun
      cases hmoved
      cases hresult
      cases hnext
      refine ⟨?_, ?_⟩
      · exact (set_ne _ _ hne).trans (set_self _ _ _)
      · rw [hbytes] at hcomplete
        change Complete _ _ _ (Foundation.FileSystem.set _ _ _ _)
        rw [set_self]
        exact hcomplete
  | reread =>
      cases input <;> try cases hreply
      obtain ⟨⟨read, value⟩, hrun, hresult⟩ := Option.map_eq_some_iff.mp hreply
      obtain ⟨bytes, _, hread⟩ := Option.map_eq_some_iff.mp hrun
      cases hread
      cases hresult
      cases hnext
      exact hprogress
  | sendChecksum checksum =>
      cases input <;> cases hreply
      cases hnext
      exact hprogress
  | recvChecksum checksum =>
      cases input <;> cases hreply
      rw [compareChecksum_point hnext]
      exact hprogress

/-- What is known of a state of the call, whatever its status. -/
def StateInvariant (session : Session) (task : Task) (before : Store) (state : FileState) : Prop :=
  SoundStatus session task state.status ∧
    match state.status with
    | .running stage => Progress session task before stage state.store
    | .failed stage _ => Settled session task before stage state.store
    | .returned _ | .panicked _ _ => True

theorem stateInvariant_step {before : Store} {state next : FileState}
    {input : Input Message Bool Error} (hinvariant : StateInvariant session task before state)
    (hstep : (machine session task).step state input = some next) :
    StateInvariant session task before next := by
  refine ⟨soundStatus_inductive.step hstep hinvariant.1, ?_⟩
  cases stepped_of_step hstep with
  | fail hstatus hstore hnext =>
      have hprogress := hinvariant.2
      rw [hstatus] at hprogress
      rw [hnext]
      exact settled_of_interrupted hprogress hstore
  | resume hstatus hreply hnext =>
      rename_i point reply store
      have hprogress := hinvariant.2
      have hsound := hinvariant.1 point (by rw [hstatus]; rfl)
      rw [hstatus] at hprogress
      have hkeep : ∀ stage, (resume session task point reply).point? = some stage →
          Progress session task before stage store :=
        fun stage hstage => progress_resume hsound hprogress hreply hstage
      rw [hnext]
      change match resume session task point reply with
        | .running stage => Progress session task before stage store
        | .failed stage _ => Settled session task before stage store
        | .returned _ | .panicked _ _ => True
      cases hresume : resume session task point reply with
      | running stage => exact hkeep stage (by rw [hresume]; rfl)
      | failed stage error => exact settled_of_progress (hkeep stage (by rw [hresume]; rfl))
      | returned _ | panicked _ _ => trivial

/-- A failed call leaves the destination as it was, unless the rename was carried
out: then the destination holds the partial file assembled from all the expected
streams, and the partial file is gone. -/
theorem failed_receive (session : Session) (task : Task) (before : Store)
    (inputs : List (Input Message Bool Error)) (final : FileState) (stage : Stage) (error : Error)
    (hrun : Foundation.Run.run (machine session task).step ⟨.running .begin, before⟩ inputs =
      some final)
    (hfailed : final.status = .failed stage error) :
    ¬ Stage.Renamed stage ∧ final.store task.finalLocation = before task.finalLocation ∨
      Stage.Renamed stage ∧ final.store task.partialLocation = none ∧
        Complete session task (before task.partialLocation) (final.store task.finalLocation) := by
  have hstart : StateInvariant session task before ⟨.running .begin, before⟩ := by
    refine ⟨?_, rfl, rfl⟩
    intro stage hstage
    cases hstage
    trivial
  have hinvariant : StateInvariant session task before final :=
    Foundation.Run.invariant_run (StateInvariant session task before)
      (fun _ _ _ => stateInvariant_step) hstart hrun
  have hsettled := hinvariant.2
  rw [hfailed] at hsettled
  exact hsettled

/-- A closed session and the call that receives an empty file `f`. -/
def emptySession : Session where
  codec := .stored fun _ => FixedBytes.filled 32 0
  config := .default
  transferId := FixedBytes.filled 16 0

def emptyTask : Task where
  path := [102]
  fileIndex := 0
  totalChunks := 0
  streamsToReceive := 0

def oldFile : Store := fun location => if location = emptyTask.finalLocation then some [1] else none

/-- A peer that breaks off before the rename: the old file stays. -/
theorem failed_receive_early :
    ∃ final : FileState,
      Foundation.Run.run (machine emptySession emptyTask).step ⟨.running .begin, oldFile⟩
        [.proceed, .proceed, .proceed, .fail .disconnected 0] = some final ∧
      final.store emptyTask.finalLocation = some [1] := by
  have hsettled := failed_receive emptySession emptyTask oldFile
    [.proceed, .proceed, .proceed, .fail .disconnected 0] _ _ _ rfl rfl
  rcases hsettled with ⟨_, hkept⟩ | ⟨hrenamed, _⟩
  · exact ⟨_, rfl, hkept⟩
  · exact hrenamed.elim

/-- A peer that breaks off before it sends its checksum: the old file is gone. -/
theorem failed_receive_replaces_destination :
    ¬ ∀ (session : Session) (task : Task) (before : Store)
      (inputs : List (Input Message Bool Error)) (final : FileState) (stage : Stage) (error : Error),
      Foundation.Run.run (machine session task).step ⟨.running .begin, before⟩ inputs = some final →
      final.status = .failed stage error →
      final.store task.finalLocation = before task.finalLocation := by
  intro hclaim
  have hkept := hclaim emptySession emptyTask oldFile
    [.proceed, .proceed, .proceed, .proceed, .proceed, .proceed, .proceed, .fail .disconnected 0]
    _ _ _ rfl rfl
  exact absurd hkept (by decide)

end P2PFileTransfer.Transfer.Destination
