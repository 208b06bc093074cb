import Mathlib.Data.List.Nodup
import P2PFileTransfer.Core.History
import P2PFileTransfer.Foundation.Run

/-!
# Appending to the history, all at once

Only the holder of the lock touches the history file, its temporary file and the
quarantine, and it renames nothing but a complete text over the history.  So the calls
that have renamed come after each other: the history holds the records of the beginning
and theirs, in the order of the renames.
-/

namespace P2PFileTransfer.Transfer.HistoryAppends

open P2PFileTransfer.Foundation.ByteFile
open P2PFileTransfer.Foundation.UnixPath
open P2PFileTransfer.Core.Protocol
open P2PFileTransfer.Core.History

variable {Record : Type}

abbrev run (json : Json Record) (path : OsStr) (records : Nat → Record) :
    World Record → List (Nat × Input) → Option (World Record) :=
  Foundation.Run.run (step json path records)

/-- Bytes that a load puts into quarantine. -/
def Unparsable (json : Json Record) (buf : Bytes) : Prop := buf ≠ [] ∧ json.fromSlice buf = none

/-- The records that a load finds. -/
def loaded (json : Json Record) (file : Option Bytes) : List Record :=
  match file.bind json.fromSlice with
  | some history => history.records
  | none => []

/-- The call has the lock. -/
def Locked : Stage Record → Prop
  | .read | .quarantine | .serialize _ | .openTmp _ | .writeAll _ _ | .syncAll | .rename
  | .unlock => True
  | .idle | .createDirAll | .openLock | .lockExclusive | .finished _ | .crashed => False

/-- The call has not had the lock yet. -/
def Early : Stage Record → Prop
  | .idle | .createDirAll | .openLock | .lockExclusive => True
  | _ => False

/-- The call has the lock, and has renamed nothing over the history. -/
def Working : Stage Record → Prop
  | .read | .quarantine | .serialize _ | .openTmp _ | .writeAll _ _ | .syncAll | .rename => True
  | _ => False

/-- The call has returned `Ok`, or only has to. -/
def Persisted : Stage Record → Prop
  | .unlock | .finished (.ok ()) => True
  | _ => False

/-! ## Names and loads -/

variable {json : Json Record} {path : OsStr} {records : Nat → Record}

theorem path_ne_sibling {suffix : OsStr} (hsuffix : suffix ≠ []) : path ≠ siblingPath path suffix :=
  fun heq => hsuffix (List.self_eq_append_right.mp heq)

theorem sibling_ne {suffix other : OsStr} (hne : suffix ≠ other) :
    siblingPath path suffix ≠ siblingPath path other :=
  fun heq => hne (List.append_cancel_left heq)

theorem path_ne_lock : path ≠ lockPath path := path_ne_sibling (List.cons_ne_nil _ _)

theorem path_ne_tmp : path ≠ tmpPath path := path_ne_sibling (List.cons_ne_nil _ _)

theorem path_ne_quarantine (secs : Nat) : path ≠ quarantinePath path secs :=
  path_ne_sibling (List.cons_ne_nil _ _)

theorem tmp_ne_lock : tmpPath path ≠ lockPath path := sibling_ne (by decide)

theorem second_ne {byte other : UInt8} {rest tail : OsStr} (hne : byte ≠ other) :
    (46 :: byte :: rest : OsStr) ≠ 46 :: other :: tail := by
  intro heq
  exact hne (List.cons.inj (List.cons.inj heq).2).1

theorem quarantine_ne_lock (secs : Nat) : quarantinePath path secs ≠ lockPath path :=
  sibling_ne (second_ne (by decide))

theorem quarantine_ne_tmp (secs : Nat) : quarantinePath path secs ≠ tmpPath path :=
  sibling_ne (second_ne (by decide))

/-- A load of complete text finds what was written. -/
theorem loaded_toVecPretty (history : TransferHistory Record) :
    loaded json (some (json.toVecPretty history)) = history.records := by
  rw [loaded, Option.bind_some, json.fromSlice_toVecPretty]

theorem not_unparsable_toVecPretty (history : TransferHistory Record) :
    ¬ Unparsable json (json.toVecPretty history) := by
  rintro ⟨_, hnone⟩
  rw [json.fromSlice_toVecPretty] at hnone
  cases hnone

/-- A load goes on with the records it finds, or with the quarantine. -/
theorem parse_cases (buf : Bytes) :
    (∃ history, parse json buf = .serialize history ∧
      history.records = loaded json (some buf) ∧ ¬ Unparsable json buf) ∨
    (parse json buf = .quarantine ∧ Unparsable json buf) := by
  unfold parse
  split
  · rename_i hempty
    refine .inl ⟨.new, rfl, ?_, fun hcorrupt => hcorrupt.1 hempty⟩
    rw [loaded, Option.bind_some, hempty, json.fromSlice_nil]
    rfl
  · rename_i hbytes
    split
    · rename_i history hparsed
      refine .inl ⟨history, rfl, ?_, ?_⟩
      · rw [loaded, Option.bind_some, hparsed]
      · rintro ⟨_, hnone⟩
        rw [hparsed] at hnone
        cases hnone
    · rename_i hnone
      exact .inr ⟨rfl, hbytes, hnone⟩

/-! ## What the calls keep -/

/-- What the holder of the lock knows about the history file and its temporary file, when
`past` are the records the history holds. -/
def StageKept (json : Json Record) (past : List Record) (record : Record)
    (history tmp : Option Bytes) : Stage Record → Prop
  | .quarantine => ∃ buf, history = some buf ∧ Unparsable json buf
  | .serialize found =>
      found.records = past ∧ ∀ buf, history = some buf → ¬ Unparsable json buf
  | .openTmp data =>
      data = json.toVecPretty ⟨past ++ [record]⟩ ∧ ∀ buf, history = some buf → ¬ Unparsable json buf
  | .writeAll data written =>
      data = json.toVecPretty ⟨past ++ [record]⟩ ∧ tmp = some (data.take written) ∧
        ∀ buf, history = some buf → ¬ Unparsable json buf
  | .syncAll | .rename =>
      tmp = some (json.toVecPretty ⟨past ++ [record]⟩) ∧
        ∀ buf, history = some buf → ¬ Unparsable json buf
  | _ => True

/-- `order` are the calls that have renamed. -/
structure Kept (json : Json Record) (path : OsStr) (records : Nat → Record)
    (files : OsStr → Option Bytes) (world : World Record) (order : List Nat) : Prop where
  locked : ∀ call, Locked (world.stages call) ↔ world.holder = some call
  nodup : order.Nodup
  renamed : ∀ call ∈ order, Persisted (world.stages call) ∨ world.stages call = .crashed
  persisted : ∀ call, Persisted (world.stages call) → call ∈ order
  /-- Untouched, moved away, or a complete text. -/
  history : (order = [] ∧ world.files path = files path) ∨
    (order = [] ∧ world.files path = none ∧ ∃ buf, files path = some buf ∧ Unparsable json buf) ∨
    world.files path = some (json.toVecPretty ⟨loaded json (files path) ++ order.map records⟩)
  corrupt : ∀ buf, files path = some buf → Unparsable json buf →
    world.files path = some buf ∨ ∃ secs, world.files (quarantinePath path secs) = some buf
  stages : ∀ call, StageKept json (loaded json (files path) ++ order.map records) (records call)
    (world.files path) (world.files (tmpPath path)) (world.stages call)

variable {files : OsStr → Option Bytes} {world next : World Record} {order : List Nat}

theorem kept_atRest : Kept json path records files (atRest files) [] where
  locked := fun _ => ⟨False.elim, nofun⟩
  nodup := List.nodup_nil
  renamed := fun _ hmem => absurd hmem List.not_mem_nil
  persisted := fun _ hpersisted => hpersisted.elim
  history := .inl ⟨rfl, rfl⟩
  corrupt := fun _ hfile _ => .inl hfile
  stages := fun _ => trivial

/-- Without the lock, a call knows nothing about the files. -/
theorem stageKept_of_unlocked {past : List Record} {record : Record} {history tmp : Option Bytes}
    {stage : Stage Record} (hstage : ¬ Locked stage) :
    StageKept json past record history tmp stage := by
  cases stage with
  | idle | createDirAll | openLock | lockExclusive | finished _ | crashed => trivial
  | read | quarantine | serialize _ | openTmp _ | writeAll _ _ | syncAll | rename | unlock =>
      exact absurd trivial hstage

/-- The holder of the lock is alone with it. -/
theorem Kept.alone (hkept : Kept json path records files world order) {call other : Nat}
    (hlocked : Locked (world.stages call)) (hne : other ≠ call) : ¬ Locked (world.stages other) := by
  intro hother
  have hholder := (hkept.locked call).mp hlocked
  rw [(hkept.locked other).mp hother] at hholder
  exact hne (Option.some.inj hholder)

/-- What the history says once loaded. -/
theorem Kept.loaded_eq (hkept : Kept json path records files world order) :
    loaded json (world.files path) = loaded json (files path) ++ order.map records := by
  rcases hkept.history with ⟨rfl, hsame⟩ | ⟨rfl, hgone, buf, hfile, _, hnone⟩ | hwritten
  · rw [hsame, List.map_nil, List.append_nil]
  · rw [hgone, hfile, loaded, loaded, Option.bind_some, hnone]
    rfl
  · rw [hwritten, loaded_toVecPretty]

/-! ## One step -/

/-- The step changes the stage of `call`, and nothing that the other calls know. -/
structure Moved (path : OsStr) (world next : World Record) (call : Nat) (stage : Stage Record) :
    Prop where
  stages : next.stages = Function.update world.stages call stage
  self : Locked stage ↔ next.holder = some call
  others : ∀ other, other ≠ call → (next.holder = some other ↔ world.holder = some other)
  tmp : Locked (world.stages call) ∨ next.files (tmpPath path) = world.files (tmpPath path)
  notCrashed : world.stages call ≠ .crashed
  before : Persisted (world.stages call) → Persisted stage ∨ stage = .crashed

variable {call : Nat} {stage : Stage Record}

theorem Kept.locked_of_moved (hkept : Kept json path records files world order)
    (hmoved : Moved path world next call stage) (other : Nat) :
    Locked (next.stages other) ↔ next.holder = some other := by
  rw [hmoved.stages]
  by_cases heq : other = call
  · rw [heq, Function.update_self]
    exact hmoved.self
  · rw [Function.update_of_ne heq, hmoved.others other heq]
    exact hkept.locked other

theorem Kept.renamed_of_moved (hkept : Kept json path records files world order)
    (hmoved : Moved path world next call stage) :
    ∀ other ∈ order, Persisted (next.stages other) ∨ next.stages other = .crashed := by
  intro other hmem
  have hbefore := hkept.renamed other hmem
  rw [hmoved.stages]
  by_cases heq : other = call
  · rw [heq] at hbefore ⊢
    rw [Function.update_self]
    rcases hbefore with hpersisted | hcrashed
    · exact hmoved.before hpersisted
    · exact absurd hcrashed hmoved.notCrashed
  · rw [Function.update_of_ne heq]
    exact hbefore

/-- A step that is no rename. -/
theorem Kept.turn (hkept : Kept json path records files world order)
    (hmoved : Moved path world next call stage) (hpath : next.files path = world.files path)
    (hquarantine : ∀ secs,
      next.files (quarantinePath path secs) = world.files (quarantinePath path secs))
    (hafter : Persisted stage → Persisted (world.stages call))
    (hstage : StageKept json (loaded json (files path) ++ order.map records) (records call)
      (world.files path) (next.files (tmpPath path)) stage) :
    Kept json path records files next order where
  locked := hkept.locked_of_moved hmoved
  nodup := hkept.nodup
  renamed := hkept.renamed_of_moved hmoved
  persisted := by
    intro other hpersisted
    rw [hmoved.stages] at hpersisted
    by_cases heq : other = call
    · rw [heq, Function.update_self] at hpersisted
      rw [heq]
      exact hkept.persisted call (hafter hpersisted)
    · rw [Function.update_of_ne heq] at hpersisted
      exact hkept.persisted other hpersisted
  history := by
    rw [hpath]
    exact hkept.history
  corrupt := by
    intro buf hfile hcorrupt
    rw [hpath]
    refine (hkept.corrupt buf hfile hcorrupt).imp_right ?_
    rintro ⟨secs, hmoved⟩
    exact ⟨secs, (hquarantine secs).trans hmoved⟩
  stages := by
    intro other
    rw [hmoved.stages, hpath]
    by_cases heq : other = call
    · rw [heq, Function.update_self]
      exact hstage
    · rw [Function.update_of_ne heq]
      rcases hmoved.tmp with hlocked | hsame
      · exact stageKept_of_unlocked (hkept.alone hlocked heq)
      · rw [hsame]
        exact hkept.stages other

/-- The holder moves the unparsable bytes of the beginning away. -/
theorem Kept.moveAway (hkept : Kept json path records files world order) {buf : Bytes} {secs : Nat}
    (hmoved : Moved path world next call (.serialize .new))
    (hstage : world.stages call = .quarantine) (hbuf : world.files path = some buf)
    (hpath : next.files path = none)
    (hquarantine : next.files (quarantinePath path secs) = some buf) :
    Kept json path records files next order := by
  have hkeeps := hkept.stages call
  rw [hstage] at hkeeps
  obtain ⟨found, hfound, hcorrupt⟩ := hkeeps
  obtain rfl : buf = found := Option.some.inj (hbuf.symm.trans hfound)
  have hinitial : order = [] ∧ files path = some buf := by
    rcases hkept.history with ⟨horder, hsame⟩ | ⟨_, hgone, _⟩ | hwritten
    · exact ⟨horder, hsame.symm.trans hbuf⟩
    · rw [hgone] at hbuf
      cases hbuf
    · rw [hwritten] at hbuf
      cases hbuf
      exact absurd hcorrupt (not_unparsable_toVecPretty _)
  obtain ⟨rfl, hfile⟩ := hinitial
  refine ⟨hkept.locked_of_moved hmoved, hkept.nodup, hkept.renamed_of_moved hmoved, ?_,
    .inr (.inl ⟨rfl, hpath, buf, hfile, hcorrupt⟩), ?_, ?_⟩
  · intro other hpersisted
    rw [hmoved.stages] at hpersisted
    by_cases heq : other = call
    · rw [heq, Function.update_self] at hpersisted
      exact hpersisted.elim
    · rw [Function.update_of_ne heq] at hpersisted
      exact hkept.persisted other hpersisted
  · intro other hother _
    obtain rfl : buf = other := Option.some.inj (hfile.symm.trans hother)
    exact .inr ⟨secs, hquarantine⟩
  · intro other
    rw [hmoved.stages]
    by_cases heq : other = call
    · rw [heq, Function.update_self, hpath]
      refine ⟨?_, nofun⟩
      rw [hfile, loaded, Option.bind_some, hcorrupt.2]
      rfl
    · rw [Function.update_of_ne heq]
      exact stageKept_of_unlocked (hkept.alone (by rw [hstage]; trivial) heq)

/-- The holder renames its text over the history. -/
theorem Kept.rename (hkept : Kept json path records files world order) {data : Bytes}
    (hmoved : Moved path world next call .unlock) (hstage : world.stages call = .rename)
    (hdata : world.files (tmpPath path) = some data) (hpath : next.files path = some data)
    (hquarantine : ∀ secs,
      next.files (quarantinePath path secs) = world.files (quarantinePath path secs)) :
    Kept json path records files next (order ++ [call]) := by
  have hkeeps := hkept.stages call
  rw [hstage] at hkeeps
  obtain ⟨htmp, hreadable⟩ := hkeeps
  obtain rfl := Option.some.inj (hdata.symm.trans htmp)
  have hfresh : call ∉ order := by
    intro hmem
    have hbefore := hkept.renamed call hmem
    rw [hstage] at hbefore
    rcases hbefore with hpersisted | hcrashed
    · exact hpersisted
    · cases hcrashed
  refine ⟨hkept.locked_of_moved hmoved, ?_, ?_, ?_, .inr (.inr ?_), ?_, ?_⟩
  · rw [← List.concat_eq_append]
    exact hkept.nodup.concat hfresh
  · intro other hmem
    rcases List.mem_append.mp hmem with hold | hnew
    · exact hkept.renamed_of_moved hmoved other hold
    · rw [List.mem_singleton.mp hnew, hmoved.stages, Function.update_self]
      exact .inl trivial
  · intro other hpersisted
    rw [hmoved.stages] at hpersisted
    by_cases heq : other = call
    · rw [heq]
      exact List.mem_append_right _ (List.mem_singleton_self call)
    · rw [Function.update_of_ne heq] at hpersisted
      exact List.mem_append_left _ (hkept.persisted other hpersisted)
  · rw [hpath, List.map_append, List.append_assoc]
    rfl
  · intro buf hfile hcorrupt
    rcases hkept.corrupt buf hfile hcorrupt with hinPlace | ⟨secs, haway⟩
    · exact absurd hcorrupt (hreadable buf hinPlace)
    · exact .inr ⟨secs, (hquarantine secs).trans haway⟩
  · intro other
    rw [hmoved.stages]
    by_cases heq : other = call
    · rw [heq, Function.update_self]
      trivial
    · rw [Function.update_of_ne heq]
      exact stageKept_of_unlocked (hkept.alone (by rw [hstage]; trivial) heq)

/-! ## Every step -/

/-- A step in which the call neither takes the lock nor gives it back. -/
theorem moved_of_same (hstages : next.stages = Function.update world.stages call stage)
    (hholder : next.holder = world.holder) (hkept : Kept json path records files world order)
    (hlocked : Locked stage ↔ Locked (world.stages call))
    (htmp : Locked (world.stages call) ∨ next.files (tmpPath path) = world.files (tmpPath path))
    (hcrashed : world.stages call ≠ .crashed)
    (hbefore : Persisted (world.stages call) → Persisted stage ∨ stage = .crashed) :
    Moved path world next call stage where
  stages := hstages
  self := by
    rw [hlocked, hholder]
    exact hkept.locked call
  others := by
    intro other _
    rw [hholder]
  tmp := htmp
  notCrashed := hcrashed
  before := hbefore

/-- A call ends, and the lock is free if it had it. -/
theorem Kept.end (hkept : Kept json path records files world order) (stage : Stage Record)
    (hunlocked : ¬ Locked stage) (hcrashed : world.stages call ≠ .crashed)
    (hbefore : Persisted (world.stages call) → Persisted stage ∨ stage = .crashed)
    (hafter : Persisted stage → Persisted (world.stages call)) :
    Kept json path records files ((world.release call).goto call stage) order := by
  have hmoved : Moved path world ((world.release call).goto call stage) call stage := by
    refine ⟨rfl, ⟨fun hlocked => absurd hlocked hunlocked, ?_⟩, ?_, .inr rfl, hcrashed, hbefore⟩
    · intro hholder
      change (if world.holder = some call then none else world.holder) = some call at hholder
      split at hholder
      · cases hholder
      · rename_i hother
        exact absurd hholder hother
    · intro other hne
      change (if world.holder = some call then none else world.holder) = some other ↔ _
      split
      · rename_i hself
        rw [hself]
        exact ⟨nofun, fun heq => absurd (Option.some.inj heq).symm hne⟩
      · exact Iff.rfl
  exact hkept.turn hmoved rfl (fun _ => rfl) hafter (stageKept_of_unlocked hunlocked)

theorem Early.spec (hearly : Early stage) : ¬ Locked stage ∧ stage ≠ .crashed ∧ ¬ Persisted stage := by
  cases stage with
  | idle | createDirAll | openLock | lockExclusive => exact ⟨id, nofun, id⟩
  | _ => exact hearly.elim

theorem Working.spec (hworking : Working stage) :
    Locked stage ∧ stage ≠ .crashed ∧ ¬ Persisted stage := by
  cases stage with
  | read | quarantine | serialize _ | openTmp _ | writeAll _ _ | syncAll | rename =>
      exact ⟨trivial, nofun, id⟩
  | _ => exact hworking.elim

/-- A call that has not had the lock goes on without it, and touches no file but the one
that is locked. -/
theorem Kept.outside (hkept : Kept json path records files world order) (stage : Stage Record)
    (hworld : Early (world.stages call)) (hstage : Early stage)
    (hstages : next.stages = Function.update world.stages call stage)
    (hholder : next.holder = world.holder)
    (hfiles : ∀ name, name ≠ lockPath path → next.files name = world.files name) :
    Kept json path records files next order := by
  obtain ⟨hbefore, hcrashed, hreturned⟩ := hworld.spec
  obtain ⟨hafter, _, hreturns⟩ := hstage.spec
  have hmoved : Moved path world next call stage :=
    moved_of_same hstages hholder hkept (iff_of_false hafter hbefore)
      (.inr (hfiles _ tmp_ne_lock)) hcrashed (fun hpersisted => absurd hpersisted hreturned)
  exact hkept.turn hmoved (hfiles _ path_ne_lock) (fun secs => hfiles _ (quarantine_ne_lock secs))
    (fun hpersisted => absurd hpersisted hreturns) (stageKept_of_unlocked hafter)

theorem Kept.moved_of_working (hkept : Kept json path records files world order)
    (hworld : Working (world.stages call)) (hstage : Locked stage)
    (hstages : next.stages = Function.update world.stages call stage)
    (hholder : next.holder = world.holder) : Moved path world next call stage := by
  obtain ⟨hbefore, hcrashed, hreturned⟩ := hworld.spec
  exact moved_of_same hstages hholder hkept (iff_of_true hstage hbefore) (.inl hbefore) hcrashed
    (fun hpersisted => absurd hpersisted hreturned)

/-- The holder of the lock goes on, and touches no file but the temporary one. -/
theorem Kept.inside (hkept : Kept json path records files world order) (stage : Stage Record)
    (hworld : Working (world.stages call)) (hstage : Working stage)
    (hstages : next.stages = Function.update world.stages call stage)
    (hholder : next.holder = world.holder)
    (hfiles : ∀ name, name ≠ tmpPath path → next.files name = world.files name)
    (hknown : StageKept json (loaded json (files path) ++ order.map records) (records call)
      (world.files path) (next.files (tmpPath path)) stage) :
    Kept json path records files next order := by
  obtain ⟨hlocked, _, hreturns⟩ := hstage.spec
  exact hkept.turn (hkept.moved_of_working hworld hlocked hstages hholder) (hfiles _ path_ne_tmp)
    (fun secs => hfiles _ (quarantine_ne_tmp secs))
    (fun hpersisted => absurd hpersisted hreturns) hknown

/-- The lock goes to a call when nobody has it. -/
theorem Kept.lock (hkept : Kept json path records files world order)
    (hstage : world.stages call = .lockExclusive) (hholder : world.holder = none) :
    Kept json path records files ({ world with holder := some call }.goto call .read) order := by
  have hmoved : Moved path world ({ world with holder := some call }.goto call .read) call .read := by
    refine ⟨rfl, ⟨fun _ => rfl, fun _ => trivial⟩, ?_, .inr rfl, ?_, ?_⟩
    · intro other hne
      change some call = some other ↔ _
      rw [hholder]
      exact ⟨fun heq => absurd (Option.some.inj heq).symm hne, nofun⟩
    · rw [hstage]
      exact nofun
    · rw [hstage]
      exact False.elim
  exact hkept.turn hmoved rfl (fun _ => rfl) False.elim trivial

theorem advance_fail (record : Record) (stage : Stage Record) (detail : Text) :
    world.advance json path record call stage (.fail detail) =
      (stage.failure detail).map fun result =>
        (world.release call).goto call (.finished result) := by
  cases stage <;> rfl

theorem advance_crash (record : Record) (stage : Stage Record) :
    world.advance json path record call stage .crash =
      (stage.failure []).map fun _ => (world.release call).goto call .crashed := by
  cases stage <;> rfl

/-- Only a call whose record is in the history returns `Ok` from a failure. -/
theorem failure_spec {detail : Text} {result : Except Error Unit}
    (hfailure : stage.failure detail = some result) :
    stage ≠ .crashed ∧ (Persisted stage ↔ Persisted (.finished result : Stage Record)) := by
  cases stage with
  | idle | finished _ | crashed => cases hfailure
  | unlock =>
      cases hfailure
      exact ⟨nofun, Iff.rfl⟩
  | serialize _ =>
      cases hfailure
      exact ⟨nofun, Iff.rfl⟩
  | createDirAll | openLock | lockExclusive | read | quarantine | openTmp _ | writeAll _ _
  | syncAll | rename =>
      cases hfailure
      exact ⟨nofun, Iff.rfl⟩

/-- An operation fails, or the process dies. -/
theorem Kept.stop (hkept : Kept json path records files world order) {input : Input}
    (hinput : (∃ detail, input = .fail detail) ∨ input = .crash)
    (hstep : Core.History.step json path records world (call, input) = some next) :
    Kept json path records files next order := by
  change world.advance json path (records call) call (world.stages call) input = some next at hstep
  rcases hinput with ⟨detail, rfl⟩ | rfl
  · rw [advance_fail] at hstep
    obtain ⟨result, hfailure, rfl⟩ := Option.map_eq_some_iff.mp hstep
    obtain ⟨hcrashed, hpersisted⟩ := failure_spec hfailure
    exact hkept.end _ id hcrashed (fun hbefore => .inl (hpersisted.mp hbefore)) hpersisted.mpr
  · rw [advance_crash] at hstep
    obtain ⟨result, hfailure, rfl⟩ := Option.map_eq_some_iff.mp hstep
    exact hkept.end _ id (failure_spec hfailure).1 (fun _ => .inr rfl) False.elim

/-- One more write of a `write_all`. -/
theorem writeAt_take {data : Bytes} {written : Nat} (count : Nat) (hfits : written ≤ data.length) :
    writeAt (data.take written) written ((data.drop written).take count) =
      data.take (written + count) := by
  have hend := writeAt_length (data.take written) ((data.drop written).take count)
  rw [List.length_take_of_le hfits] at hend
  rw [hend, List.take_add]

/-- The holder reads the history, and goes on with its records or to the quarantine. -/
theorem Kept.load (hkept : Kept json path records files world order)
    (hstage : world.stages call = .read) {now : Nat}
    (hstep : Core.History.step json path records world (call, .proceed now) = some next) :
    Kept json path records files next order := by
  have hworld : Working (world.stages call) := by
    rw [hstage]
    trivial
  have hloaded := hkept.loaded_eq
  change world.advance json path (records call) call (world.stages call) _ = some next at hstep
  rw [hstage] at hstep
  cases hfile : world.files path with
  | none =>
      simp only [World.advance, hfile] at hstep
      cases hstep
      refine hkept.inside (.serialize .new) hworld trivial rfl rfl (fun _ _ => rfl) ⟨?_, ?_⟩
      · rw [← hloaded, hfile]
        rfl
      · rw [hfile]
        exact nofun
  | some buf =>
      simp only [World.advance, hfile] at hstep
      cases hstep
      rcases @parse_cases _ json buf with ⟨history, hparse, hrecords, hreadable⟩ | ⟨hparse, hcorrupt⟩
      · rw [hparse]
        refine hkept.inside (.serialize history) hworld trivial rfl rfl (fun _ _ => rfl) ⟨?_, ?_⟩
        · rw [hrecords, ← hloaded, hfile]
        · rw [hfile]
          rintro other ⟨⟩
          exact hreadable
      · rw [hparse]
        exact hkept.inside .quarantine hworld trivial rfl rfl (fun _ _ => rfl) ⟨buf, hfile, hcorrupt⟩

/-- Either nothing is renamed, or one call comes behind those that have renamed. -/
theorem Kept.step (hkept : Kept json path records files world order) {input : Input}
    (hstep : Core.History.step json path records world (call, input) = some next) :
    Kept json path records files next order ∨
      (world.stages call = .rename ∧ next.stages call = .unlock ∧
        Kept json path records files next (order ++ [call])) := by
  by_cases hinput : (∃ detail, input = .fail detail) ∨ input = .crash
  · exact .inl (hkept.stop hinput hstep)
  have hkeeps := hkept.stages call
  have hadvance := hstep
  change world.advance json path (records call) call (world.stages call) input = some next
    at hadvance
  unfold World.advance at hadvance
  have hearly : ∀ {stage : Stage Record}, world.stages call = stage → Early stage →
      Early (world.stages call) := fun hstage hearly => hstage ▸ hearly
  have hworking : ∀ {stage : Stage Record}, world.stages call = stage → Working stage →
      Working (world.stages call) := fun hstage hworking => hstage ▸ hworking
  split at hadvance
  · rename_i hstage
    cases hadvance
    refine .inl (hkept.outside _ (hearly hstage trivial) ?_ rfl rfl fun _ _ => rfl)
    split <;> trivial
  · rename_i hstage
    cases hadvance
    exact .inl (hkept.outside .openLock (hearly hstage trivial) trivial rfl rfl fun _ _ => rfl)
  · rename_i hstage
    cases hadvance
    refine .inl (hkept.outside .lockExclusive (hearly hstage trivial) trivial rfl rfl ?_)
    exact fun name hne => Function.update_of_ne hne _ _
  · rename_i hstage
    split at hadvance
    · rename_i hholder
      cases hadvance
      exact .inl (hkept.lock hstage hholder)
    · cases hadvance
  · rename_i hstage
    exact .inl (hkept.load hstage hstep)
  · rename_i now hstage
    obtain ⟨buf, hbuf, rfl⟩ := Option.map_eq_some_iff.mp hadvance
    refine .inl (hkept.moveAway (hkept.moved_of_working (hworking hstage trivial) trivial rfl rfl)
      hstage hbuf ?_ (Function.update_self _ _ _))
    exact (Function.update_of_ne (path_ne_quarantine now) _ _).trans (Function.update_self _ _ _)
  · rename_i history now hstage
    cases hadvance
    rw [hstage] at hkeeps
    refine .inl (hkept.inside (.openTmp _) (hworking hstage trivial) trivial rfl rfl
      (fun _ _ => rfl) ⟨?_, hkeeps.2⟩)
    rw [TransferHistory.addRecord, hkeeps.1]
  · rename_i data now hstage
    cases hadvance
    rw [hstage] at hkeeps
    refine .inl (hkept.inside (.writeAll data 0) (hworking hstage trivial) trivial rfl rfl ?_
      ⟨hkeeps.1, Function.update_self _ _ _, hkeeps.2⟩)
    exact fun name hne => Function.update_of_ne hne _ _
  · rename_i data written count hstage
    split at hadvance
    · rename_i hfits
      cases hadvance
      rw [hstage] at hkeeps
      obtain ⟨hdata, htmp, hreadable⟩ := hkeeps
      refine .inl (hkept.inside (.writeAll data (written + count)) (hworking hstage trivial) trivial
        rfl rfl (fun name hne => Function.update_of_ne hne _ _) ⟨hdata, ?_, hreadable⟩)
      refine (Function.update_self _ _ _).trans ?_
      rw [htmp, Option.map_some, writeAt_take count (by omega)]
    · cases hadvance
  · rename_i data written now hstage
    split at hadvance
    · rename_i hall
      cases hadvance
      rw [hstage] at hkeeps
      obtain ⟨hdata, htmp, hreadable⟩ := hkeeps
      rw [hall, List.take_length, hdata] at htmp
      exact .inl (hkept.inside .syncAll (hworking hstage trivial) trivial rfl rfl
        (fun _ _ => rfl) ⟨htmp, hreadable⟩)
    · cases hadvance
  · rename_i now hstage
    cases hadvance
    rw [hstage] at hkeeps
    exact .inl (hkept.inside .rename (hworking hstage trivial) trivial rfl rfl (fun _ _ => rfl)
      hkeeps)
  · rename_i now hstage
    obtain ⟨data, hdata, rfl⟩ := Option.map_eq_some_iff.mp hadvance
    refine .inr ⟨hstage, Function.update_self _ _ _, hkept.rename
      (hkept.moved_of_working (hworking hstage trivial) trivial rfl rfl) hstage hdata
      (Function.update_self _ _ _) ?_⟩
    intro secs
    exact (Function.update_of_ne (path_ne_quarantine secs).symm _ _).trans
      (Function.update_of_ne (quarantine_ne_tmp secs) _ _)
  · rename_i now hstage
    cases hadvance
    refine .inl (hkept.end _ id ?_ (fun _ => .inl trivial) fun _ => ?_)
    · rw [hstage]
      exact nofun
    · rw [hstage]
      trivial
  · exact absurd (.inl ⟨_, rfl⟩) hinput
  · exact absurd (.inr rfl) hinput
  · cases hadvance

/-! ## Every run -/

theorem kept_of_run {events : List (Nat × Input)}
    (hrun : run json path records (atRest files) events = some world) :
    ∃ order, Kept json path records files world order := by
  refine Foundation.Run.invariant_run
    (fun world => ∃ order, Kept json path records files world order) ?_ ⟨[], kept_atRest⟩ hrun
  rintro world ⟨call, input⟩ next ⟨order, hkept⟩ hstep
  rcases hkept.step hstep with hsame | ⟨_, _, hrenamed⟩
  · exact ⟨order, hsame⟩
  · exact ⟨order ++ [call], hrenamed⟩

/-- The history has the records of the beginning, and behind them those of the calls that
have renamed. -/
structure Intact (json : Json Record) (path : OsStr) (records : Nat → Record)
    (files : OsStr → Option Bytes) (world : World Record) (order : List Nat) : Prop where
  once : order.Nodup
  started : ∀ call ∈ order, world.stages call ≠ .idle
  ok : ∀ call, world.stages call = .finished (.ok ()) → call ∈ order
  failed : ∀ call error, world.stages call = .finished (.error error) → call ∉ order
  file : world.files path = files path ∨
    (world.files path = none ∧ ∃ buf, files path = some buf ∧ Unparsable json buf) ∨
    world.files path = some (json.toVecPretty ⟨loaded json (files path) ++ order.map records⟩)
  found : loaded json (world.files path) = loaded json (files path) ++ order.map records
  corrupt : ∀ buf, files path = some buf → Unparsable json buf →
    world.files path = some buf ∨ ∃ secs, world.files (quarantinePath path secs) = some buf

theorem Kept.intact (hkept : Kept json path records files world order) :
    Intact json path records files world order where
  once := hkept.nodup
  started := by
    intro call hmem hidle
    have hrenamed := hkept.renamed call hmem
    rw [hidle] at hrenamed
    rcases hrenamed with hpersisted | hcrashed
    · exact hpersisted
    · cases hcrashed
  ok := by
    intro call hok
    refine hkept.persisted call ?_
    rw [hok]
    trivial
  failed := by
    intro call error hfailed hmem
    have hrenamed := hkept.renamed call hmem
    rw [hfailed] at hrenamed
    rcases hrenamed with hpersisted | hcrashed
    · exact hpersisted
    · cases hcrashed
  file := hkept.history.imp And.right (Or.imp_left And.right)
  found := hkept.loaded_eq
  corrupt := hkept.corrupt

/-- In every state that concurrent calls reach, the history is intact.  The next step keeps
its records, unless it is a rename, which adds the record of its call; a call that has made
it does not fail. -/
theorem history_loses_nothing {events : List (Nat × Input)}
    (hrun : run json path records (atRest files) events = some world) :
    ∃ order, Intact json path records files world order ∧
      ∀ call input next, Core.History.step json path records world (call, input) = some next →
        loaded json (next.files path) = loaded json (world.files path) ∨
          (world.stages call = .rename ∧ next.stages call = .unlock ∧
            loaded json (next.files path) = loaded json (world.files path) ++ [records call]) := by
  obtain ⟨order, hkept⟩ := kept_of_run hrun
  refine ⟨order, hkept.intact, ?_⟩
  intro call input next hstep
  rw [hkept.loaded_eq]
  rcases hkept.step hstep with hsame | ⟨hstage, hnext, hrenamed⟩
  · exact .inl hsame.loaded_eq
  · refine .inr ⟨hstage, hnext, ?_⟩
    rw [hrenamed.loaded_eq, List.map_append, List.append_assoc]
    rfl

/-! ## Records without contents -/

/-- The lines of a pretty array of `null`. -/
def nulls : Nat → Bytes
  | 0 => []
  | count + 1 =>
      [10, 32, 32, 32, 32, 110, 117, 108, 108] ++
        (List.replicate count [44, 10, 32, 32, 32, 32, 110, 117, 108, 108]).flatten ++ [10, 32, 32]

/-- `{"records": [null, …]}`, pretty. -/
def nullText (count : Nat) : Bytes :=
  [123, 10, 32, 32, 34, 114, 101, 99, 111, 114, 100, 115, 34, 58, 32, 91] ++ nulls count ++
    [93, 10, 125]

theorem le_length_nullText (count : Nat) : count < (nullText count).length := by
  cases count with
  | zero => decide
  | succ count =>
      simp [nullText, nulls]
      omega

theorem nullText_injective {count other : Nat} (heq : nullText count = nullText other) :
    count = other := by
  have hlength := congrArg List.length heq
  cases count <;> cases other <;> simp [nullText, nulls] at hlength <;> omega

def parseNulls (text : Bytes) : Option (TransferHistory Unit) :=
  ((List.range text.length).find? fun count => decide (nullText count = text)).map fun count =>
    ⟨List.replicate count ()⟩

theorem parseNulls_nullText (count : Nat) :
    parseNulls (nullText count) = some ⟨List.replicate count ()⟩ := by
  have hfind : (List.range (nullText count).length).find?
      (fun other => decide (nullText other = nullText count)) = some count := by
    cases hfound : (List.range (nullText count).length).find?
        (fun other => decide (nullText other = nullText count)) with
    | none =>
        have hmem := List.mem_range.mpr (le_length_nullText count)
        exact absurd (decide_eq_true rfl) (List.find?_eq_none.mp hfound count hmem)
    | some other =>
        have hsame := List.find?_some hfound
        rw [nullText_injective (of_decide_eq_true hsame)]
  rw [parseNulls, hfind, Option.map_some]

def nullJson : Json Unit where
  toVecPretty := fun history => nullText history.records.length
  fromSlice := parseNulls
  fromSlice_toVecPretty := by
    rintro ⟨records⟩
    have hunits : List.replicate records.length () = records :=
      (List.eq_replicate_iff.mpr ⟨rfl, fun _ _ => rfl⟩).symm
    rw [parseNulls_nullText, hunits]
  fromSlice_nil := rfl

/-- The first call dies behind the quarantine of a broken file, the second one is not hindered. -/
def brokenThenAppended : List (Nat × Input) :=
  [(0, .start), (1, .start), (0, .proceed 5), (1, .proceed 5), (0, .proceed 5), (1, .proceed 5),
    (0, .proceed 5), (0, .proceed 5), (0, .proceed 7), (0, .crash), (1, .proceed 8),
    (1, .proceed 8), (1, .proceed 8), (1, .proceed 8), (1, .wrote 20), (1, .wrote 11),
    (1, .proceed 9), (1, .proceed 9), (1, .proceed 9), (1, .proceed 9)]

theorem history_loses_nothing_broken : ∃ world,
    run nullJson [104] (fun _ => ()) (atRest fun name => if name = [104] then some [255] else none)
      brokenThenAppended = some world ∧
    ∃ order, Intact nullJson [104] (fun _ => ())
        (fun name => if name = [104] then some [255] else none) world order ∧
      ∀ call input next,
        Core.History.step nullJson [104] (fun _ => ()) world (call, input) = some next →
        loaded nullJson (next.files [104]) = loaded nullJson (world.files [104]) ∨
          (world.stages call = .rename ∧ next.stages call = .unlock ∧
            loaded nullJson (next.files [104]) = loaded nullJson (world.files [104]) ++ [()]) :=
  ⟨_, rfl, @history_loses_nothing _ _ _ _ _ _ brokenThenAppended rfl⟩

end P2PFileTransfer.Transfer.HistoryAppends
