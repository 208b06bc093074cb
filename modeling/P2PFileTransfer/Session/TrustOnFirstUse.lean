import P2PFileTransfer.Core.PeerStore
import P2PFileTransfer.Foundation.Run

/-!
# Trust on first use

The store is keyed by the fingerprint, and the name is only displayed.  A peer that comes
back under its name with another fingerprint is a new key: it is pinned, and nothing fails.
-/

namespace P2PFileTransfer.Session.TrustOnFirstUse

open P2PFileTransfer.Foundation.Hex
open P2PFileTransfer.Foundation.Run
open P2PFileTransfer.Foundation.Tables
open P2PFileTransfer.Foundation.UnixPath
open P2PFileTransfer.Core.Protocol
open P2PFileTransfer.Core.PeerStore

/-! ## Histories -/

/-- What is left on disk while no store is open, or the store that is. -/
inductive System where
  | closed (file : PeersFile)
  | opened (store : KnownPeers)

def System.file : System → PeersFile
  | .closed file => file
  | .opened store => store.file

inductive Operation where
  | reopen (failure : Option Text)
  | trust (fp : Fingerprint) (displayName : OsStr) (now : Nat) (failure : Option Text)
  | verifyOrPin (claimedFp presentedFp : Fingerprint) (displayName : OsStr) (now : Nat)
      (failure : Option Text)
  | forget (fp : Fingerprint) (failure : Option Text)

/-- An operation and its result; only `reopen` needs no open store. -/
def System.call (system : System) : Operation → Option (System × Except Error Unit)
  | .reopen failure =>
      match openAt system.file failure with
      | .ok store => some (.opened store, .ok ())
      | .error error => some (.closed system.file, .error error)
  | operation =>
      match system with
      | .closed _ => none
      | .opened store =>
          let (next, result) := match operation with
            | .trust fp displayName now failure => store.trust fp displayName now failure
            | .verifyOrPin claimedFp presentedFp displayName now failure =>
                store.verifyOrPin claimedFp presentedFp displayName now failure
            | .forget fp failure => store.forget fp failure
            | .reopen _ => (store, .ok ())
          some (.opened next, result)

/-- The fingerprints that were pinned under a name, by a call that succeeded, and were not
forgotten since. -/
abbrev Pins := OsStr → Fingerprint → Prop

def Pins.add (pins : Pins) (name : OsStr) (fp : Fingerprint) : Pins :=
  fun other fingerprint => other = name ∧ fingerprint = fp ∨ pins other fingerprint

def Pins.drop (pins : Pins) (fp : Fingerprint) : Pins :=
  fun name fingerprint => fingerprint ≠ fp ∧ pins name fingerprint

def Pins.after (pins : Pins) (operation : Operation) (result : Except Error Unit) : Pins :=
  match operation, result with
  | .trust fp displayName _ _, .ok _ => pins.add displayName fp
  | .verifyOrPin claimedFp _ displayName _ _, .ok _ => pins.add displayName claimedFp
  | .forget fp _, _ => pins.drop fp
  | _, _ => pins

/-- The system next to the pins of its history. -/
structure State where
  system : System
  pins : Pins

def start (system : System) : State := ⟨system, fun _ _ => False⟩

def step (state : State) (operation : Operation) : Option State :=
  (state.system.call operation).map fun outcome =>
    ⟨outcome.1, state.pins.after operation outcome.2⟩

/-! ## What a call is to do -/

/-- The call fails as a mismatch and leaves the store as it is. -/
def Refused (system : System) (operation : Operation) : Prop :=
  system.call operation = some (system, .error .fingerprintMismatch)

/-- A call that presents something else than it claims is refused, and so is one under a
name for which another fingerprint is pinned. -/
def Detects (state : State) (operation : Operation) : Prop :=
  ∀ claimedFp presentedFp displayName now failure,
    operation = .verifyOrPin claimedFp presentedFp displayName now failure →
    (∃ store, state.system = .opened store) →
    (claimedFp ≠ presentedFp ∨ ∃ fp, state.pins displayName fp ∧ fp ≠ presentedFp) →
      Refused state.system operation

/-- A peer presents the fingerprint it claims, and another one is pinned under its name. -/
def ComesBackChanged (state : State) (operation : Operation) : Prop :=
  ∃ fp displayName now failure pinned store,
    operation = .verifyOrPin fp fp displayName now failure ∧ state.system = .opened store ∧
      state.pins displayName pinned ∧ pinned ≠ fp

variable {state next : State} {operation : Operation} {operations : List Operation}

theorem refused_of_mismatch {claimedFp presentedFp : Fingerprint} (hne : claimedFp ≠ presentedFp)
    (store : KnownPeers) (displayName : OsStr) (now : Nat) (failure : Option Text) :
    Refused (.opened store) (.verifyOrPin claimedFp presentedFp displayName now failure) := by
  rw [Refused, System.call, verifyOrPin_mismatch hne]

/-- A call that presents what it claims is never refused. -/
theorem not_refused_self (store : KnownPeers) (fp : Fingerprint) (displayName : OsStr) (now : Nat)
    (failure : Option Text) :
    ¬Refused (.opened store) (.verifyOrPin fp fp displayName now failure) := by
  intro hrefused
  rw [Refused, System.call, verifyOrPin_self] at hrefused
  obtain ⟨_, hresult⟩ := Prod.mk.inj (Option.some.inj hrefused)
  exact ioResult_ne_mismatch hresult

theorem detects_iff_step (state : State) (operation : Operation) :
    Detects state operation ↔ ¬ComesBackChanged state operation := by
  constructor
  · rintro hdetects ⟨fp, displayName, now, failure, pinned, store, rfl, hsystem, hpinned, hne⟩
    have hrefused := hdetects fp fp displayName now failure rfl ⟨store, hsystem⟩
      (Or.inr ⟨pinned, hpinned, hne⟩)
    rw [hsystem] at hrefused
    exact not_refused_self store fp displayName now failure hrefused
  · rintro hsame claimedFp presentedFp displayName now failure rfl ⟨store, hsystem⟩ hchanged
    by_cases hclaimed : claimedFp = presentedFp
    · obtain ⟨pinned, hpinned, hne⟩ := hchanged.resolve_left (not_not.mpr hclaimed)
      rw [hclaimed] at hsame
      exact absurd ⟨presentedFp, displayName, now, failure, pinned, store, rfl, hsystem, hpinned,
        hne⟩ hsame
    · rw [hsystem]
      exact refused_of_mismatch hclaimed store displayName now failure

/-- In a history every call does what it should exactly when no peer comes back under its
name with another fingerprint. -/
theorem detects_iff (system : System) (operations : List Operation) :
    Along step Detects (start system) operations ↔
      Along step (fun state operation => ¬ComesBackChanged state operation) (start system)
        operations :=
  along_congr (fun _ => True) (fun state operation _ => detects_iff_step state operation)
    (fun _ _ _ _ _ _ => trivial) trivial

/-! ## What is pinned is recorded -/

/-- Every pinned fingerprint is in the file, and in the store while one is open. -/
structure Recorded (state : State) : Prop where
  onDisk : ∀ name fp, state.pins name fp → (state.system.file.get fp).isSome = true
  inMemory : ∀ store, state.system = .opened store →
    ∀ name fp, state.pins name fp → (store.get fp).isSome = true

theorem recorded_start (system : System) : Recorded (start system) :=
  ⟨fun _ _ hpinned => hpinned.elim, fun _ _ _ _ hpinned => hpinned.elim⟩

/-- After a write, what is pinned has to be in memory, and on the old disk if it failed. -/
theorem recorded_written {store written : KnownPeers} {failure : Option Text} {pins : Pins}
    (hfile : written.file = if failure = none then .holds written.state else store.file)
    (hmemory : ∀ name fp, pins name fp → (written.get fp).isSome = true)
    (hdisk : failure ≠ none → ∀ name fp, pins name fp → (store.file.get fp).isSome = true) :
    Recorded ⟨.opened written, pins⟩ := by
  constructor
  · intro name fp hpinned
    change (written.file.get fp).isSome = true
    rw [hfile]
    split
    · exact hmemory name fp hpinned
    · rename_i hfailed
      exact hdisk hfailed name fp hpinned
  · intro other hother
    cases hother
    exact hmemory

variable {store : KnownPeers} {pins : Pins}

theorem recorded_trust (hrecorded : Recorded ⟨.opened store, pins⟩) (fp : Fingerprint)
    (displayName : OsStr) (now : Nat) (failure : Option Text) :
    Recorded ⟨.opened (store.trust fp displayName now failure).1,
      pins.after (.trust fp displayName now failure) (ioResult failure)⟩ := by
  have hmemory : ∀ other : Fingerprint, other = fp ∨ (store.get other).isSome = true →
      ((store.trust fp displayName now failure).1.get other).isSome = true := by
    intro other hother
    rw [get_trust]
    split
    · rfl
    · rename_i hne
      exact hother.resolve_left hne
  apply recorded_written (file_flush _ _ _)
  · intro name other hpinned
    apply hmemory
    cases failure with
    | none =>
        rcases hpinned with ⟨_, hsame⟩ | hold
        · exact Or.inl hsame
        · exact Or.inr (hrecorded.inMemory store rfl name other hold)
    | some detail => exact Or.inr (hrecorded.inMemory store rfl name other hpinned)
  · intro hfailed name other hpinned
    cases failure with
    | none => exact absurd rfl hfailed
    | some detail => exact hrecorded.onDisk name other hpinned

theorem recorded_forget (hrecorded : Recorded ⟨.opened store, pins⟩) (fp : Fingerprint)
    (failure : Option Text) :
    Recorded ⟨.opened (store.forget fp failure).1, pins.drop fp⟩ := by
  apply recorded_written (file_flush _ _ _)
  · rintro name other ⟨hne, hpinned⟩
    change ((store.forget fp failure).1.get other).isSome = true
    rw [get_forget, if_neg hne]
    exact hrecorded.inMemory store rfl name other hpinned
  · rintro _ name other ⟨_, hpinned⟩
    exact hrecorded.onDisk name other hpinned

/-- Every operation keeps the pins recorded. -/
theorem recorded_step (hrecorded : Recorded state) (hstep : step state operation = some next) :
    Recorded next := by
  obtain ⟨system, pins⟩ := state
  obtain ⟨⟨after, result⟩, hcall, rfl⟩ := Option.map_eq_some_iff.mp hstep
  cases operation with
  | reopen failure =>
      rw [System.call] at hcall
      cases hopen : openAt system.file failure with
      | ok store =>
          rw [hopen] at hcall
          cases hcall
          obtain ⟨hfile, hget⟩ := openAt_eq_ok hopen
          constructor
          · intro name fp hpinned
            change (store.file.get fp).isSome = true
            rw [hfile]
            exact hrecorded.onDisk name fp hpinned
          · intro other hother name fp hpinned
            cases hother
            rw [hget]
            exact hrecorded.onDisk name fp hpinned
      | error error =>
          rw [hopen] at hcall
          cases hcall
          refine ⟨hrecorded.onDisk, ?_⟩
          intro store hstore
          cases hstore
  | trust fp displayName now failure =>
      cases system with
      | closed file => cases hcall
      | opened store =>
          cases hcall
          exact recorded_trust hrecorded fp displayName now failure
  | verifyOrPin claimedFp presentedFp displayName now failure =>
      cases system with
      | closed file => cases hcall
      | opened store =>
          by_cases hsame : claimedFp = presentedFp
          · rw [System.call, hsame, verifyOrPin_self] at hcall
            cases hcall
            have hpins : pins.after (.verifyOrPin presentedFp presentedFp displayName now failure)
                (ioResult failure) =
                  pins.after (.trust presentedFp displayName now failure) (ioResult failure) := by
              cases failure <;> rfl
            have hnext := recorded_trust hrecorded presentedFp displayName now failure
            rw [← hpins] at hnext
            rw [hsame]
            exact hnext
          · rw [System.call, verifyOrPin_mismatch hsame] at hcall
            cases hcall
            exact hrecorded
  | forget fp failure =>
      cases system with
      | closed file => cases hcall
      | opened store =>
          cases hcall
          exact recorded_forget hrecorded fp failure

/-- A pinned fingerprint is found again, also after the store was opened anew. -/
theorem recorded_run {system : System} {final : State}
    (hrun : run step (start system) operations = some final) : Recorded final :=
  invariant_run Recorded (fun _ _ _ hrecorded hstep => recorded_step hrecorded hstep)
    (recorded_start system) hrun

/-! ## The same name with another key -/

def aliceKey : Fingerprint := FixedBytes.filled 32 1

def malloryKey : Fingerprint := FixedBytes.filled 32 2

/-- Both come as "alice". -/
def aliceTwice : List Operation :=
  [.verifyOrPin aliceKey aliceKey [97, 108, 105, 99, 101] 5 none,
    .verifyOrPin malloryKey malloryKey [97, 108, 105, 99, 101] 6 none]

/-- The second key is pinned as well. -/
theorem changed_identity_pinned :
    ¬ ∀ system operations, Along step Detects (start system) operations := by
  intro hclaim
  have hall := hclaim (.opened ⟨∅, .absent⟩) aliceTwice
  obtain ⟨_, hrest⟩ := hall
  obtain ⟨hdetects, _⟩ := hrest _ rfl
  have hpinned : Pins.after (fun _ _ => False)
      (.verifyOrPin aliceKey aliceKey [97, 108, 105, 99, 101] 5 none) (.ok ())
      [97, 108, 105, 99, 101] aliceKey := Or.inl ⟨rfl, rfl⟩
  have hne : aliceKey ≠ malloryKey := by decide
  have hrefused := hdetects malloryKey malloryKey _ 6 none rfl ⟨_, rfl⟩
    (Or.inr ⟨aliceKey, hpinned, hne⟩)
  exact not_refused_self _ _ _ _ _ hrefused

end P2PFileTransfer.Session.TrustOnFirstUse
