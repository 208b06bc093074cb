import P2PFileTransfer.Server.Pairing

/-!
# How waiters leave the table

A waiter is taken, expires, or is removed by the cleanup of its own connection.  A cleanup
knows its waiter by the device only, so it also removes the one that a retry of the same
device has put under the same code in the meantime.
-/

namespace P2PFileTransfer.Server.Waiters

open P2PFileTransfer.Foundation.Run (Along along_congr)
open P2PFileTransfer.Foundation.Tables
open P2PFileTransfer.Session.Rendezvous (SocketAddr)
open P2PFileTransfer.Server.Relay (RelayState)
open P2PFileTransfer.Server.HandleConnection
open P2PFileTransfer.Server.Turns
open P2PFileTransfer.Server.Messages
open P2PFileTransfer.Server.Ownership
open P2PFileTransfer.Server.Pairing

/-- Why the waiter under `code` is gone after this event: a second peer took it, it had
expired, or its own connection cleaned up. -/
inductive Fate (state : State) (code : Code) (waiter : Waiter) : Event → Prop where
  | taken {conn now : Nat} {peer : SocketAddr} {request : RegisterRequest}
      (hstage : state.stages conn = .looking peer request) (hcode : request.code = code) :
      Fate state code waiter (.connection conn (.lookUp now))
  | expired {conn now : Nat} (hexpired : waiter.expiresAt ≤ now) :
      Fate state code waiter (.connection conn (.lookUp now))
  | cleaned : Fate state code waiter (.connection waiter.notify .cleanUp)

/-- Whatever leaves the table in this step meets its own fate. -/
def OwnFate (ttl : Nat) (state : State) (event : Event) : Prop :=
  ∀ next, step ttl state event = some next → ∀ code waiter,
    state.waiting.lookup code = some waiter → next.waiting.lookup code ≠ some waiter →
      Fate state code waiter event

/-- A connection that cleans up finds no waiter of its own device that another connection
has installed. -/
def OwnGeneration (state : State) : Event → Prop
  | .connection conn .cleanUp =>
      ∀ request outcome, state.stages conn = .cleaning request outcome →
        ∀ waiter, state.waiting.lookup request.code = some waiter →
          waiter.first.deviceId = request.deviceId → waiter.notify = conn
  | _ => True

variable {ttl : Nat} {state next : State} {event : Event} {code : Code} {waiter : Waiter}

theorem fate_of_turned (hturned : Turned ttl state event next) (hown : OwnGeneration state event)
    (hlookup : state.waiting.lookup code = some waiter)
    (hgone : next.waiting.lookup code ≠ some waiter) : Fate state code waiter event := by
  cases hturned with
  | took hstage hfound =>
      rename_i conn now peer request found
      by_cases hcode : request.code = code
      · exact .taken hstage hcode
      · refine .expired (Nat.le_of_not_lt ?_)
        intro hlt
        apply hgone
        change ((unexpired now state.waiting).erase request.code).lookup code = some waiter
        rw [lookup_erase_ite, if_neg (Ne.symm hcode)]
        exact lookup_unexpired.mpr ⟨hlookup, hlt⟩
  | missed hstage hnone =>
      refine .expired (Nat.le_of_not_lt ?_)
      intro hlt
      exact hgone (lookup_unexpired.mpr ⟨hlookup, hlt⟩)
  | installed hstage hfree =>
      rename_i conn now request
      refine absurd ?_ hgone
      change (state.waiting.insert request.code _).lookup code = some waiter
      rw [lookup_insert_ite, if_neg]
      · exact hlookup
      · rintro rfl
        rw [hfree] at hlookup
        cases hlookup
  | cleaned hstage =>
      rename_i conn request outcome
      change (state.cleanUp request).waiting.lookup code ≠ some waiter at hgone
      rcases cleanUp_cases state request with heq | ⟨found, hfound, hdevice, heq⟩ <;>
        rw [heq] at hgone
      · exact absurd hlookup hgone
      · by_cases hcode : code = request.code
        · subst hcode
          rw [hlookup] at hfound
          cases hfound
          cases hown request outcome hstage waiter hlookup hdevice
          exact .cleaned
        · refine absurd ?_ hgone
          change (state.waiting.erase request.code).lookup code = some waiter
          rw [lookup_erase_ite, if_neg hcode]
          exact hlookup
  | notified hstage =>
      refine absurd ?_ hgone
      change (state.notify _ _).waiting.lookup code = some waiter
      rw [waiting_notify]
      exact hlookup
  | turnedAway hstage | cutOff hstage =>
      refine absurd ?_ hgone
      change (state.dropHeld _).waiting.lookup code = some waiter
      rw [waiting_dropHeld]
      exact hlookup
  | accepted _ | unread _ _ | refused _ | admitted _ _ | pairedDirect _ | pairedRelay _ _
  | relayRefused _ | delivered _ | undelivered _ | collided _ | woken _ _ | bereft _ _
  | timedOut _ _ | answered _ | unanswered _ | relayed => exact absurd hlookup hgone

/-- A step removes waiters by their own fate exactly when it is no cleanup of another
generation. -/
theorem ownFate_iff : OwnFate ttl state event ↔ OwnGeneration state event := by
  constructor
  · intro hfate
    cases event with
    | relay event => trivial
    | connection conn input =>
        cases input with
        | cleanUp =>
            intro request outcome hstage waiter hlookup hdevice
            have hstep : step ttl state (.connection conn .cleanUp) =
                some ((state.cleanUp request).goto conn (.answering (outcomeMessage outcome))) := by
              change state.advance ttl conn (state.stages conn) .cleanUp = _
              rw [hstage]
              rfl
            have hgone : (state.cleanUp request).waiting.lookup request.code ≠ some waiter := by
              simp only [State.cleanUp, hlookup, hdevice, if_true]
              rw [lookup_erase_ite, if_pos rfl]
              nofun
            cases hfate _ hstep request.code waiter hlookup hgone with
            | cleaned => rfl
        | accept _ | frame _ | lookUp _ | pair _ _ | register _ | written | failed | notify | wake
        | timeout => trivial
  · exact fun hown next hstep code waiter hlookup hgone =>
      fate_of_turned (turned_of_step hstep) hown hlookup hgone

/-! ## Waiters and their connections -/

/-- The connection waits, or has not cleaned up yet. -/
def Pending (request : RegisterRequest) (stage : Stage) : Prop :=
  stage = .waiting request ∨ ∃ outcome, stage = .cleaning request outcome

/-- The connection of a waiter has not ended. -/
def Attended (state : State) : Prop :=
  ∀ code waiter, state.waiting.lookup code = some waiter →
    Pending waiter.first (state.stages waiter.notify)

theorem attended_start (relay : Option (SocketAddr × RelayState)) : Attended (start relay) := by
  intro code waiter hlookup
  cases hlookup

theorem pending_unique {request other : RegisterRequest} {stage : Stage}
    (hpending : Pending request stage) (hother : Pending other stage) : request = other := by
  rcases hpending with rfl | ⟨outcome, rfl⟩
  · rcases hother with hstage | ⟨_, hstage⟩ <;> cases hstage
    rfl
  · rcases hother with hstage | ⟨_, hstage⟩ <;> cases hstage
    rfl

/-- A turn that installs no waiter, of a connection that stays pending if it was. -/
theorem Attended.turn (hattended : Attended state) (conn : Nat) (stage : Stage)
    (hstages : next.stages = Function.update state.stages conn stage)
    (hwaiting : ∀ code waiter, next.waiting.lookup code = some waiter →
      state.waiting.lookup code = some waiter)
    (hpending : ∀ code waiter, next.waiting.lookup code = some waiter → waiter.notify = conn →
      Pending waiter.first (state.stages conn) → Pending waiter.first stage) : Attended next := by
  intro code waiter hlookup
  have hbefore := hattended code waiter (hwaiting code waiter hlookup)
  rw [hstages]
  by_cases heq : waiter.notify = conn
  · rw [heq] at hbefore ⊢
    rw [Function.update_self]
    exact hpending code waiter hlookup heq hbefore
  · rw [Function.update_of_ne heq]
    exact hbefore

/-- A turn of a connection that has no waiter in the table. -/
theorem Attended.idle (hattended : Attended state) {conn : Nat} {before : Stage} (stage : Stage)
    (hstage : state.stages conn = before) (hidle : ∀ request, ¬ Pending request before)
    (hstages : next.stages = Function.update state.stages conn stage)
    (hwaiting : ∀ code waiter, next.waiting.lookup code = some waiter →
      state.waiting.lookup code = some waiter) : Attended next := by
  refine hattended.turn conn stage hstages hwaiting ?_
  intro code waiter _ _ hpending
  rw [hstage] at hpending
  exact absurd hpending (hidle _)

/-- A turn in which a connection stops waiting. -/
theorem Attended.wake (hattended : Attended state) {conn : Nat} {request : RegisterRequest}
    (outcome : Option NotifyPayload) (hstage : state.stages conn = .waiting request)
    (hstages : next.stages = Function.update state.stages conn (.cleaning request outcome))
    (hwaiting : next.waiting = state.waiting) : Attended next := by
  refine hattended.turn conn _ hstages ?_ ?_
  · intro code waiter hlookup
    rw [hwaiting] at hlookup
    exact hlookup
  · intro code waiter _ _ hpending
    rw [hstage] at hpending
    cases pending_unique hpending (.inl rfl)
    exact .inr ⟨outcome, rfl⟩

/-- A cleanup leaves no waiter of its own connection behind. -/
theorem Attended.clean (hattended : Attended state) (hsound : Sound state) {conn : Nat}
    {request : RegisterRequest} {outcome : Option NotifyPayload}
    (hstage : state.stages conn = .cleaning request outcome) (stage : Stage) :
    Attended ((state.cleanUp request).goto conn stage) := by
  refine hattended.turn conn stage ?_ (fun _ _ hlookup => lookup_cleanUp hlookup) ?_
  · exact congrArg (fun stages => Function.update stages _ _) (stages_cleanUp _ _)
  · intro code waiter hlookup _ hpending
    rw [hstage] at hpending
    have hbefore := lookup_cleanUp hlookup
    have hcode := (hsound.waiting code waiter hbefore).1
    cases pending_unique hpending (.inr ⟨outcome, rfl⟩)
    subst hcode
    change (state.cleanUp waiter.first).waiting.lookup waiter.first.code = some waiter at hlookup
    simp only [State.cleanUp, hbefore, if_true, lookup_erase_ite] at hlookup
    cases hlookup

theorem Attended.step (hattended : Attended state) (hsound : Sound state)
    (hturned : Turned ttl state event next) : Attended next := by
  have hidle : ∀ {stage : Stage}, (∀ request, stage ≠ .waiting request) →
      (∀ request outcome, stage ≠ .cleaning request outcome) →
      ∀ request, ¬ Pending request stage := by
    rintro stage hwaiting hcleaning request (hstage | ⟨outcome, hstage⟩)
    · exact hwaiting request hstage
    · exact hcleaning request outcome hstage
  cases hturned with
  | accepted hstage | unread hstage _ | refused hstage | admitted hstage _ | pairedDirect hstage
  | pairedRelay hstage _ | relayRefused hstage | delivered hstage | undelivered hstage
  | collided hstage | answered hstage | unanswered hstage =>
      exact hattended.idle _ hstage (hidle nofun nofun) rfl (fun _ _ hlookup => hlookup)
  | took hstage hfound =>
      rename_i conn now peer request waiter
      refine hattended.idle (.pairing (stamp peer request) waiter) hstage (hidle nofun nofun) ?_ ?_
      · exact congrArg (fun stages => Function.update stages _ _) (stages_foldl_drop _ _)
      · exact fun code waiter hlookup => (lookup_unexpired.mp (lookup_of_erase hlookup).1).1
  | missed hstage hfound =>
      rename_i conn now peer request
      refine hattended.idle (.registering (stamp peer request)) hstage (hidle nofun nofun) ?_ ?_
      · exact congrArg (fun stages => Function.update stages _ _) (stages_foldl_drop _ _)
      · exact fun code waiter hlookup => (lookup_unexpired.mp hlookup).1
  | notified hstage =>
      refine hattended.idle .done hstage (hidle nofun nofun) ?_ ?_
      · exact congrArg (fun stages => Function.update stages _ _) (stages_notify _ _ _)
      · intro code waiter hlookup
        change (state.notify _ _).waiting.lookup code = some waiter at hlookup
        rw [waiting_notify] at hlookup
        exact hlookup
  | turnedAway hstage | cutOff hstage =>
      refine hattended.idle .done hstage (hidle nofun nofun) ?_ ?_
      · exact congrArg (fun stages => Function.update stages _ _) (stages_dropHeld _ _)
      · intro code waiter hlookup
        change (state.dropHeld _).waiting.lookup code = some waiter at hlookup
        rw [waiting_dropHeld] at hlookup
        exact hlookup
  | installed hstage hfree =>
      rename_i conn now request
      intro code waiter hlookup
      change (state.waiting.insert request.code _).lookup code = some waiter at hlookup
      change Pending waiter.first (Function.update state.stages conn (.waiting request) _)
      rw [lookup_insert_ite] at hlookup
      split at hlookup
      · cases hlookup
        rw [Function.update_self]
        exact .inl rfl
      · have hbefore := hattended code waiter hlookup
        rw [Function.update_of_ne]
        · exact hbefore
        · intro heq
          rw [heq, hstage] at hbefore
          rcases hbefore with hother | ⟨_, hother⟩ <;> cases hother
  | woken hstage _ => exact hattended.wake _ hstage rfl rfl
  | bereft hstage _ => exact hattended.wake _ hstage rfl rfl
  | timedOut hstage _ => exact hattended.wake _ hstage rfl rfl
  | cleaned hstage => exact hattended.clean hsound hstage _
  | relayed => exact hattended

theorem attended_of_run {relay : Option (SocketAddr × RelayState)} {events : List Event}
    {final : State} (hrun : run ttl (start relay) events = some final) : Attended final := by
  have hboth := Foundation.Run.invariant_run (fun state => Sound state ∧ Attended state)
    (fun _ _ _ hboth hstep => ⟨hboth.1.step (turned_of_step hstep),
      hboth.2.step hboth.1 (turned_of_step hstep)⟩)
    ⟨sound_start relay, attended_start relay⟩ hrun
  exact hboth.2

/-- In every run, the waiters leave the table by their own fate exactly as long as no
connection cleans up the waiter of another one.  There is one waiter to a code, and none of
a connection that has ended. -/
theorem removed_by_own_fate {relay : Option (SocketAddr × RelayState)} {events : List Event}
    {final : State} (hrun : run ttl (start relay) events = some final) :
    (Along (step ttl) (OwnFate ttl) (start relay) events ↔
      Along (step ttl) OwnGeneration (start relay) events) ∧
    (∀ code waiter other found, final.waiting.lookup code = some waiter →
      final.waiting.lookup other = some found → waiter.first.code = found.first.code →
      code = other ∧ waiter = found) ∧
    ∀ conn, final.stages conn = .done → ∀ code waiter, final.waiting.lookup code = some waiter →
      waiter.notify ≠ conn := by
  refine ⟨along_congr (fun _ => True) (fun _ _ _ => ownFate_iff) (fun _ _ _ _ _ _ => trivial)
    trivial, ?_, ?_⟩
  · intro code waiter other found hlookup hfound hsame
    have hsound := (inv_of_run hrun).sound
    have hcode := (hsound.waiting code waiter hlookup).1
    have hother := (hsound.waiting other found hfound).1
    have heq : code = other := hcode.symm.trans (hsame.trans hother)
    subst heq
    rw [hlookup] at hfound
    exact ⟨rfl, Option.some.inj hfound⟩
  · rintro conn hdone code waiter hlookup rfl
    have hpending := attended_of_run hrun code waiter hlookup
    rw [hdone] at hpending
    rcases hpending with hstage | ⟨_, hstage⟩ <;> cases hstage

/-- A client whose code has expired registers it again before its old connection has
cleaned up. -/
def reregistered : List Event :=
  arrive 1 (registration 1 1 false) 0 ++ [.connection 1 (.register 0)] ++
    arrive 2 (registration 1 1 false) 300 ++
    [.connection 2 (.register 300), .connection 1 .wake, .connection 1 .cleanUp]

theorem removed_by_own_fate_reregistered : ∃ final,
    run 300 (start none) reregistered = some final ∧
    (Along (step 300) (OwnFate 300) (start none) reregistered ↔
      Along (step 300) OwnGeneration (start none) reregistered) ∧
    (∀ code waiter other found, final.waiting.lookup code = some waiter →
      final.waiting.lookup other = some found → waiter.first.code = found.first.code →
      code = other ∧ waiter = found) ∧
    ∀ conn, final.stages conn = .done → ∀ code waiter, final.waiting.lookup code = some waiter →
      waiter.notify ≠ conn :=
  ⟨_, rfl, @removed_by_own_fate 300 none reregistered _ rfl⟩

/-- The old cleanup removes the new waiter. -/
theorem retry_cleaned_up :
    ¬ ∀ ttl relay events, Along (step ttl) (OwnFate ttl) (start relay) events := by
  intro hclaim
  have hsteps := hclaim 300 none reregistered
  iterate 9
    replace hsteps := hsteps.2 _ rfl
  have hfate := hsteps.1 _ rfl ['A', 'B', 'C', '1', '2', '3'] _ rfl nofun
  cases hfate

end P2PFileTransfer.Server.Waiters
