import Mathlib.Algebra.Order.BigOperators.Group.List
import P2PFileTransfer.Server.Pairing

/-!
# The accept loop and its permits

`Server::run` takes one of `max_concurrent` permits before it accepts, and the handler it
spawns gives the permit back when it ends.  A first peer keeps its permit while it waits.
-/

namespace P2PFileTransfer.Server.Permits

open P2PFileTransfer.Foundation.Tables
open P2PFileTransfer.Session.Rendezvous (SocketAddr)
open P2PFileTransfer.Server.Relay (SessionToken RelayState)
open P2PFileTransfer.Server.HandleConnection
open P2PFileTransfer.Server.Messages
open P2PFileTransfer.Server.Pairing (registration arrive)
open P2PFileTransfer.Server.Turns

/-- The server, and the connections that hold a permit. -/
structure Serving where
  state : State
  held : List Nat

def listening (relay : Option (SocketAddr × RelayState)) : Serving := ⟨start relay, []⟩

/-- One step of the accept loop or of a handler. -/
def serve (maxConcurrent ttl : Nat) (serving : Serving) : Event → Option Serving
  | .connection conn (.accept peer) =>
      if serving.held.length < maxConcurrent then
        (HandleConnection.step ttl serving.state (.connection conn (.accept peer))).map fun next =>
          ⟨next, conn :: serving.held⟩
      else none
  | event =>
      (HandleConnection.step ttl serving.state event).map fun next =>
        ⟨next, serving.held.filter fun conn => decide (next.stages conn ≠ .done)⟩

abbrev run (maxConcurrent ttl : Nat) : Serving → List Event → Option Serving :=
  Foundation.Run.run (serve maxConcurrent ttl)

/-- The handler has been spawned and has not ended. -/
def InFlight (stage : Stage) : Prop := stage ≠ .absent ∧ stage ≠ .done

/-! ## What one step does to the permits -/

variable {maxConcurrent ttl : Nat} {serving next : Serving}

/-- A connection is accepted under a free permit; any other event frees the permits of the
handlers that have ended. -/
theorem serve_cases {event : Event} (hserve : serve maxConcurrent ttl serving event = some next) :
    HandleConnection.step ttl serving.state event = some next.state ∧
      ((∃ conn peer, event = .connection conn (.accept peer) ∧
          serving.held.length < maxConcurrent ∧ next.held = conn :: serving.held) ∨
        ((∀ conn peer, event ≠ .connection conn (.accept peer)) ∧
          next.held =
            serving.held.filter fun conn => decide (next.state.stages conn ≠ .done))) := by
  unfold serve at hserve
  split at hserve
  · rename_i conn peer
    split at hserve
    · rename_i hfree
      obtain ⟨state, hstep, rfl⟩ := Option.map_eq_some_iff.mp hserve
      exact ⟨hstep, .inl ⟨conn, peer, rfl, hfree, rfl⟩⟩
    · cases hserve
  · rename_i hother
    obtain ⟨state, hstep, rfl⟩ := Option.map_eq_some_iff.mp hserve
    exact ⟨hstep, .inr ⟨hother, rfl⟩⟩

/-- An event that is no accept needs no permit. -/
theorem serve_of_step {event : Event} {state : State}
    (hother : ∀ conn peer, event ≠ .connection conn (.accept peer))
    (hstep : HandleConnection.step ttl serving.state event = some state) :
    serve maxConcurrent ttl serving event =
      some ⟨state, serving.held.filter fun conn => decide (state.stages conn ≠ .done)⟩ := by
  unfold serve
  split
  · rename_i conn peer
    exact absurd rfl (hother conn peer)
  · rw [hstep]
    rfl

/-- The permits are held by exactly the handlers in flight, and some connection is yet to
come. -/
structure Accounted (maxConcurrent : Nat) (serving : Serving) : Prop where
  bounded : serving.held.length ≤ maxConcurrent
  nodup : serving.held.Nodup
  inFlight : ∀ conn, conn ∈ serving.held ↔ InFlight (serving.state.stages conn)
  fresh : ∃ bound, ∀ conn, bound ≤ conn → serving.state.stages conn = .absent

theorem accounted_listening (relay : Option (SocketAddr × RelayState)) :
    Accounted maxConcurrent (listening relay) where
  bounded := Nat.zero_le _
  nodup := List.nodup_nil
  inFlight := fun _ => ⟨fun hmem => absurd hmem List.not_mem_nil, fun hflight => absurd rfl hflight.1⟩
  fresh := ⟨0, fun _ _ => rfl⟩

/-- A turn of a connection that is no accept is one of a handler in flight. -/
theorem inFlight_of_step {conn : Nat} {input : Input} {state after : State}
    (hother : ∀ peer, input ≠ .accept peer)
    (hstep : HandleConnection.step ttl state (.connection conn input) = some after) :
    InFlight (state.stages conn) := by
  change state.advance ttl conn (state.stages conn) input = some after at hstep
  constructor
  · intro habsent
    rw [habsent] at hstep
    cases input with
    | accept peer => exact hother peer rfl
    | frame _ | lookUp _ | pair _ _ | register _ | written | failed | notify | wake | timeout
    | cleanUp => cases hstep
  · intro hdone
    rw [hdone] at hstep
    cases input <;> cases hstep

theorem ne_absent_of_move {conn : Nat} {before stage : Stage} {entries : List Entry}
    (hmove : Move conn before stage entries) : stage ≠ .absent := by
  cases hmove <;> intro habsent <;> cases habsent

/-- A handler that has been spawned is never taken back. -/
theorem present_of_moves {state after : State} (hmoves : Moves state after) {conn : Nat}
    (hpresent : state.stages conn ≠ .absent) : after.stages conn ≠ .absent := by
  rcases hmoves with ⟨hstages, _⟩ | ⟨mover, stage, entries, hmove, hstages, _⟩
  · rw [hstages]
    exact hpresent
  · rw [hstages]
    by_cases heq : conn = mover
    · rw [heq, Function.update_self]
      exact ne_absent_of_move hmove
    · rw [Function.update_of_ne heq]
      exact hpresent

theorem Accounted.accept (haccounted : Accounted maxConcurrent serving) {conn : Nat}
    {peer : SocketAddr} (hstage : serving.state.stages conn = .absent)
    (hfree : serving.held.length < maxConcurrent) :
    Accounted maxConcurrent ⟨serving.state.goto conn (.reading peer), conn :: serving.held⟩ where
  bounded := hfree
  nodup := by
    refine List.nodup_cons.mpr ⟨?_, haccounted.nodup⟩
    intro hmem
    exact ((haccounted.inFlight conn).mp hmem).1 hstage
  inFlight := by
    intro other
    change other ∈ conn :: serving.held ↔
      InFlight (Function.update serving.state.stages conn (.reading peer) other)
    by_cases heq : other = conn
    · rw [heq, Function.update_self]
      exact ⟨fun _ => ⟨nofun, nofun⟩, fun _ => List.mem_cons_self⟩
    · rw [Function.update_of_ne heq, List.mem_cons, haccounted.inFlight other]
      exact or_iff_right heq
  fresh := by
    obtain ⟨bound, hbound⟩ := haccounted.fresh
    refine ⟨max bound (conn + 1), ?_⟩
    intro other hle
    change Function.update serving.state.stages conn (.reading peer) other = .absent
    rw [Function.update_of_ne (by omega)]
    exact hbound other (le_trans (le_max_left _ _) hle)

/-- A step of a handler gives its permit back if it ended. -/
theorem Accounted.handle (haccounted : Accounted maxConcurrent serving) {state : State}
    (hmoves : Moves serving.state state)
    (hkept : ∀ conn, InFlight (serving.state.stages conn) ∨
      state.stages conn = serving.state.stages conn) :
    Accounted maxConcurrent
      ⟨state, serving.held.filter fun conn => decide (state.stages conn ≠ .done)⟩ where
  bounded := (List.length_filter_le _ _).trans haccounted.bounded
  nodup := haccounted.nodup.filter _
  inFlight := by
    intro conn
    rw [List.mem_filter, decide_eq_true_iff, haccounted.inFlight conn]
    constructor
    · rintro ⟨hflight, hdone⟩
      exact ⟨present_of_moves hmoves hflight.1, hdone⟩
    · intro hflight
      rcases hkept conn with hbefore | hsame
      · exact ⟨hbefore, hflight.2⟩
      · change InFlight (state.stages conn) at hflight
        rw [hsame] at hflight ⊢
        exact ⟨hflight, hflight.2⟩
  fresh := by
    obtain ⟨bound, hbound⟩ := haccounted.fresh
    refine ⟨bound, ?_⟩
    intro conn hle
    have habsent := hbound conn hle
    rcases hkept conn with hbefore | hsame
    · exact absurd habsent hbefore.1
    · exact hsame.trans habsent

theorem Accounted.step (haccounted : Accounted maxConcurrent serving) {event : Event}
    (hserve : serve maxConcurrent ttl serving event = some next) :
    Accounted maxConcurrent next := by
  obtain ⟨hstep, hheld⟩ := serve_cases hserve
  obtain ⟨state, held⟩ := next
  have hturned := turned_of_step hstep
  rcases hheld with ⟨conn, peer, rfl, hfree, rfl⟩ | ⟨hother, hheld⟩
  · generalize hevent : Event.connection conn (.accept peer) = event at hturned
    cases hturned with
    | accepted hstage =>
        cases hevent
        exact haccounted.accept hstage hfree
    | _ => cases hevent
  · change held = serving.held.filter fun conn => decide (state.stages conn ≠ .done) at hheld
    subst hheld
    refine haccounted.handle (moves_of_turned hturned) ?_
    intro conn
    cases event with
    | relay event =>
        cases hturned
        exact .inr rfl
    | connection mover input =>
        by_cases heq : conn = mover
        · subst heq
          exact .inl (inFlight_of_step (fun peer hinput => hother conn peer (hinput ▸ rfl)) hstep)
        · exact .inr (stages_of_turned hturned heq)

/-- What holds in every state of the accept loop. -/
theorem accounted_of_run {relay : Option (SocketAddr × RelayState)} {past : List Event}
    (hrun : run maxConcurrent ttl (listening relay) past = some serving) :
    Accounted maxConcurrent serving ∧ Pairing.Inv serving.state :=
  Foundation.Run.invariant_run
    (fun serving => Accounted maxConcurrent serving ∧ Pairing.Inv serving.state)
    (fun _ _ _ hboth hserve => ⟨hboth.1.step hserve, hboth.2.step (serve_cases hserve).1⟩)
    ⟨accounted_listening relay, Pairing.inv_start relay⟩ hrun

/-! ## Handlers that go on without a timer -/

/-- What moves this handler on is a timer, its own look-up of the code, or its own cleanup
of the code for the same device. -/
def Stuck (state : State) (code : Code) (waiter : Waiter) (conn : Nat) : Prop :=
  match state.stages conn with
  | .waiting _ => state.channels conn = .opened
  | .looking _ request => request.code = code
  | .cleaning request _ => request.code = code ∧ request.deviceId = waiter.first.deviceId
  | _ => False

/-- The turns that a handler still makes at most. -/
def remaining : Stage → Nat
  | .reading _ => 6
  | .looking _ _ => 5
  | .registering _ => 4
  | .pairing _ _ | .waiting _ => 3
  | .delivering _ _ _ | .cleaning _ _ => 2
  | .notifying _ _ | .answering _ | .rejecting _ _ => 1
  | .absent | .done => 0

/-- A step of a handler in flight that is not the end of its time to live. -/
def Timerless (event : Event) : Prop :=
  ∃ conn input, event = .connection conn input ∧ input ≠ .timeout ∧ ∀ peer, input ≠ .accept peer

variable {state : State} {code : Code} {waiter : Waiter} {conn now : Nat}

theorem step_of_advance {stage : Stage} {input : Input} {after : State}
    (hstage : state.stages conn = stage) (hadvance : state.advance ttl conn stage input = some after) :
    HandleConnection.step ttl state (.connection conn input) = some after := by
  subst hstage
  exact hadvance

/-- A turn without a timer that leaves the waiter where it is. -/
structure Turns (ttl : Nat) (state : State) (code : Code) (waiter : Waiter) (conn : Nat)
    (input : Input) (after : State) : Prop where
  timerless : Timerless (.connection conn input)
  step : HandleConnection.step ttl state (.connection conn input) = some after
  kept : after.waiting.lookup code = some waiter
  less : remaining (after.stages conn) < remaining (state.stages conn)

theorem turns_of_goto {before : Stage} (input : Input) (stage : Stage) {middle : State}
    (hinput : input ≠ .timeout ∧ ∀ peer, input ≠ .accept peer)
    (hstage : state.stages conn = before)
    (hadvance : state.advance ttl conn before input = some (middle.goto conn stage))
    (hkept : middle.waiting.lookup code = some waiter)
    (hless : remaining stage < remaining before) :
    ∃ input after, Turns ttl state code waiter conn input after := by
  refine ⟨input, middle.goto conn stage, ⟨conn, input, rfl, hinput⟩,
    step_of_advance hstage hadvance, hkept, ?_⟩
  change remaining (Function.update middle.stages conn stage conn) < _
  rw [Function.update_self, hstage]
  exact hless

theorem lookUp_of_some {peer : SocketAddr} {request : RegisterRequest} {other : Waiter}
    (hfound : (unexpired now state.waiting).lookup request.code = some other) :
    state.lookUp conn peer request now =
      { state.sweep now with
        waiting := (unexpired now state.waiting).erase request.code }.goto conn
          (.pairing (stamp peer request) other) := by
  have hswept : (state.sweep now).waiting.lookup request.code = some other := hfound
  simp only [State.lookUp, hswept]
  rfl

theorem lookUp_of_none {peer : SocketAddr} {request : RegisterRequest}
    (hfound : (unexpired now state.waiting).lookup request.code = none) :
    state.lookUp conn peer request now =
      (state.sweep now).goto conn (.registering (stamp peer request)) := by
  have hswept : (state.sweep now).waiting.lookup request.code = none := hfound
  simp only [State.lookUp, hswept]

/-- A look-up under another code takes another waiter, or none. -/
theorem exists_turn_looking {peer : SocketAddr} {request : RegisterRequest}
    (hstage : state.stages conn = .looking peer request) (hcode : code ≠ request.code)
    (hlookup : state.waiting.lookup code = some waiter) (hlive : now < waiter.expiresAt) :
    ∃ input after, Turns ttl state code waiter conn input after := by
  have hkept : (unexpired now state.waiting).lookup code = some waiter :=
    lookup_unexpired.mpr ⟨hlookup, hlive⟩
  cases hfound : (unexpired now state.waiting).lookup request.code with
  | none =>
      exact turns_of_goto (.lookUp now) _ ⟨nofun, nofun⟩ hstage
        (congrArg some (lookUp_of_none hfound)) hkept (Nat.lt_succ_self 4)
  | some other =>
      refine turns_of_goto (.lookUp now) _ ⟨nofun, nofun⟩ hstage
        (congrArg some (lookUp_of_some hfound)) ?_ (by decide : 3 < 5)
      change ((unexpired now state.waiting).erase request.code).lookup code = some waiter
      rw [lookup_erase_ite, if_neg hcode]
      exact hkept

/-- The second peer goes on to its own match, or is rejected. -/
theorem pair_eq_goto (state : State) (conn : Nat) (request : RegisterRequest) (held : Waiter)
    (token : SessionToken) (now : Nat) :
    ∃ stage middle, state.pair conn request held token now = State.goto middle conn stage ∧
      middle.waiting = state.waiting ∧ remaining stage < 3 := by
  have hone : 1 < 3 := by decide
  unfold State.pair
  split
  · split
    · split
      · exact ⟨_, _, rfl, rfl, hone⟩
      · exact ⟨_, _, rfl, rfl, Nat.lt_succ_self 2⟩
    · exact ⟨_, _, rfl, rfl, Nat.lt_succ_self 2⟩
  · exact ⟨_, _, rfl, rfl, Nat.lt_succ_self 2⟩

/-- A registration is refused where a waiter is, and goes elsewhere otherwise. -/
theorem exists_turn_registering {request : RegisterRequest}
    (hstage : state.stages conn = .registering request)
    (hlookup : state.waiting.lookup code = some waiter) :
    ∃ input after, Turns ttl state code waiter conn input after := by
  have hadvance : state.advance ttl conn (.registering request) (.register 0) =
      some (state.register ttl conn request 0) := rfl
  unfold State.register at hadvance
  cases hfound : state.waiting.lookup request.code with
  | some other =>
      simp only [hfound] at hadvance
      exact turns_of_goto (.register 0) _ ⟨nofun, nofun⟩ hstage hadvance hlookup (by decide : 1 < 4)
  | none =>
      simp only [hfound] at hadvance
      refine turns_of_goto (.register 0) _ ⟨nofun, nofun⟩ hstage hadvance ?_ (Nat.lt_succ_self 3)
      change (state.waiting.insert request.code _).lookup code = some waiter
      rw [lookup_insert_ite, if_neg]
      · exact hlookup
      · rintro rfl
        rw [hlookup] at hfound
        cases hfound

/-- A cleanup spares the waiters of other codes and of other devices. -/
theorem lookup_cleanUp_of_not {request : RegisterRequest}
    (hlookup : state.waiting.lookup code = some waiter)
    (hother : ¬ (request.code = code ∧ request.deviceId = waiter.first.deviceId)) :
    (state.cleanUp request).waiting.lookup code = some waiter := by
  rcases cleanUp_cases state request with hsame | ⟨found, hfound, hdevice, hclean⟩
  · rw [hsame]
    exact hlookup
  · rw [hclean]
    change (state.waiting.erase request.code).lookup code = some waiter
    rw [lookup_erase_ite, if_neg]
    · exact hlookup
    · rintro rfl
      rw [hlookup] at hfound
      cases hfound
      exact hother ⟨rfl, hdevice.symm⟩

/-- A handler in flight that is not stuck has a turn. -/
theorem exists_turn (hflight : InFlight (state.stages conn)) (hstuck : ¬ Stuck state code waiter conn)
    (hlookup : state.waiting.lookup code = some waiter) (hlive : now < waiter.expiresAt) :
    ∃ input after, Turns ttl state code waiter conn input after := by
  unfold Stuck at hstuck
  cases hstage : state.stages conn with
  | absent => exact absurd hstage hflight.1
  | done => exact absurd hstage hflight.2
  | reading peer =>
      exact turns_of_goto (.frame .silent) .done ⟨nofun, nofun⟩ hstage rfl hlookup (by decide : 0 < 6)
  | looking peer request =>
      rw [hstage] at hstuck
      exact exists_turn_looking hstage (Ne.symm hstuck) hlookup hlive
  | pairing request held =>
      obtain ⟨stage, middle, hpair, hwaiting, hless⟩ :=
        pair_eq_goto state conn request held (Core.Protocol.FixedBytes.filled 16 0) now
      refine turns_of_goto (.pair _ now) stage ⟨nofun, nofun⟩ hstage (congrArg some hpair) ?_ hless
      rw [hwaiting]
      exact hlookup
  | delivering held message payload =>
      exact turns_of_goto .written (.notifying held payload) ⟨nofun, nofun⟩ hstage rfl hlookup
        (Nat.lt_succ_self 1)
  | notifying held payload =>
      refine turns_of_goto .notify .done ⟨nofun, nofun⟩ hstage rfl ?_ (Nat.lt_succ_self 0)
      rw [waiting_notify]
      exact hlookup
  | registering request => exact exists_turn_registering hstage hlookup
  | waiting request =>
      rw [hstage] at hstuck
      have hkept : ∀ outcome, state.advance ttl conn (.waiting request) .wake =
          some (state.goto conn (.cleaning request outcome)) → _ := fun outcome hadvance =>
        turns_of_goto .wake _ ⟨nofun, nofun⟩ hstage hadvance hlookup (Nat.lt_succ_self 2)
      cases hchannel : state.channels conn with
      | opened => exact absurd hchannel hstuck
      | holds payload =>
          refine hkept (some payload) ?_
          simp only [State.advance, hchannel]
      | closed =>
          refine hkept none ?_
          simp only [State.advance, hchannel]
  | cleaning request outcome =>
      rw [hstage] at hstuck
      refine turns_of_goto .cleanUp _ ⟨nofun, nofun⟩ hstage rfl ?_ (Nat.lt_succ_self 1)
      exact lookup_cleanUp_of_not hlookup hstuck
  | answering message =>
      exact turns_of_goto .written .done ⟨nofun, nofun⟩ hstage rfl hlookup (Nat.lt_succ_self 0)
  | rejecting reason held =>
      refine turns_of_goto .written .done ⟨nofun, nofun⟩ hstage rfl ?_ (Nat.lt_succ_self 0)
      change (state.dropHeld held).waiting.lookup code = some waiter
      rw [waiting_dropHeld]
      exact hlookup

/-! ## Taking a waiter -/

/-- A connection that comes in, registers and looks for a waiter. -/
def calls (conn : Nat) (peer : SocketAddr) (request : RegisterRequest) (now : Nat) : List Event :=
  [.connection conn (.accept peer), .connection conn (.frame (.message (.register request))),
    .connection conn (.lookUp now)]

/-- Whoever registers the code from now on takes the waiter. -/
def Takable (maxConcurrent ttl : Nat) (serving : Serving) (code : Code) (waiter : Waiter)
    (now : Nat) : Prop :=
  ∀ peer request, request.protocolVersion = protocolVersion → request.code = code →
    ∃ conn final, serving.state.stages conn = .absent ∧
      run maxConcurrent ttl serving (calls conn peer request now) = some final ∧
      final.state.stages conn = .pairing (stamp peer request) waiter

/-- A turn of a handler leaves fewer turns to all of them. -/
theorem turns_left_lt {held : List Nat} {after : State} {input : Input}
    (hmem : conn ∈ held) (hturns : Turns ttl state code waiter conn input after) :
    ((held.filter fun conn => decide (after.stages conn ≠ .done)).map fun conn =>
        remaining (after.stages conn)).sum <
      (held.map fun conn => remaining (state.stages conn)).sum := by
  refine lt_of_le_of_lt
    ((List.filter_sublist.map _).sum_le_sum fun _ _ => Nat.zero_le _) ?_
  refine List.sum_lt_sum _ _ ?_ ⟨conn, hmem, hturns.less⟩
  intro other _
  by_cases heq : other = conn
  · rw [heq]
    exact hturns.less.le
  · rw [stages_of_turned (turned_of_step hturns.step) heq]

/-- The handlers that have turns left can make them. -/
theorem exists_run_settled (haccounted : Accounted maxConcurrent serving)
    (hinv : Pairing.Inv serving.state) (hlookup : serving.state.waiting.lookup code = some waiter)
    (hlive : now < waiter.expiresAt) :
    ∃ events final, (∀ event ∈ events, Timerless event) ∧
      run maxConcurrent ttl serving events = some final ∧
      (Accounted maxConcurrent final ∧ Pairing.Inv final.state ∧
        final.state.waiting.lookup code = some waiter) ∧
      ∀ conn ∈ final.held, Stuck final.state code waiter conn := by
  refine Foundation.Run.exists_run_of_measure
    (fun serving => Accounted maxConcurrent serving ∧ Pairing.Inv serving.state ∧
      serving.state.waiting.lookup code = some waiter)
    (fun serving => ∀ conn ∈ serving.held, Stuck serving.state code waiter conn)
    (fun serving => (serving.held.map fun conn => remaining (serving.state.stages conn)).sum)
    ?_ ⟨haccounted, hinv, hlookup⟩
  rintro serving ⟨haccounted, hinv, hlookup⟩
  by_cases hall : ∀ conn ∈ serving.held, Stuck serving.state code waiter conn
  · exact .inl hall
  · obtain ⟨conn, hmem, hstuck⟩ := not_forall₂.mp hall
    have hflight := (haccounted.inFlight conn).mp hmem
    obtain ⟨input, after, hturns⟩ := @exists_turn ttl _ _ _ _ now hflight hstuck hlookup hlive
    obtain ⟨_, _, hevent, _, haccept⟩ := hturns.timerless
    cases hevent
    have hother : ∀ other peer, Event.connection conn input ≠ .connection other (.accept peer) := by
      rintro other peer ⟨⟩
      exact haccept peer rfl
    have hserve := @serve_of_step maxConcurrent _ _ _ _ hother hturns.step
    exact .inr ⟨_, _, hturns.timerless, hserve,
      ⟨haccounted.step hserve, hinv.step hturns.step, hturns.kept⟩, turns_left_lt hmem hturns⟩

theorem valid_of_lookup (hinv : Pairing.Inv state)
    (hlookup : state.waiting.lookup code = some waiter) : isValidCode code = true := by
  obtain ⟨hcode, peer, raw, _, hvalid, hfirst⟩ := hinv.sound.waiting code waiter hlookup
  rw [← hcode, hfirst]
  exact hvalid

theorem stages_goto_self (state : State) (conn : Nat) (stage : Stage) :
    (state.goto conn stage).stages conn = stage := by
  change Function.update state.stages conn stage conn = stage
  rw [Function.update_self]

theorem serve_accept {peer : SocketAddr} (hstage : serving.state.stages conn = .absent)
    (hfree : serving.held.length < maxConcurrent) :
    serve maxConcurrent ttl serving (.connection conn (.accept peer)) =
      some ⟨serving.state.goto conn (.reading peer), conn :: serving.held⟩ := by
  have hstep : HandleConnection.step ttl serving.state (.connection conn (.accept peer)) =
      some (serving.state.goto conn (.reading peer)) := step_of_advance hstage rfl
  change (if serving.held.length < maxConcurrent then _ else none) = _
  rw [if_pos hfree, hstep]
  rfl

theorem readFirst_of_valid {peer : SocketAddr} {request : RegisterRequest}
    (hversion : request.protocolVersion = protocolVersion)
    (hvalid : isValidCode request.code = true) :
    state.readFirst conn peer (.message (.register request)) =
      (state.record (.registered conn peer request)).goto conn (.looking peer request) := by
  dsimp only [State.readFirst]
  rw [if_neg (not_not_intro hversion), hvalid]
  rfl

/-- With a free permit, a live waiter can be taken. -/
theorem takable_of_free (haccounted : Accounted maxConcurrent serving)
    (hinv : Pairing.Inv serving.state) (hlookup : serving.state.waiting.lookup code = some waiter)
    (hlive : now < waiter.expiresAt) (hfree : serving.held.length < maxConcurrent) :
    Takable maxConcurrent ttl serving code waiter now := by
  rintro peer request hversion rfl
  obtain ⟨conn, hfresh⟩ := haccounted.fresh
  have hstage := hfresh conn le_rfl
  have hvalid := valid_of_lookup hinv hlookup
  let accepted := serving.state.goto conn (.reading peer)
  let looking := (accepted.record (.registered conn peer request)).goto conn (.looking peer request)
  have hread : HandleConnection.step ttl accepted
      (.connection conn (.frame (.message (.register request)))) = some looking :=
    step_of_advance (stages_goto_self _ _ _) (congrArg some (readFirst_of_valid hversion hvalid))
  have hfound : (unexpired now looking.waiting).lookup request.code = some waiter :=
    lookup_unexpired.mpr ⟨hlookup, hlive⟩
  let taken := State.goto { looking.sweep now with
    waiting := (unexpired now looking.waiting).erase request.code } conn
      (.pairing (stamp peer request) waiter)
  have htake : HandleConnection.step ttl looking (.connection conn (.lookUp now)) = some taken :=
    step_of_advance (stages_goto_self _ _ _) (congrArg some (lookUp_of_some hfound))
  have hrun : ∃ held, run maxConcurrent ttl serving (calls conn peer request now) =
      some ⟨taken, held⟩ := by
    unfold run calls
    rw [Foundation.Run.run_cons_of_step (serve_accept hstage hfree),
      Foundation.Run.run_cons_of_step (serve_of_step (by rintro _ _ ⟨⟩) hread),
      Foundation.Run.run_cons_of_step (serve_of_step (by rintro _ _ ⟨⟩) htake), Foundation.Run.run_nil]
    exact ⟨_, rfl⟩
  obtain ⟨held, hrun⟩ := hrun
  exact ⟨conn, ⟨taken, held⟩, hstage, hrun, stages_goto_self _ _ _⟩

/-- Handlers that all wait can only be timed out. -/
theorem timeout_of_serve (haccounted : Accounted maxConcurrent serving)
    (hfull : serving.held.length = maxConcurrent)
    (hwaiting : ∀ conn ∈ serving.held, (∃ request, serving.state.stages conn = .waiting request) ∧
      serving.state.channels conn = .opened) {event : Event}
    (hserve : serve maxConcurrent ttl serving event = some next) :
    (∃ conn ∈ serving.held, event = .connection conn .timeout) ∨ ∃ other, event = .relay other := by
  obtain ⟨hstep, ⟨conn, peer, rfl, hfree, _⟩ | ⟨hother, _⟩⟩ := serve_cases hserve
  · exact absurd hfull hfree.ne
  · cases event with
    | relay event => exact .inr ⟨event, rfl⟩
    | connection conn input =>
        have hflight := inFlight_of_step (fun peer hinput => hother conn peer (hinput ▸ rfl)) hstep
        have hmem := (haccounted.inFlight conn).mpr hflight
        obtain ⟨⟨request, hstage⟩, hchannel⟩ := hwaiting conn hmem
        change serving.state.advance ttl conn (serving.state.stages conn) input = _ at hstep
        rw [hstage] at hstep
        cases input with
        | timeout => exact .inl ⟨conn, hmem, rfl⟩
        | wake =>
            simp only [State.advance, hchannel] at hstep
            cases hstep
        | accept _ | frame _ | lookUp _ | pair _ _ | register _ | written | failed | notify
        | cleanUp => cases hstep

/-! ## Every run -/

/-- Two first peers, each with a code of its own. -/
def twoFirstPeers : List Event :=
  arrive 1 (registration 1 1 false) 0 ++ [.connection 1 (.register 0)] ++
    arrive 2 { registration 2 2 false with code := ['X', 'Y', 'Z', '9'] } 0 ++
    [.connection 2 (.register 0)]

end P2PFileTransfer.Server.Permits
