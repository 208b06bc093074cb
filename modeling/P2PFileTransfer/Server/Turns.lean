import P2PFileTransfer.Server.HandleConnection

/-!
# What one step of the server does

Every step is one of a fixed number of turns of a connection, or an event of the relay.
Below, each of them is stated with what it found and what it left.
-/

namespace P2PFileTransfer.Server.Turns

open P2PFileTransfer.Foundation.Tables
open P2PFileTransfer.Session.Rendezvous (SocketAddr)
open P2PFileTransfer.Server.Relay (SessionToken RelayState)
open P2PFileTransfer.Server.HandleConnection

inductive Turned (ttl : Nat) (state : State) : Event → State → Prop where
  | accepted {conn : Nat} {peer : SocketAddr} (hstage : state.stages conn = .absent) :
      Turned ttl state (.connection conn (.accept peer)) (state.goto conn (.reading peer))
  | unread {conn : Nat} {peer : SocketAddr} {frame : FirstFrame} {stage : Stage}
      (hstage : state.stages conn = .reading peer)
      (hnext : stage = .done ∨ ∃ reason, stage = .rejecting reason none) :
      Turned ttl state (.connection conn (.frame frame)) (state.goto conn stage)
  | refused {conn : Nat} {peer : SocketAddr} {request : RegisterRequest} {reason : String}
      (hstage : state.stages conn = .reading peer) :
      Turned ttl state (.connection conn (.frame (.message (.register request))))
        ((state.record (.registered conn peer request)).goto conn (.rejecting reason none))
  | admitted {conn : Nat} {peer : SocketAddr} {request : RegisterRequest}
      (hstage : state.stages conn = .reading peer) (hvalid : isValidCode request.code = true) :
      Turned ttl state (.connection conn (.frame (.message (.register request))))
        ((state.record (.registered conn peer request)).goto conn (.looking peer request))
  | took {conn now : Nat} {peer : SocketAddr} {request : RegisterRequest} {waiter : Waiter}
      (hstage : state.stages conn = .looking peer request)
      (hlookup : (unexpired now state.waiting).lookup request.code = some waiter) :
      Turned ttl state (.connection conn (.lookUp now))
        ({ state.sweep now with
          waiting := (unexpired now state.waiting).erase request.code }.goto conn
            (.pairing (stamp peer request) waiter))
  | missed {conn now : Nat} {peer : SocketAddr} {request : RegisterRequest}
      (hstage : state.stages conn = .looking peer request)
      (hlookup : (unexpired now state.waiting).lookup request.code = none) :
      Turned ttl state (.connection conn (.lookUp now))
        ((state.sweep now).goto conn (.registering (stamp peer request)))
  | pairedDirect {conn now : Nat} {request : RegisterRequest} {waiter : Waiter}
      {token : SessionToken} (hstage : state.stages conn = .pairing request waiter) :
      Turned ttl state (.connection conn (.pair token now)) (state.direct conn request waiter)
  | pairedRelay {conn now : Nat} {request : RegisterRequest} {waiter : Waiter}
      {token : SessionToken} {relayAddr : SocketAddr} {reserved : RelayState}
      (hstage : state.stages conn = .pairing request waiter)
      (hne : waiter.first.certFingerprint ≠ request.certFingerprint) :
      Turned ttl state (.connection conn (.pair token now))
        ((({ state with relay := some (relayAddr, reserved) }.record
          (.reserved token waiter.first.certFingerprint request.certFingerprint)).record
          (.paired conn waiter.notify (.relay relayAddr token))).goto conn
          (.delivering waiter
            (.relayMatch relayAddr token waiter.first.certFingerprint waiter.first.deviceId)
            (.relay token relayAddr ⟨request.certFingerprint, request.deviceId⟩)))
  | relayRefused {conn now : Nat} {request : RegisterRequest} {waiter : Waiter}
      {token : SessionToken} {reason : String} (hstage : state.stages conn = .pairing request waiter) :
      Turned ttl state (.connection conn (.pair token now))
        (state.goto conn (.rejecting reason (some waiter)))
  | delivered {conn : Nat} {waiter : Waiter} {message : Message} {payload : NotifyPayload}
      (hstage : state.stages conn = .delivering waiter message payload) :
      Turned ttl state (.connection conn .written)
        ((state.record (.sent conn message)).goto conn (.notifying waiter payload))
  | undelivered {conn : Nat} {waiter : Waiter} {message : Message} {payload : NotifyPayload}
      (hstage : state.stages conn = .delivering waiter message payload) :
      Turned ttl state (.connection conn .failed)
        (((state.drop waiter).record (.broken conn)).goto conn .done)
  | notified {conn : Nat} {waiter : Waiter} {payload : NotifyPayload}
      (hstage : state.stages conn = .notifying waiter payload) :
      Turned ttl state (.connection conn .notify) ((state.notify waiter payload).goto conn .done)
  | collided {conn now : Nat} {request : RegisterRequest} {reason : String}
      (hstage : state.stages conn = .registering request) :
      Turned ttl state (.connection conn (.register now))
        (state.goto conn (.rejecting reason none))
  | installed {conn now : Nat} {request : RegisterRequest}
      (hstage : state.stages conn = .registering request)
      (hfree : state.waiting.lookup request.code = none) :
      Turned ttl state (.connection conn (.register now))
        ({ state with
          waiting := state.waiting.insert request.code
            (Waiter.mk request conn (now + ttl)) }.goto conn (.waiting request))
  | woken {conn : Nat} {request : RegisterRequest} {payload : NotifyPayload}
      (hstage : state.stages conn = .waiting request)
      (hchannel : state.channels conn = .holds payload) :
      Turned ttl state (.connection conn .wake)
        (state.goto conn (.cleaning request (some payload)))
  | bereft {conn : Nat} {request : RegisterRequest} (hstage : state.stages conn = .waiting request)
      (hchannel : state.channels conn = .closed) :
      Turned ttl state (.connection conn .wake) (state.goto conn (.cleaning request none))
  | timedOut {conn : Nat} {request : RegisterRequest} (hstage : state.stages conn = .waiting request)
      (hchannel : state.channels conn = .opened) :
      Turned ttl state (.connection conn .timeout)
        ({ state with channels := Function.update state.channels conn .closed }.goto conn
          (.cleaning request none))
  | cleaned {conn : Nat} {request : RegisterRequest} {outcome : Option NotifyPayload}
      (hstage : state.stages conn = .cleaning request outcome) :
      Turned ttl state (.connection conn .cleanUp)
        ((state.cleanUp request).goto conn (.answering (outcomeMessage outcome)))
  | answered {conn : Nat} {message : Message} (hstage : state.stages conn = .answering message) :
      Turned ttl state (.connection conn .written)
        ((state.record (.sent conn message)).goto conn .done)
  | unanswered {conn : Nat} {message : Message} (hstage : state.stages conn = .answering message) :
      Turned ttl state (.connection conn .failed) ((state.record (.broken conn)).goto conn .done)
  | turnedAway {conn : Nat} {reason : String} {held : Option Waiter}
      (hstage : state.stages conn = .rejecting reason held) :
      Turned ttl state (.connection conn .written)
        (((state.dropHeld held).record (.sent conn (.rejected reason))).goto conn .done)
  | cutOff {conn : Nat} {reason : String} {held : Option Waiter}
      (hstage : state.stages conn = .rejecting reason held) :
      Turned ttl state (.connection conn .failed)
        (((state.dropHeld held).record (.broken conn)).goto conn .done)
  | relayed {event : Relay.Event} {relay : Option (SocketAddr × RelayState)} :
      Turned ttl state (.relay event) { state with relay := relay }

variable {ttl conn now : Nat} {state next : State}

theorem turned_readFirst {peer : SocketAddr} {frame : FirstFrame}
    (hstage : state.stages conn = .reading peer) :
    Turned ttl state (.connection conn (.frame frame)) (state.readFirst conn peer frame) := by
  cases frame with
  | undecodable => exact .unread hstage (.inl rfl)
  | silent => exact .unread hstage (.inl rfl)
  | message message =>
      cases message with
      | matched _ _ _ => exact .unread hstage (.inr ⟨_, rfl⟩)
      | relayMatch _ _ _ _ => exact .unread hstage (.inr ⟨_, rfl⟩)
      | expired => exact .unread hstage (.inr ⟨_, rfl⟩)
      | rejected _ => exact .unread hstage (.inr ⟨_, rfl⟩)
      | register request =>
          dsimp only [State.readFirst]
          split
          · exact .refused hstage
          · split
            · exact .refused hstage
            · rename_i hvalid
              exact .admitted hstage (Bool.of_not_eq_false hvalid)

theorem turned_lookUp {peer : SocketAddr} {request : RegisterRequest}
    (hstage : state.stages conn = .looking peer request) :
    Turned ttl state (.connection conn (.lookUp now)) (state.lookUp conn peer request now) := by
  dsimp only [State.lookUp]
  split
  · rename_i waiter hlookup
    exact .took hstage hlookup
  · rename_i hlookup
    exact .missed hstage hlookup

theorem turned_pair {request : RegisterRequest} {waiter : Waiter} {token : SessionToken}
    (hstage : state.stages conn = .pairing request waiter) :
    Turned ttl state (.connection conn (.pair token now))
      (state.pair conn request waiter token now) := by
  unfold State.pair
  split
  · split
    · rename_i relayAddr relay hrelay
      rw [RelayState.reserve]
      split
      · rename_i error hreserve
        exact .relayRefused hstage
      · rename_i reserved hreserve
        by_cases heq : waiter.first.certFingerprint = request.certFingerprint
        · rw [if_pos heq] at hreserve
          cases hreserve
        · exact .pairedRelay hstage heq
    · exact .pairedDirect hstage
  · exact .pairedDirect hstage

theorem turned_register {request : RegisterRequest}
    (hstage : state.stages conn = .registering request) :
    Turned ttl state (.connection conn (.register now))
      (state.register ttl conn request now) := by
  unfold State.register
  split
  · exact .collided hstage
  · rename_i hfree
    exact .installed hstage hfree

theorem turned_of_step {event : Event} (hstep : step ttl state event = some next) :
    Turned ttl state event next := by
  cases event with
  | relay event =>
      cases event with
      | reserve _ _ _ _ => cases hstep
      | datagram _ _ _ _ =>
          obtain ⟨relay, _, rfl⟩ := Option.map_eq_some_iff.mp hstep
          exact .relayed
      | sweep _ =>
          obtain ⟨relay, _, rfl⟩ := Option.map_eq_some_iff.mp hstep
          exact .relayed
  | connection conn input =>
      change state.advance ttl conn (state.stages conn) input = some next at hstep
      unfold State.advance at hstep
      split at hstep
      · rename_i hstage
        cases hstep
        exact .accepted hstage
      · rename_i hstage
        cases hstep
        exact turned_readFirst hstage
      · rename_i hstage
        cases hstep
        exact turned_lookUp hstage
      · rename_i hstage
        cases hstep
        exact turned_pair hstage
      · rename_i hstage
        cases hstep
        exact .delivered hstage
      · rename_i hstage
        cases hstep
        exact .undelivered hstage
      · rename_i hstage
        cases hstep
        exact .notified hstage
      · rename_i hstage
        cases hstep
        exact turned_register hstage
      · rename_i hstage
        split at hstep
        · cases hstep
        · rename_i hchannel
          cases hstep
          exact .woken hstage hchannel
        · rename_i hchannel
          cases hstep
          exact .bereft hstage hchannel
      · rename_i hstage
        split at hstep
        · rename_i hchannel
          cases hstep
          exact .timedOut hstage hchannel
        · cases hstep
        · cases hstep
      · rename_i hstage
        cases hstep
        exact .cleaned hstage
      · rename_i hstage
        cases hstep
        exact .answered hstage
      · rename_i hstage
        cases hstep
        exact .unanswered hstage
      · rename_i hstage
        cases hstep
        exact .turnedAway hstage
      · rename_i hstage
        cases hstep
        exact .cutOff hstage
      · cases hstep

/-! ## What a step leaves alone -/

variable {waiter : Waiter} {waiters : List Waiter} {request : RegisterRequest}
  {payload : NotifyPayload}

@[simp]
theorem stages_foldl_drop (waiters : List Waiter) (state : State) :
    (waiters.foldl State.drop state).stages = state.stages := by
  induction waiters generalizing state with
  | nil => rfl
  | cons waiter rest ih => exact ih (state.drop waiter)

@[simp]
theorem log_foldl_drop (waiters : List Waiter) (state : State) :
    (waiters.foldl State.drop state).log = state.log := by
  induction waiters generalizing state with
  | nil => rfl
  | cons waiter rest ih => exact ih (state.drop waiter)

theorem channels_drop (state : State) (waiter : Waiter) : (state.drop waiter).channels =
    Function.update state.channels waiter.notify (state.channels waiter.notify).close := rfl

/-- Dropping a sender takes nothing out of its channel. -/
theorem holds_drop (hholds : (state.drop waiter).channels conn = .holds payload) :
    state.channels conn = .holds payload := by
  by_cases heq : conn = waiter.notify
  · subst heq
    rw [channels_drop, Function.update_self] at hholds
    cases hchannel : state.channels waiter.notify with
    | opened | closed =>
        rw [hchannel] at hholds
        cases hholds
    | holds other =>
        rw [hchannel] at hholds
        exact hholds
  · rw [channels_drop, Function.update_of_ne heq] at hholds
    exact hholds

theorem holds_foldl_drop
    (hholds : (waiters.foldl State.drop state).channels conn = .holds payload) :
    state.channels conn = .holds payload := by
  induction waiters generalizing state with
  | nil => exact hholds
  | cons waiter rest ih => exact holds_drop (ih hholds)

theorem holds_dropHeld {held : Option Waiter}
    (hholds : (state.dropHeld held).channels conn = .holds payload) :
    state.channels conn = .holds payload := by
  cases held with
  | none => exact hholds
  | some waiter => exact holds_drop hholds

theorem log_dropHeld (state : State) (held : Option Waiter) :
    (state.dropHeld held).log = state.log := by
  cases held <;> rfl

theorem stages_dropHeld (state : State) (held : Option Waiter) :
    (state.dropHeld held).stages = state.stages := by
  cases held <;> rfl

theorem waiting_dropHeld (state : State) (held : Option Waiter) :
    (state.dropHeld held).waiting = state.waiting := by
  cases held <;> rfl

/-- A cleanup finds nothing to remove, or a waiter with its own device. -/
theorem cleanUp_cases (state : State) (request : RegisterRequest) :
    state.cleanUp request = state ∨
      ∃ waiter, state.waiting.lookup request.code = some waiter ∧
        waiter.first.deviceId = request.deviceId ∧
        state.cleanUp request =
          { state.drop waiter with waiting := state.waiting.erase request.code } := by
  unfold State.cleanUp
  split
  · rename_i waiter hlookup
    split
    · rename_i hdevice
      exact .inr ⟨waiter, hlookup, hdevice, rfl⟩
    · exact .inl rfl
  · exact .inl rfl

/-- A cleanup only ever removes one entry. -/
theorem lookup_cleanUp {code : Code}
    (hlookup : (state.cleanUp request).waiting.lookup code = some waiter) :
    state.waiting.lookup code = some waiter := by
  unfold State.cleanUp at hlookup
  split at hlookup
  · split at hlookup
    · change (state.waiting.erase request.code).lookup code = some waiter at hlookup
      rw [lookup_erase_ite] at hlookup
      split at hlookup
      · cases hlookup
      · exact hlookup
    · exact hlookup
  · exact hlookup

theorem stages_cleanUp (state : State) (request : RegisterRequest) :
    (state.cleanUp request).stages = state.stages := by
  unfold State.cleanUp
  split
  · split <;> rfl
  · rfl

theorem log_cleanUp (state : State) (request : RegisterRequest) :
    (state.cleanUp request).log = state.log := by
  unfold State.cleanUp
  split
  · split <;> rfl
  · rfl

theorem holds_cleanUp (hholds : (state.cleanUp request).channels conn = .holds payload) :
    state.channels conn = .holds payload := by
  unfold State.cleanUp at hholds
  split at hholds
  · split at hholds
    · exact holds_drop hholds
    · exact hholds
  · exact hholds

theorem stages_notify (state : State) (waiter : Waiter) (payload : NotifyPayload) :
    (state.notify waiter payload).stages = state.stages := by
  unfold State.notify
  split <;> rfl

theorem log_notify (state : State) (waiter : Waiter) (payload : NotifyPayload) :
    (state.notify waiter payload).log = state.log := by
  unfold State.notify
  split <;> rfl

theorem waiting_notify (state : State) (waiter : Waiter) (payload : NotifyPayload) :
    (state.notify waiter payload).waiting = state.waiting := by
  unfold State.notify
  split <;> rfl

theorem lookup_unexpired {now : Nat} {waiting : Table Code Waiter} {code : Code} :
    (unexpired now waiting).lookup code = some waiter ↔
      waiting.lookup code = some waiter ∧ now < waiter.expiresAt := by
  rw [unexpired, lookup_retain, Option.filter_eq_some_iff]
  exact and_congr_right fun _ => decide_eq_true_iff

theorem lookup_of_erase {waiting : Table Code Waiter} {key code : Code}
    (hlookup : (waiting.erase key).lookup code = some waiter) :
    waiting.lookup code = some waiter ∧ code ≠ key := by
  rw [lookup_erase_ite] at hlookup
  split at hlookup
  · cases hlookup
  · rename_i hne
    exact ⟨hlookup, hne⟩

/-- A turn of one connection leaves the others where they are. -/
theorem stages_of_turned {input : Input} {other : Nat}
    (hturned : Turned ttl state (.connection conn input) next) (hne : other ≠ conn) :
    next.stages other = state.stages other := by
  cases hturned with
  | took _ _ | missed _ _ =>
      exact (Function.update_of_ne hne _ _).trans (congrFun (stages_foldl_drop _ _) other)
  | turnedAway _ | cutOff _ =>
      exact (Function.update_of_ne hne _ _).trans (congrFun (stages_dropHeld _ _) other)
  | notified _ => exact (Function.update_of_ne hne _ _).trans (congrFun (stages_notify _ _ _) other)
  | cleaned _ => exact (Function.update_of_ne hne _ _).trans (congrFun (stages_cleanUp _ _) other)
  | accepted _ | unread _ _ | refused _ | admitted _ _ | pairedDirect _ | pairedRelay _ _
  | relayRefused _ | delivered _ | undelivered _ | collided _ | installed _ _ | woken _ _
  | bereft _ _ | timedOut _ _ | answered _ | unanswered _ => exact Function.update_of_ne hne _ _

/-! ## Stages and log -/

/-- The stage a connection leaves, the one it comes to, and what is logged. -/
inductive Move (conn : Nat) : Stage → Stage → List Entry → Prop where
  | accepted (peer : SocketAddr) : Move conn .absent (.reading peer) []
  | closed (peer : SocketAddr) : Move conn (.reading peer) .done []
  | foreign (peer : SocketAddr) (reason : String) :
      Move conn (.reading peer) (.rejecting reason none) []
  | refused (peer : SocketAddr) (request : RegisterRequest) (reason : String) :
      Move conn (.reading peer) (.rejecting reason none) [.registered conn peer request]
  | admitted (peer : SocketAddr) (request : RegisterRequest) :
      Move conn (.reading peer) (.looking peer request) [.registered conn peer request]
  | took (peer : SocketAddr) (request : RegisterRequest) (waiter : Waiter) :
      Move conn (.looking peer request) (.pairing (stamp peer request) waiter) []
  | missed (peer : SocketAddr) (request : RegisterRequest) :
      Move conn (.looking peer request) (.registering (stamp peer request)) []
  | pairedDirect (request : RegisterRequest) (waiter : Waiter) (message : Message)
      (payload : NotifyPayload) :
      Move conn (.pairing request waiter) (.delivering waiter message payload)
        [.paired conn waiter.notify .direct]
  | pairedRelay (request : RegisterRequest) (waiter : Waiter) (message : Message)
      (payload : NotifyPayload) (relayAddr : SocketAddr) (token : SessionToken)
      (hne : waiter.first.certFingerprint ≠ request.certFingerprint) :
      Move conn (.pairing request waiter) (.delivering waiter message payload)
        [.reserved token waiter.first.certFingerprint request.certFingerprint,
          .paired conn waiter.notify (.relay relayAddr token)]
  | relayRefused (request : RegisterRequest) (waiter : Waiter) (reason : String) :
      Move conn (.pairing request waiter) (.rejecting reason (some waiter)) []
  | delivered (waiter : Waiter) (message : Message) (payload : NotifyPayload) :
      Move conn (.delivering waiter message payload) (.notifying waiter payload)
        [.sent conn message]
  | undelivered (waiter : Waiter) (message : Message) (payload : NotifyPayload) :
      Move conn (.delivering waiter message payload) .done [.broken conn]
  | notified (waiter : Waiter) (payload : NotifyPayload) :
      Move conn (.notifying waiter payload) .done []
  | collided (request : RegisterRequest) (reason : String) :
      Move conn (.registering request) (.rejecting reason none) []
  | installed (request : RegisterRequest) : Move conn (.registering request) (.waiting request) []
  | woken (request : RegisterRequest) (outcome : Option NotifyPayload) :
      Move conn (.waiting request) (.cleaning request outcome) []
  | cleaned (request : RegisterRequest) (outcome : Option NotifyPayload) :
      Move conn (.cleaning request outcome) (.answering (outcomeMessage outcome)) []
  | answered (message : Message) : Move conn (.answering message) .done [.sent conn message]
  | unanswered (message : Message) : Move conn (.answering message) .done [.broken conn]
  | turnedAway (reason : String) (held : Option Waiter) :
      Move conn (.rejecting reason held) .done [.sent conn (.rejected reason)]
  | cutOff (reason : String) (held : Option Waiter) :
      Move conn (.rejecting reason held) .done [.broken conn]

/-- A pair is made by its second connection, with the waiter that it holds. -/
theorem paired_of_move {conn second first : Nat} {plan : Plan} {before stage : Stage}
    {entries : List Entry} (hmove : Move conn before stage entries)
    (hmem : .paired second first plan ∈ entries) :
    second = conn ∧ ∃ request waiter message payload, before = .pairing request waiter ∧
      stage = .delivering waiter message payload ∧ waiter.notify = first := by
  cases hmove with
  | pairedDirect request waiter message payload =>
      cases List.mem_singleton.mp hmem
      exact ⟨rfl, request, waiter, message, payload, rfl, rfl, rfl⟩
  | pairedRelay request waiter message payload relayAddr token hne =>
      rcases List.mem_cons.mp hmem with hreserved | hpaired
      · cases hreserved
      · cases List.mem_singleton.mp hpaired
        exact ⟨rfl, request, waiter, message, payload, rfl, rfl, rfl⟩
  | refused _ _ _ | admitted _ _ | delivered _ _ _ | undelivered _ _ _ | answered _
  | unanswered _ | turnedAway _ _ | cutOff _ _ => cases List.mem_singleton.mp hmem
  | accepted _ | closed _ | foreign _ _ | took _ _ _ | missed _ _ | relayRefused _ _ _
  | notified _ _ | collided _ _ | installed _ | woken _ _ | cleaned _ _ =>
      exact absurd hmem List.not_mem_nil

/-- Only the relay moved, or one connection did. -/
def Moves (state next : State) : Prop :=
  (next.stages = state.stages ∧ next.log = state.log) ∨
    ∃ conn stage entries, Move conn (state.stages conn) stage entries ∧
      next.stages = Function.update state.stages conn stage ∧ next.log = state.log ++ entries

theorem moves_of_move {conn : Nat} {before stage : Stage} {entries : List Entry}
    (hmove : Move conn before stage entries) (hstage : state.stages conn = before)
    (hstages : next.stages = Function.update state.stages conn stage)
    (hlog : next.log = state.log ++ entries) : Moves state next := by
  rw [← hstage] at hmove
  exact .inr ⟨conn, stage, entries, hmove, hstages, hlog⟩

theorem Moves.log_subset (hmoves : Moves state next) : state.log ⊆ next.log := by
  rcases hmoves with ⟨_, hlog⟩ | ⟨_, _, entries, _, _, hlog⟩ <;> rw [hlog]
  · exact List.Subset.refl _
  · exact List.subset_append_left _ _

theorem moves_finish {conn : Nat} {before : Stage} {held : Option Waiter} {entry : Entry}
    (hmove : Move conn before .done [entry]) (hstage : state.stages conn = before) :
    Moves state (((state.dropHeld held).record entry).goto conn .done) := by
  apply moves_of_move hmove hstage
  · change Function.update (state.dropHeld held).stages conn .done = _
    rw [stages_dropHeld]
  · change (state.dropHeld held).log ++ [entry] = _
    rw [log_dropHeld]

theorem moves_of_turned {event : Event} (hturned : Turned ttl state event next) :
    Moves state next := by
  have hsame : state.log = state.log ++ [] := (List.append_nil _).symm
  cases hturned with
  | accepted hstage => exact moves_of_move (.accepted _) hstage rfl hsame
  | unread hstage hnext =>
      rcases hnext with rfl | ⟨reason, rfl⟩
      · exact moves_of_move (.closed _) hstage rfl hsame
      · exact moves_of_move (.foreign _ _) hstage rfl hsame
  | refused hstage => exact moves_of_move (.refused _ _ _) hstage rfl rfl
  | admitted hstage hvalid => exact moves_of_move (.admitted _ _) hstage rfl rfl
  | took hstage hlookup =>
      rename_i conn now peer request waiter
      refine moves_of_move (.took peer request waiter) hstage ?_ ((log_foldl_drop _ _).trans hsame)
      exact congrArg (fun stages => Function.update stages _ _) (stages_foldl_drop _ _)
  | missed hstage hlookup =>
      rename_i conn now peer request
      refine moves_of_move (.missed peer request) hstage ?_ ((log_foldl_drop _ _).trans hsame)
      exact congrArg (fun stages => Function.update stages _ _) (stages_foldl_drop _ _)
  | pairedDirect hstage => exact moves_of_move (.pairedDirect _ _ _ _) hstage rfl rfl
  | pairedRelay hstage hne =>
      exact moves_of_move (.pairedRelay _ _ _ _ _ _ hne) hstage rfl (List.append_assoc _ _ _)
  | relayRefused hstage => exact moves_of_move (.relayRefused _ _ _) hstage rfl hsame
  | delivered hstage => exact moves_of_move (.delivered _ _ _) hstage rfl rfl
  | undelivered hstage => exact @moves_finish _ _ _ (some _) _ (.undelivered _ _ _) hstage
  | notified hstage =>
      rename_i conn waiter payload
      refine moves_of_move (.notified waiter payload) hstage ?_ ((log_notify _ _ _).trans hsame)
      exact congrArg (fun stages => Function.update stages _ _) (stages_notify _ _ _)
  | collided hstage => exact moves_of_move (.collided _ _) hstage rfl hsame
  | installed hstage hfree => exact moves_of_move (.installed _) hstage rfl hsame
  | woken hstage hchannel => exact moves_of_move (.woken _ _) hstage rfl hsame
  | bereft hstage hchannel => exact moves_of_move (.woken _ _) hstage rfl hsame
  | timedOut hstage hchannel => exact moves_of_move (.woken _ _) hstage rfl hsame
  | cleaned hstage =>
      rename_i conn request outcome
      refine moves_of_move (.cleaned request outcome) hstage ?_ ((log_cleanUp _ _).trans hsame)
      exact congrArg (fun stages => Function.update stages _ _) (stages_cleanUp _ _)
  | answered hstage => exact moves_of_move (.answered _) hstage rfl rfl
  | unanswered hstage => exact moves_of_move (.unanswered _) hstage rfl rfl
  | turnedAway hstage => exact moves_finish (.turnedAway _ _) hstage
  | cutOff hstage => exact moves_finish (.cutOff _ _) hstage
  | relayed => exact .inl ⟨rfl, rfl⟩

end P2PFileTransfer.Server.Turns
