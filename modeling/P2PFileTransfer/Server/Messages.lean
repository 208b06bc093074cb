import P2PFileTransfer.Server.Turns

/-!
# What the messages of the server say

Whatever travels between two connections, in the table of waiters one way and through a
oneshot channel the other way, is what its owner registered.  A match that was sent
therefore describes the other connection of a pair that was made before.
-/

namespace P2PFileTransfer.Server.Messages

open P2PFileTransfer.Foundation.Tables
open P2PFileTransfer.Session.Rendezvous (SocketAddr)
open P2PFileTransfer.Server.HandleConnection
open P2PFileTransfer.Server.Turns

/-- The connection registered this request under a valid code. -/
def Knows (log : List Entry) (conn : Nat) (request : RegisterRequest) : Prop :=
  ∃ peer raw, .registered conn peer raw ∈ log ∧ isValidCode raw.code = true ∧
    request = stamp peer raw

/-- The match that names `peer`. -/
def describe (plan : Plan) (peer : RegisterRequest) : Message :=
  match plan with
  | .direct => .matched peer.publicEndpoint peer.certFingerprint peer.deviceId
  | .relay relayEndpoint token =>
      .relayMatch relayEndpoint token peer.certFingerprint peer.deviceId

/-- What the second peer of a pair tells the first. -/
def payloadOf (plan : Plan) (second : RegisterRequest) : NotifyPayload :=
  match plan with
  | .direct => .direct second
  | .relay relayEndpoint token =>
      .relay token relayEndpoint ⟨second.certFingerprint, second.deviceId⟩

theorem message_payloadOf (plan : Plan) (second : RegisterRequest) :
    (payloadOf plan second).message = describe plan second := by
  cases plan <;> rfl

/-- A payload for `conn`, from a second peer that was sent its match. -/
def Carried (log : List Entry) (conn : Nat) (payload : NotifyPayload) : Prop :=
  ∃ second plan request own, .paired second conn plan ∈ log ∧ Knows log second request ∧
    Knows log conn own ∧ payload = payloadOf plan request ∧ .sent second (describe plan own) ∈ log

/-- A match for `conn` that names the other connection of its pair. -/
def Matched (log : List Entry) (conn : Nat) (message : Message) : Prop :=
  ∃ other plan request, (.paired conn other plan ∈ log ∨ .paired other conn plan ∈ log) ∧
    Knows log other request ∧ message = describe plan request

def StageSound (log : List Entry) (conn : Nat) : Stage → Prop
  | .looking peer request => .registered conn peer request ∈ log ∧ isValidCode request.code = true
  | .pairing request waiter =>
      Knows log conn request ∧ Knows log waiter.notify waiter.first ∧
        waiter.first.code = request.code
  | .delivering waiter message payload =>
      ∃ plan request, .paired conn waiter.notify plan ∈ log ∧ Knows log conn request ∧
        Knows log waiter.notify waiter.first ∧ message = describe plan waiter.first ∧
        payload = payloadOf plan request
  | .notifying waiter payload => Carried log waiter.notify payload
  | .registering request | .waiting request => Knows log conn request
  | .cleaning request outcome =>
      Knows log conn request ∧ ∀ payload, outcome = some payload → Carried log conn payload
  | .answering message =>
      message = .expired ∨ ∃ payload, Carried log conn payload ∧ message = payload.message
  | .absent | .reading _ | .rejecting _ _ | .done => True

structure Sound (state : State) : Prop where
  stages : ∀ conn, StageSound state.log conn (state.stages conn)
  waiting : ∀ code waiter, state.waiting.lookup code = some waiter →
    waiter.first.code = code ∧ Knows state.log waiter.notify waiter.first
  channels : ∀ conn payload, state.channels conn = .holds payload → Carried state.log conn payload
  sent : ∀ conn message, .sent conn message ∈ state.log →
    message = .expired ∨ (∃ reason, message = .rejected reason) ∨ Matched state.log conn message

/-! ## Growing logs -/

variable {log longer : List Entry} {conn : Nat} {request : RegisterRequest}
  {payload : NotifyPayload} {message : Message}

theorem Knows.mono (hlog : log ⊆ longer) (hknows : Knows log conn request) :
    Knows longer conn request := by
  obtain ⟨peer, raw, hmem, hvalid, hrequest⟩ := hknows
  exact ⟨peer, raw, hlog hmem, hvalid, hrequest⟩

theorem Carried.mono (hlog : log ⊆ longer) (hcarried : Carried log conn payload) :
    Carried longer conn payload := by
  obtain ⟨second, plan, request, own, hpaired, hsecond, hfirst, hpayload, hsent⟩ := hcarried
  exact ⟨second, plan, request, own, hlog hpaired, hsecond.mono hlog, hfirst.mono hlog, hpayload,
    hlog hsent⟩

theorem Matched.mono (hlog : log ⊆ longer) (hmatched : Matched log conn message) :
    Matched longer conn message := by
  obtain ⟨other, plan, request, hpaired, hknows, hmessage⟩ := hmatched
  refine ⟨other, plan, request, ?_, hknows.mono hlog, hmessage⟩
  rcases hpaired with hpaired | hpaired
  · exact .inl (hlog hpaired)
  · exact .inr (hlog hpaired)

theorem StageSound.mono (hlog : log ⊆ longer) {stage : Stage}
    (hstage : StageSound log conn stage) : StageSound longer conn stage := by
  cases stage with
  | absent | reading _ | rejecting _ _ | done => trivial
  | looking peer request => exact ⟨hlog hstage.1, hstage.2⟩
  | pairing request waiter => exact ⟨hstage.1.mono hlog, hstage.2.1.mono hlog, hstage.2.2⟩
  | delivering waiter message payload =>
      obtain ⟨plan, request, hpaired, hsecond, hfirst, hmessage, hpayload⟩ := hstage
      exact ⟨plan, request, hlog hpaired, hsecond.mono hlog, hfirst.mono hlog, hmessage, hpayload⟩
  | notifying waiter payload => exact Carried.mono hlog hstage
  | registering request | waiting request => exact Knows.mono hlog hstage
  | cleaning request outcome =>
      exact ⟨hstage.1.mono hlog, fun payload hsome => (hstage.2 payload hsome).mono hlog⟩
  | answering message =>
      rcases hstage with hexpired | ⟨payload, hcarried, hmessage⟩
      · exact .inl hexpired
      · exact .inr ⟨payload, hcarried.mono hlog, hmessage⟩

/-- The match that `conn` reads off its channel names the other side. -/
theorem Carried.matched (hcarried : Carried log conn payload) :
    Matched log conn payload.message := by
  obtain ⟨second, plan, request, own, hpaired, hsecond, _, rfl, _⟩ := hcarried
  exact ⟨second, plan, request, .inr hpaired, hsecond, message_payloadOf plan request⟩

/-! ## Every step -/

variable {state next : State} {waiter : Waiter}

theorem sound_start (relay : Option (SocketAddr × Relay.RelayState)) : Sound (start relay) where
  stages := fun _ => trivial
  waiting := by
    intro code waiter hlookup
    cases hlookup
  channels := by
    intro conn payload hholds
    cases hholds
  sent := fun _ _ hmem => absurd hmem List.not_mem_nil

theorem Sound.stage (hsound : Sound state) {conn : Nat} {stage : Stage}
    (hstage : state.stages conn = stage) : StageSound state.log conn stage := by
  rw [← hstage]
  exact hsound.stages conn

/-- A turn that leaves one connection at a sound stage, and adds only sound data. -/
theorem Sound.turn (hsound : Sound state) (conn : Nat) (stage : Stage) (entries : List Entry)
    (hstages : next.stages = Function.update state.stages conn stage)
    (hlog : next.log = state.log ++ entries) (hstage : StageSound next.log conn stage)
    (hwaiting : ∀ code waiter, next.waiting.lookup code = some waiter →
      state.waiting.lookup code = some waiter ∨
        waiter.first.code = code ∧ Knows next.log waiter.notify waiter.first)
    (hchannels : ∀ other payload, next.channels other = .holds payload →
      state.channels other = .holds payload ∨ Carried next.log other payload)
    (hsent : ∀ other message, .sent other message ∈ entries →
      message = .expired ∨ (∃ reason, message = .rejected reason) ∨
        Matched next.log other message) : Sound next := by
  have hsub : state.log ⊆ next.log := by
    rw [hlog]
    exact List.subset_append_left _ _
  constructor
  · intro other
    rw [hstages]
    by_cases heq : other = conn
    · rw [heq, Function.update_self]
      exact hstage
    · rw [Function.update_of_ne heq]
      exact (hsound.stages other).mono hsub
  · intro code waiter hlookup
    rcases hwaiting code waiter hlookup with hold | hnew
    · obtain ⟨hcode, hknows⟩ := hsound.waiting code waiter hold
      exact ⟨hcode, hknows.mono hsub⟩
    · exact hnew
  · intro other payload hholds
    rcases hchannels other payload hholds with hold | hnew
    · exact (hsound.channels other payload hold).mono hsub
    · exact hnew
  · intro other message hmem
    rw [hlog] at hmem
    rcases List.mem_append.mp hmem with hold | hnew
    · rcases hsound.sent other message hold with hexpired | hrejected | hmatched
      · exact .inl hexpired
      · exact .inr (.inl hrejected)
      · exact .inr (.inr (hmatched.mono hsub))
    · exact hsent other message hnew

/-- A turn that only changes the stage of a connection. -/
theorem Sound.goto (hsound : Sound state) {conn : Nat} {stage : Stage}
    (hstage : StageSound state.log conn stage) : Sound (state.goto conn stage) :=
  hsound.turn conn stage [] rfl (List.append_nil _).symm hstage (fun _ _ hlookup => .inl hlookup)
    (fun _ _ hholds => .inl hholds) (fun _ _ hmem => absurd hmem List.not_mem_nil)

/-- A turn that drops a waiter, logs one entry and ends the connection. -/
theorem Sound.finish (hsound : Sound state) (conn : Nat) (held : Option Waiter) {entry : Entry}
    (hsent : ∀ other message, entry = .sent other message → ∃ reason, message = .rejected reason) :
    Sound (((state.dropHeld held).record entry).goto conn .done) := by
  refine hsound.turn conn .done [entry] ?_ ?_ trivial ?_ ?_ ?_
  · change Function.update (state.dropHeld held).stages conn .done = _
    rw [stages_dropHeld]
  · change (state.dropHeld held).log ++ [entry] = _
    rw [log_dropHeld]
  · intro code waiter hlookup
    change (state.dropHeld held).waiting.lookup code = some waiter at hlookup
    rw [waiting_dropHeld] at hlookup
    exact .inl hlookup
  · exact fun other payload hholds => .inl (holds_dropHeld hholds)
  · intro other message hmem
    exact .inr (.inl (hsent other message (List.mem_singleton.mp hmem).symm))

/-- Sending what a connection was going to be sent anyway. -/
theorem Sound.send (hsound : Sound state) {conn : Nat} {stage : Stage} {message : Message}
    (hmessage : message = .expired ∨ Matched state.log conn message)
    (hstage : StageSound (state.log ++ [.sent conn message]) conn stage) :
    Sound ((state.record (.sent conn message)).goto conn stage) := by
  refine hsound.turn conn stage [.sent conn message] rfl rfl hstage
    (fun _ _ hlookup => .inl hlookup) (fun _ _ hholds => .inl hholds) ?_
  intro other sent hmem
  cases List.mem_singleton.mp hmem
  rcases hmessage with hexpired | hmatched
  · exact .inl hexpired
  · exact .inr (.inr (hmatched.mono (List.subset_append_left _ _)))

/-- A pair is made, and agrees on how to meet. -/
theorem Sound.pair (hsound : Sound state) {conn : Nat} {request : RegisterRequest} (plan : Plan)
    {entries : List Entry} (hstage : state.stages conn = .pairing request waiter)
    (hstages : next.stages = Function.update state.stages conn
      (.delivering waiter (describe plan waiter.first) (payloadOf plan request)))
    (hlog : next.log = state.log ++ entries) (hpaired : .paired conn waiter.notify plan ∈ entries)
    (hsent : ∀ other message, .sent other message ∉ entries)
    (hwaiting : next.waiting = state.waiting) (hchannels : next.channels = state.channels) :
    Sound next := by
  have hpairing := hsound.stage hstage
  obtain ⟨hsecond, hfirst, _⟩ := hpairing
  have hsub : state.log ⊆ next.log := by
    rw [hlog]
    exact List.subset_append_left _ _
  refine hsound.turn conn _ entries hstages hlog ?_ ?_ ?_ ?_
  · refine ⟨plan, request, ?_, hsecond.mono hsub, hfirst.mono hsub, rfl, rfl⟩
    rw [hlog]
    exact List.mem_append_right _ hpaired
  · intro code found hfound
    rw [hwaiting] at hfound
    exact .inl hfound
  · intro other payload hholds
    rw [hchannels] at hholds
    exact .inl hholds
  · exact fun other message hmem => absurd hmem (hsent other message)

theorem Sound.notify (hsound : Sound state) {conn : Nat} {payload : NotifyPayload}
    (hcarried : Carried state.log waiter.notify payload) :
    Sound ((state.notify waiter payload).goto conn .done) := by
  unfold State.notify
  split
  · refine hsound.turn conn .done [] rfl (List.append_nil _).symm trivial
      (fun _ _ hlookup => .inl hlookup) ?_ (fun _ _ hmem => absurd hmem List.not_mem_nil)
    intro other found hholds
    by_cases heq : other = waiter.notify
    · subst heq
      change Function.update state.channels waiter.notify (.holds payload) waiter.notify = _ at hholds
      rw [Function.update_self] at hholds
      cases hholds
      exact .inr hcarried
    · change Function.update state.channels waiter.notify (.holds payload) other = _ at hholds
      rw [Function.update_of_ne heq] at hholds
      exact .inl hholds
  · exact hsound.goto trivial

/-- A turn that first drops the waiters whose time is over. -/
theorem Sound.scan (hsound : Sound state) {conn now : Nat} {stage : Stage}
    (hstages : next.stages =
      Function.update ((expired now state.waiting).foldl State.drop state).stages conn stage)
    (hlog : next.log = ((expired now state.waiting).foldl State.drop state).log)
    (hchannels : next.channels = ((expired now state.waiting).foldl State.drop state).channels)
    (hstage : StageSound state.log conn stage)
    (hwaiting : ∀ code found, next.waiting.lookup code = some found →
      state.waiting.lookup code = some found) : Sound next := by
  rw [stages_foldl_drop] at hstages
  rw [log_foldl_drop] at hlog
  refine hsound.turn conn stage [] hstages (hlog.trans (List.append_nil _).symm) ?_
    (fun code found hfound => .inl (hwaiting code found hfound)) ?_
    (fun _ _ hmem => absurd hmem List.not_mem_nil)
  · rw [hlog]
    exact hstage
  · intro other payload hholds
    rw [hchannels] at hholds
    exact .inl (holds_foldl_drop hholds)

theorem Sound.step {ttl : Nat} {event : Event} (hsound : Sound state)
    (hturned : Turned ttl state event next) : Sound next := by
  cases hturned with
  | accepted hstage => exact hsound.goto trivial
  | unread hstage hnext =>
      rcases hnext with rfl | ⟨reason, rfl⟩ <;> exact hsound.goto trivial
  | refused hstage =>
      refine hsound.turn _ _ _ rfl rfl trivial (fun _ _ hlookup => .inl hlookup)
        (fun _ _ hholds => .inl hholds) ?_
      intro other message hmem
      cases List.mem_singleton.mp hmem
  | admitted hstage hvalid =>
      refine hsound.turn _ _ _ rfl rfl ⟨List.mem_append_right _ List.mem_cons_self, hvalid⟩
        (fun _ _ hlookup => .inl hlookup) (fun _ _ hholds => .inl hholds) ?_
      intro other message hmem
      cases List.mem_singleton.mp hmem
  | took hstage hlookup =>
      rename_i conn now peer request waiter
      have hlooking := hsound.stage hstage
      obtain ⟨hcode, hknows⟩ := hsound.waiting _ _ (lookup_unexpired.mp hlookup).1
      refine @Sound.scan _ _ hsound conn now _ rfl rfl rfl
        ⟨⟨peer, request, hlooking.1, hlooking.2, rfl⟩, hknows, hcode⟩ ?_
      exact fun code found hfound => (lookup_unexpired.mp (lookup_of_erase hfound).1).1
  | missed hstage hlookup =>
      rename_i conn now peer request
      have hlooking := hsound.stage hstage
      refine @Sound.scan _ _ hsound conn now _ rfl rfl rfl
        ⟨peer, request, hlooking.1, hlooking.2, rfl⟩ ?_
      exact fun code found hfound => (lookup_unexpired.mp hfound).1
  | pairedDirect hstage =>
      refine hsound.pair .direct hstage rfl rfl List.mem_cons_self ?_ rfl rfl
      intro other message hmem
      cases List.mem_singleton.mp hmem
  | pairedRelay hstage hne =>
      rename_i conn now request waiter token relayAddr reserved
      refine hsound.pair (.relay relayAddr token) hstage rfl (List.append_assoc _ _ _)
        (List.mem_cons_of_mem _ List.mem_cons_self) ?_ rfl rfl
      intro other message hmem
      rcases List.mem_cons.mp hmem with hreserved | hpaired
      · cases hreserved
      · cases List.mem_singleton.mp hpaired
  | relayRefused hstage => exact hsound.goto trivial
  | delivered hstage =>
      rename_i conn waiter message payload
      have hdelivering := hsound.stage hstage
      obtain ⟨plan, request, hpaired, hsecond, hfirst, rfl, rfl⟩ := hdelivering
      refine hsound.send (.inr ⟨waiter.notify, plan, waiter.first, .inl hpaired, hfirst, rfl⟩) ?_
      have hsub := List.subset_append_left state.log [.sent conn (describe plan waiter.first)]
      exact ⟨conn, plan, request, waiter.first, hsub hpaired, hsecond.mono hsub, hfirst.mono hsub, rfl,
        List.mem_append_right _ List.mem_cons_self⟩
  | undelivered hstage =>
      rename_i conn waiter message payload
      exact hsound.finish conn (some waiter) nofun
  | notified hstage =>
      have hnotifying := hsound.stage hstage
      exact hsound.notify hnotifying
  | collided hstage => exact hsound.goto trivial
  | installed hstage hfree =>
      rename_i conn now request
      have hregistering := hsound.stage hstage
      refine hsound.turn conn (.waiting request) [] rfl (List.append_nil _).symm hregistering ?_
        (fun _ _ hholds => .inl hholds) (fun _ _ hmem => absurd hmem List.not_mem_nil)
      intro code found hfound
      change (state.waiting.insert request.code _).lookup code = some found at hfound
      rw [lookup_insert_ite] at hfound
      split at hfound
      · rename_i heq
        cases hfound
        exact .inr ⟨heq.symm, hregistering⟩
      · exact .inl hfound
  | woken hstage hchannel =>
      have hwaiting := hsound.stage hstage
      refine hsound.goto ⟨hwaiting, ?_⟩
      intro payload hsome
      cases hsome
      exact hsound.channels _ _ hchannel
  | bereft hstage hchannel =>
      have hwaiting := hsound.stage hstage
      exact hsound.goto ⟨hwaiting, nofun⟩
  | timedOut hstage hchannel =>
      rename_i conn request
      have hwaiting := hsound.stage hstage
      refine hsound.turn conn (.cleaning request none) [] rfl (List.append_nil _).symm
        ⟨hwaiting, nofun⟩ (fun _ _ hlookup => .inl hlookup) ?_
        (fun _ _ hmem => absurd hmem List.not_mem_nil)
      intro other payload hholds
      change Function.update state.channels conn .closed other = _ at hholds
      refine .inl (before_update (fun channel => channel = Channel.holds payload) ?_ hholds)
      intro hnew
      cases hnew
  | cleaned hstage =>
      rename_i conn request outcome
      have hcleaning := hsound.stage hstage
      refine hsound.turn conn (.answering (outcomeMessage outcome)) [] ?_ ?_ ?_ ?_ ?_
        (fun _ _ hmem => absurd hmem List.not_mem_nil)
      · exact congrArg (fun stages => Function.update stages conn _) (stages_cleanUp _ _)
      · exact (log_cleanUp _ _).trans (List.append_nil _).symm
      · change StageSound (state.cleanUp request).log conn _
        rw [log_cleanUp]
        cases outcome with
        | none => exact .inl rfl
        | some payload => exact .inr ⟨payload, hcleaning.2 payload rfl, rfl⟩
      · exact fun code found hfound => .inl (lookup_cleanUp hfound)
      · exact fun other payload hholds => .inl (holds_cleanUp hholds)
  | answered hstage =>
      have hanswering := hsound.stage hstage
      refine hsound.send ?_ trivial
      rcases hanswering with hexpired | ⟨payload, hcarried, rfl⟩
      · exact .inl hexpired
      · exact .inr hcarried.matched
  | unanswered hstage => exact hsound.finish _ none nofun
  | turnedAway hstage =>
      refine hsound.finish _ _ ?_
      intro other message hentry
      cases hentry
      exact ⟨_, rfl⟩
  | cutOff hstage => exact hsound.finish _ _ nofun
  | relayed => exact ⟨hsound.stages, hsound.waiting, hsound.channels, hsound.sent⟩

end P2PFileTransfer.Server.Messages
