import P2PFileTransfer.Server.Ownership

/-!
# Two connections, one pair

A match describes the one other connection that its receiver is paired with.  What that
one is sent describes the receiver, and the two are to meet in the same way.
-/

namespace P2PFileTransfer.Server.Pairing

open P2PFileTransfer.Core.Protocol (Fingerprint)
open P2PFileTransfer.Session.Rendezvous (SocketAddr)
open P2PFileTransfer.Server.Relay (SessionToken RelayState)
open P2PFileTransfer.Server.HandleConnection
open P2PFileTransfer.Server.Turns
open P2PFileTransfer.Server.Messages
open P2PFileTransfer.Server.Ownership

def IsMatch : Message → Prop
  | .matched _ _ _ | .relayMatch _ _ _ _ => True
  | .register _ | .expired | .rejected _ => False

/-- The two connections are paired, whichever came first. -/
def Pair (log : List Entry) (conn other : Nat) (plan : Plan) : Prop :=
  .paired conn other plan ∈ log ∨ .paired other conn plan ∈ log

/-- A relay session for these two certificates was there before either connection was
sent a match. -/
def ReservedBefore (log : List Entry) (token : SessionToken) (first second : Fingerprint)
    (conn other : Nat) : Prop :=
  ∃ before after, log = before ++ .reserved token first second :: after ∧
    ∀ message, IsMatch message → .sent conn message ∉ before ∧ .sent other message ∉ before

/-- Both sides of a pair registered the same code, and a relay pair has a session for its
two certificates. -/
def Grounded (log : List Entry) : Prop :=
  ∀ second first plan, .paired second first plan ∈ log →
    ∃ request own, Knows log second request ∧ Knows log first own ∧ request.code = own.code ∧
      ∀ relayAddr token, plan = .relay relayAddr token →
        own.certFingerprint ≠ request.certFingerprint ∧
          ReservedBefore log token own.certFingerprint request.certFingerprint second first

variable {log : List Entry} {state next : State}

theorem ReservedBefore.append {token : SessionToken} {first second : Fingerprint} {conn other : Nat}
    (hreserved : ReservedBefore log token first second conn other) (entries : List Entry) :
    ReservedBefore (log ++ entries) token first second conn other := by
  obtain ⟨before, after, rfl, hbefore⟩ := hreserved
  exact ⟨before, after ++ entries, List.append_assoc _ _ _, hbefore⟩

/-- A connection that is in no pair has been sent no match. -/
theorem not_sent_of_unpaired (hsound : Sound state) {conn : Nat}
    (hunpaired : Unpaired state.log conn) {message : Message} (hmatch : IsMatch message) :
    .sent conn message ∉ state.log := by
  intro hmem
  rcases hsound.sent conn message hmem with rfl | ⟨reason, rfl⟩ | hmatched
  · exact hmatch
  · exact hmatch
  · obtain ⟨other, plan, request, hpaired | hpaired, _, _⟩ := hmatched
    · exact (hunpaired _ _ _ hpaired).1 rfl
    · exact (hunpaired _ _ _ hpaired).2 rfl

theorem grounded_append (hgrounded : Grounded log) {entries : List Entry}
    (hentries : ∀ second first plan, .paired second first plan ∈ entries →
      ∃ request own, Knows log second request ∧ Knows log first own ∧ request.code = own.code ∧
        ∀ relayAddr token, plan = .relay relayAddr token →
          own.certFingerprint ≠ request.certFingerprint ∧
            ReservedBefore (log ++ entries) token own.certFingerprint request.certFingerprint
              second first) : Grounded (log ++ entries) := by
  have hsub : log ⊆ log ++ entries := List.subset_append_left _ _
  intro second first plan hmem
  rcases List.mem_append.mp hmem with hold | hnew
  · obtain ⟨request, own, hsecond, hfirst, hcode, hrelay⟩ := hgrounded second first plan hold
    refine ⟨request, own, hsecond.mono hsub, hfirst.mono hsub, hcode, ?_⟩
    intro relayAddr token hplan
    obtain ⟨hne, hreserved⟩ := hrelay relayAddr token hplan
    exact ⟨hne, hreserved.append entries⟩
  · obtain ⟨request, own, hsecond, hfirst, hcode, hrelay⟩ := hentries second first plan hnew
    exact ⟨request, own, hsecond.mono hsub, hfirst.mono hsub, hcode, hrelay⟩

theorem grounded_step (hsound : Sound state) (howned : Owned state)
    (hgrounded : Grounded state.log) (hmoves : Moves state next) : Grounded next.log := by
  rcases hmoves with ⟨_, hlog⟩ | ⟨conn, stage, entries, hmove, _, hlog⟩
  · rw [hlog]
    exact hgrounded
  · rw [hlog]
    apply grounded_append hgrounded
    intro second first plan hmem
    generalize hstage : state.stages conn = before at hmove
    cases hmove with
    | pairedDirect request waiter message payload =>
        cases List.mem_singleton.mp hmem
        obtain ⟨hsecond, hfirst, hcode⟩ := hsound.stage hstage
        exact ⟨request, waiter.first, hsecond, hfirst, hcode.symm, nofun⟩
    | pairedRelay request waiter message payload relayAddr token hne =>
        rcases List.mem_cons.mp hmem with hreserved | hpaired
        · cases hreserved
        · cases List.mem_singleton.mp hpaired
          obtain ⟨hsecond, hfirst, hcode⟩ := hsound.stage hstage
          refine ⟨request, waiter.first, hsecond, hfirst, hcode.symm, ?_⟩
          rintro _ _ ⟨⟩
          refine ⟨hne, state.log, [.paired conn waiter.notify (.relay relayAddr token)], rfl, ?_⟩
          intro sent hmatch
          have hconn : Unpaired state.log conn := howned.early conn (by rw [hstage]; trivial)
          have hnotify := howned.pairing conn request waiter hstage
          exact ⟨not_sent_of_unpaired hsound hconn hmatch,
            not_sent_of_unpaired hsound hnotify hmatch⟩
    | refused _ _ _ | admitted _ _ | delivered _ _ _ | undelivered _ _ _ | answered _
    | unanswered _ | turnedAway _ _ | cutOff _ _ => cases List.mem_singleton.mp hmem
    | accepted _ | closed _ | foreign _ _ | took _ _ _ | missed _ _ | relayRefused _ _ _
    | notified _ _ | collided _ _ | installed _ | woken _ _ | cleaned _ _ =>
        exact absurd hmem List.not_mem_nil

/-! ## Every run -/

/-- What holds in every state that the server reaches. -/
structure Inv (state : State) : Prop where
  sound : Sound state
  owned : Owned state
  once : Once state
  grounded : Grounded state.log

theorem inv_start (relay : Option (SocketAddr × RelayState)) : Inv (start relay) where
  sound := sound_start relay
  owned := owned_start relay
  once := once_start relay
  grounded := fun _ _ _ hmem => absurd hmem List.not_mem_nil

theorem Inv.step {ttl : Nat} {event : Event} (hinv : Inv state)
    (hstep : HandleConnection.step ttl state event = some next) : Inv next := by
  have hturned := turned_of_step hstep
  have hmoves := moves_of_turned hturned
  exact ⟨hinv.sound.step hturned, hinv.owned.step hturned, hinv.once.step hmoves,
    grounded_step hinv.sound hinv.owned hinv.grounded hmoves⟩

theorem inv_of_run {ttl : Nat} {relay : Option (SocketAddr × RelayState)} {events : List Event}
    {final : State} (hrun : run ttl (start relay) events = some final) : Inv final :=
  Foundation.Run.invariant_run Inv (fun _ _ _ hinv hstep => hinv.step hstep) (inv_start relay) hrun

/-- A connection has one partner, and meets it in one way. -/
theorem Inv.pair_unique (hinv : Inv state) {conn other third : Nat} {plan found : Plan}
    (hpair : Pair state.log conn other plan) (hother : Pair state.log conn third found) :
    other = third ∧ plan = found := by
  have hunique := hinv.owned.pairedOnce
  have hrole := hinv.owned.oneRole
  rcases hpair with hpair | hpair <;> rcases hother with hother | hother
  · exact (hunique _ _ _ _ _ _ hpair hother (.inl rfl)).2
  · exact absurd rfl (hrole _ _ _ _ _ _ hpair hother)
  · exact absurd rfl (hrole _ _ _ _ _ _ hother hpair)
  · obtain ⟨hsecond, _, hplan⟩ := hunique _ _ _ _ _ _ hpair hother (.inr rfl)
    exact ⟨hsecond, hplan⟩

theorem Inv.pair_ne (hinv : Inv state) {conn other : Nat} {plan : Plan}
    (hpair : Pair state.log conn other plan) : other ≠ conn := by
  rcases hpair with hpair | hpair
  · exact (hinv.owned.oneRole _ _ _ _ _ _ hpair hpair).symm
  · exact hinv.owned.oneRole _ _ _ _ _ _ hpair hpair

/-- A match that was sent describes the partner of its receiver. -/
theorem Inv.matched_of_sent (hinv : Inv state) {conn : Nat} {message : Message}
    (hsent : .sent conn message ∈ state.log) (hmatch : IsMatch message) :
    ∃ other plan request, Pair state.log conn other plan ∧ Knows state.log other request ∧
      message = describe plan request := by
  rcases hinv.sound.sent conn message hsent with rfl | ⟨reason, rfl⟩ | hmatched
  · exact hmatch.elim
  · exact hmatch.elim
  · exact hmatched

theorem Inv.grounded_pair (hinv : Inv state) {conn other : Nat} {plan : Plan}
    (hpair : Pair state.log conn other plan) :
    ∃ own request, Knows state.log conn own ∧ Knows state.log other request ∧
      own.code = request.code ∧ ∀ relayAddr token, plan = .relay relayAddr token →
        own.certFingerprint ≠ request.certFingerprint ∧
          (ReservedBefore state.log token own.certFingerprint request.certFingerprint conn other ∨
            ReservedBefore state.log token request.certFingerprint own.certFingerprint conn other)
              := by
  rcases hpair with hpair | hpair
  · obtain ⟨request, own, hsecond, hfirst, hcode, hrelay⟩ := hinv.grounded _ _ _ hpair
    refine ⟨request, own, hsecond, hfirst, hcode, ?_⟩
    intro relayAddr token hplan
    obtain ⟨hne, hreserved⟩ := hrelay relayAddr token hplan
    exact ⟨hne.symm, .inr hreserved⟩
  · obtain ⟨request, own, hsecond, hfirst, hcode, hrelay⟩ := hinv.grounded _ _ _ hpair
    refine ⟨own, request, hfirst, hsecond, hcode.symm, ?_⟩
    intro relayAddr token hplan
    obtain ⟨hne, before, after, hlog, hbefore⟩ := hrelay relayAddr token hplan
    exact ⟨hne, .inl ⟨before, after, hlog, fun message hmatch => (hbefore message hmatch).symm⟩⟩

/-- What a match tells its receiver: `other` is the connection it names. -/
structure Names (log : List Entry) (conn other : Nat) (plan : Plan) (message : Message) : Prop where
  distinct : other ≠ conn
  paired : Pair log conn other plan
  /-- Neither connection is in another pair. -/
  only : ∀ third found, Pair log conn third found → third = other ∧ found = plan
  onlyReceiver : ∀ third found, Pair log third other found → third = conn
  registrations : ∃ source own peer request, .registered conn source own ∈ log ∧
    .registered other peer request ∈ log ∧ own.code = request.code ∧
    isValidCode own.code = true ∧ message = describe plan (stamp peer request) ∧
    (∀ reply, .sent other reply ∈ log → IsMatch reply → reply = describe plan (stamp source own)) ∧
    ∀ relayAddr token, plan = .relay relayAddr token →
      ReservedBefore log token own.certFingerprint request.certFingerprint conn other ∨
        ReservedBefore log token request.certFingerprint own.certFingerprint conn other

/-- A registration under one code; two of them differ in certificate and device. -/
def registration (fingerprint deviceId : UInt8) (wantRelay : Bool) : RegisterRequest where
  protocolVersion := protocolVersion
  code := ['A', 'B', 'C', '1', '2', '3']
  publicEndpoint := ⟨[1, 2, 3, 4], 5678⟩
  certFingerprint := Core.Protocol.FixedBytes.filled 32 fingerprint
  deviceId := Core.Protocol.FixedBytes.filled 16 deviceId
  wantRelay := wantRelay

/-- A connection comes in, registers and looks for a waiter. -/
def arrive (conn : Nat) (request : RegisterRequest) (now : Nat) : List Event :=
  [.connection conn (.accept ⟨[127, 0, 0, 1], 40000 + conn⟩),
    .connection conn (.frame (.message (.register request))), .connection conn (.lookUp now)]

/-- The second connection takes the first one's waiter, and tells both. -/
def tell (second first : Nat) (token : SessionToken) (now : Nat) : List Event :=
  [.connection second (.pair token now), .connection second .written,
    .connection second .notify, .connection first .wake, .connection first .cleanUp,
    .connection first .written]

def relayAddress : SocketAddr := ⟨[9, 9, 9, 9], 14571⟩

def relayToken : SessionToken := Core.Protocol.FixedBytes.filled 16 7

def relayMeeting : List Event :=
  arrive 1 (registration 1 1 true) 0 ++ [.connection 1 (.register 0)] ++
    arrive 2 (registration 2 2 false) 5 ++ tell 2 1 relayToken 5

/-- The certificate and the device a match names. -/
def namedPeer : Message → Option (Fingerprint × Core.Protocol.Uuid)
  | .matched _ fingerprint deviceId | .relayMatch _ _ fingerprint deviceId =>
      some (fingerprint, deviceId)
  | .register _ | .expired | .rejected _ => none

theorem isMatch_of_namedPeer {message : Message} {named : Fingerprint × Core.Protocol.Uuid}
    (hnamed : namedPeer message = some named) : IsMatch message := by
  cases message with
  | matched _ _ _ | relayMatch _ _ _ _ => trivial
  | register _ | expired | rejected _ => cases hnamed

theorem namedPeer_describe (plan : Plan) (peer : RegisterRequest) :
    namedPeer (describe plan peer) = some (peer.certFingerprint, peer.deviceId) := by
  cases plan <;> rfl

/-- A client gives up on its registration and makes it again: the second one is matched
with the first. -/
def retried : List Event :=
  arrive 1 (registration 1 1 false) 0 ++ [.connection 1 (.register 0)] ++
    arrive 2 (registration 1 1 false) 5 ++ tell 2 1 relayToken 5

end P2PFileTransfer.Server.Pairing
