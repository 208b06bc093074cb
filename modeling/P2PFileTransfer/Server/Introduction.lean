import P2PFileTransfer.Server.Pairing
import P2PFileTransfer.Session.Completion

/-!
# From a match to a session

A peer finds out where it can be reached, registers, and reads one message back.  Two
peers that the server has told about each other know each other's device and certificate
and meet in the same way, so a handshake between them completes exactly when the devices
they registered differ.
-/

namespace P2PFileTransfer.Server.Introduction

open P2PFileTransfer.Foundation.Liveness
open P2PFileTransfer.Foundation.ByteFile
open P2PFileTransfer.Core.Protocol (Digest Uuid ConfigMessage Error)
open P2PFileTransfer.Session.Handshake (Party HandshakeState hello result)
open P2PFileTransfer.Session.Rendezvous
open P2PFileTransfer.Session.Completion
open P2PFileTransfer.Server.Relay (RelayState)
open P2PFileTransfer.Server.HandleConnection hiding Event step run
open P2PFileTransfer.Server.Turns
open P2PFileTransfer.Server.Messages
open P2PFileTransfer.Server.Ownership
open P2PFileTransfer.Server.Pairing

/-! ## Where a peer can be reached -/

inductive NatClass where
  | cone (publicAddr : SocketAddr)
  | symmetric
  deriving DecidableEq, Repr

/-- The same port towards two servers; the queries either fail or report these addresses. -/
def classifyNat (mapA mapB : SocketAddr) : NatClass :=
  if mapA.port = mapB.port then .cone mapA else .symmetric

/-- `127.0.0.0/8` and `::1`. -/
def isLoopback (ip : Bytes) : Bool :=
  decide (ip.length = 4 ∧ ip.head? = some 127) || decide (ip = List.replicate 15 0 ++ [1])

/-- What `establish_via_rendezvous` starts from: the rendezvous, the bound socket and what
the two STUN servers report of it. -/
structure Surroundings where
  rendezvous : SocketAddr
  localAddr : SocketAddr
  mapA : SocketAddr
  mapB : SocketAddr
  forceRelay : Bool

/-- The endpoint to register, and whether to ask for a relay. -/
def publicEndpoint (surroundings : Surroundings) : SocketAddr × Bool :=
  if isLoopback surroundings.rendezvous.ip then (surroundings.localAddr, surroundings.forceRelay)
  else
    match classifyNat surroundings.mapA surroundings.mapB with
    | .cone publicAddr => (publicAddr, surroundings.forceRelay)
    | .symmetric => (surroundings.localAddr, true)

def registerRequest (self : Local) (code : Code) (surroundings : Surroundings) : RegisterRequest where
  protocolVersion := protocolVersion
  code := code
  publicEndpoint := (publicEndpoint surroundings).1
  certFingerprint := self.fingerprint
  deviceId := self.deviceId
  wantRelay := (publicEndpoint surroundings).2

/-- The errors of `register_full` that an answer of the server can lead to. -/
inductive ClientError where
  | expired
  | rejected (reason : String)
  | unexpectedFromServer (detail : String)
  deriving DecidableEq, Repr

/-- `register_full`, from the message that came back. -/
def registerFull : Message → Except ClientError MatchOutcome
  | .matched peerEndpoint peerFingerprint peerDeviceId =>
      .ok (.direct ⟨peerEndpoint, peerFingerprint, peerDeviceId⟩)
  | .relayMatch relayEndpoint relaySessionToken peerFingerprint peerDeviceId =>
      .ok (.relay ⟨relayEndpoint, relaySessionToken.val, peerFingerprint, peerDeviceId⟩)
  | .expired => .error .expired
  | .rejected reason => .error (.rejected reason)
  | .register _ => .error (.unexpectedFromServer "Register frame from server")

/-- `register`: the caller has no use for a relay. -/
def register (response : Message) : Except ClientError PeerInfo :=
  match registerFull response with
  | .ok (.direct peer) => .ok peer
  | .ok (.relay _) => .error (.unexpectedFromServer
      "rendezvous returned RelayMatch but caller used the direct-only register() helper")
  | .error error => .error error

/-- What the client makes of the match that names `peer`. -/
def outcomeOf (plan : Plan) (peer : RegisterRequest) : MatchOutcome :=
  match plan with
  | .direct => .direct ⟨peer.publicEndpoint, peer.certFingerprint, peer.deviceId⟩
  | .relay relayEndpoint token =>
      .relay ⟨relayEndpoint, token.val, peer.certFingerprint, peer.deviceId⟩

theorem registerFull_describe (plan : Plan) (peer : RegisterRequest) :
    registerFull (describe plan peer) = .ok (outcomeOf plan peer) := by
  cases plan <;> rfl

/-- Only a match makes a client go on. -/
theorem isMatch_of_registerFull {message : Message} {outcome : MatchOutcome}
    (hregister : registerFull message = .ok outcome) : IsMatch message := by
  cases message with
  | matched _ _ _ | relayMatch _ _ _ _ => trivial
  | register _ | expired | rejected _ => cases hregister

@[simp]
theorem deviceId_outcomeOf (plan : Plan) (peer : RegisterRequest) :
    (outcomeOf plan peer).peer.deviceId = peer.deviceId := by
  cases plan <;> rfl

@[simp]
theorem fingerprint_outcomeOf (plan : Plan) (peer : RegisterRequest) :
    (outcomeOf plan peer).peer.fingerprint = peer.certFingerprint := by
  cases plan <;> rfl

/-! ## Direct or through the relay -/

section Planning

variable {log : List Entry} {state next : State} {event : HandleConnection.Event} {ttl : Nat}

theorem relay_foldl_drop (waiters : List Waiter) (state : State) :
    (waiters.foldl State.drop state).relay = state.relay := by
  induction waiters generalizing state with
  | nil => rfl
  | cons waiter rest ih => exact ih _

theorem relay_dropHeld (state : State) (held : Option Waiter) :
    (state.dropHeld held).relay = state.relay := by
  cases held <;> rfl

theorem relay_notify (state : State) (waiter : Waiter) (payload : NotifyPayload) :
    (state.notify waiter payload).relay = state.relay := by
  rw [State.notify]
  split <;> rfl

theorem relay_cleanUp (state : State) (request : RegisterRequest) :
    (state.cleanUp request).relay = state.relay := by
  rcases cleanUp_cases state request with hclean | ⟨waiter, _, _, hclean⟩
  · rw [hclean]
  · rw [hclean]
    rfl

theorem relay_lookUp (state : State) (conn : Nat) (peer : SocketAddr) (request : RegisterRequest)
    (now : Nat) : (state.lookUp conn peer request now).relay = state.relay := by
  unfold State.lookUp
  dsimp only
  split <;> exact relay_foldl_drop _ _

theorem relay_readFirst (state : State) (conn : Nat) (peer : SocketAddr) (frame : FirstFrame) :
    (state.readFirst conn peer frame).relay = state.relay := by
  unfold State.readFirst
  split
  · dsimp only
    split
    · rfl
    · split <;> rfl
  · rfl
  · rfl
  · rfl

theorem relay_register (state : State) (ttl conn : Nat) (request : RegisterRequest) (now : Nat) :
    (state.register ttl conn request now).relay = state.relay := by
  unfold State.register
  split <;> rfl

/-- A reservation changes the relay, and no server gains or loses its relay. -/
theorem relayed_pair (state : State) (conn : Nat) (request : RegisterRequest) (waiter : Waiter)
    (token : Relay.SessionToken) (now : Nat) :
    (state.pair conn request waiter token now).relay.isSome = state.relay.isSome := by
  unfold State.pair
  split
  · cases hrelay : state.relay with
    | none => exact congrArg Option.isSome hrelay
    | some relay =>
        dsimp only
        split
        · exact congrArg Option.isSome hrelay
        · rfl
  · rfl

theorem relayed_of_step (hstep : HandleConnection.step ttl state event = some next) :
    next.relay.isSome = state.relay.isSome := by
  cases event with
  | relay event =>
      cases event with
      | reserve _ _ _ _ => cases hstep
      | datagram _ _ _ | sweep _ =>
          obtain ⟨relay, hrelay, rfl⟩ := Option.map_eq_some_iff.mp hstep
          exact (congrArg Option.isSome hrelay).symm
  | connection conn input =>
      change state.advance ttl conn (state.stages conn) input = some next at hstep
      unfold State.advance at hstep
      split at hstep
      case h_9 => split at hstep <;> cases hstep <;> rfl
      case h_10 => split at hstep <;> cases hstep; rfl
      all_goals cases hstep
      case h_2 => exact congrArg Option.isSome (relay_readFirst _ _ _ _)
      case h_3 => exact congrArg Option.isSome (relay_lookUp _ _ _ _ _)
      case h_4 => exact relayed_pair _ _ _ _ _ _
      case h_7 => exact congrArg Option.isSome (relay_notify _ _ _)
      case h_8 => exact congrArg Option.isSome (relay_register _ _ _ _ _)
      case h_11 => exact congrArg Option.isSome (relay_cleanUp _ _)
      case h_14 | h_15 => exact congrArg Option.isSome (relay_dropHeld _ _)
      all_goals rfl

/-- A pair is made in one turn, with the waiter that its second connection holds. -/
theorem paired_of_step (hstep : HandleConnection.step ttl state event = some next)
    {second first : Nat} {plan : Plan} (hmem : .paired second first plan ∈ next.log) :
    .paired second first plan ∈ state.log ∨ ∃ request waiter token now,
      state.stages second = .pairing request waiter ∧ waiter.notify = first ∧
        next = state.pair second request waiter token now := by
  have hturned := turned_of_step hstep
  rcases moves_of_turned hturned with ⟨_, hlog⟩ | ⟨conn, stage, entries, hmove, hstages, hlog⟩
  · exact .inl (hlog ▸ hmem)
  · rw [hlog] at hmem
    rcases List.mem_append.mp hmem with hold | hnew
    · exact .inl hold
    · obtain ⟨rfl, request, waiter, message, payload, hbefore, rfl, hfirst⟩ :=
        paired_of_move hmove hnew
      have hafter : next.stages second = .delivering waiter message payload := by
        rw [hstages, Function.update_self]
      cases event with
      | relay event =>
          cases hturned
          rw [show state.stages second = .delivering waiter message payload from hafter] at hbefore
          cases hbefore
      | connection conn input =>
          have hconn : conn = second := by
            by_contra hne
            rw [stages_of_turned hturned (Ne.symm hne), hbefore] at hafter
            cases hafter
          subst hconn
          change state.advance ttl conn (state.stages conn) input = some next at hstep
          rw [hbefore] at hstep
          cases input with
          | pair token now =>
              exact .inr ⟨request, waiter, token, now, hbefore, hfirst, (Option.some.inj hstep).symm⟩
          | accept _ | frame _ | lookUp _ | register _ | written | failed | notify | wake | timeout
          | cleanUp => cases hstep

/-- The two meet through the relay when the server has one and either of them wants it. -/
def Planned (relayed : Bool) (log : List Entry) : Prop :=
  ∀ second first plan, .paired second first plan ∈ log → ∃ request own,
    Knows log second request ∧ Knows log first own ∧
      (plan = .direct ↔ (relayed && (request.wantRelay || own.wantRelay)) = false)

theorem plan_of_pair {second first : Nat} {request : RegisterRequest} {waiter : Waiter}
    {token : Relay.SessionToken} {now : Nat} {plan : Plan} (hfresh : ∀ other,
      .paired second first other ∉ state.log)
    (hmem : .paired second first plan ∈ (state.pair second request waiter token now).log) :
    plan = .direct ↔
      (state.relay.isSome && (request.wantRelay || waiter.first.wantRelay)) = false := by
  have hdirect (hlog : .paired second first plan ∈
      state.log ++ [.paired second waiter.notify .direct]) : plan = .direct := by
    rcases List.mem_append.mp hlog with hold | hnew
    · exact absurd hold (hfresh plan)
    · cases List.mem_singleton.mp hnew
      rfl
  unfold State.pair at hmem
  split at hmem
  · rename_i hwanted
    cases hrelay : state.relay with
    | none =>
        rw [hrelay] at hmem
        exact ⟨fun _ => rfl, fun _ => hdirect hmem⟩
    | some relay =>
        rw [hrelay] at hmem
        dsimp only at hmem
        split at hmem
        · exact absurd hmem (hfresh plan)
        · simp only [State.goto, State.record, List.append_assoc] at hmem
          rcases List.mem_append.mp hmem with hold | hnew
          · exact absurd hold (hfresh plan)
          · rcases List.mem_cons.mp hnew with hreserved | hpaired
            · cases hreserved
            · cases List.mem_singleton.mp hpaired
              simp [hwanted]
  · rename_i hwanted
    simp [hdirect hmem, hwanted]

theorem planned_step {relayed : Bool} (hinv : Inv state) (hrelayed : state.relay.isSome = relayed)
    (hplanned : Planned relayed state.log)
    (hstep : HandleConnection.step ttl state event = some next) : Planned relayed next.log := by
  intro second first plan hmem
  have hgrows := (moves_of_turned (turned_of_step hstep)).log_subset
  rcases paired_of_step hstep hmem with
    hold | ⟨request, waiter, token, now, hstage, rfl, hnext⟩
  · obtain ⟨request, own, hsecond, hfirst, hplan⟩ := hplanned second first plan hold
    exact ⟨request, own, hsecond.mono hgrows, hfirst.mono hgrows, hplan⟩
  · obtain ⟨hsecond, hfirst, _⟩ := hinv.sound.stage hstage
    have hunpaired : Unpaired state.log second := hinv.owned.early second (by rw [hstage]; trivial)
    rw [hnext] at hmem
    have hplan := plan_of_pair (fun other hpaired => (hunpaired _ _ _ hpaired).1 rfl) hmem
    rw [hrelayed] at hplan
    exact ⟨request, waiter.first, hsecond.mono hgrows, hfirst.mono hgrows, hplan⟩

theorem planned_of_run {relay : Option (SocketAddr × RelayState)}
    {events : List HandleConnection.Event} {final : State}
    (hrun : HandleConnection.run ttl (start relay) events = some final) :
    Planned relay.isSome final.log := by
  refine (Foundation.Run.invariant_run
    (fun state : State => Inv state ∧ state.relay.isSome = relay.isSome ∧
      Planned relay.isSome state.log) ?_ ⟨inv_start relay, rfl, nofun⟩ hrun).2.2
  rintro state event next ⟨hinv, hrelayed, hplanned⟩ hstep
  exact ⟨hinv.step hstep, (relayed_of_step hstep).trans hrelayed,
    planned_step hinv hrelayed hplanned hstep⟩

end Planning

/-! ## Two clients that were told about each other -/

/-- The outcome names this peer. -/
structure Describes (outcome : MatchOutcome) (peer : Local) : Prop where
  device : outcome.peer.deviceId = peer.deviceId
  fingerprint : outcome.peer.fingerprint = peer.fingerprint

/-- Both punch directly, or both go through one session of one relay. -/
def SameWay : MatchOutcome → MatchOutcome → Prop
  | .direct _, .direct _ => True
  | .relay own, .relay other =>
      own.relayEndpoint = other.relayEndpoint ∧ own.sessionToken = other.sessionToken
  | _, _ => False

def throughRelay : MatchOutcome → Bool
  | .direct _ => false
  | .relay _ => true

/-- The configuration of the smaller device. -/
def leadingConfig (near far : Local) : ConfigMessage :=
  if Uuid.lt near.deviceId far.deviceId then near.config else far.config

/-- How `from_rendezvous` ends on both sides: two sessions that name each other and share a
configuration, or no session when the devices are the same. -/
structure Met (near far : Local) (nearPhase farPhase : Phase) : Prop where
  sessions : near.deviceId ≠ far.deviceId → ∃ own other, nearPhase = .ready own ∧
    farPhase = .ready other ∧
    own.handshake = ⟨far.deviceId, far.fingerprint, leadingConfig near far⟩ ∧
    other.handshake = ⟨near.deviceId, near.fingerprint, leadingConfig near far⟩
  same : near.deviceId = far.deviceId → ∀ session,
    nearPhase ≠ .ready session ∧ farPhase ≠ .ready session

section Meeting

variable {near far : Local} {sha256 : Bytes → Digest} {nearConnection farConnection : Connection}
  {nearOutcome farOutcome : MatchOutcome}

theorem lt_eq_not_lt_iff (left right : Uuid) :
    Uuid.lt left right = !Uuid.lt right left ↔ left ≠ right := by
  have hiff : left = right ↔ ¬ left.val < right.val ∧ ¬ right.val < left.val := by
    constructor
    · rintro rfl
      exact ⟨List.lt_irrefl _, List.lt_irrefl _⟩
    · rintro ⟨hleft, hright⟩
      exact Subtype.ext (List.le_antisymm (List.not_lt.mp hright) (List.not_lt.mp hleft))
  have hasymm : left.val < right.val → ¬ right.val < left.val := List.lt_asymm
  simp only [Uuid.lt, Ne, hiff]
  by_cases hleft : left.val < right.val
  · simp [hleft, hasymm hleft]
  · by_cases hright : right.val < left.val <;> simp [hleft, hright]

theorem initiates_eq (hdescribes : Describes nearOutcome far) :
    initiates near nearOutcome.peer = Uuid.lt near.deviceId far.deviceId := by
  rw [initiates, hdescribes.device]

/-- A handshake is through exactly when `from_rendezvous` is. -/
theorem finishHandshake_eq_ready_iff {self : Local} {peer : PeerInfo} {connection : Connection}
    {state : HandshakeState} {session : P2PSession} :
    finishHandshake self peer connection state = .ready session ↔
      ∃ outcome, state.status = .returned outcome ∧ session = ⟨connection, self.deviceId, outcome, none⟩ := by
  rw [finishHandshake]
  cases state.status with
  | returned outcome =>
      constructor
      · rintro ⟨⟩
        exact ⟨outcome, rfl, rfl⟩
      · rintro ⟨other, ⟨⟩, rfl⟩
        rfl
  | failed point error =>
      constructor
      · rintro ⟨⟩
      · rintro ⟨outcome, ⟨⟩, _⟩
  | running stage =>
      constructor
      · rintro ⟨⟩
      · rintro ⟨outcome, ⟨⟩, _⟩
  | panicked point fault =>
      constructor
      · rintro ⟨⟩
      · rintro ⟨outcome, ⟨⟩, _⟩

theorem met_of_concluded (hnear : Describes nearOutcome far) (hfar : Describes farOutcome near)
    (hnearSees : nearConnection.peerFingerprint sha256 = some nearOutcome.peer.fingerprint)
    (hfarSees : farConnection.peerFingerprint sha256 = some farOutcome.peer.fingerprint)
    {negotiation : Session.Configuration.Negotiation}
    (hconcluded : Concluded (party sha256 near nearConnection) (party sha256 far farConnection)
      (initiates near nearOutcome.peer) (initiates far farOutcome.peer) negotiation) :
    Met near far (finishHandshake near nearOutcome.peer nearConnection negotiation.sender)
      (finishHandshake far farOutcome.peer farConnection negotiation.receiver) := by
  rw [initiates_eq hnear, initiates_eq hfar] at hconcluded
  constructor
  · intro hne
    have hcompatible : Compatible (party sha256 near nearConnection)
        (party sha256 far farConnection) (Uuid.lt near.deviceId far.deviceId)
        (Uuid.lt far.deviceId near.deviceId) :=
      ⟨(lt_eq_not_lt_iff _ _).mpr hne, hnearSees.trans (congrArg some hnear.fingerprint),
        hfarSees.trans (congrArg some hfar.fingerprint)⟩
    obtain ⟨hown, hother, _, _⟩ := hconcluded.both hcompatible
    exact ⟨_, _, finishHandshake_eq_ready_iff.mpr ⟨_, hown, rfl⟩,
      finishHandshake_eq_ready_iff.mpr ⟨_, hother, rfl⟩, rfl, rfl⟩
  · intro heq session
    have hneither := hconcluded.neither fun hcompatible =>
      (lt_eq_not_lt_iff _ _).mp hcompatible.roles heq
    refine ⟨fun hready => ?_, fun hready => ?_⟩
    · obtain ⟨outcome, hreturned, _⟩ := finishHandshake_eq_ready_iff.mp hready
      exact (hneither outcome).1 hreturned
    · obtain ⟨outcome, hreturned, _⟩ := finishHandshake_eq_ready_iff.mp hready
      exact (hneither outcome).2 hreturned

theorem inevitable_met (hnear : Describes nearOutcome far) (hfar : Describes farOutcome near)
    (hnearSees : nearConnection.peerFingerprint sha256 = some nearOutcome.peer.fingerprint)
    (hfarSees : farConnection.peerFingerprint sha256 = some farOutcome.peer.fingerprint) :
    Inevitable
      (Session.Configuration.step (party sha256 near nearConnection)
        (party sha256 far farConnection))
      (fun _ event => Undisturbed event)
      (fun negotiation =>
        Met near far (finishHandshake near nearOutcome.peer nearConnection negotiation.sender)
          (finishHandshake far farOutcome.peer farConnection negotiation.receiver))
      (Session.Configuration.start (initiates near nearOutcome.peer)
        (initiates far farOutcome.peer)) :=
  (inevitable_concluded _ _ _ _).imp fun _ hconcluded =>
    met_of_concluded hnear hfar hnearSees hfarSees hconcluded

end Meeting

/-! ## Every pair of the server -/

section Pairs

variable {ttl : Nat} {relay : Option (SocketAddr × RelayState)}
  {events : List HandleConnection.Event} {final : State} {conn other : Nat} {plan : Plan}

/-- The request that a paired connection is known for is the one its client made. -/
theorem knows_of_registered (hinv : Inv final) (hpair : Pair final.log conn other plan)
    {source : SocketAddr} {request : RegisterRequest}
    (hregistered : .registered conn source request ∈ final.log) :
    Knows final.log conn (stamp source request) := by
  obtain ⟨own, _, hown, _, _⟩ := hinv.grounded_pair hpair
  obtain ⟨peer, raw, hmem, hvalid, _⟩ := hown
  obtain ⟨rfl, rfl⟩ := hinv.once.unique _ _ _ _ _ hmem hregistered
  exact ⟨peer, raw, hmem, hvalid, rfl⟩

/-- What the client of a paired connection makes of its match. -/
theorem outcome_of_sent (hinv : Inv final) (hpair : Pair final.log conn other plan)
    {peer : RegisterRequest} (hpeer : Knows final.log other peer) {message : Message}
    (hsent : .sent conn message ∈ final.log) {outcome : MatchOutcome}
    (houtcome : registerFull message = .ok outcome) : outcome = outcomeOf plan peer := by
  obtain ⟨third, found, named, hthird, hnamed, rfl⟩ :=
    hinv.matched_of_sent hsent (isMatch_of_registerFull houtcome)
  obtain ⟨rfl, rfl⟩ := hinv.pair_unique hpair hthird
  rw [hinv.once.knows_unique hnamed hpeer, registerFull_describe] at houtcome
  exact (Except.ok.inj houtcome).symm

theorem describes_outcomeOf (plan : Plan) (self : Local) (source : SocketAddr) (code : Code)
    (surroundings : Surroundings) :
    Describes (outcomeOf plan (stamp source (registerRequest self code surroundings))) self :=
  ⟨deviceId_outcomeOf _ _, fingerprint_outcomeOf _ _⟩

theorem sameWay_outcomeOf (plan : Plan) (peer own : RegisterRequest) :
    SameWay (outcomeOf plan peer) (outcomeOf plan own) := by
  cases plan with
  | direct => trivial
  | relay _ _ => exact ⟨rfl, rfl⟩

theorem throughRelay_outcomeOf (hrun : HandleConnection.run ttl (start relay) events = some final)
    (hpair : Pair final.log conn other plan) {own peer : RegisterRequest}
    (hown : Knows final.log conn own) (hpeer : Knows final.log other peer) :
    throughRelay (outcomeOf plan peer) = (relay.isSome && (own.wantRelay || peer.wantRelay)) := by
  have hinv := inv_of_run hrun
  have hdirect : plan = .direct ↔ (relay.isSome && (own.wantRelay || peer.wantRelay)) = false := by
    rcases hpair with hpaired | hpaired
    · obtain ⟨request, first, hrequest, hfirst, hplan⟩ := planned_of_run hrun _ _ _ hpaired
      rw [hinv.once.knows_unique hown hrequest, hinv.once.knows_unique hpeer hfirst]
      exact hplan
    · obtain ⟨request, first, hrequest, hfirst, hplan⟩ := planned_of_run hrun _ _ _ hpaired
      rw [hinv.once.knows_unique hown hfirst, hinv.once.knows_unique hpeer hrequest,
        Bool.or_comm first.wantRelay]
      exact hplan
  cases plan with
  | direct => exact (hdirect.mp rfl).symm
  | relay _ _ => exact (Bool.eq_true_of_not_eq_false fun hfalse => nomatch hdirect.mpr hfalse).symm

/-- Two clients whose connections the server paired and answered used one code, are to meet
in the same way, and agree on a session of both devices as soon as they share a connection
with the certificates they were told about, unless they registered the same device. -/
theorem sessions_of_pair (hrun : HandleConnection.run ttl (start relay) events = some final)
    (hpair : Pair final.log conn other plan) {near far : Local} {nearCode farCode : Code}
    {nearAt farAt : Surroundings} {nearSource farSource : SocketAddr}
    (hnear : .registered conn nearSource (registerRequest near nearCode nearAt) ∈ final.log)
    (hfar : .registered other farSource (registerRequest far farCode farAt) ∈ final.log)
    {toNear toFar : Message} (hsentNear : .sent conn toNear ∈ final.log)
    (hsentFar : .sent other toFar ∈ final.log) {nearOutcome farOutcome : MatchOutcome}
    (hnearOutcome : registerFull toNear = .ok nearOutcome)
    (hfarOutcome : registerFull toFar = .ok farOutcome) {sha256 : Bytes → Digest}
    {nearConnection farConnection : Connection}
    (hnearSees : nearConnection.peerFingerprint sha256 = some nearOutcome.peer.fingerprint)
    (hfarSees : farConnection.peerFingerprint sha256 = some farOutcome.peer.fingerprint) :
    nearCode = farCode ∧ SameWay nearOutcome farOutcome ∧
      throughRelay nearOutcome =
        (relay.isSome && ((publicEndpoint nearAt).2 || (publicEndpoint farAt).2)) ∧
      (throughRelay nearOutcome = false →
        nearOutcome.peer.endpoint = ⟨farSource.ip, (publicEndpoint farAt).1.port⟩) ∧
      Inevitable
        (Session.Configuration.step (party sha256 near nearConnection)
          (party sha256 far farConnection))
        (fun _ event => Undisturbed event)
        (fun negotiation =>
          Met near far (finishHandshake near nearOutcome.peer nearConnection negotiation.sender)
            (finishHandshake far farOutcome.peer farConnection negotiation.receiver))
        (Session.Configuration.start (initiates near nearOutcome.peer)
          (initiates far farOutcome.peer)) := by
  have hinv := inv_of_run hrun
  have hown := knows_of_registered hinv hpair hnear
  have hpeer := knows_of_registered hinv hpair.symm hfar
  have hnearIs := outcome_of_sent hinv hpair hpeer hsentNear hnearOutcome
  have hfarIs := outcome_of_sent hinv hpair.symm hown hsentFar hfarOutcome
  have hnearNames := describes_outcomeOf plan far farSource farCode farAt
  have hfarNames := describes_outcomeOf plan near nearSource nearCode nearAt
  obtain ⟨request, found, hrequest, hfound, hcode, _⟩ := hinv.grounded_pair hpair
  rw [hinv.once.knows_unique hrequest hown, hinv.once.knows_unique hfound hpeer] at hcode
  subst hnearIs hfarIs
  refine ⟨hcode, sameWay_outcomeOf _ _ _, throughRelay_outcomeOf hrun hpair hown hpeer, ?_,
    inevitable_met hnearNames hfarNames hnearSees hfarSees⟩
  intro hdirect
  cases plan with
  | direct => rfl
  | relay _ _ => cases hdirect

/-- Behind a NAT that shows each server another port. -/
def symmetricHome : Surroundings where
  rendezvous := ⟨[9, 9, 9, 9], 14570⟩
  localAddr := ⟨[1, 2, 3, 4], 5678⟩
  mapA := ⟨[198, 51, 100, 1], 1024⟩
  mapB := ⟨[198, 51, 100, 1], 1025⟩
  forceRelay := false

def coneHome : Surroundings where
  rendezvous := ⟨[9, 9, 9, 9], 14570⟩
  localAddr := ⟨[10, 0, 0, 1], 40000⟩
  mapA := ⟨[1, 2, 3, 4], 5678⟩
  mapB := ⟨[1, 2, 3, 4], 5678⟩
  forceRelay := false

def device (tag : UInt8) : Local where
  deviceId := Core.Protocol.FixedBytes.filled 16 tag
  fingerprint := Core.Protocol.FixedBytes.filled 32 tag
  config := .default

/-- The certificate of a device is its tag. -/
def tagDigest (certificate : Bytes) : Digest :=
  Core.Protocol.FixedBytes.filled 32 (certificate.headD 0)

def throughTheRelay (tag : UInt8) : Connection where
  remoteAddress := relayAddress
  peerIdentity := some [[tag]]

theorem sessions_of_pair_relay : ∃ final,
    HandleConnection.run 300 (start (some (relayAddress, .default))) relayMeeting = some final ∧
      ['A', 'B', 'C', '1', '2', '3'] = ['A', 'B', 'C', '1', '2', '3'] ∧
      SameWay (outcomeOf (.relay relayAddress relayToken) (registration 2 2 false))
        (outcomeOf (.relay relayAddress relayToken) (registration 1 1 true)) ∧
      throughRelay (outcomeOf (.relay relayAddress relayToken) (registration 2 2 false)) =
        (true && ((publicEndpoint symmetricHome).2 || (publicEndpoint coneHome).2)) ∧
      (throughRelay (outcomeOf (.relay relayAddress relayToken) (registration 2 2 false)) = false →
        (outcomeOf (.relay relayAddress relayToken) (registration 2 2 false)).peer.endpoint =
          ⟨[127, 0, 0, 1], (publicEndpoint coneHome).1.port⟩) ∧
      Inevitable
        (Session.Configuration.step (party tagDigest (device 1) (throughTheRelay 2))
          (party tagDigest (device 2) (throughTheRelay 1)))
        (fun _ event => Undisturbed event)
        (fun negotiation => Met (device 1) (device 2)
          (finishHandshake (device 1)
            (outcomeOf (.relay relayAddress relayToken) (registration 2 2 false)).peer
            (throughTheRelay 2) negotiation.sender)
          (finishHandshake (device 2)
            (outcomeOf (.relay relayAddress relayToken) (registration 1 1 true)).peer
            (throughTheRelay 1) negotiation.receiver))
        (Session.Configuration.start
          (initiates (device 1)
            (outcomeOf (.relay relayAddress relayToken) (registration 2 2 false)).peer)
          (initiates (device 2)
            (outcomeOf (.relay relayAddress relayToken) (registration 1 1 true)).peer)) := by
  refine ⟨_, rfl, @sessions_of_pair 300 (some (relayAddress, .default)) relayMeeting _ 1 2
    (.relay relayAddress relayToken) rfl (.inr (List.mem_of_getElem? (i := 3) rfl)) (device 1)
    (device 2) _ _ symmetricHome coneHome ⟨[127, 0, 0, 1], 40001⟩ ⟨[127, 0, 0, 1], 40002⟩
    (List.mem_of_getElem? (i := 0) rfl) (List.mem_of_getElem? (i := 1) rfl)
    (describe (.relay relayAddress relayToken) (registration 2 2 false))
    (describe (.relay relayAddress relayToken) (registration 1 1 true))
    (List.mem_of_getElem? (i := 5) rfl) (List.mem_of_getElem? (i := 4) rfl) _ _ rfl rfl tagDigest
    _ _ rfl rfl⟩

end Pairs

end P2PFileTransfer.Server.Introduction
