import P2PFileTransfer.Session.Agreement
import P2PFileTransfer.Session.Pinning

/-!
# The life of a session

A session is dialled, accepted or paired through a rendezvous.  One that was dialled can be
dialled again, any other one can take the next caller, and an operation that fails leaves
the session as it was.  Whoever answers or calls, a dialled session stays with the address,
the certificate and the configuration it was made for.
-/

namespace P2PFileTransfer.Session.Lifecycle

open P2PFileTransfer.Foundation.ByteFile
open P2PFileTransfer.Foundation.Process
open P2PFileTransfer.Core.Protocol
open P2PFileTransfer.Session.Handshake
open P2PFileTransfer.Session.Rendezvous (SocketAddr Connection Local P2PSession Outbound Inbound party
  Phase fingerprintOf protocolMagic)

/-- What a handshake over these inputs comes to, when they bring it to an end. -/
def performHandshake (party : Party) (initiates : Bool) (inputs : List HandshakeInput) :
    Option (Except Error HandshakeResult) :=
  (Foundation.Run.run (machine party).step (begin initiates) inputs).bind fun state =>
    match state.status with
    | .returned outcome => some (.ok outcome)
    | .failed _ error => some (.error error)
    | .running _ | .panicked _ _ => none

/-- The connection and the handshake of `connect` and of `reconnect`; an endpoint that
cannot be bound counts as a failed attempt. -/
def dialPeer (sha256 : Bytes → Digest) (self : Local) (peerAddr : SocketAddr)
    (peerFingerprint : Fingerprint) (dial : Outbound) (inputs : List HandshakeInput) :
    Option (Except Error (Connection × HandshakeResult)) :=
  match Rendezvous.connect sha256 peerAddr peerFingerprint dial with
  | .error error => some (.error error)
  | .ok connection =>
      (performHandshake (party sha256 self connection) true inputs).map fun outcome =>
        outcome.map fun handshake => (connection, handshake)

/-- The connection and the handshake of `accept` and of `reaccept`; the answering side has
no configuration of its own. -/
def takeCaller (sha256 : Bytes → Digest) (identity : Fingerprint) (deviceId : Uuid)
    (caller : Inbound) (inputs : List HandshakeInput) :
    Option (Except Error (Connection × HandshakeResult)) :=
  match Rendezvous.accept caller with
  | .error error => some (.error error)
  | .ok connection =>
      (performHandshake (party sha256 ⟨deviceId, identity, .default⟩ connection) false inputs).map
        fun outcome => outcome.map fun handshake => (connection, handshake)

def connect (sha256 : Bytes → Digest) (self : Local) (peerAddr : SocketAddr)
    (peerFingerprint : Fingerprint) (dial : Outbound) (inputs : List HandshakeInput) :
    Option (Except Error P2PSession) :=
  (dialPeer sha256 self peerAddr peerFingerprint dial inputs).map fun outcome =>
    outcome.map fun (connection, handshake) =>
      { connection := connection
        deviceId := self.deviceId
        handshake := handshake
        initiatorTarget := some (peerAddr, peerFingerprint) }

def accept (sha256 : Bytes → Digest) (identity : Fingerprint) (deviceId : Uuid) (caller : Inbound)
    (inputs : List HandshakeInput) : Option (Except Error P2PSession) :=
  (takeCaller sha256 identity deviceId caller inputs).map fun outcome =>
    outcome.map fun (connection, handshake) =>
      { connection := connection
        deviceId := deviceId
        handshake := handshake
        initiatorTarget := none }

def reconnect (sha256 : Bytes → Digest) (identity : Fingerprint) (session : P2PSession)
    (dial : Outbound) (inputs : List HandshakeInput) : Option (Except Error P2PSession) :=
  match session.initiatorTarget with
  | none => some (.error (.protocol [.text "Only initiator sessions can reconnect"]))
  | some (peerAddr, peerFingerprint) =>
      (dialPeer sha256 ⟨session.deviceId, identity, session.handshake.config⟩ peerAddr
          peerFingerprint dial inputs).map fun outcome =>
        outcome.map fun (connection, handshake) =>
          { session with connection := connection, handshake := handshake }

def reaccept (sha256 : Bytes → Digest) (identity : Fingerprint) (session : P2PSession)
    (caller : Inbound) (inputs : List HandshakeInput) : Option (Except Error P2PSession) :=
  if session.initiatorTarget.isSome then
    some (.error (.protocol [.text "reaccept() is only valid for responder sessions"]))
  else
    (takeCaller sha256 identity session.deviceId caller inputs).map fun outcome =>
      outcome.map fun (connection, handshake) =>
        { session with connection := connection, handshake := handshake }

/-! ## Runs of operations -/

inductive Operation where
  | reconnect (dial : Outbound) (inputs : List HandshakeInput)
  | reaccept (caller : Inbound) (inputs : List HandshakeInput)

def attempt (sha256 : Bytes → Digest) (identity : Fingerprint) (session : P2PSession) :
    Operation → Option (Except Error P2PSession)
  | .reconnect dial inputs => reconnect sha256 identity session dial inputs
  | .reaccept caller inputs => reaccept sha256 identity session caller inputs

/-- An operation that fails changes nothing. -/
def step (sha256 : Bytes → Digest) (identity : Fingerprint) (session : P2PSession)
    (operation : Operation) : Option P2PSession :=
  (attempt sha256 identity session operation).map fun
    | .ok next => next
    | .error _ => session

abbrev run (sha256 : Bytes → Digest) (identity : Fingerprint) : P2PSession → List Operation →
    Option P2PSession :=
  Foundation.Run.run (step sha256 identity)

/-- What a dialled session was made for. -/
structure Target where
  peerAddr : SocketAddr
  peerFingerprint : Fingerprint
  config : ConfigMessage

/-- The three ways a session comes about. -/
inductive Born (sha256 : Bytes → Digest) (identity : Fingerprint) (deviceId : Uuid) :
    Option Target → P2PSession → Prop where
  | connected {target : Target} {dial : Outbound} {inputs : List HandshakeInput}
      {session : P2PSession}
      (hconnect : connect sha256 ⟨deviceId, identity, target.config⟩ target.peerAddr
        target.peerFingerprint dial inputs = some (.ok session)) :
      Born sha256 identity deviceId (some target) session
  | accepted {caller : Inbound} {inputs : List HandshakeInput} {session : P2PSession}
      (haccept : accept sha256 identity deviceId caller inputs = some (.ok session)) :
      Born sha256 identity deviceId none session
  | paired {config : ConfigMessage} {events : List Rendezvous.Event} {session : P2PSession}
      (hready : Rendezvous.run sha256 ⟨deviceId, identity, config⟩ .register events =
        some (.ready session)) :
      Born sha256 identity deviceId none session

/-- What holds of a session for as long as it lives. -/
structure Standing (sha256 : Bytes → Digest) (deviceId : Uuid) (target : Option Target)
    (session : P2PSession) : Prop where
  device : session.deviceId = deviceId
  kind : session.initiatorTarget =
    target.map fun target => (target.peerAddr, target.peerFingerprint)
  /-- The peer has shown the certificate it claims. -/
  authentic : session.connection.peerFingerprint sha256 = some session.handshake.peerFingerprint
  pinned : ∀ made, target = some made → session.connection.remoteAddress = made.peerAddr ∧
    session.handshake.peerFingerprint = made.peerFingerprint ∧
    session.handshake.config = made.config

variable {sha256 : Bytes → Digest} {identity : Fingerprint} {deviceId : Uuid} {self : Local}
  {connection : Connection} {handshake : HandshakeResult} {inputs : List HandshakeInput}
  {session next : P2PSession} {target : Option Target}

/-! ## One connection -/

/-- A dialling side ends with the configuration it brought. -/
def Brings (party : Party) : StageStatus → Prop
  | .running stage => Agreement.initiating stage = true
  | .returned outcome => outcome.config = party.config
  | .failed _ _ | .panicked _ _ => True

theorem brings_inductive (party : Party) : Inductive (machine party) (Brings party) := by
  constructor
  · intro stage reply hfits hbrings
    refine resume_elim (motive := fun stage status =>
      Brings party (.running stage) → Brings party status)
      ?sendHello ?helloAck ?sendConfig ?configAck ?hello ?sendAck ?config ?sendConfigAck
      stage reply hfits hbrings
    case sendHello => exact id
    case helloAck =>
      intro message _
      unfold readHelloAck
      split
      · rename_i peer
        cases checkPeer party peer <;> trivial
      · trivial
      · trivial
    case sendConfig => exact fun _ => id
    case configAck =>
      intro peer message _
      unfold readConfigAck
      split <;> trivial
    case hello => exact fun _ hfalse => nomatch hfalse
    case sendAck => exact fun _ hfalse => nomatch hfalse
    case config => exact fun _ _ hfalse => nomatch hfalse
    case sendConfigAck => exact fun _ _ hfalse => nomatch hfalse
  · intro _ _ _
    trivial

/-- A handshake that comes to a result was run to it. -/
theorem exists_run_of_performHandshake {party : Party} {initiates : Bool}
    (hperform : performHandshake party initiates inputs = some (.ok handshake)) :
    ∃ final, Foundation.Run.run (machine party).step (begin initiates) inputs = some final ∧
      final.status = .returned handshake := by
  obtain ⟨final, hrun, hfinal⟩ := Option.bind_eq_some_iff.mp hperform
  refine ⟨final, hrun, ?_⟩
  cases hstatus : final.status with
  | returned outcome =>
      rw [hstatus] at hfinal
      cases hfinal
      rfl
  | failed point error =>
      rw [hstatus] at hfinal
      cases hfinal
  | running stage =>
      rw [hstatus] at hfinal
      cases hfinal
  | panicked point fault =>
      rw [hstatus] at hfinal
      cases hfinal

theorem spec_of_performHandshake {party : Party} {initiates : Bool}
    (hperform : performHandshake party initiates inputs = some (.ok handshake)) :
    party.observed = some handshake.peerFingerprint ∧
      (initiates = true → handshake.config = party.config) := by
  obtain ⟨final, hrun, hreturned⟩ := exists_run_of_performHandshake hperform
  refine ⟨observed_of_run hrun hreturned, ?_⟩
  rintro rfl
  have hstart : Brings party (begin true).status := rfl
  have hbrings := (brings_inductive party).run hrun hstart
  rw [hreturned] at hbrings
  exact hbrings

/-- An attempt that is made to end well by a change of its result has ended well. -/
theorem exists_of_map_eq_ok {Value Result : Type} {attempt : Option (Except Error Value)}
    {change : Value → Result} {result : Result}
    (hmap : (attempt.map fun outcome => outcome.map change) = some (.ok result)) :
    ∃ value, attempt = some (.ok value) ∧ change value = result := by
  obtain ⟨outcome, hattempt, houtcome⟩ := Option.map_eq_some_iff.mp hmap
  cases outcome with
  | error error => cases houtcome
  | ok value =>
      cases houtcome
      exact ⟨value, hattempt, rfl⟩

/-- A caller that is dialled shows the certificate it was dialled under. -/
theorem connect_eq_ok {peerAddr : SocketAddr} {expected : Fingerprint} {dial : Outbound}
    (hconnect : Rendezvous.connect sha256 peerAddr expected dial = .ok connection) :
    connection.remoteAddress = peerAddr ∧ connection.peerFingerprint sha256 = some expected := by
  cases dial with
  | failed error => cases hconnect
  | presented presented =>
      by_cases hmatch : fingerprintOf sha256 presented.endEntity = expected
      · simp only [Rendezvous.connect, Rendezvous.verifyServerCert, if_pos hmatch] at hconnect
        cases hconnect
        exact ⟨rfl, congrArg some hmatch⟩
      · simp only [Rendezvous.connect, Rendezvous.verifyServerCert, if_neg hmatch] at hconnect
        cases hconnect

theorem spec_of_dialPeer {peerAddr : SocketAddr} {peerFingerprint : Fingerprint} {dial : Outbound}
    (hdial : dialPeer sha256 self peerAddr peerFingerprint dial inputs =
      some (.ok (connection, handshake))) :
    connection.remoteAddress = peerAddr ∧
      connection.peerFingerprint sha256 = some handshake.peerFingerprint ∧
      handshake.peerFingerprint = peerFingerprint ∧ handshake.config = self.config := by
  unfold dialPeer at hdial
  split at hdial
  · cases hdial
  · rename_i dialled hconnect
    obtain ⟨outcome, hperform, hpair⟩ := exists_of_map_eq_ok hdial
    cases hpair
    obtain ⟨haddress, hexpected⟩ := connect_eq_ok hconnect
    obtain ⟨hobserved, hconfig⟩ := spec_of_performHandshake hperform
    refine ⟨haddress, hobserved, ?_, hconfig rfl⟩
    exact Option.some.inj (hobserved.symm.trans hexpected)

theorem spec_of_takeCaller {caller : Inbound}
    (htake : takeCaller sha256 identity deviceId caller inputs =
      some (.ok (connection, handshake))) :
    connection.peerFingerprint sha256 = some handshake.peerFingerprint := by
  unfold takeCaller at htake
  split at htake
  · cases htake
  · obtain ⟨outcome, hperform, hpair⟩ := exists_of_map_eq_ok htake
    cases hpair
    exact (spec_of_performHandshake hperform).1

/-! ## Birth -/

/-- What is certain on the way to a session through a rendezvous. -/
def Paired (sha256 : Bytes → Digest) (self : Local) : Phase → Prop
  | .handshake _ connection state => Checked (party sha256 self connection) state.status
  | .ready session => Standing sha256 self.deviceId none session
  | .register | .joinRelay _ _ | .race _ _ | .failed _ => True

theorem paired_step {phase after : Phase} {event : Rendezvous.Event}
    (hpaired : Paired sha256 self phase)
    (hstep : Rendezvous.step sha256 self phase event = some after) : Paired sha256 self after := by
  unfold Rendezvous.step at hstep
  split at hstep
  · cases hstep
    trivial
  · cases hstep
    trivial
  · cases hstep
    trivial
  · cases hstep
    split <;> trivial
  · cases hstep
    trivial
  · obtain ⟨state, _, rfl⟩ := Option.map_eq_some_iff.mp hstep
    unfold Rendezvous.finishRace
    split
    · trivial
    · trivial
    · change Checked _ (begin _).status
      cases Rendezvous.initiates self _ <;> trivial
  · obtain ⟨state, hmachine, rfl⟩ := Option.map_eq_some_iff.mp hstep
    have hchecked := checked_inductive.step hmachine hpaired
    unfold Rendezvous.finishHandshake
    split
    · rename_i outcome hreturned
      rw [hreturned] at hchecked
      exact ⟨rfl, rfl, hchecked, nofun⟩
    · trivial
    · exact hchecked
    · exact hchecked
  · cases hstep

theorem standing_of_born (hborn : Born sha256 identity deviceId target session) :
    Standing sha256 deviceId target session := by
  cases hborn with
  | connected hconnect =>
      obtain ⟨⟨connection, handshake⟩, hdial, rfl⟩ := exists_of_map_eq_ok hconnect
      obtain ⟨haddress, hauthentic, hexpected, hconfig⟩ := spec_of_dialPeer hdial
      refine ⟨rfl, rfl, hauthentic, ?_⟩
      rintro made ⟨⟩
      exact ⟨haddress, hexpected, hconfig⟩
  | accepted haccept =>
      obtain ⟨⟨connection, handshake⟩, htake, rfl⟩ := exists_of_map_eq_ok haccept
      exact ⟨rfl, rfl, spec_of_takeCaller htake, nofun⟩
  | @paired config events session hready =>
      have hstart : Paired sha256 ⟨deviceId, identity, config⟩ .register := trivial
      exact Foundation.Run.invariant_run (Paired sha256 ⟨deviceId, identity, config⟩)
        (fun _ _ _ hpaired hstep => paired_step hpaired hstep) hstart hready

/-! ## Every operation -/

theorem Standing.reconnect (hstanding : Standing sha256 deviceId target session) {dial : Outbound}
    (hreconnect : Lifecycle.reconnect sha256 identity session dial inputs = some (.ok next)) :
    Standing sha256 deviceId target next := by
  unfold Lifecycle.reconnect at hreconnect
  cases target with
  | none =>
      rw [hstanding.kind] at hreconnect
      cases hreconnect
  | some made =>
      rw [hstanding.kind] at hreconnect
      obtain ⟨⟨connection, handshake⟩, hdial, rfl⟩ := exists_of_map_eq_ok hreconnect
      obtain ⟨haddress, hauthentic, hexpected, hconfig⟩ := spec_of_dialPeer hdial
      refine ⟨hstanding.device, rfl, hauthentic, ?_⟩
      rintro _ ⟨⟩
      exact ⟨haddress, hexpected, hconfig.trans (hstanding.pinned made rfl).2.2⟩

theorem Standing.reaccept (hstanding : Standing sha256 deviceId target session) {caller : Inbound}
    (hreaccept : Lifecycle.reaccept sha256 identity session caller inputs = some (.ok next)) :
    Standing sha256 deviceId target next := by
  unfold Lifecycle.reaccept at hreaccept
  split at hreaccept
  · cases hreaccept
  · rename_i hdialled
    obtain ⟨⟨connection, handshake⟩, htake, rfl⟩ := exists_of_map_eq_ok hreaccept
    refine ⟨hstanding.device, hstanding.kind, spec_of_takeCaller htake, ?_⟩
    rintro made rfl
    rw [hstanding.kind] at hdialled
    exact absurd rfl hdialled

theorem Standing.step (hstanding : Standing sha256 deviceId target session)
    {operation : Operation}
    (hstep : Lifecycle.step sha256 identity session operation = some next) :
    Standing sha256 deviceId target next := by
  obtain ⟨outcome, hattempt, houtcome⟩ := Option.map_eq_some_iff.mp hstep
  cases outcome with
  | error error =>
      cases houtcome
      exact hstanding
  | ok after =>
      cases houtcome
      cases operation with
      | reconnect dial inputs => exact hstanding.reconnect hattempt
      | reaccept caller inputs => exact hstanding.reaccept hattempt

/-- However a session came about and whatever was tried with it since, against any peers:
it names a peer that has shown the certificate it claims, a dialled session is with the
address, the certificate and the configuration it was made for, and the operation of the
other kind is refused. -/
theorem session_for_life (hborn : Born sha256 identity deviceId target session)
    {operations : List Operation} {final : P2PSession}
    (hrun : run sha256 identity session operations = some final) :
    Standing sha256 deviceId target final ∧
      (target.isSome → ∀ caller inputs, ∃ error,
        attempt sha256 identity final (.reaccept caller inputs) = some (.error error)) ∧
      (target = none → ∀ dial inputs, ∃ error,
        attempt sha256 identity final (.reconnect dial inputs) = some (.error error)) := by
  have hfinal := Foundation.Run.invariant_run (Standing sha256 deviceId target)
    (fun _ _ _ hstanding hstep => hstanding.step hstep) (standing_of_born hborn) hrun
  refine ⟨hfinal, ?_, ?_⟩
  · intro hdialled caller inputs
    have hkind : final.initiatorTarget.isSome = true := by
      rw [hfinal.kind, Option.isSome_map]
      exact hdialled
    exact ⟨_, if_pos hkind⟩
  · rintro rfl dial inputs
    refine ⟨.protocol [.text "Only initiator sessions can reconnect"], ?_⟩
    simp only [attempt, Lifecycle.reconnect, hfinal.kind, Option.map_none]

def home : Target where
  peerAddr := ⟨[192, 0, 2, 1], 7000⟩
  peerFingerprint := Pinning.padded [1]
  config := .default

/-- The peer answers with its certificate and goes through with the handshake. -/
def homeSession : P2PSession where
  connection := ⟨home.peerAddr, some [[1]]⟩
  deviceId := FixedBytes.filled 16 2
  handshake := result (Pinning.peerHello home.peerFingerprint) home.config
  initiatorTarget := some (home.peerAddr, home.peerFingerprint)

/-- Dialled again in vain at another certificate, then in earnest. -/
def redialled : List Operation :=
  [.reconnect (.presented ⟨[3], []⟩) [], .reaccept (.failed .timeout) [],
    .reconnect (.presented ⟨[1], []⟩) (Pinning.peerScript true home.peerFingerprint)]

theorem session_for_life_redialled : ∃ final,
    run Pinning.padded (Pinning.padded [2]) homeSession redialled = some final ∧
      Standing Pinning.padded (FixedBytes.filled 16 2) (some home) final ∧
      (true → ∀ caller inputs, ∃ error,
        attempt Pinning.padded (Pinning.padded [2]) final (.reaccept caller inputs) =
          some (.error error)) ∧
      (some home = none → ∀ dial inputs, ∃ error,
        attempt Pinning.padded (Pinning.padded [2]) final (.reconnect dial inputs) =
          some (.error error)) := by
  have hborn : Born Pinning.padded (Pinning.padded [2]) (FixedBytes.filled 16 2) (some home)
      homeSession :=
    @Born.connected _ _ _ home (.presented ⟨[1], []⟩) (Pinning.peerScript true home.peerFingerprint)
      _ rfl
  exact ⟨_, rfl, @session_for_life _ _ _ _ _ hborn redialled _ rfl⟩

end P2PFileTransfer.Session.Lifecycle
