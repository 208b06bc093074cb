import P2PFileTransfer.Core.Protocol
import P2PFileTransfer.Foundation.Process

/-!
# The session handshake

Both sides exchange HELLO messages over the control stream and check the claimed
fingerprint against the certificate the transport observed.  The configuration
travels from the initiating side.  The two sides are two entry points of one
process.
-/

namespace P2PFileTransfer.Session.Handshake

open P2PFileTransfer.Foundation.FileSystem
open P2PFileTransfer.Foundation.Process
open P2PFileTransfer.Core.Protocol

structure HandshakeResult where
  peerDeviceId : Uuid
  peerFingerprint : Fingerprint
  config : ConfigMessage
  deriving DecidableEq, Repr

/-- One side and what its transport observed; only an initiating side uses `config`. -/
structure Party where
  deviceId : Uuid
  fingerprint : Fingerprint
  observed : Option Fingerprint
  config : ConfigMessage

inductive Stage where
  | clientSendHello
  | clientRecvHelloAck
  | clientSendConfig (peer : HelloMessage)
  | clientRecvConfigAck (peer : HelloMessage)
  | serverRecvHello
  | serverSendHelloAck (peer : HelloMessage)
  | serverRecvConfig (peer : HelloMessage)
  | serverSendConfigAck (peer : HelloMessage) (config : ConfigMessage)
  deriving DecidableEq, Repr

abbrev StageStatus := Status Stage HandshakeResult Error

def crossCheckFingerprint (claimed : Fingerprint) (observed : Option Fingerprint) :
    Except Error Unit :=
  match observed with
  | some actual => if actual = claimed then .ok () else .error .fingerprintMismatch
  | none => .error .fingerprintMismatch

def hello (party : Party) : HelloMessage where
  protocolVersion := protocolVersion
  minVersion := minProtocolVersion
  deviceId := party.deviceId
  certFingerprint := party.fingerprint

/-- The version comes first, then the fingerprint. -/
def checkPeer (party : Party) (peer : HelloMessage) : Except Error Unit :=
  if peer.protocolVersion ≠ protocolVersion then
    .error (.versionMismatch peer.protocolVersion protocolVersion)
  else crossCheckFingerprint peer.certFingerprint party.observed

def result (peer : HelloMessage) (config : ConfigMessage) : HandshakeResult where
  peerDeviceId := peer.deviceId
  peerFingerprint := peer.certFingerprint
  config := config

def action (party : Party) : Stage → Action Message
  | .clientSendHello => .send (.hello (hello party))
  | .clientSendConfig _ => .send (.config party.config)
  | .serverSendHelloAck _ => .send (.helloAck (hello party))
  | .serverSendConfigAck _ _ => .send .configAck
  | .clientRecvHelloAck | .clientRecvConfigAck _ | .serverRecvHello | .serverRecvConfig _ => .receive

def readHelloAck (party : Party) (message : Message) : StageStatus :=
  match message with
  | .helloAck peer =>
      .ofExcept .clientRecvHelloAck (checkPeer party peer) fun _ => .running (.clientSendConfig peer)
  | .error refusal =>
      .failed .clientRecvHelloAck
        (.protocol [.text "Handshake error: ", .path refusal.message])
  | other => .failed .clientRecvHelloAck (.protocol [.text "Expected HelloAck, got ", .message other])

def readConfigAck (party : Party) (peer : HelloMessage) (message : Message) : StageStatus :=
  match message with
  | .configAck => .returned (result peer party.config)
  | .error refusal =>
      .failed (.clientRecvConfigAck peer) (.protocol [.text "Config rejected: ", .path refusal.message])
  | other =>
      .failed (.clientRecvConfigAck peer) (.protocol [.text "Expected ConfigAck, got ", .message other])

def readHello (party : Party) (message : Message) : StageStatus :=
  match message with
  | .hello peer =>
      .ofExcept .serverRecvHello (checkPeer party peer) fun _ => .running (.serverSendHelloAck peer)
  | other => .failed .serverRecvHello (.protocol [.text "Expected Hello, got ", .message other])

def readConfig (peer : HelloMessage) (message : Message) : StageStatus :=
  match message with
  | .config config => .running (.serverSendConfigAck peer config)
  | other => .failed (.serverRecvConfig peer) (.protocol [.text "Expected Config, got ", .message other])

/-- The last branch is never taken: a wait is answered in kind. -/
def resume (party : Party) : Stage → Reply Message Bool → StageStatus
  | .clientSendHello, .done => .running .clientRecvHelloAck
  | .clientRecvHelloAck, .message message => readHelloAck party message
  | .clientSendConfig peer, .done => .running (.clientRecvConfigAck peer)
  | .clientRecvConfigAck peer, .message message => readConfigAck party peer message
  | .serverRecvHello, .message message => readHello party message
  | .serverSendHelloAck peer, .done => .running (.serverRecvConfig peer)
  | .serverRecvConfig peer, .message message => readConfig peer message
  | .serverSendConfigAck peer config, .done => .returned (result peer config)
  | stage, _ => .running stage

def machine (party : Party) : Machine Stage HandshakeResult Message Bool Error where
  action := action party
  resume := resume party

/-- `HandshakeClient::perform_handshake` or `HandshakeServer::perform_handshake`. -/
def entry (initiates : Bool) : Stage := if initiates then .clientSendHello else .serverRecvHello

abbrev HandshakeState := State Stage HandshakeResult Error

abbrev HandshakeInput := Input Message Bool Error

/-- A handshake reads and writes no file. -/
def begin (initiates : Bool) : HandshakeState := ⟨.running (entry initiates), fun _ => none⟩

variable {party : Party}

theorem resume_elim {motive : Stage → StageStatus → Prop}
    (hsendHello : motive .clientSendHello (.running .clientRecvHelloAck))
    (hhelloAck : ∀ message, motive .clientRecvHelloAck (readHelloAck party message))
    (hsendConfig : ∀ peer, motive (.clientSendConfig peer) (.running (.clientRecvConfigAck peer)))
    (hconfigAck : ∀ peer message,
      motive (.clientRecvConfigAck peer) (readConfigAck party peer message))
    (hhello : ∀ message, motive .serverRecvHello (readHello party message))
    (hsendAck : ∀ peer, motive (.serverSendHelloAck peer) (.running (.serverRecvConfig peer)))
    (hconfig : ∀ peer message, motive (.serverRecvConfig peer) (readConfig peer message))
    (hsendConfigAck : ∀ peer config,
      motive (.serverSendConfigAck peer config) (.returned (result peer config)))
    (stage : Stage) (reply : Reply Message Bool) (hfits : (action party stage).Fits reply) :
    motive stage (resume party stage reply) := by
  cases stage <;> cases reply <;> try exact hfits.elim
  case clientSendHello.done => exact hsendHello
  case clientRecvHelloAck.message message => exact hhelloAck message
  case clientSendConfig.done peer => exact hsendConfig peer
  case clientRecvConfigAck.message peer message => exact hconfigAck peer message
  case serverRecvHello.message message => exact hhello message
  case serverSendHelloAck.done peer => exact hsendAck peer
  case serverRecvConfig.message peer message => exact hconfig peer message
  case serverSendConfigAck.done peer config => exact hsendConfigAck peer config

theorem crossCheckFingerprint_eq_ok_iff {claimed : Fingerprint} {observed : Option Fingerprint} :
    crossCheckFingerprint claimed observed = .ok () ↔ observed = some claimed := by
  cases observed with
  | none => exact ⟨nofun, nofun⟩
  | some actual =>
      rw [crossCheckFingerprint]
      by_cases heq : actual = claimed
      · rw [if_pos heq, heq]
        exact ⟨fun _ => rfl, fun _ => rfl⟩
      · rw [if_neg heq]
        exact ⟨nofun, fun hsome => absurd (Option.some.inj hsome) heq⟩

theorem checkPeer_eq_ok_iff {peer : HelloMessage} :
    checkPeer party peer = .ok () ↔
      peer.protocolVersion = protocolVersion ∧ party.observed = some peer.certFingerprint := by
  rw [checkPeer]
  by_cases hversion : peer.protocolVersion = protocolVersion
  · rw [if_neg (not_not.mpr hversion), crossCheckFingerprint_eq_ok_iff]
    exact ⟨fun hobserved => ⟨hversion, hobserved⟩, fun hboth => hboth.2⟩
  · rw [if_pos hversion]
    exact ⟨nofun, fun hboth => absurd hboth.1 hversion⟩

/-- What a side knows after it has read the peer's HELLO, and what it returns: the peer
holds the certificate it claims. -/
def Checked (party : Party) : StageStatus → Prop
  | .running (.clientSendConfig peer) | .running (.clientRecvConfigAck peer)
  | .running (.serverSendHelloAck peer) | .running (.serverRecvConfig peer)
  | .running (.serverSendConfigAck peer _) => party.observed = some peer.certFingerprint
  | .returned outcome => party.observed = some outcome.peerFingerprint
  | _ => True

theorem checked_inductive : Inductive (machine party) (Checked party) := by
  constructor
  · intro stage reply hfits hchecked
    refine resume_elim (motive := fun stage status =>
      Checked party (.running stage) → Checked party status)
      ?sendHello ?helloAck ?sendConfig ?configAck ?hello ?sendAck ?config ?sendConfigAck
      stage reply hfits hchecked
    case sendHello => exact id
    case helloAck =>
        intro message _
        unfold readHelloAck
        split
        · rename_i peer
          cases hpeer : checkPeer party peer with
          | error error => trivial
          | ok done => exact (checkPeer_eq_ok_iff.mp hpeer).2
        · trivial
        · trivial
    case sendConfig => exact fun _ => id
    case configAck =>
        intro peer message hpeer
        unfold readConfigAck
        split
        · exact hpeer
        · trivial
        · trivial
    case hello =>
        intro message _
        unfold readHello
        split
        · rename_i peer
          cases hpeer : checkPeer party peer with
          | error error => trivial
          | ok done => exact (checkPeer_eq_ok_iff.mp hpeer).2
        · trivial
    case sendAck => exact fun _ => id
    case config =>
        intro peer message hpeer
        unfold readConfig
        split
        · exact hpeer
        · trivial
    case sendConfigAck => exact fun _ _ => id
  · intro _ _ _
    trivial

/-- A handshake that succeeds returns the fingerprint the transport observed. -/
theorem observed_of_run {initiates : Bool} {inputs : List HandshakeInput}
    {final : HandshakeState} {outcome : HandshakeResult}
    (hrun : Foundation.Run.run (machine party).step (begin initiates) inputs = some final)
    (hreturned : final.status = .returned outcome) :
    party.observed = some outcome.peerFingerprint := by
  have hstart : Checked party (begin initiates).status := by
    cases initiates <;> trivial
  have hfinal := checked_inductive.run hrun hstart
  rw [hreturned] at hfinal
  exact hfinal

end P2PFileTransfer.Session.Handshake
