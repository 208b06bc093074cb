import P2PFileTransfer.Session.Handshake

/-!
# Sessions through a rendezvous server

`P2PSession::from_rendezvous` from the match the server delivers to the finished
session: the hello to a relay, the race between an outbound and an inbound
connection, and the handshake on the winner.  The transport is library code: an
outbound or inbound attempt arrives with what the peer presented in its TLS
handshake, and the verifiers of this program decide on it.  Binding the socket, the
STUN queries and the registration either fail or lead to the match.
-/

namespace P2PFileTransfer.Session.Rendezvous

open P2PFileTransfer.Foundation.ByteFile
open P2PFileTransfer.Foundation.Process
open P2PFileTransfer.Core.Protocol
open P2PFileTransfer.Session.Handshake

structure SocketAddr where
  ip : Bytes
  port : Nat
  deriving DecidableEq, Repr

/-- The DER encoding of a certificate. -/
abbrev Certificate := Bytes

def protocolMagic : Bytes := [80, 50, 80, 70]

/-- SHA-256 is library code. -/
def fingerprintOf (sha256 : Bytes → Digest) (certificate : Certificate) : Fingerprint :=
  sha256 certificate

structure Connection where
  remoteAddress : SocketAddr
  peerIdentity : Option (List Certificate)
  deriving DecidableEq, Repr

/-- The fingerprint of the first certificate the peer presented. -/
def Connection.peerFingerprint (sha256 : Bytes → Digest) (connection : Connection) :
    Option Fingerprint :=
  match connection.peerIdentity with
  | some (first :: _) => some (fingerprintOf sha256 first)
  | _ => none

/-! ## What the rendezvous server returns -/

structure PeerInfo where
  endpoint : SocketAddr
  fingerprint : Fingerprint
  deviceId : Uuid
  deriving DecidableEq, Repr

structure RelayInfo where
  relayEndpoint : SocketAddr
  sessionToken : Bytes
  peerFingerprint : Fingerprint
  peerDeviceId : Uuid
  deriving DecidableEq, Repr

inductive MatchOutcome where
  | direct (peer : PeerInfo)
  | relay (info : RelayInfo)
  deriving DecidableEq, Repr

/-- The peer as the race sees it: behind a relay it has the address of the relay. -/
def MatchOutcome.peer : MatchOutcome → PeerInfo
  | .direct peer => peer
  | .relay info =>
      { endpoint := info.relayEndpoint
        fingerprint := info.peerFingerprint
        deviceId := info.peerDeviceId }

/-! ## The race -/

/-- What a peer presents in a TLS handshake; an empty chain never completes one. -/
structure Presented where
  endEntity : Certificate
  intermediates : List Certificate
  deriving DecidableEq, Repr

def verifyServerCert (sha256 : Bytes → Digest) (expected : Fingerprint) (presented : Presented) :
    Except Error Unit :=
  if fingerprintOf sha256 presented.endEntity = expected then .ok ()
  else .error (.quic [.text "handshake: peer fingerprint mismatch (expected ", .bytes expected.val,
    .text ", got ", .bytes (fingerprintOf sha256 presented.endEntity).val, .text ")"])

/-- Any certificate will do. -/
def verifyClientCert (_ : Presented) : Except Error Unit := .ok ()

/-- The end of an outbound attempt. -/
inductive Outbound where
  | failed (error : Error)
  | presented (presented : Presented)
  deriving DecidableEq, Repr

/-- The end of the next inbound attempt, with the bytes that prime its control stream. -/
inductive Inbound where
  | failed (error : Error)
  | presented (address : SocketAddr) (presented : Presented) (magic : Bytes)
  deriving DecidableEq, Repr

/-- `QuicEndpoint::connect`. -/
def connect (sha256 : Bytes → Digest) (peerAddr : SocketAddr) (expected : Fingerprint) :
    Outbound → Except Error Connection
  | .failed error => .error error
  | .presented presented =>
      match verifyServerCert sha256 expected presented with
      | .error error => .error error
      | .ok () =>
          .ok { remoteAddress := peerAddr
                peerIdentity := some (presented.endEntity :: presented.intermediates) }

/-- `QuicEndpoint::accept`. -/
def accept : Inbound → Except Error Connection
  | .failed error => .error error
  | .presented address presented magic =>
      match verifyClientCert presented with
      | .error error => .error error
      | .ok () =>
          if magic = protocolMagic then
            .ok { remoteAddress := address
                  peerIdentity := some (presented.endEntity :: presented.intermediates) }
          else .error (.protocol [.text "control stream priming magic mismatch: got ", .bytes magic])

def peerMatches (observed expected : SocketAddr) : Bool := decide (observed = expected)

/-- One turn of the loop in `accept_from`: `none` drops the connection and waits on. -/
def acceptFrom (expected : SocketAddr) (inbound : Inbound) : Option (Except Error Connection) :=
  match accept inbound with
  | .error error => some (.error error)
  | .ok connection =>
      if peerMatches connection.remoteAddress expected then some (.ok connection) else none

inductive RaceEvent where
  | slept
  | outbound (outbound : Outbound)
  | inbound (inbound : Inbound)
  | elapsed
  deriving DecidableEq, Repr

/-- The race runs until one branch completes; the outbound one may have to sleep first. -/
inductive RaceState where
  | racing (connecting : Bool)
  | done (outcome : Except Error Connection)

def raceStep (sha256 : Bytes → Digest) (peer : PeerInfo) : RaceState → RaceEvent → Option RaceState
  | .racing _, .slept => some (.racing true)
  | .racing true, .outbound outbound =>
      some (.done (connect sha256 peer.endpoint peer.fingerprint outbound))
  | .racing connecting, .inbound inbound =>
      match acceptFrom peer.endpoint inbound with
      | none => some (.racing connecting)
      | some outcome => some (.done outcome)
  | .racing _, .elapsed => some (.done (.error (.holePunchFailed [.text "no QUIC handshake completed"])))
  | _, _ => none

/-! ## The session -/

/-- This side of a session to be. -/
structure Local where
  deviceId : Uuid
  fingerprint : Fingerprint
  config : ConfigMessage

structure P2PSession where
  connection : Connection
  deviceId : Uuid
  handshake : HandshakeResult
  initiatorTarget : Option (SocketAddr × Fingerprint)

def P2PSession.peerFingerprint (session : P2PSession) : Fingerprint :=
  session.handshake.peerFingerprint

/-- How often the hello goes to the relay. -/
def relayHellos : Nat := 3

inductive Phase where
  | register
  | joinRelay (peer : PeerInfo) (left : Nat)
  | race (peer : PeerInfo) (state : RaceState)
  | handshake (peer : PeerInfo) (connection : Connection) (state : HandshakeState)
  | ready (session : P2PSession)
  | failed (error : Error)

inductive Event where
  | matched (outcome : MatchOutcome)
  | helloSent
  | race (event : RaceEvent)
  | control (input : HandshakeInput)
  | fail (error : Error)

/-- The smaller device identifier initiates. -/
def initiates (self : Local) (peer : PeerInfo) : Bool := Uuid.lt self.deviceId peer.deviceId

def startRace (self : Local) (peer : PeerInfo) : Phase := .race peer (.racing (initiates self peer))

/-- The side the handshake runs for. -/
def party (sha256 : Bytes → Digest) (self : Local) (connection : Connection) : Party where
  deviceId := self.deviceId
  fingerprint := self.fingerprint
  observed := connection.peerFingerprint sha256
  config := self.config

def finishRace (self : Local) (peer : PeerInfo) : RaceState → Phase
  | .racing connecting => .race peer (.racing connecting)
  | .done (.error error) => .failed error
  | .done (.ok connection) => .handshake peer connection (begin (initiates self peer))

def finishHandshake (self : Local) (peer : PeerInfo) (connection : Connection)
    (state : HandshakeState) : Phase :=
  match state.status with
  | .returned outcome =>
      .ready
        { connection := connection
          deviceId := self.deviceId
          handshake := outcome
          initiatorTarget := none }
  | .failed _ error => .failed error
  | .running _ | .panicked _ _ => .handshake peer connection state

def step (sha256 : Bytes → Digest) (self : Local) : Phase → Event → Option Phase
  | .register, .matched (.direct peer) => some (startRace self peer)
  | .register, .matched (.relay info) =>
      some (.joinRelay (MatchOutcome.relay info).peer relayHellos)
  | .register, .fail error => some (.failed error)
  | .joinRelay peer (left + 1), .helloSent =>
      some (if left = 0 then startRace self peer else .joinRelay peer left)
  | .joinRelay _ _, .fail error => some (.failed error)
  | .race peer state, .race event =>
      (raceStep sha256 peer state event).map fun next => finishRace self peer next
  | .handshake peer connection state, .control input =>
      ((machine (party sha256 self connection)).step state input).map fun next =>
        finishHandshake self peer connection next
  | _, _ => none

abbrev run (sha256 : Bytes → Digest) (self : Local) : Phase → List Event → Option Phase :=
  Foundation.Run.run (step sha256 self)

end P2PFileTransfer.Session.Rendezvous
