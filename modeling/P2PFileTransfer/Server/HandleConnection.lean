import Mathlib.Logic.Function.Basic
import P2PFileTransfer.Server.Relay

/-!
# The rendezvous server

Every accepted connection runs `handle_connection`: it reads one registration, looks for
a waiter under its code, and either pairs with it or becomes a waiter itself.  One step
is what a connection does between two awaits: a lock section, the end of a write, a
oneshot send, a wake-up or a timer.  A oneshot channel is named by the connection that
holds its receiver.  The log keeps what was registered, reserved, paired and sent.
-/

namespace P2PFileTransfer.Server.HandleConnection

open P2PFileTransfer.Foundation.Tables
open P2PFileTransfer.Core.Protocol (Fingerprint Uuid)
open P2PFileTransfer.Session.Rendezvous (SocketAddr)
open P2PFileTransfer.Server.Relay (SessionToken RelayState)

/-! ## Messages -/

/-- A string is the list of its characters. -/
abbrev Code := List Char

structure RegisterRequest where
  protocolVersion : Nat
  code : Code
  publicEndpoint : SocketAddr
  certFingerprint : Fingerprint
  deviceId : Uuid
  wantRelay : Bool
  deriving DecidableEq, Repr

inductive Message where
  | register (request : RegisterRequest)
  | matched (peerEndpoint : SocketAddr) (peerFingerprint : Fingerprint) (peerDeviceId : Uuid)
  | relayMatch (relayEndpoint : SocketAddr) (relaySessionToken : SessionToken)
      (peerFingerprint : Fingerprint) (peerDeviceId : Uuid)
  | expired
  | rejected (reason : String)
  deriving DecidableEq, Repr

def protocolVersion : Nat := 1

/-- Four to thirty-two bytes, all of them letters or digits. -/
def isValidCode (code : Code) : Bool :=
  decide (4 ≤ (code.map Char.utf8Size).sum ∧ (code.map Char.utf8Size).sum ≤ 32) &&
    code.all Char.isAlphanum

/-- The address comes from the TCP connection, only the port from the peer. -/
def stamp (peer : SocketAddr) (request : RegisterRequest) : RegisterRequest :=
  { request with publicEndpoint := ⟨peer.ip, request.publicEndpoint.port⟩ }

/-- How the first frame of a connection arrives. -/
inductive FirstFrame where
  | message (message : Message)
  | undecodable
  | silent

/-! ## The state -/

structure PeerSummary where
  fingerprint : Fingerprint
  deviceId : Uuid
  deriving DecidableEq, Repr

inductive NotifyPayload where
  | direct (second : RegisterRequest)
  | relay (token : SessionToken) (relayEndpoint : SocketAddr) (peer : PeerSummary)
  deriving DecidableEq, Repr

/-- `notify` is the sender of the channel that connection listens on. -/
structure Waiter where
  first : RegisterRequest
  notify : Nat
  expiresAt : Nat
  deriving DecidableEq, Repr

/-- Once closed, nothing comes out of it any more. -/
inductive Channel where
  | opened
  | holds (payload : NotifyPayload)
  | closed
  deriving DecidableEq, Repr

inductive Stage where
  | absent
  | reading (peer : SocketAddr)
  | looking (peer : SocketAddr) (request : RegisterRequest)
  | pairing (request : RegisterRequest) (waiter : Waiter)
  | delivering (waiter : Waiter) (message : Message) (payload : NotifyPayload)
  | notifying (waiter : Waiter) (payload : NotifyPayload)
  | registering (request : RegisterRequest)
  | waiting (request : RegisterRequest)
  | cleaning (request : RegisterRequest) (outcome : Option NotifyPayload)
  | answering (message : Message)
  | rejecting (reason : String) (held : Option Waiter)
  | done
  deriving DecidableEq, Repr

/-- How two peers are to meet. -/
inductive Plan where
  | direct
  | relay (relayEndpoint : SocketAddr) (token : SessionToken)
  deriving DecidableEq, Repr

inductive Entry where
  | registered (conn : Nat) (peer : SocketAddr) (request : RegisterRequest)
  | reserved (token : SessionToken) (first second : Fingerprint)
  | paired (second first : Nat) (plan : Plan)
  | sent (conn : Nat) (message : Message)
  | broken (conn : Nat)
  deriving DecidableEq, Repr

structure State where
  stages : Nat → Stage
  channels : Nat → Channel
  waiting : Table Code Waiter
  relay : Option (SocketAddr × RelayState)
  log : List Entry

def start (relay : Option (SocketAddr × RelayState)) : State where
  stages := fun _ => .absent
  channels := fun _ => .opened
  waiting := ∅
  relay := relay
  log := []

def State.goto (state : State) (conn : Nat) (stage : Stage) : State :=
  { state with stages := Function.update state.stages conn stage }

def State.record (state : State) (entry : Entry) : State :=
  { state with log := state.log ++ [entry] }

def Channel.close : Channel → Channel
  | .opened | .closed => .closed
  | .holds payload => .holds payload

def State.drop (state : State) (waiter : Waiter) : State :=
  { state with channels :=
      Function.update state.channels waiter.notify (state.channels waiter.notify).close }

def State.dropHeld (state : State) : Option Waiter → State
  | none => state
  | some waiter => state.drop waiter

/-! ## The steps of a connection -/

def State.readFirst (state : State) (conn : Nat) (peer : SocketAddr) : FirstFrame → State
  | .message (.register request) =>
      let logged := state.record (.registered conn peer request)
      if request.protocolVersion ≠ protocolVersion then
        logged.goto conn (.rejecting ("unsupported rendezvous protocol version " ++
          toString request.protocolVersion ++ " (server speaks " ++ toString protocolVersion ++ ")")
          none)
      else if isValidCode request.code = false then
        logged.goto conn (.rejecting "code must be 4..32 ascii-alphanumeric chars" none)
      else logged.goto conn (.looking peer request)
  | .message _ => state.goto conn (.rejecting "first frame must be Register" none)
  | .undecodable | .silent => state.goto conn .done

/-- The waiters that a look-up at `now` drops. -/
def expired (now : Nat) (waiting : Table Code Waiter) : List Waiter :=
  (waiting.entries.filter fun entry => !decide (now < entry.2.expiresAt)).map fun entry => entry.2

def unexpired (now : Nat) (waiting : Table Code Waiter) : Table Code Waiter :=
  retain (fun _ waiter => decide (now < waiter.expiresAt)) waiting

def State.sweep (state : State) (now : Nat) : State :=
  { (expired now state.waiting).foldl State.drop state with
    waiting := unexpired now state.waiting }

/-- The first critical section. -/
def State.lookUp (state : State) (conn : Nat) (peer : SocketAddr) (request : RegisterRequest)
    (now : Nat) : State :=
  let swept := state.sweep now
  match swept.waiting.lookup request.code with
  | some waiter =>
      { swept with waiting := swept.waiting.erase request.code }.goto conn
        (.pairing (stamp peer request) waiter)
  | none => swept.goto conn (.registering (stamp peer request))

def State.direct (state : State) (conn : Nat) (request : RegisterRequest) (waiter : Waiter) : State :=
  (state.record (.paired conn waiter.notify .direct)).goto conn
    (.delivering waiter
      (.matched waiter.first.publicEndpoint waiter.first.certFingerprint waiter.first.deviceId)
      (.direct request))

/-- The second peer: relay or direct. -/
def State.pair (state : State) (conn : Nat) (request : RegisterRequest) (waiter : Waiter)
    (token : SessionToken) (now : Nat) : State :=
  if request.wantRelay || waiter.first.wantRelay then
    match state.relay with
    | some (relayAddr, relay) =>
        match relay.reserve token waiter.first.certFingerprint request.certFingerprint now with
        | .error _ => state.goto conn (.rejecting "relay refused session" (some waiter))
        | .ok reserved =>
            (({ state with relay := some (relayAddr, reserved) }.record
              (.reserved token waiter.first.certFingerprint request.certFingerprint)).record
              (.paired conn waiter.notify (.relay relayAddr token))).goto conn
              (.delivering waiter
                (.relayMatch relayAddr token waiter.first.certFingerprint waiter.first.deviceId)
                (.relay token relayAddr ⟨request.certFingerprint, request.deviceId⟩))
    | none => state.direct conn request waiter
  else state.direct conn request waiter

/-- Nothing is sent to a receiver that is gone. -/
def State.notify (state : State) (waiter : Waiter) (payload : NotifyPayload) : State :=
  match state.channels waiter.notify with
  | .opened =>
      { state with channels := Function.update state.channels waiter.notify (.holds payload) }
  | _ => state

/-- The second critical section. -/
def State.register (state : State) (ttl conn : Nat) (request : RegisterRequest) (now : Nat) : State :=
  match state.waiting.lookup request.code with
  | some _ => state.goto conn (.rejecting "code already in use, ask for a fresh one" none)
  | none =>
      { state with
        waiting := state.waiting.insert request.code
          (Waiter.mk request conn (now + ttl)) }.goto conn (.waiting request)

/-- The third critical section: a waiter with this device identifier is taken for the own. -/
def State.cleanUp (state : State) (request : RegisterRequest) : State :=
  match state.waiting.lookup request.code with
  | some waiter =>
      if waiter.first.deviceId = request.deviceId then
        { state.drop waiter with waiting := state.waiting.erase request.code }
      else state
  | none => state

def NotifyPayload.message : NotifyPayload → Message
  | .direct second => .matched second.publicEndpoint second.certFingerprint second.deviceId
  | .relay token relayEndpoint peer =>
      .relayMatch relayEndpoint token peer.fingerprint peer.deviceId

def outcomeMessage : Option NotifyPayload → Message
  | some payload => payload.message
  | none => .expired

inductive Input where
  | accept (peer : SocketAddr)
  | frame (frame : FirstFrame)
  | lookUp (now : Nat)
  | pair (token : SessionToken) (now : Nat)
  | register (now : Nat)
  | written
  | failed
  | notify
  | wake
  | timeout
  | cleanUp

/-- A timer that fires together with a message loses. -/
def State.advance (state : State) (ttl conn : Nat) : Stage → Input → Option State
  | .absent, .accept peer => some (state.goto conn (.reading peer))
  | .reading peer, .frame frame => some (state.readFirst conn peer frame)
  | .looking peer request, .lookUp now => some (state.lookUp conn peer request now)
  | .pairing request waiter, .pair token now => some (state.pair conn request waiter token now)
  | .delivering waiter message payload, .written =>
      some ((state.record (.sent conn message)).goto conn (.notifying waiter payload))
  | .delivering waiter _ _, .failed =>
      some (((state.drop waiter).record (.broken conn)).goto conn .done)
  | .notifying waiter payload, .notify => some ((state.notify waiter payload).goto conn .done)
  | .registering request, .register now => some (state.register ttl conn request now)
  | .waiting request, .wake =>
      match state.channels conn with
      | .opened => none
      | .holds payload => some (state.goto conn (.cleaning request (some payload)))
      | .closed => some (state.goto conn (.cleaning request none))
  | .waiting request, .timeout =>
      match state.channels conn with
      | .opened =>
          some ({ state with channels := Function.update state.channels conn .closed }.goto conn
            (.cleaning request none))
      | .holds _ | .closed => none
  | .cleaning request outcome, .cleanUp =>
      some ((state.cleanUp request).goto conn (.answering (outcomeMessage outcome)))
  | .answering message, .written => some ((state.record (.sent conn message)).goto conn .done)
  | .answering _, .failed => some ((state.record (.broken conn)).goto conn .done)
  | .rejecting reason held, .written =>
      some (((state.dropHeld held).record (.sent conn (.rejected reason))).goto conn .done)
  | .rejecting _ held, .failed =>
      some (((state.dropHeld held).record (.broken conn)).goto conn .done)
  | _, _ => none

/-- A step of one connection, or of the relay on its own. -/
inductive Event where
  | connection (conn : Nat) (input : Input)
  | relay (event : Relay.Event)

/-- Reservations are made by the connections only. -/
def step (ttl : Nat) (state : State) : Event → Option State
  | .connection conn input => state.advance ttl conn (state.stages conn) input
  | .relay (.reserve _ _ _ _) => none
  | .relay event =>
      state.relay.map fun relay =>
        { state with relay := some (relay.1, (Relay.step relay.2 event).1) }

abbrev run (ttl : Nat) : State → List Event → Option State := Foundation.Run.run (step ttl)

end P2PFileTransfer.Server.HandleConnection
