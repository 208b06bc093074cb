import P2PFileTransfer.Foundation.Run
import P2PFileTransfer.Foundation.Tables
import P2PFileTransfer.Session.Rendezvous

/-!
# The UDP relay

The forwarding loop, the idle sweep and the reservations of the rendezvous server share
one lock, so each of them is one step on the relay state.  The bandwidth cap computes
with floating point numbers; whether a datagram passes it comes with the datagram.
-/

namespace P2PFileTransfer.Server.Relay

open P2PFileTransfer.Foundation.ByteFile
open P2PFileTransfer.Foundation.Tables
open P2PFileTransfer.Core.Protocol
open P2PFileTransfer.Session.Rendezvous (SocketAddr)

def sessionTokenLen : Nat := 16

def fingerprintLen : Nat := 32

abbrev SessionToken := FixedBytes 16

def relayHelloMagic : Bytes := [80, 50, 82, 90]

/-- In nanoseconds. -/
def sessionIdleTimeout : Nat := 120 * 10 ^ 9

def recvBufBytes : Nat := 65 * 1024

/-! ## The hello of a peer -/

structure RelayHello where
  token : SessionToken
  fingerprint : Fingerprint
  deriving DecidableEq, Repr

def RelayHello.encode (hello : RelayHello) : Bytes :=
  relayHelloMagic ++ ([1, 0, UInt8.ofNat sessionTokenLen, UInt8.ofNat fingerprintLen] ++
    (hello.token.val ++ hello.fingerprint.val))

theorem length_slice {data : Bytes} {offset length : Nat} (hlength : offset + length ≤ data.length) :
    ((data.drop offset).take length).length = length := by
  rw [List.length_take, List.length_drop]
  exact Nat.min_eq_left (Nat.le_sub_of_add_le' hlength)

/-- What follows the fingerprint is ignored. -/
def RelayHello.tryDecode (data : Bytes) : Option RelayHello :=
  if data.length < 8 ∨ data.take 4 ≠ relayHelloMagic then none
  else if data[4]? ≠ some 1 then none
  else if data[6]? ≠ some (UInt8.ofNat sessionTokenLen) ∨
    data[7]? ≠ some (UInt8.ofNat fingerprintLen) then none
  else if hshort : data.length < 8 + 16 + 32 then none
  else
    some
      { token := ⟨(data.drop 8).take 16, length_slice (by omega)⟩
        fingerprint := ⟨(data.drop (8 + 16)).take 32, length_slice (Nat.not_lt.mp hshort)⟩ }

/-- A hello is read back from the beginning of a datagram. -/
theorem tryDecode_encode_append (hello : RelayHello) (trailing : Bytes) :
    RelayHello.tryDecode (hello.encode ++ trailing) = some hello := by
  obtain ⟨⟨token, htoken⟩, fingerprint, hfingerprint⟩ := hello
  have htail : (RelayHello.encode ⟨⟨token, htoken⟩, fingerprint, hfingerprint⟩ ++ trailing).drop 8 =
      token ++ (fingerprint ++ trailing) := List.append_assoc token fingerprint trailing
  have hlength : 8 + 16 + 32 ≤
      (RelayHello.encode ⟨⟨token, htoken⟩, fingerprint, hfingerprint⟩ ++ trailing).length := by
    simp [RelayHello.encode, relayHelloMagic, htoken, hfingerprint]
    omega
  have hfirst : (token ++ (fingerprint ++ trailing)).take 16 = token := List.take_left' htoken
  have hsecond :
      (RelayHello.encode ⟨⟨token, htoken⟩, fingerprint, hfingerprint⟩ ++ trailing).drop (8 + 16) =
        fingerprint ++ trailing := by
    rw [← List.drop_drop, htail]
    exact List.drop_left' htoken
  have hrest : (fingerprint ++ trailing).take 32 = fingerprint := List.take_left' hfingerprint
  rw [RelayHello.tryDecode, if_neg, if_neg, if_neg, dif_neg (Nat.not_lt.mpr hlength)]
  · congr 2
    · exact Subtype.ext ((congrArg (List.take 16) htail).trans hfirst)
    · exact Subtype.ext ((congrArg (List.take 32) hsecond).trans hrest)
  · exact not_or.mpr ⟨not_not.mpr rfl, not_not.mpr rfl⟩
  · exact not_not.mpr rfl
  · exact not_or.mpr ⟨Nat.not_lt.mpr (Nat.le_trans (by decide) hlength), not_not.mpr rfl⟩

/-! ## The state -/

structure PeerState where
  addr : SocketAddr
  fingerprint : Fingerprint
  deriving DecidableEq, Repr

structure Session where
  peerA : Option PeerState
  peerB : Option PeerState
  createdAt : Nat
  lastActive : Nat
  peerAExpectedFp : Fingerprint
  peerBExpectedFp : Fingerprint
  deriving DecidableEq, Repr

structure RelayState where
  sessions : Table SessionToken Session
  addrToToken : Table SocketAddr SessionToken
  bytesForwarded : Nat

inductive RelayError where
  | duplicateFingerprint
  deriving DecidableEq, Repr

def RelayState.default : RelayState := ⟨∅, ∅, 0⟩

def RelayState.reserve (state : RelayState) (token : SessionToken) (peerAFp peerBFp : Fingerprint)
    (now : Nat) : Except RelayError RelayState :=
  if peerAFp = peerBFp then .error .duplicateFingerprint
  else
    .ok { state with
      sessions := state.sessions.insert token
        { peerA := none
          peerB := none
          createdAt := now
          lastActive := now
          peerAExpectedFp := peerAFp
          peerBExpectedFp := peerBFp } }

/-- Drop the index entry of a slot. -/
def unindex (index : Table SocketAddr SessionToken) : Option PeerState → Table SocketAddr SessionToken
  | none => index
  | some peer => index.erase peer.addr

def RelayState.forget (state : RelayState) (token : SessionToken) : RelayState :=
  match state.sessions.lookup token with
  | none => state
  | some session =>
      { state with
        sessions := state.sessions.erase token
        addrToToken := unindex (unindex state.addrToToken session.peerA) session.peerB }

/-- A clock that went backwards counts as no time. -/
def Session.stale (session : Session) (now : Nat) : Bool :=
  if session.peerA.isNone || session.peerB.isNone then
    decide (sessionIdleTimeout < now - session.createdAt)
  else decide (sessionIdleTimeout < now - session.lastActive)

def RelayState.staleTokens (state : RelayState) (now : Nat) : List SessionToken :=
  (state.sessions.entries.filter fun entry => entry.2.stale now).map fun entry => entry.1

def RelayState.evictIdle (state : RelayState) (now : Nat) : RelayState :=
  (state.staleTokens now).foldl RelayState.forget state

/-! ## A datagram -/

/-- Where a datagram from `source` goes once both peers have arrived. -/
def Session.partner (session : Session) (source : SocketAddr) : Option SocketAddr :=
  match session.peerA, session.peerB with
  | some a, some b =>
      if source = a.addr then some b.addr else if source = b.addr then some a.addr else none
  | _, _ => none

/-- The session after a hello from `source`, unless it is a duplicate or an unknown peer. -/
def Session.join (session : Session) (source : SocketAddr) (fingerprint : Fingerprint) (now : Nat) :
    Option Session :=
  if fingerprint = session.peerAExpectedFp then
    if session.peerA.isSome then none
    else some { session with peerA := some ⟨source, fingerprint⟩, lastActive := now }
  else if fingerprint = session.peerBExpectedFp then
    if session.peerB.isSome then none
    else some { session with peerB := some ⟨source, fingerprint⟩, lastActive := now }
  else none

/-- A datagram from an address that has joined a session. -/
def RelayState.forward (state : RelayState) (token : SessionToken) (source : SocketAddr)
    (packet : Bytes) (now : Nat) : RelayState × Option (SocketAddr × Bytes) :=
  match state.sessions.lookup token with
  | none => (state, none)
  | some session =>
      let touched :=
        { state with sessions := state.sessions.insert token { session with lastActive := now } }
      match session.partner source with
      | none => (touched, none)
      | some dest =>
          ({ touched with bytesForwarded := state.bytesForwarded + packet.length },
            some (dest, packet))

/-- A hello from an address that has not joined any.  The session leaves the map and
comes back, changed or not. -/
def RelayState.welcome (state : RelayState) (hello : RelayHello) (source : SocketAddr) (now : Nat) :
    RelayState :=
  match state.sessions.lookup hello.token with
  | none => state
  | some session =>
      let others := state.sessions.erase hello.token
      match session.join source hello.fingerprint now with
      | none => { state with sessions := others.insert hello.token session }
      | some joined =>
          { state with
            sessions := others.insert hello.token joined
            addrToToken := state.addrToToken.insert source hello.token }

def RelayState.receive (state : RelayState) (source : SocketAddr) (packet : Bytes) (now : Nat) :
    RelayState × Option (SocketAddr × Bytes) :=
  match state.addrToToken.lookup source with
  | some token => state.forward token source packet now
  | none =>
      match RelayHello.tryDecode packet with
      | none => (state, none)
      | some hello => (state.welcome hello source now, none)

/-! ## Events -/

/-- The length field of UDP has sixteen bits and counts its own eight bytes. -/
structure Datagram where
  bytes : Bytes
  fits : bytes.length ≤ 65527

inductive Event where
  | reserve (token : SessionToken) (peerAFp peerBFp : Fingerprint) (now : Nat)
  | datagram (source : SocketAddr) (datagram : Datagram) (admitted : Bool) (now : Nat)
  | sweep (now : Nat)

/-- The state after an event and the datagram it sends; one that the cap drops is not
looked at. -/
def step (state : RelayState) : Event → RelayState × Option (SocketAddr × Bytes)
  | .reserve token peerAFp peerBFp now =>
      match state.reserve token peerAFp peerBFp now with
      | .error _ => (state, none)
      | .ok reserved => (reserved, none)
  | .datagram source datagram true now => state.receive source (datagram.bytes.take recvBufBytes) now
  | .datagram _ _ false _ => (state, none)
  | .sweep now => (state.evictIdle now, none)

def next (state : RelayState) (event : Event) : Option RelayState := some (step state event).1

abbrev run : RelayState → List Event → Option RelayState := Foundation.Run.run next

/-- The buffer holds every datagram. -/
@[simp]
theorem Datagram.take_recvBuf (datagram : Datagram) :
    datagram.bytes.take recvBufBytes = datagram.bytes :=
  List.take_of_length_le (Nat.le_trans datagram.fits (by decide))

end P2PFileTransfer.Server.Relay
