import P2PFileTransfer.Server.RelayIndex

/-!
# Taking a reserved seat

Whether a datagram is read as a hello is decided by the index alone: an address that sits in
some session is never asked for a hello again.  A reserved seat can therefore be taken by
every address that holds no slot anywhere, and by no other one.
-/

namespace P2PFileTransfer.Server.RelaySeats

open P2PFileTransfer.Foundation.ByteFile
open P2PFileTransfer.Foundation.Run (Along along_of_forall)
open P2PFileTransfer.Foundation.Tables
open P2PFileTransfer.Core.Protocol
open P2PFileTransfer.Session.Rendezvous (SocketAddr)
open P2PFileTransfer.Server.Relay
open P2PFileTransfer.Server.RelayIsolation
open P2PFileTransfer.Server.RelayIndex

/-- The address sits in the slot, and while the session lives what it sends goes to the peer
in the other slot. -/
structure Seated (state : RelayState) (token : SessionToken) (slot : Slot) (source : SocketAddr)
    (fingerprint : Fingerprint) : Prop where
  bound : ∃ session, state.sessions.lookup token = some session ∧
    peerAt session slot = some ⟨source, fingerprint⟩
  routed : ∀ later final, Along Relay.next Fresh state later →
    Along Relay.next (fun current _ => Alive token current) state later →
      Relay.run state later = some final → ∀ session, final.sessions.lookup token = some session →
        ∀ datagram now, (Relay.step final (.datagram source datagram true now)).2 =
          (peerAt session slot.other).map fun peer => (peer.addr, datagram.bytes)

/-- The address holds no slot of any session. -/
def Homeless (state : RelayState) (source : SocketAddr) : Prop :=
  ∀ token session slot, state.sessions.lookup token = some session → ¬ Bound session slot source

variable {state next : RelayState} {token : SessionToken} {session : Session} {slot : Slot}
  {source : SocketAddr} {fingerprint : Fingerprint} {datagram : Datagram} {trailing : Bytes}
  {now : Nat}

theorem homeless_iff (hindexed : Indexed state) :
    Homeless state source ↔ state.addrToToken.lookup source = none := by
  constructor
  · intro hhomeless
    cases hindex : state.addrToToken.lookup source with
    | none => rfl
    | some token =>
        obtain ⟨session, hsession, hrecords⟩ := (hindexed.recorded source token).mp hindex
        obtain ⟨slot, hslot⟩ := records_iff_bound.mp hrecords
        exact absurd hslot (hhomeless token session slot hsession)
  · intro hnone token session slot hsession hslot
    have hsome := (hindexed.recorded source token).mpr
      ⟨session, hsession, records_iff_bound.mpr ⟨slot, hslot⟩⟩
    rw [hnone] at hsome
    cases hsome

/-! ## The seat is taken -/

/-- A free slot is taken by the fingerprint it expects. -/
theorem join_of_free (hcertified : Certified session) (hfree : peerAt session slot = none)
    (source : SocketAddr) (now : Nat) :
    ∃ joined, session.join source (expectedAt session slot) now = some joined ∧
      peerAt joined slot = some ⟨source, expectedAt session slot⟩ := by
  cases slot with
  | a =>
      have hnone : session.peerA = none := hfree
      refine ⟨{ session with peerA := some ⟨source, session.peerAExpectedFp⟩, lastActive := now },
        ?_, rfl⟩
      simp [Session.join, expectedAt, hnone]
  | b =>
      have hnone : session.peerB = none := hfree
      have hne : session.peerBExpectedFp ≠ session.peerAExpectedFp := hcertified.expected_ne.symm
      refine ⟨{ session with peerB := some ⟨source, session.peerBExpectedFp⟩, lastActive := now },
        ?_, rfl⟩
      simp [Session.join, expectedAt, hnone, hne]

theorem receive_hello (hnone : state.addrToToken.lookup source = none)
    (hgreets : datagram.bytes =
      RelayHello.encode ⟨token, fingerprint⟩ ++ trailing) (now : Nat) :
    (Relay.step state (.datagram source datagram true now)).1 =
      state.welcome ⟨token, fingerprint⟩ source now := by
  rw [Relay.step, Datagram.take_recvBuf, RelayState.receive, hnone, hgreets]
  simp only [tryDecode_encode_append]

theorem bound_of_hello (hcertified : Certified session)
    (hnone : state.addrToToken.lookup source = none)
    (hsession : state.sessions.lookup token = some session) (hfree : peerAt session slot = none)
    (hgreets : datagram.bytes =
      RelayHello.encode ⟨token, expectedAt session slot⟩ ++ trailing) (now : Nat) :
    ∃ found, (Relay.step state (.datagram source datagram true now)).1.sessions.lookup token =
        some found ∧ peerAt found slot = some ⟨source, expectedAt session slot⟩ := by
  obtain ⟨joined, hjoin, hseat⟩ := join_of_free hcertified hfree source now
  refine ⟨joined, ?_, hseat⟩
  rw [receive_hello hnone hgreets]
  simp only [RelayState.welcome, hsession, hjoin]
  rw [lookup_reinsert, if_pos rfl]

/-! ## What the seat is for -/

/-- An address in a slot is paired with the other slot. -/
theorem partner_of_bound (hindexed : Indexed state)
    (hsession : state.sessions.lookup token = some session) (hbound : Bound session slot source) :
    session.partner source = (peerAt session slot.other).map PeerState.addr := by
  obtain ⟨peer, hpeer, rfl⟩ := hbound
  cases slot with
  | a =>
      change session.peerA = some peer at hpeer
      cases hother : session.peerB with
      | none => simp [Session.partner, peerAt, Slot.other, hpeer, hother]
      | some other => simp [Session.partner, peerAt, Slot.other, hpeer, hother]
  | b =>
      change session.peerB = some peer at hpeer
      cases hother : session.peerA with
      | none => simp [Session.partner, peerAt, Slot.other, hpeer, hother]
      | some other =>
          have hne := hindexed.distinct token session other peer hsession hother hpeer
          simp [Session.partner, peerAt, Slot.other, hpeer, hother, hne.symm]

theorem emitted_of_indexed (hindex : state.addrToToken.lookup source = some token)
    (hsession : state.sessions.lookup token = some session) (datagram : Datagram) (now : Nat) :
    (Relay.step state (.datagram source datagram true now)).2 =
      (session.partner source).map fun dest => (dest, datagram.bytes) := by
  simp only [Relay.step, Datagram.take_recvBuf, RelayState.receive, hindex, RelayState.forward,
    hsession]
  cases session.partner source <;> rfl

theorem seated_of_bound (hordered : Ordered state)
    (hsession : state.sessions.lookup token = some session)
    (hseat : peerAt session slot = some ⟨source, fingerprint⟩) :
    Seated state token slot source fingerprint := by
  refine ⟨⟨session, hsession, hseat⟩, ?_⟩
  intro later final hfresh halive hrun found hfound datagram now
  have hfinal := hordered.run hfresh hrun
  have hkept := peerAt_of_run hfresh halive hrun hsession hseat found hfound
  have hbound : Bound found slot source := ⟨_, hkept, rfl⟩
  have hindex : final.addrToToken.lookup source = some token :=
    (hfinal.indexed.recorded source token).mpr
      ⟨found, hfound, records_iff_bound.mpr ⟨slot, hbound⟩⟩
  rw [emitted_of_indexed hindex hfound, partner_of_bound hfinal.indexed hfound hbound,
    Option.map_map]
  rfl

/-! ## The seat is refused -/

/-- A datagram from an address that sits somewhere changes no slot. -/
theorem sameSlots_of_indexed {other : SessionToken} {emitted : Option (SocketAddr × Bytes)}
    (hindex : state.addrToToken.lookup source = some other)
    (hmoved : Moved state (.datagram source datagram true now) next emitted)
    (hsession : state.sessions.lookup token = some session) {found : Session}
    (hfound : next.sessions.lookup token = some found) : SameSlots session found := by
  have hrefl : SameSlots session session := ⟨rfl, rfl, rfl, rfl⟩
  cases hmoved with
  | kept =>
      rw [hsession] at hfound
      cases hfound
      exact hrefl
  | touched htouched hslots hsessions hindexed hemitted =>
      rw [hsessions token] at hfound
      split at hfound
      · rename_i heq
        rw [← heq, hsession] at htouched
        cases htouched
        cases hfound
        exact hslots
      · rw [hsession] at hfound
        cases hfound
        exact hrefl
  | joined hnew hdecode hjoined hjoin hsessions hindexed =>
      rw [hindex] at hnew
      cases hnew

theorem not_seated_of_indexed {other : SessionToken}
    (hindex : state.addrToToken.lookup source = some other)
    (hsession : state.sessions.lookup token = some session) (hfree : peerAt session slot = none)
    (datagram : Datagram) (now : Nat) :
    ¬ Seated (Relay.step state (.datagram source datagram true now)).1 token slot source
      fingerprint := by
  rintro ⟨⟨found, hfound, hseat⟩, _⟩
  have hslots := sameSlots_of_indexed hindex (moved_step state _) hsession hfound
  rw [peerAt_congr hslots, hfree] at hseat
  cases hseat

/-- A hello for a free slot, whatever follows it in the datagram, takes the slot exactly when
its sender holds no slot of any session yet. -/
theorem seat_taken_iff {events : List Event} (hfresh : Along Relay.next Fresh .default events)
    (hrun : Relay.run .default events = some state)
    (hsession : state.sessions.lookup token = some session) (hfree : peerAt session slot = none)
    (hgreets : datagram.bytes =
      RelayHello.encode ⟨token, expectedAt session slot⟩ ++ trailing) :
    Seated (Relay.step state (.datagram source datagram true now)).1 token slot source
        (expectedAt session slot) ↔ Homeless state source := by
  have hordered := ordered_of_run hfresh hrun
  rw [homeless_iff hordered.indexed]
  constructor
  · intro hseated
    cases hindex : state.addrToToken.lookup source with
    | none => rfl
    | some other =>
        exact absurd hseated (not_seated_of_indexed hindex hsession hfree datagram now)
  · intro hnone
    obtain ⟨found, hfound, hseat⟩ := bound_of_hello (hordered.certified token session hsession)
      hnone hsession hfree hgreets now
    exact seated_of_bound (hordered.step trivial) hfound hseat

/-- A reservation for two certificates. -/
def reservation : List Event :=
  [.reserve sharedToken (FixedBytes.filled 32 1) (FixedBytes.filled 32 2) 0]

theorem seat_taken_iff_reservation : ∃ state, Relay.run .default reservation = some state ∧
    (Seated (Relay.step state (.datagram firstPeer (helloWith 1) true 1)).1 sharedToken .a firstPeer
      (FixedBytes.filled 32 1) ↔ Homeless state firstPeer) :=
  have hfresh : Along Relay.next Fresh .default reservation := ⟨rfl, fun _ _ => trivial⟩
  have hsession : (Relay.step .default (.reserve sharedToken (FixedBytes.filled 32 1)
      (FixedBytes.filled 32 2) 0)).1.sessions.lookup sharedToken =
        some ⟨none, none, 0, 0, FixedBytes.filled 32 1, FixedBytes.filled 32 2⟩ := rfl
  ⟨_, rfl, seat_taken_iff hfresh rfl hsession rfl (List.append_nil _).symm⟩

/-! ## A second session behind one address -/

def laterToken : SessionToken := FixedBytes.filled 16 8

def laterHello : Datagram where
  bytes := RelayHello.encode ⟨laterToken, FixedBytes.filled 32 3⟩
  fits := Nat.le_of_ble_eq_true rfl

/-- Two peers have met, and a second session is reserved for two other certificates. -/
def secondSession : List Event :=
  meeting ++ [.reserve laterToken (FixedBytes.filled 32 3) (FixedBytes.filled 32 4) 3]

theorem fresh_secondSession : Along Relay.next Fresh .default secondSession := by
  refine ⟨rfl, ?_⟩
  rintro _ ⟨⟩
  refine ⟨trivial, ?_⟩
  rintro _ ⟨⟩
  refine ⟨trivial, ?_⟩
  rintro _ ⟨⟩
  exact ⟨rfl, fun _ _ => trivial⟩

/-- The address of the first peer does not get the free seat in the second session. -/
theorem seat_refused : ¬ ∀ (events : List Event) (state : RelayState) (token : SessionToken)
    (session : Session) (slot : Slot) (source : SocketAddr) (datagram : Datagram) (now : Nat),
    Along Relay.next Fresh .default events → Relay.run .default events = some state →
      state.sessions.lookup token = some session → peerAt session slot = none →
        (∀ each, ¬ Bound session each source) →
          datagram.bytes = RelayHello.encode ⟨token, expectedAt session slot⟩ →
            Seated (Relay.step state (.datagram source datagram true now)).1 token slot source
              (expectedAt session slot) := by
  intro hclaim
  have hseated := hclaim secondSession _ laterToken
    { peerA := none
      peerB := none
      createdAt := 3
      lastActive := 3
      peerAExpectedFp := FixedBytes.filled 32 3
      peerBExpectedFp := FixedBytes.filled 32 4 } .a firstPeer laterHello 4 fresh_secondSession rfl
    rfl rfl ?_ rfl
  · exact not_seated_of_indexed rfl rfl rfl laterHello 4 hseated
  · rintro (_ | _) ⟨peer, hpeer, _⟩
    · cases hpeer
    · cases hpeer

end P2PFileTransfer.Server.RelaySeats
