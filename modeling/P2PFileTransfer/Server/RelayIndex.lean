import P2PFileTransfer.Server.RelayIsolation

/-!
# The two maps of the relay stay in step

The index entries are written and deleted by address, one at a time, next to the session
table.  No two slots of the relay ever hold one address, so the entry of a slot is its own,
and an address in a slot stays there as long as the session lives.
-/

namespace P2PFileTransfer.Server.RelayIndex

open P2PFileTransfer.Foundation.Run (Along along_and invariant_along)
open P2PFileTransfer.Foundation.Tables
open P2PFileTransfer.Core.Protocol
open P2PFileTransfer.Session.Rendezvous (SocketAddr)
open P2PFileTransfer.Server.Relay
open P2PFileTransfer.Server.RelayIsolation

inductive Slot where
  | a
  | b
  deriving DecidableEq, Repr

def Slot.other : Slot → Slot
  | .a => .b
  | .b => .a

def peerAt (session : Session) : Slot → Option PeerState
  | .a => session.peerA
  | .b => session.peerB

def expectedAt (session : Session) : Slot → Fingerprint
  | .a => session.peerAExpectedFp
  | .b => session.peerBExpectedFp

/-- The slot is bound to this address. -/
def Bound (session : Session) (slot : Slot) (address : SocketAddr) : Prop :=
  ∃ peer, peerAt session slot = some peer ∧ peer.addr = address

/-- The index has one entry for each bound slot and no others, and who sits in a slot has
the certificate that was reserved for it. -/
structure Consistent (state : RelayState) : Prop where
  indexed : ∀ address token, state.addrToToken.lookup address = some token ↔
    ∃ session, state.sessions.lookup token = some session ∧ ∃! slot, Bound session slot address
  distinct : ∀ first second left right i j address,
    state.sessions.lookup first = some left → state.sessions.lookup second = some right →
      Bound left i address → Bound right j address → first = second ∧ i = j
  expected_ne : ∀ token session, state.sessions.lookup token = some session →
    expectedAt session .a ≠ expectedAt session .b
  genuine : ∀ token session slot peer, state.sessions.lookup token = some session →
    peerAt session slot = some peer → peer.fingerprint = expectedAt session slot

/-- The session is in the table. -/
def Alive (token : SessionToken) (state : RelayState) : Prop :=
  ∃ session, state.sessions.lookup token = some session

variable {state next final : RelayState} {token : SessionToken} {session joined : Session}
  {source address : SocketAddr} {fingerprint : Fingerprint} {event : Event}
  {emitted : Option (SocketAddr × List UInt8)} {slot : Slot} {peer : PeerState}

/-! ## Slots -/

theorem records_iff_bound : Records session address ↔ ∃ slot, Bound session slot address := by
  constructor
  · rintro ⟨peer, hpeer | hpeer, haddress⟩
    · exact ⟨.a, peer, hpeer, haddress⟩
    · exact ⟨.b, peer, hpeer, haddress⟩
  · rintro ⟨slot, peer, hpeer, haddress⟩
    cases slot with
    | a => exact ⟨peer, .inl hpeer, haddress⟩
    | b => exact ⟨peer, .inr hpeer, haddress⟩

/-- The two slots of a session do not share an address. -/
theorem Indexed.slot_unique (hindexed : Indexed state)
    (hsession : state.sessions.lookup token = some session) {other : Slot}
    (hslot : Bound session slot address) (hother : Bound session other address) : slot = other := by
  obtain ⟨left, hleft, hleftAddr⟩ := hslot
  obtain ⟨right, hright, hrightAddr⟩ := hother
  have hsame := hleftAddr.trans hrightAddr.symm
  cases slot with
  | a =>
      cases other with
      | a => rfl
      | b => exact absurd hsame (hindexed.distinct token session left right hsession hleft hright)
  | b =>
      cases other with
      | a =>
          exact absurd hsame.symm
            (hindexed.distinct token session right left hsession hright hleft)
      | b => rfl

theorem peerAt_congr {changed : Session} (hslots : SameSlots session changed) (slot : Slot) :
    peerAt changed slot = peerAt session slot := by
  cases slot with
  | a => exact hslots.peerA
  | b => exact hslots.peerB

theorem expectedAt_congr {changed : Session} (hslots : SameSlots session changed) (slot : Slot) :
    expectedAt changed slot = expectedAt session slot := by
  cases slot with
  | a => exact hslots.peerAExpectedFp
  | b => exact hslots.peerBExpectedFp

/-- A hello takes one free slot, the one its fingerprint is expected in. -/
theorem exists_slot_of_took (htook : Took session joined source fingerprint) :
    ∃ slot, peerAt session slot = none ∧ fingerprint = expectedAt session slot ∧
      peerAt joined slot = some ⟨source, fingerprint⟩ ∧
      peerAt joined slot.other = peerAt session slot.other ∧
      ∀ each, expectedAt joined each = expectedAt session each := by
  cases htook with
  | slotA hfingerprint hfree hpeerA hpeerB hexpectedA hexpectedB =>
      refine ⟨.a, hfree, hfingerprint, hpeerA, hpeerB, ?_⟩
      rintro (_ | _)
      · exact hexpectedA
      · exact hexpectedB
  | slotB hfingerprint hfree hpeerB hpeerA hexpectedA hexpectedB =>
      refine ⟨.b, hfree, hfingerprint, hpeerB, hpeerA, ?_⟩
      rintro (_ | _)
      · exact hexpectedA
      · exact hexpectedB

theorem eq_or_eq_other (slot each : Slot) : each = slot ∨ each = slot.other := by
  cases slot <;> cases each <;> simp [Slot.other]

/-- Whoever sat in a session before a hello still sits there. -/
theorem peerAt_of_took (htook : Took session joined source fingerprint)
    (hpeer : peerAt session slot = some peer) : peerAt joined slot = some peer := by
  obtain ⟨taken, hfree, _, _, hothers, _⟩ := exists_slot_of_took htook
  rcases eq_or_eq_other taken slot with rfl | rfl
  · rw [hfree] at hpeer
    cases hpeer
  · rw [hothers]
    exact hpeer

/-! ## Certificates -/

/-- The sessions of a state that changes at one token. -/
theorem forall_of_becomes {property : SessionToken → Session → Prop}
    (hall : ∀ other found, state.sessions.lookup other = some found → property other found)
    (hsessions : Becomes state next token session) (hsession : property token session) :
    ∀ other found, next.sessions.lookup other = some found → property other found := by
  intro other found hfound
  rw [hsessions other] at hfound
  by_cases heq : other = token
  · rw [if_pos heq] at hfound
    cases hfound
    rw [heq]
    exact hsession
  · rw [if_neg heq] at hfound
    exact hall other found hfound

/-- The certificates of a session are two, and its peers have shown theirs. -/
structure Certified (session : Session) : Prop where
  expected_ne : expectedAt session .a ≠ expectedAt session .b
  genuine : ∀ slot peer, peerAt session slot = some peer →
    peer.fingerprint = expectedAt session slot

def AllCertified (state : RelayState) : Prop :=
  ∀ token session, state.sessions.lookup token = some session → Certified session

theorem Certified.congr {changed : Session} (hcertified : Certified session)
    (hslots : SameSlots session changed) : Certified changed := by
  constructor
  · rw [expectedAt_congr hslots, expectedAt_congr hslots]
    exact hcertified.expected_ne
  · intro slot peer hpeer
    rw [peerAt_congr hslots] at hpeer
    rw [expectedAt_congr hslots]
    exact hcertified.genuine slot peer hpeer

theorem Certified.took (hcertified : Certified session)
    (htook : Took session joined source fingerprint) : Certified joined := by
  obtain ⟨taken, _, hfingerprint, htaken, hothers, hexpected⟩ := exists_slot_of_took htook
  constructor
  · rw [hexpected, hexpected]
    exact hcertified.expected_ne
  · intro slot peer hpeer
    rw [hexpected]
    rcases eq_or_eq_other taken slot with rfl | rfl
    · rw [htaken] at hpeer
      cases hpeer
      exact hfingerprint
    · rw [hothers] at hpeer
      exact hcertified.genuine _ peer hpeer

theorem certified_vacant {first second : Fingerprint} (hne : first ≠ second)
    (hvacant : Vacant session first second) : Certified session := by
  constructor
  · change session.peerAExpectedFp ≠ session.peerBExpectedFp
    rw [hvacant.peerAExpectedFp, hvacant.peerBExpectedFp]
    exact hne
  · intro slot peer hpeer
    cases slot with
    | a => simp [peerAt, hvacant.peerA] at hpeer
    | b => simp [peerAt, hvacant.peerB] at hpeer

theorem allCertified_moved (hall : AllCertified state) (hmoved : Moved state event next emitted) :
    AllCertified next := by
  cases hmoved with
  | kept => exact hall
  | reserved hne hvacant hsessions hindex =>
      exact forall_of_becomes hall hsessions (certified_vacant hne hvacant)
  | touched hsession hslots hsessions hindex hemitted =>
      exact forall_of_becomes hall hsessions ((hall _ _ hsession).congr hslots)
  | joined hnew hdecode hsession hjoin hsessions hindex =>
      exact forall_of_becomes hall hsessions ((hall _ _ hsession).took (took_of_join hjoin))
  | swept =>
      intro token session hsession
      exact hall token session (lookup_of_foldl_forget _ hsession)

/-! ## Addresses -/

/-- A slot of a session is as it was, unless the session is gone. -/
theorem peerAt_moved (hfresh : Fresh state event) (hmoved : Moved state event next emitted)
    (hsession : state.sessions.lookup token = some session)
    (hpeer : peerAt session slot = some peer) :
    ∀ found, next.sessions.lookup token = some found → peerAt found slot = some peer := by
  have hold : ∀ found, state.sessions.lookup token = some found → peerAt found slot = some peer := by
    intro found hfound
    rw [hsession] at hfound
    cases hfound
    exact hpeer
  cases hmoved with
  | kept => exact hold
  | reserved hne hvacant hsessions hindex =>
      intro found hfound
      rw [hsessions token] at hfound
      split at hfound
      · rename_i heq
        have hnone : state.sessions.lookup token = none := heq ▸ hfresh
        rw [hsession] at hnone
        cases hnone
      · exact hold found hfound
  | touched htouched hslots hsessions hindex hemitted =>
      intro found hfound
      rw [hsessions token] at hfound
      split at hfound
      · rename_i heq
        cases hfound
        rw [peerAt_congr hslots]
        exact hold _ (heq ▸ htouched)
      · exact hold found hfound
  | joined hnew hdecode hjoined hjoin hsessions hindex =>
      intro found hfound
      rw [hsessions token] at hfound
      split at hfound
      · rename_i heq
        cases hfound
        exact peerAt_of_took (took_of_join hjoin) (hold _ (heq ▸ hjoined))
      · exact hold found hfound
  | swept =>
      intro found hfound
      exact hold found (lookup_of_foldl_forget _ hfound)

/-! ## Every run -/

/-- What every state of the relay knows about its sessions. -/
structure Ordered (state : RelayState) : Prop where
  indexed : Indexed state
  certified : AllCertified state

theorem ordered_default : Ordered .default where
  indexed := indexed_default
  certified := by
    intro token session hsession
    cases hsession

theorem Ordered.step (hordered : Ordered state) (hfresh : Fresh state event) :
    Ordered (Relay.step state event).1 :=
  ⟨indexed_moved hordered.indexed hfresh (moved_step state event),
    allCertified_moved hordered.certified (moved_step state event)⟩

theorem Ordered.run {events : List Event} (hordered : Ordered state)
    (hfresh : Along Relay.next Fresh state events) (hrun : Relay.run state events = some final) :
    Ordered final := by
  refine invariant_along Ordered ?_ hfresh hordered hrun
  intro current event after hcurrent hallowed hstep
  cases hstep
  exact hcurrent.step hallowed

theorem ordered_of_run {events : List Event} (hfresh : Along Relay.next Fresh .default events)
    (hrun : Relay.run .default events = some state) : Ordered state :=
  ordered_default.run hfresh hrun

theorem Ordered.consistent (hordered : Ordered state) : Consistent state where
  indexed := by
    intro address token
    rw [hordered.indexed.recorded address token]
    constructor
    · rintro ⟨session, hsession, hrecords⟩
      obtain ⟨slot, hslot⟩ := records_iff_bound.mp hrecords
      refine ⟨session, hsession, slot, hslot, ?_⟩
      intro other hother
      exact Indexed.slot_unique hordered.indexed hsession hother hslot
    · rintro ⟨session, hsession, slot, hslot, _⟩
      exact ⟨session, hsession, records_iff_bound.mpr ⟨slot, hslot⟩⟩
  distinct := by
    intro first second left right i j address hleft hright hi hj
    have hsame : second = first :=
      hordered.indexed.unique hleft (records_iff_bound.mpr ⟨i, hi⟩) hright
        (records_iff_bound.mpr ⟨j, hj⟩)
    subst hsame
    rw [hleft] at hright
    cases hright
    exact ⟨rfl, Indexed.slot_unique hordered.indexed hleft hi hj⟩
  expected_ne := fun token session hsession => (hordered.certified token session hsession).expected_ne
  genuine := fun token session slot peer hsession =>
    (hordered.certified token session hsession).genuine slot peer

/-- While its session lives, a bound slot keeps its peer. -/
theorem peerAt_of_run {events : List Event} (hfresh : Along Relay.next Fresh state events)
    (halive : Along Relay.next (fun current _ => Alive token current) state events)
    (hrun : Relay.run state events = some final)
    (hsession : state.sessions.lookup token = some session)
    (hpeer : peerAt session slot = some peer) :
    ∀ found, final.sessions.lookup token = some found → peerAt found slot = some peer := by
  refine invariant_along
    (fun current => ∀ found, current.sessions.lookup token = some found →
      peerAt found slot = some peer) ?_ (along_and hfresh halive) ?_ hrun
  · rintro current event after hkept ⟨hallowed, held, hheld⟩ hstep
    cases hstep
    exact peerAt_moved hallowed (moved_step current event) hheld (hkept held hheld)
  · intro found hfound
    rw [hsession] at hfound
    cases hfound
    exact hpeer

/-- In every reachable state the two maps agree, and an address that has taken a slot keeps
it until the session is forgotten. -/
theorem relay_consistent {events : List Event}
    (hfresh : Along Relay.next Fresh .default events)
    (hrun : Relay.run .default events = some state) :
    Consistent state ∧ ∀ later final, Along Relay.next Fresh state later →
      Relay.run state later = some final → ∀ token session slot peer,
        state.sessions.lookup token = some session → peerAt session slot = some peer →
          Along Relay.next (fun current _ => Alive token current) state later →
            ∀ found, final.sessions.lookup token = some found → peerAt found slot = some peer := by
  constructor
  · exact (ordered_of_run hfresh hrun).consistent
  · intro later final hlater hfinal token session slot peer hsession hpeer halive
    exact peerAt_of_run hlater halive hfinal hsession hpeer

theorem relay_consistent_meeting :
    ∃ state, Relay.run .default meeting = some state ∧ Consistent state :=
  ⟨_, rfl, (relay_consistent fresh_meeting rfl).1⟩

end P2PFileTransfer.Server.RelayIndex
