import P2PFileTransfer.Server.RelayEviction

/-!
# A full session is a wire

Two peers that sit in a session exchange datagrams as if they were connected directly: a step
sends one of them what the other has sent in it, unchanged, and nothing else.  The session has
to be swept away for that to end.
-/

namespace P2PFileTransfer.Server.RelayWire

open P2PFileTransfer.Foundation.ByteFile
open P2PFileTransfer.Foundation.Tables
open P2PFileTransfer.Core.Protocol
open P2PFileTransfer.Session.Rendezvous (SocketAddr)
open P2PFileTransfer.Server.Relay
open P2PFileTransfer.Server.RelayIsolation
open P2PFileTransfer.Server.RelayIndex
open P2PFileTransfer.Server.RelaySeats
open P2PFileTransfer.Server.RelayEviction

/-- What one event contributes to the datagrams sent to an address. -/
def sentTo (address : SocketAddr) (emitted : Option (SocketAddr × Bytes)) : List Bytes :=
  match emitted with
  | none => []
  | some (destination, bytes) => if destination = address then [bytes] else []

/-- The datagram of an event, if it comes from this address and passes the cap. -/
def admittedOf (address : SocketAddr) : Event → List Bytes
  | .datagram source datagram true _ => if source = address then [datagram.bytes] else []
  | .datagram _ _ false _ | .reserve _ _ _ _ | .sweep _ => []

/-- Both peers have arrived. -/
structure Linked (state : RelayState) (token : SessionToken) (first second : SocketAddr) : Prop where
  ordered : Ordered state
  seated : ∃ (session : Session) (slot : Slot), state.sessions.lookup token = some session ∧
    Bound session slot first ∧ Bound session slot.other second

/-- Tokens are fresh, and no sweep finds the session silent for too long. -/
def Lively (token : SessionToken) (state : RelayState) (event : Event) : Prop :=
  Fresh state event ∧ ∀ now, event = .sweep now → ¬Removed state now token

variable {state : RelayState} {token : SessionToken} {first second : SocketAddr} {event : Event}

/-- The session stays in the table. -/
theorem alive_step (hlively : Lively token state event) {session : Session}
    (hsession : state.sessions.lookup token = some session) :
    ∃ found, (Relay.step state event).1.sessions.lookup token = some found := by
  have hmoved := moved_step state event
  revert hmoved
  generalize (Relay.step state event).1 = next
  generalize (Relay.step state event).2 = emitted
  intro hmoved
  cases hmoved with
  | kept => exact ⟨session, hsession⟩
  | reserved _ _ hsessions _ | touched _ _ hsessions _ _ | joined _ _ _ _ hsessions _ =>
      rw [hsessions token]
      split
      · exact ⟨_, rfl⟩
      · exact ⟨session, hsession⟩
  | swept => exact ⟨session, (lookup_evictIdle_of_not (hlively.2 _ rfl)).trans hsession⟩

theorem bound_moved (hfresh : Fresh state event) {session found : Session} {slot : Slot}
    {address : SocketAddr} (hsession : state.sessions.lookup token = some session)
    (hbound : Bound session slot address)
    (hfound : (Relay.step state event).1.sessions.lookup token = some found) :
    Bound found slot address := by
  obtain ⟨peer, hpeer, haddress⟩ := hbound
  exact ⟨peer, peerAt_moved hfresh (moved_step state event) hsession hpeer found hfound, haddress⟩

theorem Linked.step (hlinked : Linked state token first second) (hlively : Lively token state event) :
    Linked (Relay.step state event).1 token first second := by
  obtain ⟨hordered, session, slot, hsession, hfirst, hsecond⟩ := hlinked
  obtain ⟨found, hfound⟩ := alive_step hlively hsession
  exact ⟨hordered.step hlively.1, found, slot, hfound,
    bound_moved hlively.1 hsession hfirst hfound, bound_moved hlively.1 hsession hsecond hfound⟩

/-- What one peer sends goes to the other. -/
theorem Linked.emitted (hlinked : Linked state token first second) (datagram : Datagram) (now : Nat) :
    (Relay.step state (.datagram first datagram true now)).2 = some (second, datagram.bytes) := by
  obtain ⟨hordered, session, slot, hsession, hfirst, peer, hpeer, rfl⟩ := hlinked
  have hindex : state.addrToToken.lookup first = some token :=
    (hordered.indexed.recorded first token).mpr ⟨session, hsession, records_iff_bound.mpr ⟨slot, hfirst⟩⟩
  rw [emitted_of_indexed hindex hsession, partner_of_bound hordered.indexed hsession hfirst, hpeer]
  rfl

theorem exists_slot_of_partner {found : Session} {source destination : SocketAddr}
    (hpartner : found.partner source = some destination) :
    ∃ slot, Bound found slot source ∧ Bound found slot.other destination := by
  obtain ⟨a, b, ha, hb, ⟨rfl, rfl⟩ | ⟨rfl, rfl⟩⟩ := pairs_of_partner hpartner
  · exact ⟨.a, ⟨a, ha, rfl⟩, ⟨b, hb, rfl⟩⟩
  · exact ⟨.b, ⟨b, hb, rfl⟩, ⟨a, ha, rfl⟩⟩

/-- Only a peer of the session is paired with a peer of it. -/
theorem Linked.source_eq (hlinked : Linked state token first second) {source : SocketAddr}
    {other : SessionToken} {found : Session} (hfound : state.sessions.lookup other = some found)
    (hpartner : found.partner source = some second) : source = first := by
  obtain ⟨hordered, session, slot, hsession, ⟨peer, hpeer, rfl⟩, hsecond⟩ := hlinked
  obtain ⟨left, hsource, hdestination⟩ := exists_slot_of_partner hpartner
  have hsame : other = token := hordered.indexed.unique hsession
    (records_iff_bound.mpr ⟨slot.other, hsecond⟩) hfound
    (records_iff_bound.mpr ⟨left.other, hdestination⟩)
  subst hsame
  cases hsession.symm.trans hfound
  have hslot : left.other = slot.other :=
    Indexed.slot_unique hordered.indexed hsession hdestination hsecond
  have hleft : left = slot := by cases left <;> cases slot <;> first | rfl | cases hslot
  subst hleft
  obtain ⟨found, hfoundPeer, rfl⟩ := hsource
  cases hpeer.symm.trans hfoundPeer
  rfl

/-- Every event sends the second peer what the first one sent in it. -/
theorem Linked.sentTo_step (hlinked : Linked state token first second) (event : Event) :
    sentTo second (Relay.step state event).2 = admittedOf first event := by
  cases event with
  | reserve reserved peerAFp peerBFp now =>
      simp only [Relay.step]
      split <;> rfl
  | sweep now => rfl
  | datagram source datagram admitted now =>
      cases admitted with
      | false => rfl
      | true =>
          by_cases hsource : source = first
          · subst hsource
            rw [hlinked.emitted datagram now, admittedOf, if_pos rfl]
            exact if_pos rfl
          · rw [admittedOf, if_neg hsource]
            have hmoved := moved_step state (.datagram source datagram true now)
            revert hmoved
            generalize (Relay.step state (.datagram source datagram true now)).1 = next
            generalize (Relay.step state (.datagram source datagram true now)).2 = emitted
            intro hmoved
            cases hmoved with
            | kept _ | joined _ _ _ _ _ _ => rfl
            | @touched _ _ _ other found _ _ _ hfound _ _ _ hemitted =>
                rcases hemitted with rfl | rfl
                · rfl
                · cases hpartner : found.partner source with
                  | none => rfl
                  | some destination =>
                      refine if_neg fun hsame => ?_
                      subst hsame
                      exact hsource (hlinked.source_eq hfound hpartner)

theorem Linked.symm (hlinked : Linked state token first second) : Linked state token second first := by
  obtain ⟨hordered, session, slot, hsession, hfirst, hsecond⟩ := hlinked
  refine ⟨hordered, session, slot.other, hsession, hsecond, ?_⟩
  cases slot <;> exact hfirst

end P2PFileTransfer.Server.RelayWire
