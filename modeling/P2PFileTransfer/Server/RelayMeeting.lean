import P2PFileTransfer.Server.Introduction
import P2PFileTransfer.Server.RelayWire

/-!
# From a relay match to a wire

The relay is a part of the server: reservations are made by the connections, everything else
reaches it as datagrams.  Two clients that are told to meet there share one token, and say
hello under it with the certificates they registered.  From then on the relay is a wire
between them.
-/

namespace P2PFileTransfer.Server.RelayMeeting

open P2PFileTransfer.Foundation.ByteFile
open P2PFileTransfer.Foundation.Run
  (Along along_append along_of_append along_of_forall invariant_along invariant_history
    invariant_run)
open P2PFileTransfer.Foundation.Tables
open P2PFileTransfer.Core.Protocol (Fingerprint)
open P2PFileTransfer.Session.Rendezvous (SocketAddr Local MatchOutcome)
open P2PFileTransfer.Server.Relay hiding Event step run
open P2PFileTransfer.Server.RelayIsolation
open P2PFileTransfer.Server.RelayIndex
open P2PFileTransfer.Server.RelaySeats
open P2PFileTransfer.Server.RelayEviction
open P2PFileTransfer.Server.RelayWire
open P2PFileTransfer.Server.HandleConnection
open P2PFileTransfer.Server.Turns
open P2PFileTransfer.Server.Messages
open P2PFileTransfer.Server.Ownership
open P2PFileTransfer.Server.Pairing
open P2PFileTransfer.Server.Introduction

/-! ## The relay in the server -/

/-- What a step of the server asks of its relay. -/
def relayEvent (state : State) : Event → Option Relay.Event
  | .relay event => some event
  | .connection conn (.pair token now) =>
      match state.stages conn with
      | .pairing request waiter =>
          if request.wantRelay || waiter.first.wantRelay then
            some (.reserve token waiter.first.certFingerprint request.certFingerprint now)
          else none
      | _ => none
  | .connection _ _ => none

def advanceRelay (relay : RelayState) : Option Relay.Event → RelayState
  | none => relay
  | some event => (Relay.step relay event).1

/-- The datagram that a step makes the relay send. -/
def emitted (state : State) (event : Event) : Option (SocketAddr × Bytes) :=
  match state.relay, relayEvent state event with
  | some relay, some event => (Relay.step relay.2 event).2
  | _, _ => none

variable {ttl : Nat} {state next : State} {event : Event}

theorem relay_pair (conn : Nat) (request : RegisterRequest) (waiter : Waiter)
    (token : SessionToken) (now : Nat)
    (hstage : state.stages conn = .pairing request waiter) :
    (state.pair conn request waiter token now).relay = state.relay.map fun relay =>
      (relay.1, advanceRelay relay.2 (relayEvent state (.connection conn (.pair token now)))) := by
  unfold State.pair relayEvent
  simp only [hstage]
  split
  · cases hrelay : state.relay with
    | none => exact hrelay
    | some relay =>
        simp only [advanceRelay, Relay.step, Option.map_some]
        cases relay.2.reserve token waiter.first.certFingerprint request.certFingerprint now with
        | error _ => exact hrelay
        | ok _ => rfl
  · exact Option.map_id'.symm

/-- A step of the server is at most one step of its relay. -/
theorem relay_of_step (hstep : HandleConnection.step ttl state event = some next) :
    next.relay = state.relay.map fun relay =>
      (relay.1, advanceRelay relay.2 (relayEvent state event)) := by
  cases event with
  | relay event =>
      cases event with
      | reserve _ _ _ _ => cases hstep
      | datagram _ _ _ | sweep _ =>
          obtain ⟨relay, hrelay, rfl⟩ := Option.map_eq_some_iff.mp hstep
          rw [hrelay]
          rfl
  | connection conn input =>
      change state.advance ttl conn (state.stages conn) input = some next at hstep
      have hsame {changed : State} (hrelay : changed.relay = state.relay) :
          changed.relay = state.relay.map fun relay => (relay.1, relay.2) :=
        hrelay.trans Option.map_id'.symm
      unfold State.advance at hstep
      split at hstep
      case h_2 =>
        cases hstep
        exact hsame (relay_readFirst _ _ _ _)
      case h_3 =>
        cases hstep
        exact hsame (relay_lookUp _ _ _ _ _)
      case h_4 hstage =>
        cases hstep
        exact relay_pair _ _ _ _ _ hstage
      case h_7 =>
        cases hstep
        exact hsame (relay_notify _ _ _)
      case h_8 =>
        cases hstep
        exact hsame (relay_register _ _ _ _ _)
      case h_9 => split at hstep <;> cases hstep <;> exact hsame rfl
      case h_10 =>
        split at hstep <;> cases hstep
        exact hsame rfl
      case h_11 =>
        cases hstep
        exact hsame (relay_cleanUp _ _)
      case h_14 | h_15 =>
        cases hstep
        exact hsame (relay_dropHeld _ _)
      case h_1 | h_5 | h_6 | h_12 | h_13 =>
        cases hstep
        exact hsame rfl
      case h_16 => cases hstep

/-! ## The guests of a session -/

/-- Nobody else says hello under the token with the certificate of the guest, and the guest
says no other hello. -/
def Discreet (token : SessionToken) (guest : PeerState) : Relay.Event → Prop
  | .datagram source datagram true _ =>
    ∀ hello, RelayHello.tryDecode datagram.bytes = some hello →
      (hello.token = token → hello.fingerprint = guest.fingerprint → source = guest.addr) ∧
        (source = guest.addr → hello.token = token)
  | _ => True

/-- The seat of the guest is kept for the guest, who sits nowhere else. -/
structure Guarded (relay : RelayState) (token : SessionToken) (guest : PeerState) : Prop where
  seat : ∀ session slot peer, relay.sessions.lookup token = some session →
    peerAt session slot = some peer → peer.fingerprint = guest.fingerprint →
      peer.addr = guest.addr
  elsewhere : ∀ other, relay.addrToToken.lookup guest.addr = some other → other = token

/-- There is a session for these two certificates. -/
def Reserves (relay : RelayState) (token : SessionToken) (first second : Fingerprint) : Prop :=
  ∃ session slot, relay.sessions.lookup token = some session ∧
    expectedAt session slot = first ∧ expectedAt session slot.other = second

variable {relay : RelayState} {token : SessionToken} {guest : PeerState} {asked : Relay.Event}
  {first second : Fingerprint}

theorem guarded_default (token : SessionToken) (guest : PeerState) :
    Guarded .default token guest where
  seat := by
    intro session slot peer hsession
    cases hsession
  elsewhere := by
    intro other hindex
    cases hindex

theorem Guarded.step (hguarded : Guarded relay token guest) (hordered : Ordered relay)
    (hfresh : Fresh relay asked) (hdiscreet : Discreet token guest asked) :
    Guarded (Relay.step relay asked).1 token guest := by
  have hnext := hordered.step hfresh
  have hmoved := moved_step relay asked
  revert hnext hmoved
  generalize (Relay.step relay asked).1 = next
  generalize (Relay.step relay asked).2 = sent
  intro hnext hmoved
  cases hmoved with
  | kept _ => exact hguarded
  | reserved _ hvacant hsessions hindex =>
      refine ⟨fun session slot peer hsession hpeer hfingerprint => ?_, ?_⟩
      · rw [hsessions token] at hsession
        split at hsession
        · cases hsession
          cases slot with
          | a => cases hvacant.peerA.symm.trans hpeer
          | b => cases hvacant.peerB.symm.trans hpeer
        · exact hguarded.seat session slot peer hsession hpeer hfingerprint
      · rw [hindex]
        exact hguarded.elsewhere
  | @touched _ _ _ other found changed _ _ hfound hslots hsessions hindex _ =>
      refine ⟨fun session slot peer hsession hpeer hfingerprint => ?_, ?_⟩
      · rw [hsessions token] at hsession
        split at hsession
        · rename_i hsame
          cases hsession
          rw [peerAt_congr hslots] at hpeer
          exact hguarded.seat found slot peer (hsame ▸ hfound) hpeer hfingerprint
        · exact hguarded.seat session slot peer hsession hpeer hfingerprint
      · rw [hindex]
        exact hguarded.elsewhere
  | @joined source datagram now hello found joined _ hnew hdecode hfound hjoin hsessions hindex =>
      obtain ⟨hhello, hsource⟩ := hdiscreet hello hdecode
      refine ⟨fun session slot peer hsession hpeer hfingerprint => ?_, fun other hlookup => ?_⟩
      · rw [hsessions token] at hsession
        split at hsession
        · rename_i hsame
          cases hsession
          obtain ⟨taken, _, _, htaken, hothers, _⟩ := exists_slot_of_took (took_of_join hjoin)
          rcases eq_or_eq_other taken slot with rfl | rfl
          · cases htaken.symm.trans hpeer
            exact hhello hsame.symm hfingerprint
          · rw [hothers] at hpeer
            exact hguarded.seat found _ peer (hsame ▸ hfound) hpeer hfingerprint
        · exact hguarded.seat session slot peer hsession hpeer hfingerprint
      · rw [hindex, lookup_insert_ite] at hlookup
        split at hlookup
        · rename_i hsame
          cases hlookup
          exact hsource hsame.symm
        · exact hguarded.elsewhere other hlookup
  | swept =>
      refine ⟨fun session slot peer hsession => ?_, fun other hlookup => ?_⟩
      · exact hguarded.seat session slot peer (lookup_of_foldl_forget _ hsession)
      · obtain ⟨session, hsession, hrecords⟩ := (hnext.indexed.recorded _ _).mp hlookup
        exact hguarded.elsewhere other ((hordered.indexed.recorded _ _).mpr
          ⟨session, lookup_of_foldl_forget _ hsession, hrecords⟩)

theorem Reserves.step (hreserves : Reserves relay token first second)
    (hlively : Lively token relay asked) :
    Reserves (Relay.step relay asked).1 token first second := by
  obtain ⟨session, slot, hsession, hfirst, hsecond⟩ := hreserves
  obtain ⟨found, hfound⟩ := alive_step hlively hsession
  have hexpected : ∀ each, expectedAt found each = expectedAt session each := by
    have hmoved := moved_step relay asked
    revert hfound hmoved
    generalize (Relay.step relay asked).1 = next
    generalize (Relay.step relay asked).2 = sent
    intro hfound hmoved each
    have hkept (hlookup : relay.sessions.lookup token = some found) :
        expectedAt found each = expectedAt session each := by
      cases hlookup.symm.trans hsession
      rfl
    cases hmoved with
    | kept _ => exact hkept hfound
    | reserved _ _ hsessions _ =>
        rw [hsessions token] at hfound
        split at hfound
        · rename_i hsame
          have hnone : relay.sessions.lookup token = none := hsame ▸ hlively.1
          cases hnone.symm.trans hsession
        · exact hkept hfound
    | touched hheld hslots hsessions _ _ =>
        rw [hsessions token] at hfound
        split at hfound
        · rename_i hsame
          cases hfound
          cases (hsame ▸ hheld).symm.trans hsession
          exact expectedAt_congr hslots each
        · exact hkept hfound
    | joined _ _ hheld hjoin hsessions _ =>
        rw [hsessions token] at hfound
        split at hfound
        · rename_i hsame
          cases hfound
          cases (hsame ▸ hheld).symm.trans hsession
          obtain ⟨_, _, _, _, _, hexpected⟩ := exists_slot_of_took (took_of_join hjoin)
          exact hexpected each
        · exact hkept hfound
    | swept => exact hkept (lookup_of_foldl_forget _ hfound)
  exact ⟨found, slot, hfound, (hexpected slot).trans hfirst, (hexpected slot.other).trans hsecond⟩

/-- The address has a seat in the session. -/
def Sits (relay : RelayState) (token : SessionToken) (address : SocketAddr) : Prop :=
  ∃ session slot, relay.sessions.lookup token = some session ∧ Bound session slot address

theorem Sits.step {address : SocketAddr} (hsits : Sits relay token address)
    (hlively : Lively token relay asked) : Sits (Relay.step relay asked).1 token address := by
  obtain ⟨session, slot, hsession, hbound⟩ := hsits
  obtain ⟨found, hfound⟩ := alive_step hlively hsession
  exact ⟨found, slot, hfound, bound_moved hlively.1 hsession hbound hfound⟩

theorem linked_of_sits {near far : SocketAddr} (hordered : Ordered relay) (hne : near ≠ far)
    (hnear : Sits relay token near) (hfar : Sits relay token far) :
    Linked relay token near far := by
  obtain ⟨session, slot, hsession, hbound⟩ := hnear
  obtain ⟨found, other, hfound, peer, hpeer, haddress⟩ := hfar
  cases hfound.symm.trans hsession
  rcases eq_or_eq_other slot other with rfl | rfl
  · obtain ⟨same, hsame, hhere⟩ := hbound
    cases hsame.symm.trans hpeer
    exact absurd (hhere.symm.trans haddress) hne
  · exact ⟨hordered, session, slot, hsession, hbound, peer, hpeer, haddress⟩

theorem Reserves.symm (hreserves : Reserves relay token first second) :
    Reserves relay token second first := by
  obtain ⟨session, slot, hsession, hfirst, hsecond⟩ := hreserves
  refine ⟨session, slot.other, hsession, hsecond, ?_⟩
  cases slot <;> exact hfirst

/-- A hello seats its guest, also when it is not the first one. -/
theorem sits_of_hello {near far : PeerState} (hordered : Ordered relay)
    (hguarded : Guarded relay token near) (hothers : Guarded relay token far)
    (hreserves : Reserves relay token near.fingerprint far.fingerprint) (hne : near.addr ≠ far.addr)
    {datagram : Datagram}
    (hgreets : datagram.bytes = RelayHello.encode ⟨token, near.fingerprint⟩) (now : Nat) :
    Sits (Relay.step relay (.datagram near.addr datagram true now)).1 token near.addr := by
  obtain ⟨session, slot, hsession, hnear, hfar⟩ := hreserves
  have hgenuine := (hordered.certified token session hsession).genuine
  have hlively : Lively token relay (.datagram near.addr datagram true now) := ⟨trivial, nofun⟩
  by_cases hbound : Bound session slot near.addr
  · exact Sits.step ⟨session, slot, hsession, hbound⟩ hlively
  · have hfree : peerAt session slot = none := by
      by_contra htaken
      obtain ⟨peer, hpeer⟩ := Option.ne_none_iff_exists'.mp htaken
      refine hbound ⟨peer, hpeer, hguarded.seat session slot peer hsession hpeer ?_⟩
      exact (hgenuine slot peer hpeer).trans hnear
    have hnone : relay.addrToToken.lookup near.addr = none := by
      by_contra hsome
      obtain ⟨other, hindex⟩ := Option.ne_none_iff_exists'.mp hsome
      cases hguarded.elsewhere other hindex
      obtain ⟨found, hfound, hrecords⟩ := (hordered.indexed.recorded _ _).mp hindex
      cases hfound.symm.trans hsession
      obtain ⟨taken, htaken⟩ := records_iff_bound.mp hrecords
      rcases eq_or_eq_other slot taken with rfl | rfl
      · exact hbound htaken
      · obtain ⟨peer, hpeer, haddress⟩ := htaken
        refine hne (haddress.symm.trans (hothers.seat _ _ peer hsession hpeer ?_))
        exact (hgenuine _ peer hpeer).trans hfar
    obtain ⟨found, hfound, hseat⟩ := bound_of_hello (hordered.certified token session hsession)
      hnone hsession hfree (by rw [hgreets, hnear, List.append_nil]) now
    exact ⟨found, slot, hfound, _, hseat, rfl⟩

/-! ## Every run of the server -/

/-- Tokens are fresh, no sweep finds the session silent for too long, and nobody else says
hello for its guests. -/
def Orderly (token : SessionToken) (near far : PeerState) (state : State) (event : Event) : Prop :=
  ∀ asked relay, relayEvent state event = some asked → state.relay = some relay →
    Lively token relay.2 asked ∧ Discreet token near asked ∧ Discreet token far asked

/-- Whoever is paired through the relay has its session there. -/
def Promised (log : List Entry) (relayAddr : SocketAddr) (relay : RelayState)
    (token : SessionToken) : Prop :=
  ∀ second first endpoint, .paired second first (.relay endpoint token) ∈ log →
    endpoint = relayAddr ∧ ∃ request own, Knows log second request ∧ Knows log first own ∧
      Reserves relay token own.certFingerprint request.certFingerprint

structure Hosts (token : SessionToken) (near far : PeerState) (state : State)
    (relayAddr : SocketAddr) (relay : RelayState) : Prop where
  held : state.relay = some (relayAddr, relay)
  ordered : Ordered relay
  near : Guarded relay token near
  far : Guarded relay token far
  promised : Promised state.log relayAddr relay token

/-- The relay stays as it is, or takes a step that is in order. -/
inductive Advances (token : SessionToken) (near far : PeerState) (state : State) (event : Event)
    (relay : RelayState) : RelayState → Prop where
  | rests (hasked : relayEvent state event = none) :
      Advances token near far state event relay relay
  | moves {asked : Relay.Event} (hasked : relayEvent state event = some asked)
      (hlively : Lively token relay asked) (hnear : Discreet token near asked)
      (hfar : Discreet token far asked) :
      Advances token near far state event relay (Relay.step relay asked).1

variable {relayAddr : SocketAddr} {near far : PeerState} {after : RelayState} {past : List Event}

theorem advances_of_step (hstep : HandleConnection.step ttl state event = some next)
    (hheld : state.relay = some (relayAddr, relay))
    (horderly : Orderly token near far state event) :
    ∃ after, next.relay = some (relayAddr, after) ∧
      Advances token near far state event relay after := by
  have hnext := relay_of_step hstep
  rw [hheld] at hnext
  cases hasked : relayEvent state event with
  | none =>
      rw [hasked] at hnext
      exact ⟨relay, hnext, .rests hasked⟩
  | some asked =>
      rw [hasked] at hnext
      obtain ⟨hlively, hnear, hfar⟩ := horderly asked _ hasked hheld
      exact ⟨_, hnext, .moves hasked hlively hnear hfar⟩

theorem Advances.keep (hadvances : Advances token near far state event relay after)
    (kept : RelayState → Prop)
    (hstep : ∀ asked, Lively token relay asked → kept (Relay.step relay asked).1)
    (hkept : kept relay) : kept after := by
  cases hadvances with
  | rests _ => exact hkept
  | moves _ hlively _ _ => exact hstep _ hlively

theorem reserves_of_reserve {reserved : RelayState} {now : Nat}
    (hreserve : relay.reserve token first second now = .ok reserved) :
    Reserves reserved token first second := by
  unfold RelayState.reserve at hreserve
  split at hreserve
  · cases hreserve
  · cases hreserve
    have hsession := lookup_insert_ite relay.sessions token token
      ⟨none, none, now, now, first, second⟩
    rw [if_pos rfl] at hsession
    exact ⟨_, .a, hsession, rfl, rfl⟩

/-- A new pair of the relay has the session that was reserved for it. -/
theorem reserves_of_pair {conn other : Nat} {endpoint : SocketAddr} {request : RegisterRequest}
    {waiter : Waiter} {drawn : SessionToken} {now : Nat}
    (hrelay : state.relay = some (relayAddr, relay))
    (hnew : .paired conn other (.relay endpoint token) ∉ state.log)
    (hmem : .paired conn other (.relay endpoint token) ∈
      (state.pair conn request waiter drawn now).log) :
    endpoint = relayAddr ∧ ∃ reserved,
      (state.pair conn request waiter drawn now).relay = some (relayAddr, reserved) ∧
        Reserves reserved token waiter.first.certFingerprint request.certFingerprint := by
  have hdirect (hlog : .paired conn other (.relay endpoint token) ∈
      state.log ++ [.paired conn waiter.notify .direct]) : False := by
    rcases List.mem_append.mp hlog with hold | hadded
    · exact hnew hold
    · cases List.mem_singleton.mp hadded
  unfold State.pair at hmem ⊢
  split at hmem
  · rename_i hwanted
    rw [if_pos hwanted]
    rw [hrelay] at hmem ⊢
    dsimp only at hmem ⊢
    split at hmem
    · exact absurd hmem hnew
    · rename_i reserved hreserve
      simp only [State.goto, State.record, List.append_assoc] at hmem ⊢
      rcases List.mem_append.mp hmem with hold | hadded
      · exact absurd hold hnew
      · rcases List.mem_cons.mp hadded with hreserved | hpaired
        · cases hreserved
        · cases List.mem_singleton.mp hpaired
          exact ⟨rfl, reserved, rfl, reserves_of_reserve hreserve⟩
  · exact (hdirect hmem).elim

theorem Promised.step (hinv : Inv state) (hheld : state.relay = some (relayAddr, relay))
    (hpromised : Promised state.log relayAddr relay token)
    (hadvances : Advances token near far state event relay after)
    (hafter : next.relay = some (relayAddr, after))
    (hstep : HandleConnection.step ttl state event = some next) :
    Promised next.log relayAddr after token := by
  have hgrows := (moves_of_turned (turned_of_step hstep)).log_subset
  intro second first endpoint hmem
  by_cases hold : .paired second first (.relay endpoint token) ∈ state.log
  · obtain ⟨hendpoint, request, own, hsecond, hfirst, hreserves⟩ :=
      hpromised second first endpoint hold
    exact ⟨hendpoint, request, own, hsecond.mono hgrows, hfirst.mono hgrows,
      hadvances.keep (Reserves · token own.certFingerprint request.certFingerprint)
        (fun asked hlively => hreserves.step hlively) hreserves⟩
  · rcases paired_of_step hstep hmem with
      hthere | ⟨request, waiter, drawn, now, hstage, rfl, hnext⟩
    · exact absurd hthere hold
    · obtain ⟨hsecond, hfirst, _⟩ := hinv.sound.stage hstage
      rw [hnext] at hmem hafter
      obtain ⟨hendpoint, reserved, hreserved, hreserves⟩ := reserves_of_pair hheld hold hmem
      cases hreserved.symm.trans hafter
      exact ⟨hendpoint, request, waiter.first, hsecond.mono hgrows, hfirst.mono hgrows,
        hreserves⟩

theorem Hosts.step (hhosts : Hosts token near far state relayAddr relay) (hinv : Inv state)
    (hadvances : Advances token near far state event relay after)
    (hafter : next.relay = some (relayAddr, after))
    (hstep : HandleConnection.step ttl state event = some next) :
    Hosts token near far next relayAddr after := by
  have hpromised := hhosts.promised.step hinv hhosts.held hadvances hafter hstep
  cases hadvances with
  | rests _ => exact ⟨hafter, hhosts.ordered, hhosts.near, hhosts.far, hpromised⟩
  | moves _ hlively hnear hfar =>
      exact ⟨hafter, hhosts.ordered.step hlively.1,
        hhosts.near.step hhosts.ordered hlively.1 hnear,
        hhosts.far.step hhosts.ordered hlively.1 hfar, hpromised⟩

theorem hosts_start (relayAddr : SocketAddr) (token : SessionToken) (near far : PeerState) :
    Hosts token near far (start (some (relayAddr, .default))) relayAddr .default where
  held := rfl
  ordered := ordered_default
  near := guarded_default token near
  far := guarded_default token far
  promised := fun _ _ _ hmem => absurd hmem List.not_mem_nil

/-! ## The guests arrive -/

/-- The guest has said hello. -/
def Greeted (token : SessionToken) (guest : PeerState) (past : List Event) : Prop :=
  ∃ datagram now, .relay (.datagram guest.addr datagram true now) ∈ past ∧
    datagram.bytes = RelayHello.encode ⟨token, guest.fingerprint⟩

theorem sits_of_greeted {host : PeerState} (hordered : Ordered relay)
    (hguest : Guarded relay token guest) (hhost : Guarded relay token host)
    (hne : guest.addr ≠ host.addr)
    (hreserves : Reserves relay token guest.fingerprint host.fingerprint)
    (hadvances : Advances token near far state event relay after)
    (hsits : Greeted token guest past → Sits relay token guest.addr) :
    Greeted token guest (past ++ [event]) → Sits after token guest.addr := by
  rintro ⟨datagram, now, hmem, hgreets⟩
  rcases List.mem_append.mp hmem with hold | hnew
  · have hhere := hsits ⟨datagram, now, hold, hgreets⟩
    exact hadvances.keep (Sits · token guest.addr) (fun asked hlively => hhere.step hlively) hhere
  · cases List.mem_singleton.mp hnew
    cases hadvances with
    | rests hasked => cases hasked
    | moves hasked _ _ _ =>
        cases hasked
        exact sits_of_hello hordered hguest hhost hreserves hne hgreets now

/-- The session waits for its guests, and those that have said hello sit in it. -/
structure Gathers (token : SessionToken) (near far : PeerState) (relayAddr : SocketAddr)
    (past : List Event) (state : State) : Prop where
  inv : Inv state
  session : ∃ relay, Hosts token near far state relayAddr relay ∧
    Reserves relay token near.fingerprint far.fingerprint ∧
    (Greeted token near past → Sits relay token near.addr) ∧
    (Greeted token far past → Sits relay token far.addr)

theorem Gathers.step (hgathers : Gathers token near far relayAddr past state)
    (hne : near.addr ≠ far.addr) (horderly : Orderly token near far state event)
    (hstep : HandleConnection.step ttl state event = some next) :
    Gathers token near far relayAddr (past ++ [event]) next := by
  obtain ⟨relay, hhosts, hreserves, hnear, hfar⟩ := hgathers.session
  obtain ⟨after, hafter, hadvances⟩ := advances_of_step hstep hhosts.held horderly
  refine ⟨hgathers.inv.step hstep, after, hhosts.step hgathers.inv hadvances hafter hstep,
    hadvances.keep (Reserves · token near.fingerprint far.fingerprint)
      (fun asked hlively => hreserves.step hlively) hreserves, ?_, ?_⟩
  · exact sits_of_greeted hhosts.ordered hhosts.near hhosts.far hne hreserves hadvances hnear
  · exact sits_of_greeted hhosts.ordered hhosts.far hhosts.near hne.symm hreserves.symm hadvances
      hfar

/-! ## The wire -/

/-- What a step sends to an address. -/
def sentBy (address : SocketAddr) (state : State) (event : Event) : List Bytes :=
  sentTo address (emitted state event)

/-- The datagrams that a run sends to an address, in order. -/
def delivered (ttl : Nat) (address : SocketAddr) : State → List Event → List Bytes
  | _, [] => []
  | state, event :: rest =>
      match HandleConnection.step ttl state event with
      | none => []
      | some next => sentBy address state event ++ delivered ttl address next rest

/-- The datagram of an event, if it comes from this address and passes the cap. -/
def arrivedFrom (address : SocketAddr) : Event → List Bytes
  | .relay event => admittedOf address event
  | .connection _ _ => []

theorem sentBy_of_linked {first second : SocketAddr} (hlinked : Linked relay token first second)
    (hheld : state.relay = some (relayAddr, relay)) (event : Event) :
    sentBy second state event = arrivedFrom first event := by
  unfold sentBy emitted
  rw [hheld]
  cases event with
  | relay event => exact hlinked.sentTo_step event
  | connection conn input =>
      cases hasked : relayEvent state (.connection conn input) with
      | none => rfl
      | some asked =>
          -- a connection only ever reserves
          have hreserve : ∃ drawn own request now, asked = .reserve drawn own request now := by
            cases input with
            | pair drawn now =>
                simp only [relayEvent] at hasked
                split at hasked
                · split at hasked
                  · cases hasked
                    exact ⟨_, _, _, _, rfl⟩
                  · cases hasked
                · cases hasked
            | _ => cases hasked
          obtain ⟨drawn, own, request, now, rfl⟩ := hreserve
          exact hlinked.sentTo_step _

theorem delivered_of_linked {first second : SocketAddr} (hlinked : Linked relay token first second)
    (hheld : state.relay = some (relayAddr, relay)) {events : List Event} {final : State}
    (horderly : Along (HandleConnection.step ttl) (Orderly token near far) state events)
    (hrun : HandleConnection.run ttl state events = some final) :
    delivered ttl second state events = events.flatMap (arrivedFrom first) := by
  induction events generalizing state relay with
  | nil => rfl
  | cons event rest ih =>
      obtain ⟨next, hstep, hrest⟩ := Option.bind_eq_some_iff.mp hrun
      obtain ⟨after, hafter, hadvances⟩ := advances_of_step hstep hheld horderly.1
      have hkept : Linked after token first second :=
        hadvances.keep (Linked · token first second) (fun asked hlively => hlinked.step hlively)
          hlinked
      rw [delivered, hstep, List.flatMap_cons, ← sentBy_of_linked hlinked hheld event]
      exact congrArg _ (ih hkept hafter (horderly.2 next hstep) hrest)

/-! ## Two clients that were told to meet -/

section Clients

variable {later rest : List Event} {mid met final : State} {conn other : Nat}
  {endpoint : SocketAddr}

theorem log_subset_of_run (hrun : HandleConnection.run ttl state past = some final) :
    state.log ⊆ final.log := by
  refine invariant_run (fun reached => state.log ⊆ reached.log) ?_ (List.Subset.refl _) hrun
  exact fun reached event next hsub hstep entry hmem =>
    (moves_of_turned (turned_of_step hstep)).log_subset (hsub hmem)

theorem hosts_of_run (hrun : HandleConnection.run ttl (start (some (relayAddr, .default))) past =
      some mid)
    (horderly : Along (HandleConnection.step ttl) (Orderly token near far)
      (start (some (relayAddr, .default))) past) :
    Inv mid ∧ ∃ relay, Hosts token near far mid relayAddr relay := by
  refine invariant_along
    (fun state => Inv state ∧ ∃ relay, Hosts token near far state relayAddr relay) ?_ horderly
    ⟨inv_start _, _, hosts_start relayAddr token near far⟩ hrun
  rintro state event next ⟨hinv, relay, hhosts⟩ hallowed hstep
  obtain ⟨after, hafter, hadvances⟩ := advances_of_step hstep hhosts.held hallowed
  exact ⟨hinv.step hstep, after, hhosts.step hinv hadvances hafter hstep⟩

theorem not_greeted_nil (token : SessionToken) (guest : PeerState) : ¬Greeted token guest [] := by
  rintro ⟨datagram, now, hmem, _⟩
  exact absurd hmem List.not_mem_nil

/-- Two connections that are paired through the relay, and the guests they told about it. -/
theorem linked_of_run (hpast : HandleConnection.run ttl (start (some (relayAddr, .default))) past =
      some mid)
    (hpair : Pair mid.log conn other (.relay endpoint token))
    (hlater : HandleConnection.run ttl mid later = some met) (hne : near.addr ≠ far.addr)
    (horderly : Along (HandleConnection.step ttl) (Orderly token near far)
      (start (some (relayAddr, .default))) (past ++ later))
    (hknown : ∀ request, Knows mid.log conn request → request.certFingerprint = near.fingerprint)
    (hknows : ∀ request, Knows mid.log other request → request.certFingerprint = far.fingerprint)
    (hnear : Greeted token near later) (hfar : Greeted token far later) :
    endpoint = relayAddr ∧ ∃ relay, met.relay = some (relayAddr, relay) ∧
      Linked relay token near.addr far.addr := by
  obtain ⟨hbefore, hafter⟩ := along_of_append horderly hpast
  obtain ⟨hinv, relay, hhosts⟩ := hosts_of_run hpast hbefore
  have hreserved : endpoint = relayAddr ∧
      Reserves relay token near.fingerprint far.fingerprint := by
    rcases hpair with hpaired | hpaired
    · obtain ⟨hendpoint, request, own, hsecond, hfirst, hreserves⟩ :=
        hhosts.promised _ _ _ hpaired
      rw [hknown request hsecond, hknows own hfirst] at hreserves
      exact ⟨hendpoint, hreserves.symm⟩
    · obtain ⟨hendpoint, request, own, hsecond, hfirst, hreserves⟩ :=
        hhosts.promised _ _ _ hpaired
      rw [hknown own hfirst, hknows request hsecond] at hreserves
      exact ⟨hendpoint, hreserves⟩
  have hstart : Gathers token near far relayAddr [] mid :=
    ⟨hinv, relay, hhosts, hreserved.2, fun hgreeted => (not_greeted_nil _ _ hgreeted).elim,
      fun hgreeted => (not_greeted_nil _ _ hgreeted).elim⟩
  have hgathers : Gathers token near far relayAddr ([] ++ later) met := by
    refine invariant_history (Gathers token near far relayAddr) ?_ hafter hstart hlater
    exact fun past state event next hgathers hallowed hstep => hgathers.step hne hallowed hstep
  obtain ⟨reached, hreached, _, hnearSits, hfarSits⟩ := hgathers.session
  exact ⟨hreserved.1, reached, hreached.held,
    linked_of_sits hreached.ordered hne (hnearSits hnear) (hfarSits hfar)⟩

/-- Two clients that the server has paired through its relay are told one relay and one token.
Once both have said hello, and as long as nobody else does it for them and no sweep finds the
session silent for too long, each is sent exactly what the other sends, whatever else goes on
at the server. -/
theorem relay_match_wire
    (hpast : HandleConnection.run ttl (start (some (relayAddr, .default))) past = some mid)
    (hpair : Pair mid.log conn other (.relay endpoint token))
    (hlater : HandleConnection.run ttl mid later = some met)
    (hrest : HandleConnection.run ttl met rest = some final) {near far : Local}
    {nearCode farCode : Code} {nearAt farAt : Surroundings} {nearSource farSource : SocketAddr}
    (hnear : .registered conn nearSource (registerRequest near nearCode nearAt) ∈ met.log)
    (hfar : .registered other farSource (registerRequest far farCode farAt) ∈ met.log)
    {toNear toFar : Message} (hsentNear : .sent conn toNear ∈ met.log)
    (hsentFar : .sent other toFar ∈ met.log) {nearOutcome farOutcome : MatchOutcome}
    (hnearOutcome : registerFull toNear = .ok nearOutcome)
    (hfarOutcome : registerFull toFar = .ok farOutcome) {nearAddr farAddr : SocketAddr}
    (hne : nearAddr ≠ farAddr)
    (horderly : Along (HandleConnection.step ttl)
      (Orderly token ⟨nearAddr, near.fingerprint⟩ ⟨farAddr, far.fingerprint⟩)
      (start (some (relayAddr, .default))) (past ++ (later ++ rest)))
    (hnearGreets : Greeted token ⟨nearAddr, near.fingerprint⟩ later)
    (hfarGreets : Greeted token ⟨farAddr, far.fingerprint⟩ later) :
    nearOutcome = .relay ⟨relayAddr, token.val, far.fingerprint, far.deviceId⟩ ∧
      farOutcome = .relay ⟨relayAddr, token.val, near.fingerprint, near.deviceId⟩ ∧
      delivered ttl farAddr met rest = rest.flatMap (arrivedFrom nearAddr) ∧
      delivered ttl nearAddr met rest = rest.flatMap (arrivedFrom farAddr) := by
  have hgrows := log_subset_of_run hlater
  have hrun := (Foundation.Run.run_append_of_run hpast later).trans hlater
  have hinv := inv_of_run hrun
  have hpaired : Pair met.log conn other (.relay endpoint token) :=
    hpair.imp (fun hmem => hgrows hmem) fun hmem => hgrows hmem
  have hown := knows_of_registered hinv hpaired hnear
  have hpeer := knows_of_registered hinv hpaired.symm hfar
  rw [← List.append_assoc] at horderly
  obtain ⟨hbefore, hafter⟩ := along_of_append horderly hrun
  obtain ⟨hendpoint, relay, hheld, hlinked⟩ := linked_of_run hpast hpair hlater hne hbefore
    (fun request hknows => by rw [hinv.once.knows_unique (hknows.mono hgrows) hown]; rfl)
    (fun request hknows => by rw [hinv.once.knows_unique (hknows.mono hgrows) hpeer]; rfl)
    hnearGreets hfarGreets
  subst hendpoint
  refine ⟨?_, ?_, ?_, ?_⟩
  · exact outcome_of_sent hinv hpaired hpeer hsentNear hnearOutcome
  · exact outcome_of_sent hinv hpaired.symm hown hsentFar hfarOutcome
  · exact delivered_of_linked hlinked hheld hafter hrest
  · exact delivered_of_linked hlinked.symm hheld hafter hrest

theorem orderly_of_none (hasked : relayEvent state event = none) :
    Orderly token near far state event := by
  intro asked relay hsome
  cases hasked.symm.trans hsome

theorem orderly_of_datagram {source : SocketAddr} {datagram : Datagram} {now : Nat}
    (hnear : Discreet token near (.datagram source datagram true now))
    (hfar : Discreet token far (.datagram source datagram true now)) :
    Orderly token near far state (.relay (.datagram source datagram true now)) := by
  rintro asked relay ⟨⟩ _
  exact ⟨⟨trivial, nofun⟩, hnear, hfar⟩

/-- A guest that says its own hello is discreet, also towards the other one. -/
theorem discreet_of_hello {datagram : Datagram} {now : Nat}
    (hgreets : datagram.bytes = RelayHello.encode ⟨token, guest.fingerprint⟩) {host : PeerState}
    (hsame : guest.fingerprint = host.fingerprint → guest.addr = host.addr) :
    Discreet token host (.datagram guest.addr datagram true now) := by
  intro hello hdecode
  have hencoded := tryDecode_encode_append ⟨token, guest.fingerprint⟩ []
  rw [List.append_nil, ← hgreets, hdecode] at hencoded
  cases hencoded
  exact ⟨fun _ => hsame, fun _ => rfl⟩

theorem discreet_of_none {source : SocketAddr} {datagram : Datagram} {now : Nat}
    (hnone : RelayHello.tryDecode datagram.bytes = none) :
    Discreet token guest (.datagram source datagram true now) := by
  intro hello hdecode
  cases hnone.symm.trans hdecode

/-- The two devices of `relayMeeting`, at their addresses. -/
def guestAt (address : SocketAddr) (tag : UInt8) : PeerState := ⟨address, (device tag).fingerprint⟩

/-- Each client says hello, the first one again after it has been heard. -/
def hellos : List Event :=
  [.relay (.datagram firstPeer (helloWith 1) true 6),
    .relay (.datagram secondPeer (helloWith 2) true 7),
    .relay (.datagram firstPeer (helloWith 1) true 8)]

def byteWith (byte : UInt8) : Datagram where
  bytes := [byte]
  fits := Nat.le_of_ble_eq_true rfl

def talk : List Event :=
  [.relay (.datagram secondPeer (byteWith 2) true 9),
    .relay (.datagram ⟨[10, 0, 0, 3], 1⟩ (byteWith 9) true 10),
    .relay (.datagram firstPeer (byteWith 4) true 11)]

theorem orderly_relayMeeting : Along (HandleConnection.step 300)
    (Orderly relayToken (guestAt firstPeer 1) (guestAt secondPeer 2))
    (start (some (relayAddress, .default))) relayMeeting := by
  change Along _ _ _ ((arrive 1 (registration 1 1 true) 0 ++ [.connection 1 (.register 0)] ++
    arrive 2 (registration 2 2 false) 5) ++ tell 2 1 relayToken 5)
  refine along_append (along_of_forall (fun state event hmem => ?_) _) fun middle hrun => ?_
  · simp only [arrive, List.cons_append, List.nil_append, List.mem_cons, List.not_mem_nil,
      or_false] at hmem
    rcases hmem with rfl | rfl | rfl | rfl | rfl | rfl | rfl <;> exact orderly_of_none rfl
  · cases hrun
    constructor
    · rintro asked relay ⟨⟩ ⟨⟩
      exact ⟨⟨rfl, nofun⟩, trivial, trivial⟩
    · refine fun next _ => along_of_forall (fun state event hmem => ?_) _
      simp only [List.mem_cons, List.not_mem_nil, or_false] at hmem
      rcases hmem with rfl | rfl | rfl | rfl | rfl <;> exact orderly_of_none rfl

theorem orderly_hellos_talk (state : State) : Along (HandleConnection.step 300)
    (Orderly relayToken (guestAt firstPeer 1) (guestAt secondPeer 2)) state (hellos ++ talk) := by
  refine along_of_forall (fun state event hmem => ?_) state
  have hfirst (now : Nat) : Orderly relayToken (guestAt firstPeer 1) (guestAt secondPeer 2) state
      (.relay (.datagram firstPeer (helloWith 1) true now)) :=
    orderly_of_datagram (@discreet_of_hello _ (guestAt firstPeer 1) _ _ rfl _ fun _ => rfl)
      (@discreet_of_hello _ (guestAt firstPeer 1) _ _ rfl _ fun hsame => by cases hsame)
  have hsecond : Orderly relayToken (guestAt firstPeer 1) (guestAt secondPeer 2) state
      (.relay (.datagram secondPeer (helloWith 2) true 7)) :=
    orderly_of_datagram
      (@discreet_of_hello _ (guestAt secondPeer 2) _ _ rfl _ fun hsame => by cases hsame)
      (@discreet_of_hello _ (guestAt secondPeer 2) _ _ rfl _ fun _ => rfl)
  simp only [hellos, talk, List.cons_append, List.nil_append, List.mem_cons, List.not_mem_nil,
    or_false] at hmem
  rcases hmem with rfl | rfl | rfl | rfl | rfl | rfl
  · exact hfirst 6
  · exact hsecond
  · exact hfirst 8
  all_goals exact orderly_of_datagram (discreet_of_none rfl) (discreet_of_none rfl)

theorem relay_match_wire_hellos : ∃ mid met final,
    HandleConnection.run 300 (start (some (relayAddress, .default))) relayMeeting = some mid ∧
      HandleConnection.run 300 mid hellos = some met ∧
      HandleConnection.run 300 met talk = some final ∧
      delivered 300 secondPeer met talk = [[4]] ∧ delivered 300 firstPeer met talk = [[2]] := by
  refine ⟨_, _, _, rfl, rfl, rfl, ?_⟩
  exact (@relay_match_wire 300 relayToken relayAddress relayMeeting hellos talk _ _ _ 1 2
    relayAddress rfl (.inr (List.mem_of_getElem? (i := 3) rfl)) rfl rfl (device 1) (device 2) _ _
    symmetricHome coneHome ⟨[127, 0, 0, 1], 40001⟩ ⟨[127, 0, 0, 1], 40002⟩
    (List.mem_of_getElem? (i := 0) rfl) (List.mem_of_getElem? (i := 1) rfl)
    (describe (.relay relayAddress relayToken) (registration 2 2 false))
    (describe (.relay relayAddress relayToken) (registration 1 1 true))
    (List.mem_of_getElem? (i := 5) rfl) (List.mem_of_getElem? (i := 4) rfl) _ _ rfl rfl firstPeer
    secondPeer (by decide)
    (along_append orderly_relayMeeting fun middle _ => orderly_hellos_talk middle)
    ⟨helloWith 1, 6, List.mem_cons_self, rfl⟩
    ⟨helloWith 2, 7, List.mem_cons_of_mem _ List.mem_cons_self, rfl⟩).2.2

end Clients

end P2PFileTransfer.Server.RelayMeeting
