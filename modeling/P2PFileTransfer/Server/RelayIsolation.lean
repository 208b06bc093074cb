import P2PFileTransfer.Server.Relay

/-!
# What the relay lets through

The two maps of the relay agree: the index sends an address to the one live session that
has recorded it.  With that, a datagram leaves the relay only between the two addresses
of one session, and both of them have shown its token and one of its two fingerprints
since it was reserved.
-/

namespace P2PFileTransfer.Server.RelayIsolation

open P2PFileTransfer.Foundation.ByteFile
open P2PFileTransfer.Foundation.Tables
open P2PFileTransfer.Core.Protocol
open P2PFileTransfer.Session.Rendezvous (SocketAddr)
open P2PFileTransfer.Server.Relay

/-- The reserved token belongs to no live session. -/
def Fresh (state : RelayState) : Event → Prop
  | .reserve token _ _ _ => state.sessions.lookup token = none
  | _ => True

def Records (session : Session) (address : SocketAddr) : Prop :=
  ∃ peer, (session.peerA = some peer ∨ session.peerB = some peer) ∧ peer.addr = address

/-- The two addresses of a session whose peers have both arrived. -/
def Pairs (session : Session) (source destination : SocketAddr) : Prop :=
  ∃ a b, session.peerA = some a ∧ session.peerB = some b ∧
    (a.addr = source ∧ b.addr = destination ∨ b.addr = source ∧ a.addr = destination)

/-- An address sent a hello with this token and fingerprint. -/
def Joined (events : List Event) (token : SessionToken) (fingerprint : Fingerprint)
    (address : SocketAddr) : Prop :=
  ∃ datagram now, .datagram address datagram true now ∈ events ∧
    RelayHello.tryDecode datagram.bytes = some ⟨token, fingerprint⟩

/-- The last reservation of the token made the session, and its peers joined it since. -/
def Reserved (events : List Event) (token : SessionToken) (session : Session) : Prop :=
  ∃ before after now,
    events = before ++
      .reserve token session.peerAExpectedFp session.peerBExpectedFp now :: after ∧
    session.peerAExpectedFp ≠ session.peerBExpectedFp ∧
    (∀ first second now, .reserve token first second now ∈ after → first = second) ∧
    (∀ peer, session.peerA = some peer → Joined after token session.peerAExpectedFp peer.addr) ∧
    ∀ peer, session.peerB = some peer → Joined after token session.peerBExpectedFp peer.addr

/-- The two maps agree, and the slots of a session are two addresses. -/
structure Indexed (state : RelayState) : Prop where
  recorded : ∀ address token, state.addrToToken.lookup address = some token ↔
    ∃ session, state.sessions.lookup token = some session ∧ Records session address
  distinct : ∀ token session a b, state.sessions.lookup token = some session →
    session.peerA = some a → session.peerB = some b → a.addr ≠ b.addr

/-! ## What a step does -/

/-- The session of `token` becomes `session`, every other one stays. -/
def Becomes (state next : RelayState) (token : SessionToken) (session : Session) : Prop :=
  ∀ other, next.sessions.lookup other =
    if other = token then some session else state.sessions.lookup other

structure SameSlots (session changed : Session) : Prop where
  peerA : changed.peerA = session.peerA
  peerB : changed.peerB = session.peerB
  peerAExpectedFp : changed.peerAExpectedFp = session.peerAExpectedFp
  peerBExpectedFp : changed.peerBExpectedFp = session.peerBExpectedFp

/-- A session with no peer yet. -/
structure Vacant (session : Session) (peerAFp peerBFp : Fingerprint) : Prop where
  peerA : session.peerA = none
  peerB : session.peerB = none
  peerAExpectedFp : session.peerAExpectedFp = peerAFp
  peerBExpectedFp : session.peerBExpectedFp = peerBFp

inductive Moved (state : RelayState) : Event → RelayState → Option (SocketAddr × Bytes) → Prop where
  | kept {event : Event} (hrefused : ∀ token first second now,
      event = .reserve token first second now → first = second) : Moved state event state none
  | reserved {token : SessionToken} {first second : Fingerprint} {now : Nat} {session : Session}
      {next : RelayState} (hne : first ≠ second) (hvacant : Vacant session first second)
      (hsessions : Becomes state next token session)
      (hindex : next.addrToToken = state.addrToToken) :
      Moved state (.reserve token first second now) next none
  | touched {source : SocketAddr} {datagram : Datagram} {now : Nat} {token : SessionToken}
      {session changed : Session} {next : RelayState} {emitted : Option (SocketAddr × Bytes)}
      (hsession : state.sessions.lookup token = some session) (hslots : SameSlots session changed)
      (hsessions : Becomes state next token changed)
      (hindex : next.addrToToken = state.addrToToken)
      (hemitted : emitted = none ∨
        emitted = (session.partner source).map fun dest => (dest, datagram.bytes)) :
      Moved state (.datagram source datagram true now) next emitted
  | joined {source : SocketAddr} {datagram : Datagram} {now : Nat} {hello : RelayHello}
      {session joined : Session} {next : RelayState}
      (hnew : state.addrToToken.lookup source = none)
      (hdecode : RelayHello.tryDecode datagram.bytes = some hello)
      (hsession : state.sessions.lookup hello.token = some session)
      (hjoin : session.join source hello.fingerprint now = some joined)
      (hsessions : Becomes state next hello.token joined)
      (hindex : next.addrToToken = state.addrToToken.insert source hello.token) :
      Moved state (.datagram source datagram true now) next none
  | swept {now : Nat} : Moved state (.sweep now) (state.evictIdle now) none

theorem moved_forward {state : RelayState} {source : SocketAddr} {token : SessionToken}
    (datagram : Datagram) (now : Nat) :
    Moved state (.datagram source datagram true now)
      (state.forward token source datagram.bytes now).1
      (state.forward token source datagram.bytes now).2 := by
  unfold RelayState.forward
  cases hsession : state.sessions.lookup token with
  | none => exact .kept nofun
  | some session =>
      have hbecomes : Becomes state
          { state with sessions := state.sessions.insert token { session with lastActive := now } }
          token { session with lastActive := now } := fun other => lookup_insert_ite _ _ _ _
      have hslots : SameSlots session { session with lastActive := now } := ⟨rfl, rfl, rfl, rfl⟩
      dsimp only
      cases hpartner : session.partner source with
      | none => exact .touched hsession hslots hbecomes rfl (.inl rfl)
      | some dest =>
          have hemitted : some (dest, datagram.bytes) =
              (session.partner source).map fun dest => (dest, datagram.bytes) := by
            rw [hpartner]
            rfl
          exact .touched hsession hslots hbecomes rfl (.inr hemitted)

theorem moved_welcome {state : RelayState} {source : SocketAddr} {datagram : Datagram}
    {hello : RelayHello} (hnew : state.addrToToken.lookup source = none)
    (hdecode : RelayHello.tryDecode datagram.bytes = some hello) (now : Nat) :
    Moved state (.datagram source datagram true now) (state.welcome hello source now) none := by
  unfold RelayState.welcome
  cases hsession : state.sessions.lookup hello.token with
  | none => exact .kept nofun
  | some session =>
      dsimp only
      cases hjoin : session.join source hello.fingerprint now with
      | none =>
          have hslots : SameSlots session session := ⟨rfl, rfl, rfl, rfl⟩
          apply Moved.touched hsession hslots
          · exact fun other => lookup_reinsert _ _ _ _
          · rfl
          · exact .inl rfl
      | some joined =>
          exact .joined hnew hdecode hsession hjoin (fun other => lookup_reinsert _ _ _ _) rfl

theorem moved_step (state : RelayState) (event : Event) :
    Moved state event (step state event).1 (step state event).2 := by
  cases event with
  | sweep now => exact .swept
  | reserve token first second now =>
      rw [step, RelayState.reserve]
      by_cases heq : first = second
      · rw [if_pos heq]
        refine .kept ?_
        rintro _ _ _ _ ⟨⟩
        exact heq
      · rw [if_neg heq]
        exact .reserved heq ⟨rfl, rfl, rfl, rfl⟩ (fun other => lookup_insert_ite _ _ _ _) rfl
  | datagram source datagram admitted now =>
      cases admitted with
      | false => exact .kept nofun
      | true =>
          rw [step, Datagram.take_recvBuf, RelayState.receive]
          cases hindex : state.addrToToken.lookup source with
          | some token => exact moved_forward datagram now
          | none =>
              dsimp only
              cases hdecode : RelayHello.tryDecode datagram.bytes with
              | none => exact .kept nofun
              | some hello => exact moved_welcome hindex hdecode now

/-! ## The maps agree -/

theorem records_congr {session changed : Session} (hslots : SameSlots session changed)
    (address : SocketAddr) : Records changed address ↔ Records session address := by
  unfold Records
  rw [hslots.peerA, hslots.peerB]

theorem not_records_vacant {session : Session} {first second : Fingerprint}
    (hvacant : Vacant session first second) (address : SocketAddr) : ¬ Records session address := by
  rintro ⟨peer, hpeer | hpeer, _⟩
  · rw [hvacant.peerA] at hpeer
    cases hpeer
  · rw [hvacant.peerB] at hpeer
    cases hpeer

theorem indexed_default : Indexed .default where
  recorded := by
    intro address token
    constructor
    · nofun
    · rintro ⟨session, hsession, _⟩
      cases hsession
  distinct := by
    intro token session a b hsession
    cases hsession

variable {state next : RelayState} {token : SessionToken} {session changed : Session}

/-- An address belongs to one session. -/
theorem Indexed.unique (hindexed : Indexed state) {other : SessionToken} {found : Session}
    {address : SocketAddr} (hsession : state.sessions.lookup token = some session)
    (hrecords : Records session address) (hother : state.sessions.lookup other = some found)
    (hfound : Records found address) : other = token := by
  have hfirst := (hindexed.recorded address token).mpr ⟨session, hsession, hrecords⟩
  have hsecond := (hindexed.recorded address other).mpr ⟨found, hother, hfound⟩
  rw [hfirst] at hsecond
  exact (Option.some.inj hsecond).symm

theorem Indexed.reserved (hindexed : Indexed state) {first second : Fingerprint}
    (hfresh : state.sessions.lookup token = none) (hvacant : Vacant session first second)
    (hsessions : Becomes state next token session)
    (hindex : next.addrToToken = state.addrToToken) : Indexed next := by
  constructor
  · intro address other
    rw [hindex, hindexed.recorded address other, hsessions other]
    by_cases heq : other = token
    · rw [if_pos heq, heq, hfresh]
      constructor
      · rintro ⟨found, hfound, _⟩
        cases hfound
      · rintro ⟨found, hfound, hrecords⟩
        cases hfound
        exact absurd hrecords (not_records_vacant hvacant address)
    · rw [if_neg heq]
  · intro other found a b hfound ha hb
    rw [hsessions other] at hfound
    by_cases heq : other = token
    · rw [if_pos heq] at hfound
      cases hfound
      rw [hvacant.peerA] at ha
      cases ha
    · rw [if_neg heq] at hfound
      exact hindexed.distinct other found a b hfound ha hb

theorem Indexed.touched (hindexed : Indexed state)
    (hsession : state.sessions.lookup token = some session) (hslots : SameSlots session changed)
    (hsessions : Becomes state next token changed)
    (hindex : next.addrToToken = state.addrToToken) : Indexed next := by
  constructor
  · intro address other
    rw [hindex, hindexed.recorded address other, hsessions other]
    by_cases heq : other = token
    · rw [if_pos heq, heq, hsession]
      constructor
      · rintro ⟨found, hfound, hrecords⟩
        cases hfound
        exact ⟨changed, rfl, (records_congr hslots address).mpr hrecords⟩
      · rintro ⟨found, hfound, hrecords⟩
        cases hfound
        exact ⟨session, rfl, (records_congr hslots address).mp hrecords⟩
    · rw [if_neg heq]
  · intro other found a b hfound ha hb
    rw [hsessions other] at hfound
    by_cases heq : other = token
    · rw [if_pos heq] at hfound
      cases hfound
      rw [hslots.peerA] at ha
      rw [hslots.peerB] at hb
      exact hindexed.distinct token session a b hsession ha hb
    · rw [if_neg heq] at hfound
      exact hindexed.distinct other found a b hfound ha hb

/-- The slot a hello takes was free, and its fingerprint is the one expected there. -/
inductive Took (session joined : Session) (source : SocketAddr) (fingerprint : Fingerprint) :
    Prop where
  | slotA (hfingerprint : fingerprint = session.peerAExpectedFp) (hfree : session.peerA = none)
      (hpeerA : joined.peerA = some ⟨source, fingerprint⟩) (hpeerB : joined.peerB = session.peerB)
      (hexpectedA : joined.peerAExpectedFp = session.peerAExpectedFp)
      (hexpectedB : joined.peerBExpectedFp = session.peerBExpectedFp)
  | slotB (hfingerprint : fingerprint = session.peerBExpectedFp) (hfree : session.peerB = none)
      (hpeerB : joined.peerB = some ⟨source, fingerprint⟩) (hpeerA : joined.peerA = session.peerA)
      (hexpectedA : joined.peerAExpectedFp = session.peerAExpectedFp)
      (hexpectedB : joined.peerBExpectedFp = session.peerBExpectedFp)

theorem took_of_join {joined : Session} {source : SocketAddr} {fingerprint : Fingerprint} {now : Nat}
    (hjoin : session.join source fingerprint now = some joined) :
    Took session joined source fingerprint := by
  unfold Session.join at hjoin
  split at hjoin
  · rename_i hfirst
    cases hslot : session.peerA with
    | some peer =>
        rw [hslot] at hjoin
        cases hjoin
    | none =>
        rw [hslot] at hjoin
        cases hjoin
        exact .slotA hfirst hslot rfl rfl rfl rfl
  · split at hjoin
    · rename_i hsecond
      cases hslot : session.peerB with
      | some peer =>
          rw [hslot] at hjoin
          cases hjoin
      | none =>
          rw [hslot] at hjoin
          cases hjoin
          exact .slotB hsecond hslot rfl rfl rfl rfl
    · cases hjoin

/-- A session records what it recorded, and the address that joined. -/
theorem Took.records_iff {joined : Session} {source : SocketAddr} {fingerprint : Fingerprint}
    (htook : Took session joined source fingerprint) (address : SocketAddr) :
    Records joined address ↔ address = source ∨ Records session address := by
  cases htook with
  | slotA hfingerprint hfree hpeerA hpeerB hexpectedA hexpectedB =>
      unfold Records
      rw [hpeerA, hpeerB, hfree]
      constructor
      · rintro ⟨peer, hpeer | hpeer, rfl⟩
        · cases hpeer
          exact .inl rfl
        · exact .inr ⟨peer, .inr hpeer, rfl⟩
      · rintro (rfl | ⟨peer, hpeer | hpeer, rfl⟩)
        · exact ⟨⟨address, fingerprint⟩, .inl rfl, rfl⟩
        · cases hpeer
        · exact ⟨peer, .inr hpeer, rfl⟩
  | slotB hfingerprint hfree hpeerB hpeerA hexpectedA hexpectedB =>
      unfold Records
      rw [hpeerA, hpeerB, hfree]
      constructor
      · rintro ⟨peer, hpeer | hpeer, rfl⟩
        · exact .inr ⟨peer, .inl hpeer, rfl⟩
        · cases hpeer
          exact .inl rfl
      · rintro (rfl | ⟨peer, hpeer | hpeer, rfl⟩)
        · exact ⟨⟨address, fingerprint⟩, .inr rfl, rfl⟩
        · exact ⟨peer, .inl hpeer, rfl⟩
        · cases hpeer

theorem Indexed.joined (hindexed : Indexed state) {joined : Session} {source : SocketAddr}
    {fingerprint : Fingerprint} (hnew : state.addrToToken.lookup source = none)
    (hsession : state.sessions.lookup token = some session)
    (htook : Took session joined source fingerprint) (hsessions : Becomes state next token joined)
    (hindex : next.addrToToken = state.addrToToken.insert source token) : Indexed next := by
  have habsent : ∀ other found, state.sessions.lookup other = some found →
      ¬ Records found source := by
    intro other found hfound hrecords
    have hlookup := (hindexed.recorded source other).mpr ⟨found, hfound, hrecords⟩
    rw [hnew] at hlookup
    cases hlookup
  constructor
  · intro address other
    rw [hindex, lookup_insert_ite, hsessions other]
    by_cases hsource : address = source
    · rw [if_pos hsource, hsource]
      by_cases heq : other = token
      · rw [if_pos heq, heq]
        exact ⟨fun _ => ⟨joined, rfl, (htook.records_iff source).mpr (.inl rfl)⟩, fun _ => rfl⟩
      · rw [if_neg heq]
        constructor
        · intro htoken
          exact absurd (Option.some.inj htoken).symm heq
        · rintro ⟨found, hfound, hrecords⟩
          exact absurd hrecords (habsent other found hfound)
    · rw [if_neg hsource, hindexed.recorded address other]
      by_cases heq : other = token
      · rw [if_pos heq, heq, hsession]
        constructor
        · rintro ⟨found, hfound, hrecords⟩
          cases hfound
          exact ⟨joined, rfl, (htook.records_iff address).mpr (.inr hrecords)⟩
        · rintro ⟨found, hfound, hrecords⟩
          cases hfound
          exact ⟨session, rfl, ((htook.records_iff address).mp hrecords).resolve_left hsource⟩
      · rw [if_neg heq]
  · intro other found a b hfound ha hb
    rw [hsessions other] at hfound
    by_cases heq : other = token
    · rw [if_pos heq] at hfound
      cases hfound
      intro hsame
      cases htook with
      | slotA hfingerprint hfree hpeerA hpeerB hexpectedA hexpectedB =>
          rw [hpeerA] at ha
          rw [hpeerB] at hb
          cases ha
          exact habsent token session hsession ⟨b, .inr hb, hsame.symm⟩
      | slotB hfingerprint hfree hpeerB hpeerA hexpectedA hexpectedB =>
          rw [hpeerB] at hb
          rw [hpeerA] at ha
          cases hb
          exact habsent token session hsession ⟨a, .inl ha, hsame⟩
    · rw [if_neg heq] at hfound
      exact hindexed.distinct other found a b hfound ha hb

/-! ## Forgetting sessions -/

theorem unindex_eq_some_iff {index : Table SocketAddr SessionToken} {slot : Option PeerState}
    {address : SocketAddr} : (unindex index slot).lookup address = some token ↔
      (∀ peer, slot = some peer → peer.addr ≠ address) ∧ index.lookup address = some token := by
  cases slot with
  | none => exact ⟨fun hlookup => ⟨nofun, hlookup⟩, fun hboth => hboth.2⟩
  | some peer =>
      rw [unindex, lookup_erase_ite]
      by_cases heq : address = peer.addr
      · rw [if_pos heq]
        exact ⟨nofun, fun hboth => absurd heq.symm (hboth.1 peer rfl)⟩
      · rw [if_neg heq]
        refine ⟨fun hlookup => ⟨?_, hlookup⟩, fun hboth => hboth.2⟩
        rintro other ⟨⟩ haddress
        exact heq haddress.symm

theorem lookup_forget (state : RelayState) (token other : SessionToken) :
    (state.forget token).sessions.lookup other =
      if other = token then none else state.sessions.lookup other := by
  unfold RelayState.forget
  cases hsession : state.sessions.lookup token with
  | none =>
      by_cases heq : other = token
      · rw [if_pos heq, heq]
        exact hsession
      · rw [if_neg heq]
  | some session => exact lookup_erase_ite _ _ _

theorem index_forget_iff (hsession : state.sessions.lookup token = some session)
    {address : SocketAddr} {other : SessionToken} :
    (state.forget token).addrToToken.lookup address = some other ↔
      ¬ Records session address ∧ state.addrToToken.lookup address = some other := by
  rw [RelayState.forget, hsession]
  change (unindex (unindex state.addrToToken session.peerA) session.peerB).lookup address = _ ↔ _
  rw [unindex_eq_some_iff, unindex_eq_some_iff]
  constructor
  · rintro ⟨hb, ha, hlookup⟩
    refine ⟨?_, hlookup⟩
    rintro ⟨peer, hpeer | hpeer, haddress⟩
    · exact ha peer hpeer haddress
    · exact hb peer hpeer haddress
  · rintro ⟨hrecords, hlookup⟩
    refine ⟨fun peer hpeer haddress => ?_, fun peer hpeer haddress => ?_, hlookup⟩
    · exact hrecords ⟨peer, .inr hpeer, haddress⟩
    · exact hrecords ⟨peer, .inl hpeer, haddress⟩

theorem Indexed.forget (hindexed : Indexed state) (token : SessionToken) :
    Indexed (state.forget token) := by
  cases hsession : state.sessions.lookup token with
  | none =>
      rw [RelayState.forget, hsession]
      exact hindexed
  | some session =>
      constructor
      · intro address other
        rw [index_forget_iff hsession, lookup_forget, hindexed.recorded address other]
        by_cases heq : other = token
        · rw [if_pos heq, heq, hsession]
          constructor
          · rintro ⟨habsent, found, hfound, hrecords⟩
            cases hfound
            exact absurd hrecords habsent
          · rintro ⟨found, hfound, _⟩
            cases hfound
        · rw [if_neg heq]
          refine ⟨fun hboth => hboth.2, fun hother => ⟨?_, hother⟩⟩
          intro hrecords
          obtain ⟨found, hfound, hother⟩ := hother
          exact heq (hindexed.unique hsession hrecords hfound hother)
      · intro other found a b hfound ha hb
        rw [lookup_forget] at hfound
        by_cases heq : other = token
        · rw [if_pos heq] at hfound
          cases hfound
        · rw [if_neg heq] at hfound
          exact hindexed.distinct other found a b hfound ha hb

theorem Indexed.foldl_forget (tokens : List SessionToken) {state : RelayState}
    (hindexed : Indexed state) : Indexed (tokens.foldl RelayState.forget state) := by
  induction tokens generalizing state with
  | nil => exact hindexed
  | cons token rest ih => exact ih (hindexed.forget token)

/-- What is left after some sessions are forgotten was there before. -/
theorem lookup_of_foldl_forget (tokens : List SessionToken) {state : RelayState}
    (hlookup : (tokens.foldl RelayState.forget state).sessions.lookup token = some session) :
    state.sessions.lookup token = some session := by
  induction tokens generalizing state with
  | nil => exact hlookup
  | cons first rest ih =>
      have hforget := ih hlookup
      rw [lookup_forget] at hforget
      by_cases heq : token = first
      · rw [if_pos heq] at hforget
        cases hforget
      · rw [if_neg heq] at hforget
        exact hforget

theorem indexed_moved {event : Event} {emitted : Option (SocketAddr × Bytes)}
    (hindexed : Indexed state) (hfresh : Fresh state event)
    (hmoved : Moved state event next emitted) : Indexed next := by
  cases hmoved with
  | kept => exact hindexed
  | reserved hne hvacant hsessions hindex =>
      exact hindexed.reserved hfresh hvacant hsessions hindex
  | touched hsession hslots hsessions hindex => exact hindexed.touched hsession hslots hsessions hindex
  | joined hnew hdecode hsession hjoin hsessions hindex =>
      exact hindexed.joined hnew hsession (took_of_join hjoin) hsessions hindex
  | swept => exact hindexed.foldl_forget _

/-! ## Where the sessions come from -/

variable {events after : List Event} {event : Event} {fingerprint : Fingerprint}
  {address : SocketAddr}

theorem Joined.extend (hjoined : Joined events token fingerprint address) (event : Event) :
    Joined (events ++ [event]) token fingerprint address := by
  obtain ⟨datagram, now, hmem, hdecode⟩ := hjoined
  exact ⟨datagram, now, List.mem_append_left _ hmem, hdecode⟩

/-- A later event that does not reserve the token again. -/
theorem Reserved.extend (hreserved : Reserved events token session)
    (hevent : ∀ first second now, event = .reserve token first second now → first = second) :
    Reserved (events ++ [event]) token session := by
  obtain ⟨before, after, now, rfl, hne, hlast, ha, hb⟩ := hreserved
  refine ⟨before, after ++ [event], now, List.append_assoc _ _ _, hne, ?_, ?_, ?_⟩
  · intro first second time hmem
    rcases List.mem_append.mp hmem with hold | hnew
    · exact hlast first second time hold
    · exact hevent first second time (List.mem_singleton.mp hnew).symm
  · exact fun peer hpeer => (ha peer hpeer).extend event
  · exact fun peer hpeer => (hb peer hpeer).extend event

theorem Reserved.congr (hreserved : Reserved events token session)
    (hslots : SameSlots session changed) : Reserved events token changed := by
  obtain ⟨hpeerA, hpeerB, hexpectedA, hexpectedB⟩ := hslots
  unfold Reserved
  rw [hpeerA, hpeerB, hexpectedA, hexpectedB]
  exact hreserved

theorem Reserved.join {joined : Session} {source : SocketAddr} {datagram : Datagram} {now : Nat}
    (hreserved : Reserved events token session)
    (hdecode : RelayHello.tryDecode datagram.bytes = some ⟨token, fingerprint⟩)
    (htook : Took session joined source fingerprint) :
    Reserved (events ++ [.datagram source datagram true now]) token joined := by
  obtain ⟨before, after, time, rfl, hne, hlast, ha, hb⟩ := hreserved
  have hjoined : Joined (after ++ [.datagram source datagram true now]) token fingerprint source :=
    ⟨datagram, now, List.mem_append_right _ List.mem_cons_self, hdecode⟩
  have hlater : ∀ first second time,
      Event.reserve token first second time ∈ after ++ [.datagram source datagram true now] →
        first = second := by
    intro first second time hmem
    rcases List.mem_append.mp hmem with hold | hnew
    · exact hlast first second time hold
    · cases List.mem_singleton.mp hnew
  cases htook with
  | slotA hfingerprint hfree hpeerA hpeerB hexpectedA hexpectedB =>
      refine ⟨before, after ++ [.datagram source datagram true now], time, ?_, ?_, hlater, ?_, ?_⟩
      · rw [hexpectedA, hexpectedB, List.append_assoc]
        rfl
      · rw [hexpectedA, hexpectedB]
        exact hne
      · intro peer hpeer
        rw [hpeerA] at hpeer
        cases hpeer
        rw [hexpectedA, ← hfingerprint]
        exact hjoined
      · rw [hpeerB, hexpectedB]
        exact fun peer hpeer => (hb peer hpeer).extend _
  | slotB hfingerprint hfree hpeerB hpeerA hexpectedA hexpectedB =>
      refine ⟨before, after ++ [.datagram source datagram true now], time, ?_, ?_, hlater, ?_, ?_⟩
      · rw [hexpectedA, hexpectedB, List.append_assoc]
        rfl
      · rw [hexpectedA, hexpectedB]
        exact hne
      · rw [hpeerA, hexpectedA]
        exact fun peer hpeer => (ha peer hpeer).extend _
      · intro peer hpeer
        rw [hpeerB] at hpeer
        cases hpeer
        rw [hexpectedB, ← hfingerprint]
        exact hjoined

/-- Every live session comes from a reservation. -/
def AllReserved (events : List Event) (state : RelayState) : Prop :=
  ∀ token session, state.sessions.lookup token = some session → Reserved events token session

/-- A step that changes one session, and reserves no other token. -/
theorem allReserved_becomes (hall : AllReserved events state)
    (hevent : ∀ other first second now, other ≠ token → event ≠ .reserve other first second now)
    (hsessions : Becomes state next token session)
    (hsession : Reserved (events ++ [event]) token session) :
    AllReserved (events ++ [event]) next := by
  intro other found hfound
  rw [hsessions other] at hfound
  by_cases heq : other = token
  · rw [if_pos heq] at hfound
    cases hfound
    rw [heq]
    exact hsession
  · rw [if_neg heq] at hfound
    exact (hall other found hfound).extend fun first second now hreserve =>
      absurd hreserve (hevent other first second now heq)

theorem allReserved_moved {emitted : Option (SocketAddr × Bytes)} (hall : AllReserved events state)
    (hmoved : Moved state event next emitted) : AllReserved (events ++ [event]) next := by
  cases hmoved with
  | kept hrefused =>
      intro token session hsession
      exact (hall token session hsession).extend fun first second now hevent =>
        hrefused token first second now hevent
  | reserved hne hvacant hsessions hindex =>
      rename_i token first second now session
      refine allReserved_becomes hall ?_ hsessions ?_
      · rintro other _ _ _ hother ⟨⟩
        exact hother rfl
      · obtain ⟨hpeerA, hpeerB, rfl, rfl⟩ := hvacant
        refine ⟨events, [], now, rfl, hne, ?_, ?_, ?_⟩
        · intro _ _ _ hmem
          exact absurd hmem List.not_mem_nil
        · rw [hpeerA]
          nofun
        · rw [hpeerB]
          nofun
  | touched hsession hslots hsessions hindex hemitted =>
      refine allReserved_becomes hall (fun _ _ _ _ _ => nofun) hsessions ?_
      refine Reserved.congr ?_ hslots
      exact (hall _ _ hsession).extend nofun
  | joined hnew hdecode hsession hjoin hsessions hindex =>
      exact allReserved_becomes hall (fun _ _ _ _ _ => nofun) hsessions
        ((hall _ _ hsession).join hdecode (took_of_join hjoin))
  | swept =>
      intro token session hsession
      exact (hall token session (lookup_of_foldl_forget _ hsession)).extend nofun

/-! ## Every run -/

theorem sound_of_run (hfresh : Foundation.Run.Along Relay.next Fresh .default events)
    (hrun : run .default events = some state) : Indexed state ∧ AllReserved events state := by
  have hstart : Indexed .default ∧ AllReserved [] .default := by
    refine ⟨indexed_default, ?_⟩
    intro token session hsession
    cases hsession
  refine Foundation.Run.invariant_history
    (fun past current => Indexed current ∧ AllReserved past current) ?_ hfresh hstart hrun
  rintro past current event after ⟨hindexed, hall⟩ hallowed hstep
  cases hstep
  exact ⟨indexed_moved hindexed hallowed (moved_step current event),
    allReserved_moved hall (moved_step current event)⟩

theorem pairs_of_partner {source destination : SocketAddr}
    (hpartner : session.partner source = some destination) : Pairs session source destination := by
  unfold Session.partner at hpartner
  split at hpartner
  · rename_i a b ha hb
    split at hpartner
    · rename_i hsource
      cases hpartner
      exact ⟨a, b, ha, hb, .inl ⟨hsource.symm, rfl⟩⟩
    · split at hpartner
      · rename_i hsource
        cases hpartner
        exact ⟨a, b, ha, hb, .inr ⟨hsource.symm, rfl⟩⟩
      · cases hpartner
  · cases hpartner

/-- Why the relay may send what it received from `source` to `destination`. -/
def Authorised (events : List Event) (state : RelayState) (source destination : SocketAddr) : Prop :=
  ∃ token session, state.sessions.lookup token = some session ∧
    Pairs session source destination ∧ Reserved events token session ∧
    ∀ other found, state.sessions.lookup other = some found →
      Records found source ∨ Records found destination → other = token

/-- The relay only ever sends what it has just received, unchanged, from the one address
of a live session to the other. -/
theorem relay_isolated (hfresh : Foundation.Run.Along Relay.next Fresh .default events)
    (hrun : run .default events = some state) {destination : SocketAddr} {bytes : Bytes}
    (hemits : (step state event).2 = some (destination, bytes)) :
    ∃ source datagram now, event = .datagram source datagram true now ∧ datagram.bytes = bytes ∧
      source ≠ destination ∧ Authorised events state source destination := by
  obtain ⟨hindexed, hall⟩ := sound_of_run hfresh hrun
  have hmoved := moved_step state event
  rw [hemits] at hmoved
  generalize (step state event).1 = next at hmoved
  cases hmoved with
  | touched hsession hslots hsessions hindex hemitted =>
      rename_i source datagram now token session changed
      rcases hemitted with hnone | hsome
      · cases hnone
      · obtain ⟨dest, hpartner, hdest⟩ := Option.map_eq_some_iff.mp hsome.symm
        cases hdest
        have hpairs := pairs_of_partner hpartner
        obtain ⟨a, b, ha, hb, haddresses⟩ := hpairs
        have hdistinct := hindexed.distinct token session a b hsession ha hb
        have hrecordsA : Records session a.addr := ⟨a, .inl ha, rfl⟩
        have hrecordsB : Records session b.addr := ⟨b, .inr hb, rfl⟩
        refine ⟨source, datagram, now, rfl, rfl, ?_, token, session, hsession, pairs_of_partner hpartner,
          hall token session hsession, ?_⟩
        · rcases haddresses with ⟨rfl, rfl⟩ | ⟨rfl, rfl⟩
          · exact hdistinct
          · exact hdistinct.symm
        · intro other found hfound hrecords
          rcases haddresses with ⟨rfl, rfl⟩ | ⟨rfl, rfl⟩ <;> rcases hrecords with hrecords | hrecords
          · exact hindexed.unique hsession hrecordsA hfound hrecords
          · exact hindexed.unique hsession hrecordsB hfound hrecords
          · exact hindexed.unique hsession hrecordsB hfound hrecords
          · exact hindexed.unique hsession hrecordsA hfound hrecords

def firstPeer : SocketAddr := ⟨[10, 0, 0, 1], 4000⟩

def secondPeer : SocketAddr := ⟨[10, 0, 0, 2], 4000⟩

def sharedToken : SessionToken := FixedBytes.filled 16 7

def helloWith (fingerprint : UInt8) : Datagram where
  bytes := RelayHello.encode ⟨sharedToken, FixedBytes.filled 32 fingerprint⟩
  fits := Nat.le_of_ble_eq_true rfl

/-- A reservation for two certificates, and the hellos of their holders. -/
def meeting : List Event :=
  [.reserve sharedToken (FixedBytes.filled 32 1) (FixedBytes.filled 32 2) 0,
    .datagram firstPeer (helloWith 1) true 1, .datagram secondPeer (helloWith 2) true 2]

theorem fresh_meeting : Foundation.Run.Along Relay.next Fresh .default meeting := by
  refine ⟨rfl, ?_⟩
  intro reserved _
  exact Foundation.Run.along_of_forall (fun _ input hinput => by
    rcases List.mem_cons.mp hinput with rfl | hrest
    · trivial
    · rw [List.mem_singleton.mp hrest]
      trivial) reserved

theorem relay_isolated_meeting : ∃ state, run .default meeting = some state ∧
    ∃ source datagram now,
      Event.datagram firstPeer ⟨[1, 2, 3], by decide⟩ true 3 = .datagram source datagram true now ∧
        datagram.bytes = [1, 2, 3] ∧ source ≠ secondPeer ∧
        Authorised meeting state source secondPeer :=
  ⟨_, rfl, relay_isolated fresh_meeting rfl rfl⟩

end P2PFileTransfer.Server.RelayIsolation
