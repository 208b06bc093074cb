import P2PFileTransfer.Server.RelaySeats

/-!
# What the idle sweep removes

A sweep forgets its sessions one after the other and deletes their index entries by address.
Since an address sits in at most one slot, no other session loses an entry.  Two runs, one
with the sweep and one without, then stay apart in the removed sessions only, as long as
nobody joins one of these in the run that still has them.
-/

namespace P2PFileTransfer.Server.RelayEviction

open P2PFileTransfer.Foundation.ByteFile
open P2PFileTransfer.Foundation.Run (Along run_cons_of_step along_of_forall along_and invariant_along)
open P2PFileTransfer.Foundation.Tables
open P2PFileTransfer.Core.Protocol
open P2PFileTransfer.Session.Rendezvous (SocketAddr)
open P2PFileTransfer.Server.Relay
open P2PFileTransfer.Server.RelayIsolation
open P2PFileTransfer.Server.RelayIndex
open P2PFileTransfer.Server.RelaySeats

/-- Half open and too old, or full and silent for too long. -/
def Idle (session : Session) (now : Nat) : Prop :=
  (∃ slot, peerAt session slot = none) ∧ sessionIdleTimeout < now - session.createdAt ∨
    (∀ slot, peerAt session slot ≠ none) ∧ sessionIdleTimeout < now - session.lastActive

/-- A sweep at this time removes the session. -/
def Removed (state : RelayState) (now : Nat) (token : SessionToken) : Prop :=
  ∃ session, state.sessions.lookup token = some session ∧ Idle session now

/-- What the relay sends, event by event. -/
def outputs : RelayState → List Event → List (Option (SocketAddr × Bytes))
  | _, [] => []
  | state, event :: rest =>
      (Relay.step state event).2 :: outputs (Relay.step state event).1 rest

/-- A datagram from one of these addresses. -/
def SentFrom (allowed : SocketAddr → Prop) (event : Event) : Prop :=
  ∃ source datagram admitted now, event = .datagram source datagram admitted now ∧ allowed source

/-- A hello that takes a free seat in one of the sessions. -/
def Joins (removed : SessionToken → Prop) (state : RelayState) (event : Event) : Prop :=
  ∃ source datagram now hello session, event = .datagram source datagram true now ∧
    state.addrToToken.lookup source = none ∧ RelayHello.tryDecode datagram.bytes = some hello ∧
      removed hello.token ∧ state.sessions.lookup hello.token = some session ∧
        (session.join source hello.fingerprint now).isSome = true

/-- The states of two runs that differ in the removed sessions only: `swept` has none of
them, and neither their index entries. -/
structure Apart (removed : SessionToken → Prop) (kept swept : RelayState) : Prop where
  sessions : ∀ token, ¬ removed token →
    swept.sessions.lookup token = kept.sessions.lookup token
  gone : ∀ token, removed token → swept.sessions.lookup token = none
  index : ∀ address token, swept.addrToToken.lookup address = some token ↔
    kept.addrToToken.lookup address = some token ∧ ¬ removed token
  bytesForwarded : swept.bytesForwarded = kept.bytesForwarded

/-- What a sweep at `now` does to a state, at once and later. -/
structure Exact (state : RelayState) (now : Nat) : Prop where
  sessions : ∀ token session, (state.evictIdle now).sessions.lookup token = some session ↔
    state.sessions.lookup token = some session ∧ ¬ Idle session now
  index : ∀ address token, (state.evictIdle now).addrToToken.lookup address = some token ↔
    state.addrToToken.lookup address = some token ∧ ¬ Removed state now token
  undisturbed : ∀ events kept swept,
    (∀ event ∈ events, SentFrom (fun source => ∀ token session slot,
      state.sessions.lookup token = some session → Idle session now →
        ¬ Bound session slot source) event) →
    Along Relay.next (fun current event => ¬ Joins (Removed state now) current event) state events →
      Relay.run state events = some kept → Relay.run (state.evictIdle now) events = some swept →
        outputs (state.evictIdle now) events = outputs state events ∧
          Apart (Removed state now) kept swept
  welcome : ∀ source, (∃ token session slot, state.sessions.lookup token = some session ∧
      Idle session now ∧ Bound session slot source) →
    ∀ later final, Along Relay.next Fresh (state.evictIdle now) later →
      (∀ event ∈ later, ¬ SentFrom (fun other => other = source) event) →
        Relay.run (state.evictIdle now) later = some final →
          ∀ token session slot (datagram : Datagram) trailing time,
            final.sessions.lookup token = some session → peerAt session slot = none →
              datagram.bytes = RelayHello.encode ⟨token, expectedAt session slot⟩ ++ trailing →
                Seated (Relay.step final (.datagram source datagram true time)).1 token slot source
                  (expectedAt session slot)

variable {state next kept swept : RelayState} {token : SessionToken} {session : Session}
  {source address : SocketAddr} {event : Event} {removed : SessionToken → Prop} {now : Nat}

/-! ## The sweep -/

theorem stale_iff_idle : session.stale now = true ↔ Idle session now := by
  have hslots : (session.peerA.isNone || session.peerB.isNone) = true ↔
      ∃ slot, peerAt session slot = none := by
    rw [Bool.or_eq_true, Option.isNone_iff_eq_none, Option.isNone_iff_eq_none]
    constructor
    · rintro (ha | hb)
      · exact ⟨.a, ha⟩
      · exact ⟨.b, hb⟩
    · rintro ⟨_ | _, hslot⟩
      · exact .inl hslot
      · exact .inr hslot
  unfold Session.stale Idle
  by_cases hopen : ∃ slot, peerAt session slot = none
  · rw [if_pos (hslots.mpr hopen), decide_eq_true_iff]
    refine ⟨fun hold => .inl ⟨hopen, hold⟩, ?_⟩
    rintro (⟨_, hold⟩ | ⟨hfull, _⟩)
    · exact hold
    · obtain ⟨slot, hslot⟩ := hopen
      exact absurd hslot (hfull slot)
  · rw [if_neg (fun hnone => hopen (hslots.mp hnone)), decide_eq_true_iff]
    refine ⟨fun hold => .inr ⟨fun slot hslot => hopen ⟨slot, hslot⟩, hold⟩, ?_⟩
    rintro (⟨hslot, _⟩ | ⟨_, hold⟩)
    · exact absurd hslot hopen
    · exact hold

theorem mem_staleTokens : token ∈ state.staleTokens now ↔ Removed state now token := by
  simp only [RelayState.staleTokens, List.mem_map, List.mem_filter, Removed, lookup_eq_some_iff]
  constructor
  · rintro ⟨⟨other, session⟩, ⟨hentry, hstale⟩, rfl⟩
    exact ⟨session, hentry, stale_iff_idle.mp hstale⟩
  · rintro ⟨session, hentry, hidle⟩
    exact ⟨⟨token, session⟩, ⟨hentry, stale_iff_idle.mpr hidle⟩, rfl⟩

theorem lookup_foldl_forget (tokens : List SessionToken) :
    (tokens.foldl RelayState.forget state).sessions.lookup token =
      if token ∈ tokens then none else state.sessions.lookup token := by
  induction tokens generalizing state with
  | nil => simp
  | cons first rest ih =>
      rw [List.foldl_cons, ih, lookup_forget]
      by_cases heq : token = first
      · simp [heq]
      · simp [heq]

/-- Forgetting a session deletes its own index entries. -/
theorem index_forget (hindexed : Indexed state) (token other : SessionToken)
    (address : SocketAddr) : (state.forget token).addrToToken.lookup address = some other ↔
      state.addrToToken.lookup address = some other ∧ other ≠ token := by
  cases hsession : state.sessions.lookup token with
  | none =>
      rw [RelayState.forget, hsession]
      refine ⟨fun hindex => ⟨hindex, ?_⟩, fun hboth => hboth.1⟩
      rintro rfl
      obtain ⟨session, hfound, _⟩ := (hindexed.recorded address other).mp hindex
      rw [hsession] at hfound
      cases hfound
  | some session =>
      rw [index_forget_iff hsession, and_comm]
      refine and_congr_right fun hindex => not_congr ?_
      obtain ⟨found, hfound, hrecords⟩ := (hindexed.recorded address other).mp hindex
      constructor
      · exact fun hsame => hindexed.unique hsession hsame hfound hrecords
      · rintro rfl
        rw [hsession] at hfound
        cases hfound
        exact hrecords

theorem index_foldl_forget (tokens : List SessionToken) (hindexed : Indexed state) :
    (tokens.foldl RelayState.forget state).addrToToken.lookup address = some token ↔
      state.addrToToken.lookup address = some token ∧ token ∉ tokens := by
  induction tokens generalizing state with
  | nil => simp
  | cons first rest ih =>
      rw [List.foldl_cons, ih (hindexed.forget first), index_forget hindexed, List.mem_cons,
        not_or, and_assoc]

theorem bytesForwarded_foldl_forget (tokens : List SessionToken) :
    (tokens.foldl RelayState.forget state).bytesForwarded = state.bytesForwarded := by
  induction tokens generalizing state with
  | nil => rfl
  | cons first rest ih =>
      rw [List.foldl_cons, ih]
      unfold RelayState.forget
      split <;> rfl

theorem lookup_evictIdle_of_not (hkept : ¬ Removed state now token) :
    (state.evictIdle now).sessions.lookup token = state.sessions.lookup token := by
  rw [RelayState.evictIdle, lookup_foldl_forget, if_neg fun hmem => hkept (mem_staleTokens.mp hmem)]

theorem lookup_evictIdle_of_removed (hremoved : Removed state now token) :
    (state.evictIdle now).sessions.lookup token = none := by
  rw [RelayState.evictIdle, lookup_foldl_forget, if_pos (mem_staleTokens.mpr hremoved)]

theorem index_evictIdle (hindexed : Indexed state) :
    (state.evictIdle now).addrToToken.lookup address = some token ↔
      state.addrToToken.lookup address = some token ∧ ¬ Removed state now token := by
  rw [RelayState.evictIdle, index_foldl_forget _ hindexed, mem_staleTokens]

/-- The removed sessions are exactly the idle ones. -/
theorem sessions_evictIdle : (state.evictIdle now).sessions.lookup token = some session ↔
    state.sessions.lookup token = some session ∧ ¬ Idle session now := by
  by_cases hremoved : Removed state now token
  · rw [lookup_evictIdle_of_removed hremoved]
    obtain ⟨found, hfound, hidle⟩ := hremoved
    refine ⟨nofun, ?_⟩
    rintro ⟨hsession, hnot⟩
    rw [hfound] at hsession
    cases hsession
    exact absurd hidle hnot
  · rw [lookup_evictIdle_of_not hremoved]
    exact ⟨fun hsession => ⟨hsession, fun hidle => hremoved ⟨session, hsession, hidle⟩⟩,
      fun hboth => hboth.1⟩

theorem apart_evictIdle (hindexed : Indexed state) (now : Nat) :
    Apart (Removed state now) state (state.evictIdle now) where
  sessions := fun _ hkept => lookup_evictIdle_of_not hkept
  gone := fun _ hremoved => lookup_evictIdle_of_removed hremoved
  index := fun _ _ => index_evictIdle hindexed
  bytesForwarded := bytesForwarded_foldl_forget _

/-! ## Two runs -/

theorem Apart.index_none (hapart : Apart removed kept swept)
    (hnone : kept.addrToToken.lookup source = none) :
    swept.addrToToken.lookup source = none := by
  cases hindex : swept.addrToToken.lookup source with
  | none => rfl
  | some token =>
      have hkept := ((hapart.index source token).mp hindex).1
      rw [hnone] at hkept
      cases hkept

/-- A change to a session that both runs have. -/
theorem Apart.change (hapart : Apart removed kept swept) (hkept : ¬ removed token)
    (after : Session) {left right : RelayState} (hleft : Becomes kept left token after)
    (hright : Becomes swept right token after)
    (hindex : ∀ address other, right.addrToToken.lookup address = some other ↔
      left.addrToToken.lookup address = some other ∧ ¬ removed other)
    (hbytes : right.bytesForwarded = left.bytesForwarded) : Apart removed left right := by
  refine ⟨?_, ?_, hindex, hbytes⟩
  · intro other hother
    rw [hleft other, hright other, hapart.sessions other hother]
  · intro other hother
    have hne : other ≠ token := fun heq => hkept (heq ▸ hother)
    rw [hright other, if_neg hne]
    exact hapart.gone other hother

/-- A datagram that belongs to a session of both runs. -/
theorem Apart.forward (hapart : Apart removed kept swept) (hkept : ¬ removed token)
    (source : SocketAddr) (packet : Bytes) (now : Nat) :
    (swept.forward token source packet now).2 = (kept.forward token source packet now).2 ∧
      (swept.forward token source packet now).1.addrToToken = swept.addrToToken ∧
      (kept.forward token source packet now).1.addrToToken = kept.addrToToken ∧
      Apart removed (kept.forward token source packet now).1
        (swept.forward token source packet now).1 := by
  have hsame := hapart.sessions token hkept
  unfold RelayState.forward
  rw [hsame]
  cases hsession : kept.sessions.lookup token with
  | none => exact ⟨rfl, rfl, rfl, hapart⟩
  | some session =>
      dsimp only
      cases session.partner source with
      | none =>
          refine ⟨rfl, rfl, rfl, ?_⟩
          exact hapart.change hkept { session with lastActive := now }
            (fun other => lookup_insert_ite _ _ _ _) (fun other => lookup_insert_ite _ _ _ _)
            hapart.index hapart.bytesForwarded
      | some dest =>
          refine ⟨rfl, rfl, rfl, ?_⟩
          exact hapart.change hkept { session with lastActive := now }
            (fun other => lookup_insert_ite _ _ _ _) (fun other => lookup_insert_ite _ _ _ _)
            hapart.index (congrArg (· + packet.length) hapart.bytesForwarded)

/-- A hello for a session of both runs. -/
theorem Apart.welcome (hapart : Apart removed kept swept) {hello : RelayHello}
    (hkept : ¬ removed hello.token) (source : SocketAddr) (now : Nat) :
    Apart removed (kept.welcome hello source now) (swept.welcome hello source now) := by
  have hsame := hapart.sessions hello.token hkept
  unfold RelayState.welcome
  rw [hsame]
  cases hsession : kept.sessions.lookup hello.token with
  | none => exact hapart
  | some session =>
      dsimp only
      cases session.join source hello.fingerprint now with
      | none =>
          exact hapart.change hkept session (fun other => lookup_reinsert _ _ _ _)
            (fun other => lookup_reinsert _ _ _ _) hapart.index hapart.bytesForwarded
      | some joined =>
          refine hapart.change hkept joined (fun other => lookup_reinsert _ _ _ _)
            (fun other => lookup_reinsert _ _ _ _) ?_ hapart.bytesForwarded
          intro address other
          rw [lookup_insert_ite, lookup_insert_ite]
          by_cases heq : address = source
          · rw [if_pos heq, if_pos heq]
            refine ⟨fun htoken => ⟨htoken, ?_⟩, fun hboth => hboth.1⟩
            cases htoken
            exact hkept
          · rw [if_neg heq, if_neg heq]
            exact hapart.index address other

/-- A hello for a removed session that takes no seat there. -/
theorem Apart.ignored (hapart : Apart removed kept swept) {hello : RelayHello}
    (hremoved : removed hello.token) {now : Nat}
    (hrefused : ∀ session, kept.sessions.lookup hello.token = some session →
      session.join source hello.fingerprint now = none) :
    Apart removed (kept.welcome hello source now) (swept.welcome hello source now) ∧
      (kept.welcome hello source now).addrToToken = kept.addrToToken := by
  have hgone := hapart.gone hello.token hremoved
  have hswept : swept.welcome hello source now = swept := by
    unfold RelayState.welcome
    rw [hgone]
  rw [hswept]
  unfold RelayState.welcome
  cases hsession : kept.sessions.lookup hello.token with
  | none => exact ⟨hapart, rfl⟩
  | some session =>
      dsimp only
      rw [hrefused session hsession]
      refine ⟨⟨?_, hapart.gone, hapart.index, hapart.bytesForwarded⟩, rfl⟩
      intro other hother
      have hne : other ≠ hello.token := fun heq => hother (heq ▸ hremoved)
      rw [lookup_reinsert, if_neg hne]
      exact hapart.sessions other hother

/-- The index entries of the removed sessions are those of `start`. -/
def Frozen (removed : SessionToken → Prop) (start state : RelayState) : Prop :=
  ∀ address token, removed token → state.addrToToken.lookup address = some token →
    start.addrToToken.lookup address = some token

/-- What one datagram keeps of both runs. -/
structure Matched (removed : SessionToken → Prop) (start kept swept : RelayState) : Prop where
  apart : Apart removed kept swept
  frozen : Frozen removed start kept

theorem matched_step {start : RelayState} (hmatched : Matched removed start kept swept)
    (hsource : SentFrom (fun source => ∀ token, start.addrToToken.lookup source = some token →
      ¬ removed token) event)
    (hjoins : ¬ Joins removed kept event) :
    (Relay.step swept event).2 = (Relay.step kept event).2 ∧
      Matched removed start (Relay.step kept event).1 (Relay.step swept event).1 := by
  obtain ⟨hapart, hfrozen⟩ := hmatched
  obtain ⟨source, datagram, admitted, now, rfl, hallowed⟩ := hsource
  cases admitted with
  | false => exact ⟨rfl, hapart, hfrozen⟩
  | true =>
      rw [Relay.step, Relay.step, Datagram.take_recvBuf, RelayState.receive, RelayState.receive]
      cases hindex : kept.addrToToken.lookup source with
      | some token =>
          have hkept : ¬ removed token := fun hremoved =>
            hallowed token (hfrozen source token hremoved hindex) hremoved
          rw [(hapart.index source token).mpr ⟨hindex, hkept⟩]
          obtain ⟨hsent, _, hleft, hnext⟩ := hapart.forward hkept source datagram.bytes now
          refine ⟨hsent, hnext, ?_⟩
          intro address other hother hlookup
          rw [hleft] at hlookup
          exact hfrozen address other hother hlookup
      | none =>
          rw [hapart.index_none hindex]
          dsimp only
          cases hdecode : RelayHello.tryDecode datagram.bytes with
          | none => exact ⟨rfl, hapart, hfrozen⟩
          | some hello =>
              refine ⟨rfl, ?_⟩
              dsimp only
              by_cases hremoved : removed hello.token
              · -- the seat stays free in the run that still has the session
                have hrefused : ∀ session, kept.sessions.lookup hello.token = some session →
                    session.join source hello.fingerprint now = none := by
                  intro session hsession
                  by_contra hjoin
                  exact hjoins ⟨source, datagram, now, hello, session, rfl, hindex, hdecode,
                    hremoved, hsession, Option.isSome_iff_ne_none.mpr hjoin⟩
                obtain ⟨hnext, hsame⟩ := hapart.ignored hremoved hrefused
                refine ⟨hnext, ?_⟩
                intro address other hother hlookup
                rw [hsame] at hlookup
                exact hfrozen address other hother hlookup
              · refine ⟨hapart.welcome hremoved source now, ?_⟩
                intro address other hother hlookup
                unfold RelayState.welcome at hlookup
                split at hlookup
                · exact hfrozen address other hother hlookup
                · dsimp only at hlookup
                  split at hlookup
                  · exact hfrozen address other hother hlookup
                  · rw [lookup_insert_ite] at hlookup
                    split at hlookup
                    · cases hlookup
                      exact absurd hother hremoved
                    · exact hfrozen address other hother hlookup

theorem matched_run {start : RelayState} {events : List Event}
    (hmatched : Matched removed start state next)
    (hsources : ∀ event ∈ events, SentFrom (fun source => ∀ token,
      start.addrToToken.lookup source = some token → ¬ removed token) event)
    (hjoins : Along Relay.next (fun current event => ¬ Joins removed current event) state events)
    (hkept : Relay.run state events = some kept) (hswept : Relay.run next events = some swept) :
    outputs next events = outputs state events ∧ Apart removed kept swept := by
  induction events generalizing state next with
  | nil =>
      cases hkept
      cases hswept
      exact ⟨rfl, hmatched.apart⟩
  | cons event rest ih =>
      obtain ⟨hsent, hnext⟩ :=
        matched_step hmatched (hsources event List.mem_cons_self) hjoins.1
      obtain ⟨houtputs, hfinal⟩ := ih hnext
        (fun other hother => hsources other (List.mem_cons_of_mem _ hother))
        (hjoins.2 _ rfl) hkept hswept
      rw [outputs, outputs, hsent, houtputs]
      exact ⟨rfl, hfinal⟩

/-! ## Joining again -/

/-- Only an address itself can take a seat. -/
theorem index_none_step (hordered : Ordered state)
    (hother : ¬ SentFrom (fun other => other = source) event)
    (hnone : state.addrToToken.lookup source = none) :
    (Relay.step state event).1.addrToToken.lookup source = none := by
  have hmoved := moved_step state event
  generalize (Relay.step state event).1 = next at hmoved
  generalize (Relay.step state event).2 = emitted at hmoved
  cases hmoved with
  | kept => exact hnone
  | reserved hne hvacant hsessions hindex =>
      rw [hindex]
      exact hnone
  | touched hsession hslots hsessions hindex hemitted =>
      rw [hindex]
      exact hnone
  | joined hnew hdecode hsession hjoin hsessions hindex =>
      rename_i sender datagram now hello session joined
      have hne : source ≠ sender := by
        rintro rfl
        exact hother ⟨source, datagram, true, now, rfl, rfl⟩
      rw [hindex, lookup_insert_ite, if_neg hne]
      exact hnone
  | swept =>
      cases hindex : (state.evictIdle _).addrToToken.lookup source with
      | none => rfl
      | some token =>
          have hbefore := ((index_evictIdle hordered.indexed).mp hindex).1
          rw [hnone] at hbefore
          cases hbefore

theorem index_none_run {events : List Event} {final : RelayState} (hordered : Ordered state)
    (hfresh : Along Relay.next Fresh state events)
    (hothers : ∀ event ∈ events, ¬ SentFrom (fun other => other = source) event)
    (hnone : state.addrToToken.lookup source = none)
    (hrun : Relay.run state events = some final) : final.addrToToken.lookup source = none := by
  have hquiet : Along Relay.next (fun _ event => ¬ SentFrom (fun other => other = source) event)
      state events := along_of_forall (fun _ => hothers) state
  refine (invariant_along
    (fun current => Ordered current ∧ current.addrToToken.lookup source = none) ?_
    (along_and hfresh hquiet) ⟨hordered, hnone⟩ hrun).2
  rintro current event after ⟨hcurrent, hunbound⟩ ⟨hallowed, hother⟩ hstep
  cases hstep
  exact ⟨hcurrent.step hallowed, index_none_step hcurrent hother hunbound⟩

/-! ## Every reachable state -/

/-- A sweep removes the idle sessions and their index entries; datagrams from other addresses
that take no seat in a removed session do not notice it, and the addresses it sets free can
take a seat again. -/
theorem eviction_exact {events : List Event} (hfresh : Along Relay.next Fresh .default events)
    (hrun : Relay.run .default events = some state) (now : Nat) : Exact state now := by
  have hordered := ordered_of_run hfresh hrun
  constructor
  · intro token session
    exact sessions_evictIdle
  · intro address token
    exact index_evictIdle hordered.indexed
  · intro later kept swept hsources hjoins hkept hswept
    have hmatched : Matched (Removed state now) state state (state.evictIdle now) :=
      ⟨apart_evictIdle hordered.indexed now, fun _ _ _ hlookup => hlookup⟩
    refine matched_run hmatched ?_ hjoins hkept hswept
    · intro event hevent
      obtain ⟨source, datagram, admitted, time, hsame, hunbound⟩ := hsources event hevent
      refine ⟨source, datagram, admitted, time, hsame, ?_⟩
      rintro token hindex ⟨session, hsession, hidle⟩
      obtain ⟨found, hfound, hrecords⟩ := (hordered.indexed.recorded source token).mp hindex
      rw [hsession] at hfound
      cases hfound
      obtain ⟨slot, hslot⟩ := records_iff_bound.mp hrecords
      exact hunbound token session slot hsession hidle hslot
  · rintro source ⟨gone, idle, seat, hidle, hold, hseat⟩ later final hlater hothers hfinal token
      session slot datagram trailing time hsession hfree hgreets
    have hevicted : Ordered (Relay.step state (.sweep now)).1 := hordered.step trivial
    have hunbound : (state.evictIdle now).addrToToken.lookup source = none := by
      cases hindex : (state.evictIdle now).addrToToken.lookup source with
      | none => rfl
      | some other =>
          obtain ⟨hbefore, hkept⟩ := (index_evictIdle hordered.indexed).mp hindex
          have hhome := (hordered.indexed.recorded source gone).mpr
            ⟨idle, hidle, records_iff_bound.mpr ⟨seat, hseat⟩⟩
          rw [hhome] at hbefore
          cases hbefore
          exact absurd ⟨idle, hidle, hold⟩ hkept
    have hlast := hevicted.run hlater hfinal
    obtain ⟨found, hfound, hseated⟩ := bound_of_hello (hlast.certified token session hsession)
      (index_none_run hevicted hlater hothers hunbound hfinal) hsession hfree hgreets time
    exact seated_of_bound (hlast.step trivial) hfound hseated

theorem eviction_exact_meeting : ∃ state, Relay.run .default meeting = some state ∧
    Exact state (200 * 10 ^ 9) :=
  ⟨_, rfl, eviction_exact fresh_meeting rfl _⟩

/-! ## A peer that comes late -/

/-- One peer has joined, the other one has not. -/
def halfOpen : List Event :=
  [.reserve sharedToken (FixedBytes.filled 32 1) (FixedBytes.filled 32 2) 0,
    .datagram firstPeer (helloWith 1) true 1]

/-- The second peer joins and sends three bytes. -/
def latecomer : List Event :=
  [.datagram secondPeer (helloWith 2) true (130 * 10 ^ 9),
    .datagram secondPeer ⟨[1, 2, 3], by decide⟩ true (131 * 10 ^ 9)]

/-- Without the sweep the three bytes are forwarded, after it they are not. -/
theorem latecomer_notices : ¬ ∀ (events later : List Event) (state : RelayState) (now : Nat),
    Along Relay.next Fresh .default events → Relay.run .default events = some state →
      (∀ event ∈ later, SentFrom (fun source => ∀ token session slot,
        state.sessions.lookup token = some session → Idle session now →
          ¬ Bound session slot source) event) →
        outputs (state.evictIdle now) later = outputs state later := by
  intro hclaim
  have hfresh : Along Relay.next Fresh .default halfOpen :=
    ⟨rfl, fun _ _ => along_of_forall (fun _ event hevent => by
      rw [List.mem_singleton.mp hevent]
      trivial) _⟩
  have hsame := hclaim halfOpen latecomer _ (125 * 10 ^ 9) hfresh rfl ?_
  · have hlast := congrArg (fun sent => sent[1]?) hsame
    cases hlast
  · have hhomeless : Homeless _ secondPeer :=
      (homeless_iff (ordered_of_run hfresh rfl).indexed).mpr rfl
    intro event hevent
    rcases List.mem_cons.mp hevent with rfl | hrest
    · exact ⟨_, _, _, _, rfl, fun token session slot hsession _ =>
        hhomeless token session slot hsession⟩
    · rw [List.mem_singleton.mp hrest]
      exact ⟨_, _, _, _, rfl, fun token session slot hsession _ =>
        hhomeless token session slot hsession⟩

end P2PFileTransfer.Server.RelayEviction
