import P2PFileTransfer.Server.Ownership

/-!
# What reaches the first peer

As long as a waiter is in the table or held, the channel of its connection stays open for
it.  What the second peer puts into that channel stays there until the first one wakes up,
and is then all that the first one is ever sent.
-/

namespace P2PFileTransfer.Server.Delivery

open P2PFileTransfer.Foundation.Tables
open P2PFileTransfer.Session.Rendezvous (SocketAddr)
open P2PFileTransfer.Server.HandleConnection
open P2PFileTransfer.Server.Turns
open P2PFileTransfer.Server.Messages
open P2PFileTransfer.Server.Ownership

variable {state next : State} {conn : Nat} {waiter : Waiter} {payload : NotifyPayload}

/-! ## Channels -/

/-- Somebody can send to the connection. -/
def Sendable (state : State) (conn : Nat) : Prop :=
  (∃ code waiter, state.waiting.lookup code = some waiter ∧ waiter.notify = conn) ∨
    ∃ holder waiter, heldBy (state.stages holder) = some waiter ∧ waiter.notify = conn

/-- The connection has no channel yet, or listens on one that somebody can send to. -/
def Listening (state : State) (conn : Nat) : Prop :=
  Early (state.stages conn) ∨
    (∃ request, state.stages conn = .waiting request) ∧ Sendable state conn

def Open (state : State) : Prop :=
  ∀ conn, Listening state conn → state.channels conn = .opened

theorem open_start (relay : Option (SocketAddr × Relay.RelayState)) : Open (start relay) :=
  fun _ _ => rfl

/-- A turn that makes nobody listen, and leaves alone the channels of those who do. -/
theorem Open.turn (hopen : Open state) (conn : Nat) (stage : Stage)
    (hstages : next.stages = Function.update state.stages conn stage)
    (hearly : Early stage → Early (state.stages conn))
    (hwaiting : ∀ request, stage = .waiting request → Early (state.stages conn))
    (hsendable : ∀ other, Sendable next other → Sendable state other ∨ other = conn)
    (hchannels : ∀ other, Listening next other → next.channels other = state.channels other) :
    Open next := by
  intro other hlistening
  rw [hchannels other hlistening]
  apply hopen
  by_cases heq : other = conn
  · subst heq
    left
    rcases hlistening with hnow | ⟨⟨request, hstage⟩, _⟩
    · rw [hstages, Function.update_self] at hnow
      exact hearly hnow
    · rw [hstages, Function.update_self] at hstage
      exact hwaiting request hstage
  · rcases hlistening with hnow | ⟨⟨request, hstage⟩, hsender⟩
    · rw [hstages, Function.update_of_ne heq] at hnow
      exact .inl hnow
    · rw [hstages, Function.update_of_ne heq] at hstage
      exact .inr ⟨⟨request, hstage⟩, (hsendable other hsender).resolve_right heq⟩

/-- A turn that neither takes nor installs a waiter keeps the senders that are left. -/
theorem sendable_of_shrink {stage : Stage}
    (hstages : next.stages = Function.update state.stages conn stage)
    (hwaiting : ∀ code waiter, next.waiting.lookup code = some waiter →
      state.waiting.lookup code = some waiter)
    (hheld : ∀ waiter, heldBy stage = some waiter → heldBy (state.stages conn) = some waiter)
    {other : Nat} (hsendable : Sendable next other) : Sendable state other := by
  rcases hsendable with ⟨code, waiter, hlookup, hnotify⟩ | ⟨holder, waiter, hholds, hnotify⟩
  · exact .inl ⟨code, waiter, hwaiting code waiter hlookup, hnotify⟩
  · refine .inr ⟨holder, waiter, ?_, hnotify⟩
    rw [hstages] at hholds
    exact before_update (fun stage => heldBy stage = some waiter) (hheld waiter) hholds

/-- A turn that leaves the channels alone as well. -/
theorem Open.keep (hopen : Open state) (conn : Nat) (stage : Stage)
    (hstages : next.stages = Function.update state.stages conn stage)
    (hwaiting : next.waiting = state.waiting) (hchannels : next.channels = state.channels)
    (hearly : Early stage → Early (state.stages conn))
    (hinstalled : ∀ request, stage ≠ .waiting request)
    (hheld : ∀ waiter, heldBy stage = some waiter → heldBy (state.stages conn) = some waiter) :
    Open next := by
  refine hopen.turn conn stage hstages hearly ?_ ?_ ?_
  · exact fun request hstage => absurd hstage (hinstalled request)
  · refine fun other hsender => .inl (sendable_of_shrink hstages ?_ hheld hsender)
    intro code waiter hlookup
    rw [hwaiting] at hlookup
    exact hlookup
  · exact fun other _ => by rw [hchannels]

theorem channels_foldl_drop {waiters : List Waiter}
    (hother : ∀ waiter ∈ waiters, waiter.notify ≠ conn) (state : State) :
    (waiters.foldl State.drop state).channels conn = state.channels conn := by
  induction waiters generalizing state with
  | nil => rfl
  | cons waiter rest ih =>
      have hne := hother waiter List.mem_cons_self
      calc
        (rest.foldl State.drop (state.drop waiter)).channels conn =
            (state.drop waiter).channels conn :=
          ih (fun found hmem => hother found (List.mem_cons_of_mem _ hmem)) _
        _ = state.channels conn := Function.update_of_ne hne.symm _ _

theorem not_early_of_installed {stage : Stage} (hplace : Installed stage) : ¬ Early stage := by
  intro hearly
  cases stage with
  | absent | reading _ | looking _ _ | pairing _ _ | registering _ => exact hplace
  | delivering _ _ _ | notifying _ _ | rejecting _ _ | waiting _ | cleaning _ _ | answering _
  | done => exact hearly

/-- A connection whose waiter is gone does not listen. -/
theorem not_listening_of_gone {stage : Stage}
    (hstages : next.stages = Function.update state.stages conn stage)
    (hearly : Early stage → Early (state.stages conn))
    (hplace : Installed (state.stages waiter.notify))
    (hmapped : ∀ code found, next.waiting.lookup code = some found →
      found.notify ≠ waiter.notify)
    (hheld : ∀ holder found, heldBy (next.stages holder) = some found →
      found.notify ≠ waiter.notify) : ¬ Listening next waiter.notify := by
  rintro (hnow | ⟨_, ⟨code, found, hlookup, hnotify⟩ | ⟨holder, found, hholds, hnotify⟩⟩)
  · apply not_early_of_installed hplace
    rw [hstages] at hnow
    exact before_update Early hearly hnow
  · exact hmapped code found hlookup hnotify
  · exact hheld holder found hholds hnotify

theorem mem_expired {now : Nat} {waiting : Table Code Waiter}
    (hmem : waiter ∈ expired now waiting) :
    ∃ code, waiting.lookup code = some waiter ∧ waiter.expiresAt ≤ now := by
  obtain ⟨⟨code, found⟩, hentry, rfl⟩ := List.mem_map.mp hmem
  obtain ⟨hfound, hexpired⟩ := List.mem_filter.mp hentry
  refine ⟨code, lookup_eq_some_iff.mpr hfound, ?_⟩
  apply Nat.le_of_not_lt
  intro hlt
  rw [decide_eq_true hlt] at hexpired
  cases hexpired

/-- A look-up drops the waiters that it finds expired, and no other. -/
theorem Open.sweep (hopen : Open state) (howned : Owned state) {now : Nat} (conn : Nat)
    (stage : Stage)
    (hstages : next.stages = Function.update state.stages conn stage)
    (hchannels : next.channels =
      ((expired now state.waiting).foldl State.drop state).channels)
    (hlookup : ∀ code waiter, next.waiting.lookup code = some waiter →
      (unexpired now state.waiting).lookup code = some waiter)
    (hearly : Early stage → Early (state.stages conn))
    (hwaiting : ∀ request, stage ≠ .waiting request)
    (hheld : ∀ waiter, heldBy stage = some waiter →
      ∃ code, (unexpired now state.waiting).lookup code = some waiter) : Open next := by
  have hholders : ∀ holder found, heldBy (next.stages holder) = some found →
      (∃ code, (unexpired now state.waiting).lookup code = some found) ∨
        heldBy (state.stages holder) = some found := by
    intro holder found hholds
    rw [hstages] at hholds
    exact (of_update (fun stage => heldBy stage = some found) hholds).imp
      (fun hnew => hheld found hnew.2) And.right
  refine hopen.turn conn stage hstages hearly ?_ ?_ ?_
  · exact fun request hstage => absurd hstage (hwaiting request)
  · rintro other (⟨code, waiter, hfound, hnotify⟩ | ⟨holder, waiter, hholds, hnotify⟩)
    · exact .inl (.inl ⟨code, waiter, (lookup_unexpired.mp (hlookup _ _ hfound)).1, hnotify⟩)
    · rcases hholders holder waiter hholds with ⟨code, hfound⟩ | hold
      · exact .inl (.inl ⟨code, waiter, (lookup_unexpired.mp hfound).1, hnotify⟩)
      · exact .inl (.inr ⟨holder, waiter, hold, hnotify⟩)
  · intro other hlistening
    rw [hchannels]
    apply channels_foldl_drop
    rintro waiter hmem rfl
    obtain ⟨code, hexpired, hle⟩ := mem_expired hmem
    -- whatever is still mapped has not expired
    have hother : ∀ found key, (unexpired now state.waiting).lookup key = some found →
        found.notify ≠ waiter.notify := by
      intro found key hfound hsame
      obtain ⟨hmapped, hlt⟩ := lookup_unexpired.mp hfound
      cases howned.mappedOnce _ _ _ _ hmapped hexpired hsame
      rw [hmapped] at hexpired
      cases hexpired
      exact Nat.not_le_of_lt hlt hle
    refine not_listening_of_gone hstages hearly (howned.mapped code waiter hexpired).1 ?_ ?_
      hlistening
    · exact fun key found hfound => hother found key (hlookup key found hfound)
    · intro holder found hholds
      rcases hholders holder found hholds with ⟨key, hfound⟩ | hold
      · exact hother found key hfound
      · exact (howned.mappedOrHeld code waiter holder found hexpired hold).symm

/-- A connection ends, and what it held is dropped or used up. -/
theorem Open.finish (hopen : Open state) (howned : Owned state) (conn : Nat)
    (hstages : next.stages = Function.update state.stages conn .done)
    (hwaiting : next.waiting = state.waiting)
    (hchannels : ∀ other, (∀ waiter, heldBy (state.stages conn) = some waiter →
      waiter.notify ≠ other) → next.channels other = state.channels other) : Open next := by
  refine hopen.turn conn .done hstages False.elim nofun ?_ ?_
  · refine fun other hsender => .inl (sendable_of_shrink hstages ?_ nofun hsender)
    intro code waiter hlookup
    rw [hwaiting] at hlookup
    exact hlookup
  · intro other hlistening
    apply hchannels
    rintro waiter hheld rfl
    refine not_listening_of_gone hstages False.elim (howned.held conn waiter hheld) ?_ ?_ hlistening
    · intro code found hfound
      rw [hwaiting] at hfound
      exact howned.mappedOrHeld code found conn waiter hfound hheld
    · intro holder found hholds hsame
      rw [hstages] at hholds
      rcases of_update (fun stage => heldBy stage = some found) hholds with ⟨_, hnew⟩ | ⟨hne, hold⟩
      · cases hnew
      · exact hne (howned.heldOnce holder found conn waiter hold hheld hsame)

theorem channels_dropHeld_of_ne {held : Option Waiter}
    (hne : ∀ waiter, held = some waiter → waiter.notify ≠ conn) (state : State) :
    (state.dropHeld held).channels conn = state.channels conn := by
  cases held with
  | none => rfl
  | some waiter => exact Function.update_of_ne (hne waiter rfl).symm _ _

theorem channels_notify_of_ne (hne : waiter.notify ≠ conn) (state : State)
    (payload : NotifyPayload) :
    (state.notify waiter payload).channels conn = state.channels conn := by
  unfold State.notify
  split
  · exact Function.update_of_ne hne.symm _ _
  · rfl

theorem Open.step {ttl : Nat} {event : Event} (hopen : Open state) (howned : Owned state)
    (hturned : Turned ttl state event next) : Open next := by
  cases hturned with
  | accepted hstage =>
      refine hopen.keep _ _ rfl rfl rfl ?_ nofun nofun
      rw [hstage]
      exact id
  | unread hstage hnext =>
      rcases hnext with rfl | ⟨reason, rfl⟩ <;>
        exact hopen.keep _ _ rfl rfl rfl False.elim nofun nofun
  | refused hstage => exact hopen.keep _ _ rfl rfl rfl False.elim nofun nofun
  | admitted hstage hvalid =>
      refine hopen.keep _ _ rfl rfl rfl ?_ nofun nofun
      rw [hstage]
      exact id
  | took hstage hlookup =>
      rename_i conn now peer request waiter
      refine hopen.sweep howned conn (.pairing (stamp peer request) waiter) ?_ rfl ?_ ?_ nofun ?_
      · exact congrArg (fun stages => Function.update stages _ _) (stages_foldl_drop _ _)
      · exact fun code found hfound => (lookup_of_erase hfound).1
      · rw [hstage]
        exact id
      · intro found hfound
        cases hfound
        exact ⟨_, hlookup⟩
  | missed hstage hlookup =>
      rename_i conn now peer request
      refine hopen.sweep howned conn (.registering (stamp peer request)) ?_ rfl ?_ ?_ nofun nofun
      · exact congrArg (fun stages => Function.update stages _ _) (stages_foldl_drop _ _)
      · exact fun code found hfound => hfound
      · rw [hstage]
        exact id
  | pairedDirect hstage =>
      refine hopen.keep _ _ rfl rfl rfl False.elim nofun ?_
      rw [hstage]
      exact fun _ hheld => hheld
  | pairedRelay hstage hne =>
      refine hopen.keep _ _ rfl rfl rfl False.elim nofun ?_
      rw [hstage]
      exact fun _ hheld => hheld
  | relayRefused hstage =>
      refine hopen.keep _ _ rfl rfl rfl False.elim nofun ?_
      rw [hstage]
      exact fun _ hheld => hheld
  | delivered hstage =>
      refine hopen.keep _ _ rfl rfl rfl False.elim nofun ?_
      rw [hstage]
      exact fun _ hheld => hheld
  | undelivered hstage =>
      refine hopen.finish howned _ rfl rfl ?_
      intro other hne
      rw [hstage] at hne
      exact channels_dropHeld_of_ne hne state
  | notified hstage =>
      rename_i conn waiter payload
      refine hopen.finish howned conn ?_ (waiting_notify _ _ _) ?_
      · exact congrArg (fun stages => Function.update stages _ _) (stages_notify _ _ _)
      · intro other hne
        rw [hstage] at hne
        exact channels_notify_of_ne (hne waiter rfl) state payload
  | collided hstage => exact hopen.keep _ _ rfl rfl rfl False.elim nofun nofun
  | installed hstage hfree =>
      rename_i conn now request
      have hearly : Early (state.stages conn) := by
        rw [hstage]
        trivial
      refine hopen.turn conn (.waiting request) rfl False.elim (fun _ _ => hearly) ?_
        (fun _ _ => rfl)
      rintro other (⟨code, waiter, hfound, hnotify⟩ | ⟨holder, waiter, hholds, hnotify⟩)
      · change (state.waiting.insert request.code _).lookup code = some waiter at hfound
        rw [lookup_insert_ite] at hfound
        split at hfound
        · cases hfound
          exact .inr hnotify.symm
        · exact .inl (.inl ⟨code, waiter, hfound, hnotify⟩)
      · change heldBy (Function.update state.stages conn (.waiting request) holder) = _ at hholds
        refine .inl (.inr ⟨holder, waiter, ?_, hnotify⟩)
        refine before_update (fun stage => heldBy stage = some waiter) (fun hnew => ?_) hholds
        cases hnew
  | woken hstage hchannel => exact hopen.keep _ _ rfl rfl rfl False.elim nofun nofun
  | bereft hstage hchannel => exact hopen.keep _ _ rfl rfl rfl False.elim nofun nofun
  | timedOut hstage hchannel =>
      rename_i conn request
      have hstages : ({ state with channels := Function.update state.channels conn .closed }.goto
          conn (.cleaning request none)).stages =
            Function.update state.stages conn (.cleaning request none) := rfl
      refine hopen.turn conn (.cleaning request none) hstages False.elim nofun ?_ ?_
      · exact fun other hsender =>
          .inl (sendable_of_shrink hstages (fun _ _ hfound => hfound) nofun hsender)
      · intro other hlistening
        have hne : other ≠ conn := by
          rintro rfl
          rcases hlistening with hnow | ⟨⟨found, hnow⟩, _⟩
          · change Early (Function.update state.stages other _ other) at hnow
            rw [Function.update_self] at hnow
            exact hnow
          · change Function.update state.stages other _ other = _ at hnow
            rw [Function.update_self] at hnow
            cases hnow
        exact Function.update_of_ne hne _ _
  | cleaned hstage =>
      rename_i conn request outcome
      have hstages : ((state.cleanUp request).goto conn (.answering (outcomeMessage outcome))).stages =
          Function.update state.stages conn (.answering (outcomeMessage outcome)) :=
        congrArg (fun stages => Function.update stages _ _) (stages_cleanUp _ _)
      refine hopen.turn conn (.answering (outcomeMessage outcome)) ?_ False.elim nofun ?_ ?_
      · exact hstages
      · exact fun other hsender =>
          .inl (sendable_of_shrink hstages (fun _ _ hfound => lookup_cleanUp hfound) nofun hsender)
      · intro other hlistening
        change (state.cleanUp request).channels other = _
        rcases cleanUp_cases state request with heq | ⟨waiter, hlookup, _, heq⟩ <;> rw [heq]
        apply Function.update_of_ne
        rintro rfl
        refine not_listening_of_gone hstages False.elim (howned.mapped _ _ hlookup).1 ?_ ?_
          hlistening
        · intro code found hfound hsame
          change (state.cleanUp request).waiting.lookup code = some found at hfound
          rw [heq] at hfound
          obtain ⟨hmapped, hne⟩ := lookup_of_erase hfound
          exact hne (howned.mappedOnce _ _ _ _ hmapped hlookup hsame)
        · intro holder found hholds
          rw [hstages] at hholds
          by_cases hconn : holder = conn
          · rw [hconn, Function.update_self] at hholds
            cases hholds
          · rw [Function.update_of_ne hconn] at hholds
            exact (howned.mappedOrHeld _ _ _ _ hlookup hholds).symm
  | answered hstage => exact hopen.keep _ _ rfl rfl rfl False.elim nofun nofun
  | unanswered hstage => exact hopen.keep _ _ rfl rfl rfl False.elim nofun nofun
  | turnedAway hstage =>
      rename_i conn reason held
      refine hopen.finish howned conn ?_ (waiting_dropHeld state held) ?_
      · exact congrArg (fun stages => Function.update stages _ _) (stages_dropHeld _ _)
      · intro other hne
        rw [hstage] at hne
        exact channels_dropHeld_of_ne hne state
  | cutOff hstage =>
      rename_i conn reason held
      refine hopen.finish howned conn ?_ (waiting_dropHeld state held) ?_
      · exact congrArg (fun stages => Function.update stages _ _) (stages_dropHeld _ _)
      · intro other hne
        rw [hstage] at hne
        exact channels_dropHeld_of_ne hne state
  | relayed => exact hopen

/-! ## What is in a channel stays there -/

theorem holds_drop_of_holds (hholds : state.channels conn = .holds payload) (waiter : Waiter) :
    (state.drop waiter).channels conn = .holds payload := by
  rw [channels_drop]
  by_cases heq : conn = waiter.notify
  · subst heq
    rw [Function.update_self, hholds]
    rfl
  · rw [Function.update_of_ne heq]
    exact hholds

theorem holds_foldl_drop_of_holds (waiters : List Waiter)
    (hholds : state.channels conn = .holds payload) :
    (waiters.foldl State.drop state).channels conn = .holds payload := by
  induction waiters generalizing state with
  | nil => exact hholds
  | cons waiter rest ih => exact ih (holds_drop_of_holds hholds waiter)

theorem holds_dropHeld_of_holds (held : Option Waiter)
    (hholds : state.channels conn = .holds payload) :
    (state.dropHeld held).channels conn = .holds payload := by
  cases held with
  | none => exact hholds
  | some waiter => exact holds_drop_of_holds hholds waiter

theorem holds_update_of_holds {other : Nat} (channel : Channel)
    (hother : state.channels other = .opened) (hholds : state.channels conn = .holds payload) :
    Function.update state.channels other channel conn = .holds payload := by
  rw [Function.update_of_ne]
  · exact hholds
  · rintro rfl
    rw [hother] at hholds
    cases hholds

theorem holds_of_turned {ttl : Nat} {event : Event} (hturned : Turned ttl state event next)
    (hholds : state.channels conn = .holds payload) : next.channels conn = .holds payload := by
  cases hturned with
  | accepted _ | unread _ _ | refused _ | admitted _ _ | pairedDirect _ | pairedRelay _ _
  | relayRefused _ | delivered _ | collided _ | installed _ _ | woken _ _ | bereft _ _ | answered _
  | unanswered _ | relayed => exact hholds
  | took _ _ | missed _ _ => exact holds_foldl_drop_of_holds _ hholds
  | undelivered _ => exact holds_drop_of_holds hholds _
  | turnedAway _ | cutOff _ => exact holds_dropHeld_of_holds _ hholds
  | timedOut _ hchannel => exact holds_update_of_holds .closed hchannel hholds
  | notified hstage =>
      rename_i other waiter told
      change (state.notify waiter told).channels conn = .holds payload
      unfold State.notify
      split
      · rename_i hchannel
        exact holds_update_of_holds (.holds told) hchannel hholds
      · exact hholds
  | cleaned hstage =>
      rename_i other request outcome
      change (state.cleanUp request).channels conn = .holds payload
      rcases cleanUp_cases state request with heq | ⟨waiter, _, _, heq⟩ <;> rw [heq]
      · exact hholds
      · exact holds_drop_of_holds hholds waiter

/-! ## One answer each -/

/-- The connection was sent something, or could not be. -/
def Reply (conn : Nat) : Entry → Prop
  | .sent other _ | .broken other => other = conn
  | .registered _ _ _ | .reserved _ _ _ | .paired _ _ _ => False

/-- A connection that has written all that it is going to write. -/
def Spent : Stage → Prop
  | .notifying _ _ | .done => True
  | _ => False

structure Spoken (state : State) : Prop where
  spent : ∀ conn, ∀ entry ∈ state.log, Reply conn entry → Spent (state.stages conn)
  unique : ∀ conn, ∀ entry ∈ state.log, ∀ other ∈ state.log, Reply conn entry →
    Reply conn other → entry = other

theorem spoken_start (relay : Option (SocketAddr × Relay.RelayState)) : Spoken (start relay) :=
  ⟨fun _ _ hmem => absurd hmem List.not_mem_nil, fun _ _ hmem => absurd hmem List.not_mem_nil⟩

theorem Spoken.step (hspoken : Spoken state) (hmoves : Moves state next) : Spoken next := by
  rcases hmoves with ⟨hstages, hlog⟩ | ⟨conn, stage, entries, hmove, hstages, hlog⟩
  · constructor
    · rw [hstages, hlog]
      exact hspoken.spent
    · rw [hlog]
      exact hspoken.unique
  · have hkept : Spent (state.stages conn) → Spent stage := by
      generalize state.stages conn = before at hmove ⊢
      cases hmove <;> first | exact False.elim | exact id
    -- whoever is answered has not been answered before
    have hfirst : ∀ other, ∀ entry ∈ entries, Reply other entry →
        other = conn ∧ ¬ Spent (state.stages conn) ∧ Spent stage ∧ entries = [entry] := by
      intro other entry hmem hreply
      generalize state.stages conn = before at hmove ⊢
      cases hmove with
      | delivered _ _ _ | undelivered _ _ _ | answered _ | unanswered _ | turnedAway _ _
      | cutOff _ _ =>
          cases List.mem_singleton.mp hmem
          exact ⟨hreply.symm, id, trivial, rfl⟩
      | pairedRelay _ _ _ _ _ _ _ =>
          rcases List.mem_cons.mp hmem with rfl | hpaired
          · exact hreply.elim
          · cases List.mem_singleton.mp hpaired
            exact hreply.elim
      | pairedDirect _ _ _ _ | refused _ _ _ | admitted _ _ =>
          cases List.mem_singleton.mp hmem
          exact hreply.elim
      | accepted _ | closed _ | foreign _ _ | took _ _ _ | missed _ _ | relayRefused _ _ _
      | notified _ _ | collided _ _ | installed _ | woken _ _ | cleaned _ _ =>
          exact absurd hmem List.not_mem_nil
    constructor
    · intro other entry hmem hreply
      rw [hlog] at hmem
      rw [hstages]
      by_cases heq : other = conn
      · rw [heq] at hreply ⊢
        rw [Function.update_self]
        rcases List.mem_append.mp hmem with hold | hnew
        · exact hkept (hspoken.spent conn entry hold hreply)
        · exact (hfirst conn entry hnew hreply).2.2.1
      · rw [Function.update_of_ne heq]
        rcases List.mem_append.mp hmem with hold | hnew
        · exact hspoken.spent other entry hold hreply
        · exact absurd (hfirst other entry hnew hreply).1 heq
    · intro other entry hmem found hfound hreply hagain
      rw [hlog] at hmem hfound
      rcases List.mem_append.mp hmem with hold | hnew <;>
        rcases List.mem_append.mp hfound with hfoundOld | hfoundNew
      · exact hspoken.unique other entry hold found hfoundOld hreply hagain
      · obtain ⟨rfl, hbefore, _⟩ := hfirst other found hfoundNew hagain
        exact absurd (hspoken.spent other entry hold hreply) hbefore
      · obtain ⟨rfl, hbefore, _⟩ := hfirst other entry hnew hreply
        exact absurd (hspoken.spent other found hfoundOld hagain) hbefore
      · rw [(hfirst other entry hnew hreply).2.2.2] at hfoundNew
        exact (List.mem_singleton.mp hfoundNew).symm

end P2PFileTransfer.Server.Delivery
