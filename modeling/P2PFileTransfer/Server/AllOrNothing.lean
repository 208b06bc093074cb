import P2PFileTransfer.Server.Delivery
import P2PFileTransfer.Server.Pairing

/-!
# Matches on both sides

The second peer of a pair is sent its match before the first one is notified, and the
timer of the first peer runs all the while.  If it does not fire in between, the first
peer is sent its match too.
-/

namespace P2PFileTransfer.Server.AllOrNothing

open P2PFileTransfer.Foundation.Run (Along run_cons_of_step)
open P2PFileTransfer.Session.Rendezvous (SocketAddr)
open P2PFileTransfer.Server.Relay (RelayState)
open P2PFileTransfer.Server.HandleConnection
open P2PFileTransfer.Server.Turns
open P2PFileTransfer.Server.Messages
open P2PFileTransfer.Server.Ownership
open P2PFileTransfer.Server.Delivery
open P2PFileTransfer.Server.Pairing

/-- When the second peer has its match, the first one still waits; and it goes on waiting
until it is notified. -/
def Timely (state : State) : Event → Prop
  | .connection conn .written =>
      ∀ waiter message payload, state.stages conn = .delivering waiter message payload →
        (∃ request, state.stages waiter.notify = .waiting request) ∨
          .broken waiter.notify ∈ state.log
  | .connection conn .timeout =>
      ∀ second waiter payload, state.stages second = .notifying waiter payload →
        waiter.notify ≠ conn
  | _ => True

/-- How far the payload of the second peer has come. -/
inductive Told (state : State) (second first : Nat) (payload : NotifyPayload) : Prop where
  | notifying {waiter : Waiter} {request : RegisterRequest}
      (hsecond : state.stages second = .notifying waiter payload) (hnotify : waiter.notify = first)
      (hfirst : state.stages first = .waiting request)
  | holding {request : RegisterRequest} (hfirst : state.stages first = .waiting request)
      (hholds : state.channels first = .holds payload)
  | cleaning {request : RegisterRequest}
      (hfirst : state.stages first = .cleaning request (some payload))
  | answering (hfirst : state.stages first = .answering payload.message)
  | sent (hsent : .sent first payload.message ∈ state.log)
  | broken (hbroken : .broken first ∈ state.log)

variable {ttl : Nat} {state next : State} {event : Event} {conn second first : Nat}
  {payload : NotifyPayload}

/-! ## The turns of the two connections -/

section Turns

variable {input : Input} {request : RegisterRequest} {waiter : Waiter}
  (hstep : step ttl state (.connection conn input) = some next)

include hstep

theorem step_notifying (hstage : state.stages conn = .notifying waiter payload) :
    next = (state.notify waiter payload).goto conn .done := by
  change state.advance ttl conn (state.stages conn) input = some next at hstep
  rw [hstage] at hstep
  cases input <;> cases hstep
  rfl

theorem step_waiting (hstage : state.stages conn = .waiting request)
    (hclosed : state.channels conn ≠ .closed) :
    (∃ payload, state.channels conn = .holds payload ∧
      next = state.goto conn (.cleaning request (some payload))) ∨
      input = .timeout ∧ state.channels conn = .opened := by
  change state.advance ttl conn (state.stages conn) input = some next at hstep
  rw [hstage] at hstep
  cases input with
  | wake =>
      cases hchannel : state.channels conn with
      | opened =>
          simp only [State.advance, hchannel] at hstep
          cases hstep
      | holds payload =>
          simp only [State.advance, hchannel] at hstep
          cases hstep
          exact .inl ⟨payload, rfl, rfl⟩
      | closed => exact absurd hchannel hclosed
  | timeout =>
      cases hchannel : state.channels conn with
      | opened => exact .inr ⟨rfl, rfl⟩
      | holds _ =>
          simp only [State.advance, hchannel] at hstep
          cases hstep
      | closed => exact absurd hchannel hclosed
  | accept _ | frame _ | lookUp _ | pair _ _ | register _ | written | failed | notify | cleanUp =>
      cases hstep

theorem step_cleaning {outcome : Option NotifyPayload}
    (hstage : state.stages conn = .cleaning request outcome) :
    next.stages conn = .answering (outcomeMessage outcome) := by
  change state.advance ttl conn (state.stages conn) input = some next at hstep
  rw [hstage] at hstep
  cases input <;> cases hstep
  exact Function.update_self _ _ _

theorem step_answering {message : Message} (hstage : state.stages conn = .answering message) :
    .sent conn message ∈ next.log ∨ .broken conn ∈ next.log := by
  change state.advance ttl conn (state.stages conn) input = some next at hstep
  rw [hstage] at hstep
  cases input <;> cases hstep
  · exact .inl (List.mem_append_right _ List.mem_cons_self)
  · exact .inr (List.mem_append_right _ List.mem_cons_self)

end Turns

/-- Every step brings the payload further, or leaves it where it is. -/
theorem Told.step (htold : Told state second first payload) (hopen : Open state)
    (htimely : Timely state event) (hstep : HandleConnection.step ttl state event = some next) :
    Told next second first payload := by
  have hturned := turned_of_step hstep
  have hlog := (moves_of_turned hturned).log_subset
  cases event with
  | relay event =>
      cases hturned with
      | relayed =>
          cases htold with
          | notifying hsecond hnotify hfirst => exact .notifying hsecond hnotify hfirst
          | holding hfirst hholds => exact .holding hfirst hholds
          | cleaning hfirst => exact .cleaning hfirst
          | answering hfirst => exact .answering hfirst
          | sent hsent => exact .sent hsent
          | broken hbroken => exact .broken hbroken
  | connection conn input =>
      cases htold with
      | notifying hsecond hnotify hfirst =>
          rename_i waiter request
          have hchannel : state.channels first = .opened :=
            hopen first (.inr ⟨⟨request, hfirst⟩, .inr ⟨second, waiter, by rw [hsecond]; rfl, hnotify⟩⟩)
          have hne : first ≠ second := by
            rintro rfl
            rw [hfirst] at hsecond
            cases hsecond
          by_cases heq : second = conn
          · subst heq
            cases step_notifying hstep hsecond
            subst hnotify
            refine .holding ((stages_of_turned hturned hne).trans hfirst) ?_
            simp only [State.notify, hchannel]
            exact Function.update_self _ _ _
          · have hstill := (stages_of_turned hturned heq).trans hsecond
            by_cases hconn : first = conn
            · subst hconn
              rcases step_waiting hstep hfirst (by rw [hchannel]; nofun) with
                ⟨found, hholds, _⟩ | ⟨rfl, _⟩
              · rw [hchannel] at hholds
                cases hholds
              · exact absurd hnotify (htimely second waiter payload hsecond)
            · exact .notifying hstill hnotify ((stages_of_turned hturned hconn).trans hfirst)
      | holding hfirst hholds =>
          by_cases heq : first = conn
          · subst heq
            rcases step_waiting hstep hfirst (by rw [hholds]; nofun) with
              ⟨found, hfound, rfl⟩ | ⟨_, hchannel⟩
            · rw [hholds] at hfound
              cases hfound
              exact .cleaning (Function.update_self _ _ _)
            · rw [hholds] at hchannel
              cases hchannel
          · exact .holding ((stages_of_turned hturned heq).trans hfirst)
              (holds_of_turned hturned hholds)
      | cleaning hfirst =>
          by_cases heq : first = conn
          · subst heq
            exact .answering (step_cleaning hstep hfirst)
          · exact .cleaning ((stages_of_turned hturned heq).trans hfirst)
      | answering hfirst =>
          by_cases heq : first = conn
          · subst heq
            rcases step_answering hstep hfirst with hsent | hbroken
            · exact .sent hsent
            · exact .broken hbroken
          · exact .answering ((stages_of_turned hturned heq).trans hfirst)
      | sent hsent => exact .sent (hlog hsent)
      | broken hbroken => exact .broken (hlog hbroken)

/-! ## Second peers -/

/-- A second peer only has its match to write. -/
def Seconds (state : State) : Prop :=
  ∀ second first plan, .paired second first plan ∈ state.log →
    (∃ waiter message payload, state.stages second = .delivering waiter message payload ∧
      waiter.notify = first) ∨ Spent (state.stages second)

theorem seconds_step (hseconds : Seconds state) (hmoves : Moves state next) : Seconds next := by
  intro second first plan hmem
  rcases hmoves with ⟨hstages, hlog⟩ | ⟨conn, stage, entries, hmove, hstages, hlog⟩
  · rw [hlog] at hmem
    rw [hstages]
    exact hseconds second first plan hmem
  · rw [hlog] at hmem
    rw [hstages]
    rcases List.mem_append.mp hmem with hold | hnew
    · have hbefore := hseconds second first plan hold
      by_cases heq : second = conn
      · subst heq
        rw [Function.update_self]
        right
        generalize state.stages second = before at hmove hbefore
        rcases hbefore with ⟨waiter, message, payload, rfl, _⟩ | hspent
        · cases hmove <;> trivial
        · cases hmove <;> first | exact hspent.elim | trivial
      · rw [Function.update_of_ne heq]
        exact hbefore
    · obtain ⟨rfl, request, waiter, message, payload, _, rfl, hfirst⟩ := paired_of_move hmove hnew
      rw [Function.update_self]
      exact .inl ⟨waiter, message, payload, rfl, hfirst⟩

/-- A match is written by the turn that follows it with the notification. -/
theorem sent_of_turned {message : Message} (hturned : Turned ttl state event next)
    (hsent : .sent conn message ∈ next.log) (hnew : .sent conn message ∉ state.log) :
    (∃ waiter payload, event = .connection conn .written ∧
      state.stages conn = .delivering waiter message payload ∧
      next.stages conn = .notifying waiter payload) ∨
      state.stages conn = .answering message ∨
        ∃ reason held, state.stages conn = .rejecting reason held := by
  have hlast : ∀ {log : List Entry} {entry : Entry}, log = state.log →
      .sent conn message ∈ log ++ [entry] → .sent conn message = entry := by
    rintro log entry rfl hmem
    exact List.mem_singleton.mp ((List.mem_append.mp hmem).resolve_left hnew)
  cases hturned with
  | delivered hstage =>
      cases hlast rfl hsent
      exact .inl ⟨_, _, rfl, hstage, Function.update_self _ _ _⟩
  | answered hstage =>
      cases hlast rfl hsent
      exact .inr (.inl hstage)
  | turnedAway hstage =>
      cases hlast (log_dropHeld _ _) hsent
      exact .inr (.inr ⟨_, _, hstage⟩)
  | undelivered _ | unanswered _ | refused _ | admitted _ _ | pairedDirect _ =>
      cases hlast rfl hsent
  | cutOff _ => cases hlast (log_dropHeld _ _) hsent
  | pairedRelay _ _ =>
      rcases List.mem_append.mp hsent with hbefore | hlater
      · cases hlast rfl hbefore
      · cases List.mem_singleton.mp hlater
  | took _ _ | missed _ _ => exact absurd ((log_foldl_drop _ _) ▸ hsent) hnew
  | notified _ => exact absurd ((log_notify _ _ _) ▸ hsent) hnew
  | cleaned _ => exact absurd ((log_cleanUp _ _) ▸ hsent) hnew
  | accepted _ | unread _ _ | relayRefused _ | collided _ | installed _ _ | woken _ _ | bereft _ _
  | timedOut _ _ | relayed => exact absurd hsent hnew

theorem paired_before {plan : Plan} (hmoves : Moves state next)
    (hpaired : .paired second first plan ∈ next.log) :
    .paired second first plan ∈ state.log ∨
      ∃ request waiter, state.stages second = .pairing request waiter := by
  rcases hmoves with ⟨_, hlog⟩ | ⟨conn, stage, entries, hmove, _, hlog⟩ <;> rw [hlog] at hpaired
  · exact .inl hpaired
  · rcases List.mem_append.mp hpaired with hold | hnew
    · exact .inl hold
    · obtain ⟨rfl, request, waiter, _, _, hstage, _⟩ := paired_of_move hmove hnew
      exact .inr ⟨request, waiter, hstage⟩

/-- What a second peer is sent is its match. -/
theorem Seconds.delivered {plan : Plan} {message : Message} (hseconds : Seconds state)
    (hturned : Turned ttl state event next) (hmoves : Moves state next)
    (hpaired : .paired second first plan ∈ next.log) (hsent : .sent second message ∈ next.log)
    (hnew : .sent second message ∉ state.log) :
    ∃ waiter payload, event = .connection second .written ∧
      state.stages second = .delivering waiter message payload ∧
      next.stages second = .notifying waiter payload ∧ waiter.notify = first := by
  have hplace : ∀ stage, state.stages second = stage → (∃ request waiter, stage = .pairing request waiter) ∨
      (∃ waiter message payload, stage = .delivering waiter message payload ∧
        waiter.notify = first) ∨ Spent stage := by
    rintro stage rfl
    rcases paired_before hmoves hpaired with hold | hpairing
    · exact .inr (hseconds second first plan hold)
    · exact .inl hpairing
  rcases sent_of_turned hturned hsent hnew with
    ⟨waiter, payload, hevent, hstage, hnext⟩ | hstage | ⟨reason, held, hstage⟩
  · rcases hplace _ hstage with ⟨_, _, hother⟩ | ⟨_, _, _, hother, hfirst⟩ | hspent
    · cases hother
    · cases hother
      exact ⟨waiter, payload, hevent, hstage, hnext, hfirst⟩
    · exact hspent.elim
  · rcases hplace _ hstage with ⟨_, _, hother⟩ | ⟨_, _, _, hother, _⟩ | hspent
    · cases hother
    · cases hother
    · exact hspent.elim
  · rcases hplace _ hstage with ⟨_, _, hother⟩ | ⟨_, _, _, hother, _⟩ | hspent
    · cases hother
    · cases hother
    · exact hspent.elim

/-! ## First peers -/

/-- Once a second peer has its match, its payload is on the way to the first one. -/
def Kept (state : State) : Prop :=
  ∀ second first plan message, .paired second first plan ∈ state.log →
    .sent second message ∈ state.log →
    ∃ payload, Carried state.log first payload ∧ Told state second first payload

/-- What holds in every state of a run whose timers fire in time. -/
structure Delivering (state : State) : Prop where
  inv : Inv state
  channels : Open state
  spoken : Spoken state
  seconds : Seconds state
  kept : Kept state

theorem delivering_start (relay : Option (SocketAddr × RelayState)) : Delivering (start relay) where
  inv := inv_start relay
  channels := open_start relay
  spoken := spoken_start relay
  seconds := fun _ _ _ hmem => absurd hmem List.not_mem_nil
  kept := fun _ _ _ _ hmem => absurd hmem List.not_mem_nil

theorem Delivering.step (hdelivering : Delivering state) (htimely : Timely state event)
    (hstep : HandleConnection.step ttl state event = some next) : Delivering next := by
  have hturned := turned_of_step hstep
  have hmoves := moves_of_turned hturned
  have hinv := hdelivering.inv.step hstep
  refine ⟨hinv, hdelivering.channels.step hdelivering.inv.owned hturned,
    hdelivering.spoken.step hmoves, seconds_step hdelivering.seconds hmoves, ?_⟩
  intro second first plan message hpaired hsent
  by_cases hold : .sent second message ∈ state.log
  · have hspent := hdelivering.spoken.spent second _ hold rfl
    have hbefore : .paired second first plan ∈ state.log := by
      rcases paired_before hmoves hpaired with hearlier | ⟨request, waiter, hstage⟩
      · exact hearlier
      · rw [hstage] at hspent
        exact hspent.elim
    obtain ⟨payload, hcarried, htold⟩ := hdelivering.kept second first plan message hbefore hold
    exact ⟨payload, hcarried.mono hmoves.log_subset,
      htold.step hdelivering.channels htimely hstep⟩
  · obtain ⟨waiter, payload, rfl, hstage, hnext, rfl⟩ :
        ∃ waiter payload, event = .connection second .written ∧
          state.stages second = .delivering waiter message payload ∧
          next.stages second = .notifying waiter payload ∧ waiter.notify = first :=
      hdelivering.seconds.delivered hturned hmoves hpaired hsent hold
    refine ⟨payload, hinv.sound.stage hnext, ?_⟩
    rcases htimely waiter message payload hstage with ⟨request, hfirst⟩ | hbroken
    · have hne : waiter.notify ≠ second := by
        intro heq
        rw [heq, hstage] at hfirst
        cases hfirst
      exact .notifying hnext rfl ((stages_of_turned hturned hne).trans hfirst)
    · exact .broken (hmoves.log_subset hbroken)

theorem delivering_of_run {relay : Option (SocketAddr × RelayState)} {events : List Event}
    {final : State} (hrun : run ttl (start relay) events = some final)
    (htimely : Along (HandleConnection.step ttl) Timely (start relay) events) : Delivering final :=
  Foundation.Run.invariant_along Delivering
    (fun _ _ _ hdelivering htimely hstep => hdelivering.step htimely hstep) htimely
    (delivering_start relay) hrun

/-! ## The first peer gets there -/

/-- The two connections can bring the payload to the first peer by themselves. -/
def Reaches (ttl : Nat) (state : State) (second first : Nat) (message : Message) : Prop :=
  ∃ rest later, (∀ event ∈ rest, event = .connection second .notify ∨
      ∃ input, event = .connection first input) ∧
    run ttl state rest = some later ∧ .sent first message ∈ later.log

theorem Reaches.cons {message : Message} (next : State)
    (hevent : event = .connection second .notify ∨ ∃ input, event = .connection first input)
    (hstep : step ttl state event = some next) (hreaches : Reaches ttl next second first message) :
    Reaches ttl state second first message := by
  obtain ⟨rest, later, hrest, hrun, hsent⟩ := hreaches
  refine ⟨event :: rest, later, ?_, (run_cons_of_step hstep rest).trans hrun, hsent⟩
  intro other hmem
  rcases List.mem_cons.mp hmem with rfl | hlater
  · exact hevent
  · exact hrest other hlater

theorem reaches_of_answering {message : Message} (hfirst : state.stages first = .answering message) :
    Reaches ttl state second first message := by
  refine ⟨[.connection first .written],
    (state.record (.sent first message)).goto first .done, ?_, ?_, ?_⟩
  · intro event hmem
    exact .inr ⟨.written, List.mem_singleton.mp hmem⟩
  · apply run_cons_of_step
    change state.advance ttl first (state.stages first) .written = _
    rw [hfirst]
    rfl
  · exact List.mem_append_right _ List.mem_cons_self

theorem reaches_of_cleaning {request : RegisterRequest}
    (hfirst : state.stages first = .cleaning request (some payload)) :
    Reaches ttl state second first payload.message := by
  refine Reaches.cons ((state.cleanUp request).goto first (.answering payload.message))
    (.inr ⟨.cleanUp, rfl⟩) ?_ (reaches_of_answering (Function.update_self _ _ _))
  change state.advance ttl first (state.stages first) .cleanUp = _
  rw [hfirst]
  rfl

theorem reaches_of_holding {request : RegisterRequest}
    (hfirst : state.stages first = .waiting request)
    (hholds : state.channels first = .holds payload) :
    Reaches ttl state second first payload.message := by
  refine Reaches.cons (state.goto first (.cleaning request (some payload)))
    (.inr ⟨.wake, rfl⟩) ?_ (reaches_of_cleaning (Function.update_self _ _ _))
  change state.advance ttl first (state.stages first) .wake = _
  rw [hfirst]
  simp only [State.advance, hholds]

theorem reaches_of_notifying {request : RegisterRequest} {waiter : Waiter} (hopen : Open state)
    (hsecond : state.stages second = .notifying waiter payload) (hnotify : waiter.notify = first)
    (hfirst : state.stages first = .waiting request) :
    Reaches ttl state second first payload.message := by
  have hchannel : state.channels first = .opened :=
    hopen first (.inr ⟨⟨request, hfirst⟩, .inr ⟨second, waiter, by rw [hsecond]; rfl, hnotify⟩⟩)
  have hne : first ≠ second := by
    rintro rfl
    rw [hfirst] at hsecond
    cases hsecond
  subst hnotify
  have hstill : ((state.notify waiter payload).goto second .done).stages waiter.notify =
      .waiting request :=
    (Function.update_of_ne hne _ _).trans ((congrFun (stages_notify _ _ _) _).trans hfirst)
  refine Reaches.cons ((state.notify waiter payload).goto second .done) (.inl rfl) ?_
    (reaches_of_holding hstill ?_)
  · change state.advance ttl second (state.stages second) .notify = _
    rw [hsecond]
    rfl
  · simp only [State.notify, hchannel]
    exact Function.update_self _ _ _

theorem Told.reply_eq (htold : Told state second first payload) (hspoken : Spoken state)
    {reply : Message} (hreply : .sent first reply ∈ state.log) : reply = payload.message := by
  have hspent := hspoken.spent first _ hreply rfl
  cases htold with
  | notifying hsecond hnotify hfirst =>
      rw [hfirst] at hspent
      exact hspent.elim
  | holding hfirst _ | cleaning hfirst | answering hfirst =>
      rw [hfirst] at hspent
      exact hspent.elim
  | sent hsent =>
      cases hspoken.unique first _ hreply _ hsent rfl rfl
      rfl
  | broken hbroken => cases hspoken.unique first _ hreply _ hbroken rfl rfl

theorem Told.answered (htold : Told state second first payload)
    (hdone : state.stages first = .done) :
    .sent first payload.message ∈ state.log ∨ .broken first ∈ state.log := by
  cases htold with
  | notifying hsecond hnotify hfirst =>
      rw [hdone] at hfirst
      cases hfirst
  | holding hfirst _ | cleaning hfirst | answering hfirst =>
      rw [hdone] at hfirst
      cases hfirst
  | sent hsent => exact .inl hsent
  | broken hbroken => exact .inr hbroken

theorem Told.reaches (htold : Told state second first payload) (hopen : Open state) (ttl : Nat) :
    .broken first ∈ state.log ∨ Reaches ttl state second first payload.message := by
  cases htold with
  | notifying hsecond hnotify hfirst =>
      exact .inr (reaches_of_notifying hopen hsecond hnotify hfirst)
  | holding hfirst hholds => exact .inr (reaches_of_holding hfirst hholds)
  | cleaning hfirst => exact .inr (reaches_of_cleaning hfirst)
  | answering hfirst => exact .inr (reaches_of_answering hfirst)
  | sent hsent => exact .inr ⟨[], state, fun _ hmem => absurd hmem List.not_mem_nil, rfl, hsent⟩
  | broken hbroken => exact .inl hbroken

/-- Along runs whose timers fire in time: once the second peer has its match, the first one
is never sent anything but the match that names the second one, cannot end without it
unless its connection breaks, and can always be brought to it. -/
theorem told_both {relay : Option (SocketAddr × RelayState)} {events : List Event} {final : State}
    (hrun : run ttl (start relay) events = some final)
    (htimely : Along (step ttl) Timely (start relay) events) {plan : Plan} {message : Message}
    (hpaired : .paired second first plan ∈ final.log) (hsent : .sent second message ∈ final.log) :
    ∃ peer request, .registered second peer request ∈ final.log ∧
      (∀ reply, .sent first reply ∈ final.log → reply = describe plan (stamp peer request)) ∧
      .sent first .expired ∉ final.log ∧
      (final.stages first = .done →
        .sent first (describe plan (stamp peer request)) ∈ final.log ∨ .broken first ∈ final.log) ∧
      (.broken first ∈ final.log ∨
        Reaches ttl final second first (describe plan (stamp peer request))) := by
  have hdelivering := delivering_of_run hrun htimely
  obtain ⟨payload, hcarried, htold⟩ := hdelivering.kept second first plan message hpaired hsent
  obtain ⟨other, found, request, own, hother, hknows, _, rfl, _⟩ := hcarried
  obtain ⟨rfl, _, rfl⟩ :=
    hdelivering.inv.owned.pairedOnce _ _ _ _ _ _ hpaired hother (.inr rfl)
  obtain ⟨peer, raw, hregistered, _, rfl⟩ := hknows
  have hmessage := message_payloadOf plan (stamp peer raw)
  have hreplies : ∀ reply, .sent first reply ∈ final.log →
      reply = describe plan (stamp peer raw) :=
    fun reply hreply => (htold.reply_eq hdelivering.spoken hreply).trans hmessage
  refine ⟨peer, raw, hregistered, hreplies, ?_, ?_, ?_⟩
  · intro hexpired
    have himpossible := hreplies .expired hexpired
    cases plan <;> cases himpossible
  · intro hdone
    rw [← hmessage]
    exact htold.answered hdone
  · rw [← hmessage]
    exact htold.reaches hdelivering.channels ttl

/-- Two peers meet directly, and the second one is told first. -/
def meeting : List Event :=
  arrive 1 (registration 1 1 false) 0 ++ [.connection 1 (.register 0)] ++
    arrive 2 (registration 2 2 false) 5 ++
    [.connection 2 (.pair relayToken 5), .connection 2 .written]

theorem timely_meeting : Along (step 300) Timely (start none) meeting := by
  -- only the last event is a write of a second peer
  iterate 8
    refine ⟨trivial, fun _ hstep => ?_⟩
    cases hstep
  refine ⟨?_, fun _ _ => trivial⟩
  intro waiter message payload hstage
  cases hstage
  exact .inl ⟨_, rfl⟩

theorem told_both_meeting : ∃ final, run 300 (start none) meeting = some final ∧
    ∃ peer request, .registered 2 peer request ∈ final.log ∧
      (∀ reply, .sent 1 reply ∈ final.log → reply = describe .direct (stamp peer request)) ∧
      .sent 1 .expired ∉ final.log ∧
      (final.stages 1 = .done →
        .sent 1 (describe .direct (stamp peer request)) ∈ final.log ∨ .broken 1 ∈ final.log) ∧
      (.broken 1 ∈ final.log ∨
        Reaches 300 final 2 1 (describe .direct (stamp peer request))) := by
  refine ⟨_, rfl, @told_both 300 2 1 none meeting _ rfl timely_meeting .direct
    (.matched ⟨[127, 0, 0, 1], 5678⟩ (Core.Protocol.FixedBytes.filled 32 1)
      (Core.Protocol.FixedBytes.filled 16 1)) ?_ ?_⟩
  · exact List.mem_of_getElem? (i := 2) rfl
  · exact List.mem_of_getElem? (i := 3) rfl

/-- The timer of the first peer fires while the match of the second one is being written. -/
def late : List Event :=
  arrive 1 (registration 1 1 false) 0 ++ [.connection 1 (.register 0)] ++
    arrive 2 (registration 2 2 false) 299 ++
    [.connection 2 (.pair relayToken 299), .connection 1 .timeout, .connection 2 .written,
      .connection 2 .notify, .connection 1 .cleanUp, .connection 1 .written]

theorem late_first_expired :
    ¬ ∀ ttl relay events final, run ttl (start relay) events = some final →
      ∀ second first plan message, .paired second first plan ∈ final.log →
        .sent second message ∈ final.log → IsMatch message →
          .sent first .expired ∉ final.log := by
  intro hclaim
  refine hclaim 300 none late _ rfl 2 1 .direct
    (.matched ⟨[127, 0, 0, 1], 5678⟩ (Core.Protocol.FixedBytes.filled 32 1)
      (Core.Protocol.FixedBytes.filled 16 1)) ?_ ?_ trivial ?_
  · exact List.mem_of_getElem? (i := 2) rfl
  · exact List.mem_of_getElem? (i := 3) rfl
  · exact List.mem_of_getElem? (i := 4) rfl

end P2PFileTransfer.Server.AllOrNothing
