import P2PFileTransfer.Foundation.Liveness
import P2PFileTransfer.Server.Delivery
import P2PFileTransfer.Server.Permits
import P2PFileTransfer.Server.Waiters

/-!
# The server drains

A handler waits for its peer, for its channel or for a timer, and each of these waits is
bounded, so a handler takes a bounded number of turns and always has one.  Once nobody new
comes in, the permits return and the table of waiters empties, whatever the order of the
turns, and whoever registered has been given one answer.
-/

namespace P2PFileTransfer.Server.Draining

open P2PFileTransfer.Foundation.Tables
open P2PFileTransfer.Foundation.Liveness
open P2PFileTransfer.Session.Rendezvous (SocketAddr)
open P2PFileTransfer.Server.Relay (RelayState)
open P2PFileTransfer.Server.HandleConnection hiding run
open P2PFileTransfer.Server.Turns
open P2PFileTransfer.Server.Ownership
open P2PFileTransfer.Server.Delivery
open P2PFileTransfer.Server.Waiters
open P2PFileTransfer.Server.Permits

/-- A turn of a handler that has been spawned. -/
def Handles : Event → Bool
  | .connection _ (.accept _) | .relay _ => false
  | .connection _ _ => true

def Accepts : Event → Bool
  | .connection _ (.accept _) => true
  | _ => false

/-- Nothing is left to do, and each registration has had its one answer. -/
structure Drained (serving : Serving) : Prop where
  held : serving.held = []
  waiting : ∀ code, serving.state.waiting.lookup code = none
  answered : ∀ conn peer request, .registered conn peer request ∈ serving.state.log →
    ∃ entry ∈ serving.state.log, Reply conn entry ∧
      ∀ other ∈ serving.state.log, Reply conn other → other = entry

variable {maxConcurrent ttl conn : Nat} {state after : State} {serving next : Serving}
  {event : Event} {input : Input}

/-! ## Every handler has a turn -/

theorem exists_input (hflight : InFlight (state.stages conn)) :
    ∃ input after, Handles (.connection conn input) = true ∧
      HandleConnection.step ttl state (.connection conn input) = some after := by
  have hturn {stage : Stage} (input : Input) (hhandles : Handles (.connection conn input) = true)
      (hstage : state.stages conn = stage)
      (hadvance : (state.advance ttl conn stage input).isSome = true) :
      ∃ input after, Handles (.connection conn input) = true ∧
        HandleConnection.step ttl state (.connection conn input) = some after := by
    obtain ⟨after, hafter⟩ := Option.isSome_iff_exists.mp hadvance
    exact ⟨input, after, hhandles, step_of_advance hstage hafter⟩
  cases hstage : state.stages conn with
  | absent => exact absurd hstage hflight.1
  | done => exact absurd hstage hflight.2
  | reading peer => exact hturn (.frame .silent) rfl hstage rfl
  | looking peer request => exact hturn (.lookUp 0) rfl hstage rfl
  | pairing request waiter =>
      exact hturn (.pair (Core.Protocol.FixedBytes.filled 16 0) 0) rfl hstage rfl
  | delivering waiter message payload => exact hturn .written rfl hstage rfl
  | notifying waiter payload => exact hturn .notify rfl hstage rfl
  | registering request => exact hturn (.register 0) rfl hstage rfl
  | cleaning request outcome => exact hturn .cleanUp rfl hstage rfl
  | answering message => exact hturn .written rfl hstage rfl
  | rejecting reason held => exact hturn .written rfl hstage rfl
  | waiting request =>
      -- the timer is there for the channel that nobody uses
      cases hchannel : state.channels conn with
      | opened => exact hturn .timeout rfl hstage (by simp only [State.advance, hchannel]; rfl)
      | holds payload => exact hturn .wake rfl hstage (by simp only [State.advance, hchannel]; rfl)
      | closed => exact hturn .wake rfl hstage (by simp only [State.advance, hchannel]; rfl)

theorem handles_iff : Handles event = true ↔
    ∃ conn input, event = .connection conn input ∧ ∀ peer, input ≠ .accept peer := by
  constructor
  · intro hhandles
    cases event with
    | relay event => cases hhandles
    | connection conn input =>
        refine ⟨conn, input, rfl, fun peer haccept => ?_⟩
        subst haccept
        cases hhandles
  · rintro ⟨conn, input, rfl, hother⟩
    cases input with
    | accept peer => exact absurd rfl (hother peer)
    | frame _ | lookUp _ | pair _ _ | register _ | written | failed | notify | wake | timeout
    | cleanUp => rfl

/-! ## Every turn is one of the last six -/

theorem remaining_lt (hturned : Turned ttl state (.connection conn input) after)
    (hother : ∀ peer, input ≠ .accept peer) :
    remaining (after.stages conn) < remaining (state.stages conn) := by
  have hless {before stage : Stage} {middle : State} (hstage : state.stages conn = before)
      (hlower : remaining stage < remaining before) :
      remaining ((middle.goto conn stage).stages conn) < remaining (state.stages conn) := by
    change remaining (Function.update middle.stages conn stage conn) < _
    rw [Function.update_self, hstage]
    exact hlower
  cases hturned with
  | accepted _ => exact absurd rfl (hother _)
  | unread hstage hnext =>
      rcases hnext with rfl | ⟨reason, rfl⟩
      · exact hless hstage (by decide : 0 < 6)
      · exact hless hstage (by decide : 1 < 6)
  | refused hstage => exact hless hstage (by decide : 1 < 6)
  | admitted hstage _ => exact hless hstage (by decide : 5 < 6)
  | took hstage _ => exact hless hstage (by decide : 3 < 5)
  | missed hstage _ => exact hless hstage (by decide : 4 < 5)
  | pairedDirect hstage => exact hless hstage (by decide : 2 < 3)
  | pairedRelay hstage _ => exact hless hstage (by decide : 2 < 3)
  | relayRefused hstage => exact hless hstage (by decide : 1 < 3)
  | delivered hstage => exact hless hstage (by decide : 1 < 2)
  | undelivered hstage => exact hless hstage (by decide : 0 < 2)
  | notified hstage => exact hless hstage (by decide : 0 < 1)
  | collided hstage => exact hless hstage (by decide : 1 < 4)
  | installed hstage _ => exact hless hstage (by decide : 3 < 4)
  | woken hstage _ => exact hless hstage (by decide : 2 < 3)
  | bereft hstage _ => exact hless hstage (by decide : 2 < 3)
  | timedOut hstage _ => exact hless hstage (by decide : 2 < 3)
  | cleaned hstage => exact hless hstage (by decide : 1 < 2)
  | answered hstage => exact hless hstage (by decide : 0 < 1)
  | unanswered hstage => exact hless hstage (by decide : 0 < 1)
  | turnedAway hstage => exact hless hstage (by decide : 0 < 1)
  | cutOff hstage => exact hless hstage (by decide : 0 < 1)

/-- The turns that the handlers in flight still make at most. -/
def turnsLeft (serving : Serving) : Nat :=
  (serving.held.map fun conn => remaining (serving.state.stages conn)).sum

theorem turnsLeft_lt (haccounted : Accounted maxConcurrent serving) (hhandles : Handles event = true)
    (hserve : serve maxConcurrent ttl serving event = some next) :
    turnsLeft next < turnsLeft serving := by
  obtain ⟨conn, input, rfl, hother⟩ := handles_iff.mp hhandles
  obtain ⟨hstep, hheld⟩ := serve_cases hserve
  have hturned := turned_of_step hstep
  have hown := remaining_lt hturned hother
  have hmem := (haccounted.inFlight conn).mpr (inFlight_of_step hother hstep)
  rcases hheld with ⟨_, peer, hevent, _, _⟩ | ⟨_, hheld⟩
  · cases hevent
    exact absurd rfl (hother peer)
  · rw [turnsLeft, turnsLeft, hheld]
    refine lt_of_le_of_lt ((List.filter_sublist.map _).sum_le_sum fun _ _ => Nat.zero_le _) ?_
    refine List.sum_lt_sum _ _ ?_ ⟨conn, hmem, hown⟩
    intro other _
    by_cases heq : other = conn
    · rw [heq]
      exact hown.le
    · rw [stages_of_turned hturned heq]

/-- What one step adds: an accepted connection brings six turns with it. -/
theorem turnsLeft_le (haccounted : Accounted maxConcurrent serving)
    (hserve : serve maxConcurrent ttl serving event = some next) :
    (Handles event).toNat + turnsLeft next ≤ turnsLeft serving + 6 * (Accepts event).toNat := by
  cases event with
  | relay event =>
      obtain ⟨hstep, hheld⟩ := serve_cases hserve
      rcases hheld with ⟨_, _, hevent, _, _⟩ | ⟨_, hheld⟩
      · cases hevent
      · have hstages : next.state.stages = serving.state.stages := by
          have hturned := turned_of_step hstep
          generalize next.state = after at hturned ⊢
          cases hturned
          rfl
        have hle : turnsLeft next ≤ turnsLeft serving := by
          rw [turnsLeft, turnsLeft, hheld, hstages]
          exact (List.filter_sublist.map _).sum_le_sum fun _ _ => Nat.zero_le _
        simpa [Handles, Accepts] using hle
  | connection conn input =>
      by_cases hhandles : Handles (.connection conn input) = true
      · have hlower := turnsLeft_lt haccounted hhandles hserve
        rw [hhandles, Bool.toNat_true]
        omega
      · cases input with
        | accept peer =>
            obtain ⟨hstep, hheld⟩ := serve_cases hserve
            rcases hheld with ⟨_, _, ⟨⟩, _, hheld⟩ | ⟨hother, _⟩
            · have hturned := turned_of_step hstep
              have habsent : serving.state.stages conn = .absent := by
                generalize next.state = after at hturned
                cases hturned
                assumption
              have hstage : next.state.stages conn = .reading peer := by
                generalize next.state = after at hturned
                cases hturned
                exact Function.update_self _ _ _
              have hold : ∀ other ∈ serving.held, next.state.stages other = serving.state.stages other := by
                intro other hmem
                refine stages_of_turned hturned ?_
                rintro rfl
                exact ((haccounted.inFlight other).mp hmem).1 habsent
              have hsum : turnsLeft next = 6 + turnsLeft serving := by
                rw [turnsLeft, turnsLeft, hheld, List.map_cons, List.sum_cons, hstage]
                congr 2
                exact List.map_congr_left fun other hmem => congrArg remaining (hold other hmem)
              simp [Handles, Accepts, hsum, Nat.add_comm]
            · exact absurd rfl (hother conn peer)
        | frame _ | lookUp _ | pair _ _ | register _ | written | failed | notify | wake | timeout
        | cleanUp => exact absurd rfl hhandles

theorem handled_le {past : List Event} (haccounted : Accounted maxConcurrent serving)
    (hrun : run maxConcurrent ttl serving past = some next) :
    past.countP Handles + turnsLeft next ≤ turnsLeft serving + 6 * past.countP Accepts := by
  induction past generalizing serving with
  | nil =>
      cases hrun
      simp
  | cons event rest ih =>
      obtain ⟨middle, hserve, hrest⟩ := Option.bind_eq_some_iff.mp hrun
      have hone := turnsLeft_le haccounted hserve
      have hmany := ih (haccounted.step hserve) hrest
      rw [List.countP_cons, List.countP_cons]
      cases hhandles : Handles event <;> cases haccepts : Accepts event <;>
        simp [hhandles, haccepts] at hone ⊢ <;> omega

/-! ## One answer to each registration -/

/-- A connection that has written all that it is going to write has answered. -/
def Heard (state : State) : Prop :=
  ∀ conn peer request, .registered conn peer request ∈ state.log → Spent (state.stages conn) →
    ∃ entry ∈ state.log, Reply conn entry

theorem registered_of_move {before stage : Stage} {entries : List Entry} {other : Nat}
    {peer : SocketAddr} {request : RegisterRequest} (hmove : Move conn before stage entries)
    (hmem : .registered other peer request ∈ entries) : other = conn ∧ ¬ Spent stage := by
  cases hmove with
  | refused _ _ _ | admitted _ _ =>
      cases List.mem_singleton.mp hmem
      exact ⟨rfl, id⟩
  | pairedRelay _ _ _ _ _ _ _ =>
      rcases List.mem_cons.mp hmem with hreserved | hpaired
      · cases hreserved
      · cases List.mem_singleton.mp hpaired
  | pairedDirect _ _ _ _ | delivered _ _ _ | undelivered _ _ _ | answered _ | unanswered _
  | turnedAway _ _ | cutOff _ _ => cases List.mem_singleton.mp hmem
  | accepted _ | closed _ | foreign _ _ | took _ _ _ | missed _ _ | relayRefused _ _ _
  | notified _ _ | collided _ _ | installed _ | woken _ _ | cleaned _ _ =>
      exact absurd hmem List.not_mem_nil

/-- Only a connection that never registered ends without an answer. -/
theorem reply_of_move {before stage : Stage} {entries : List Entry}
    (hmove : Move conn before stage entries) (hspent : Spent stage) :
    Spent before ∨ Unread before ∨ ∃ entry ∈ entries, Reply conn entry := by
  cases hmove with
  | closed _ => exact .inr (.inl trivial)
  | notified _ _ => exact .inl trivial
  | delivered _ _ _ | undelivered _ _ _ | answered _ | unanswered _ | turnedAway _ _ | cutOff _ _ =>
      exact .inr (.inr ⟨_, List.mem_singleton_self _, rfl⟩)
  | accepted _ | foreign _ _ | refused _ _ _ | admitted _ _ | took _ _ _ | missed _ _
  | pairedDirect _ _ _ _ | pairedRelay _ _ _ _ _ _ _ | relayRefused _ _ _ | collided _ _
  | installed _ | woken _ _ | cleaned _ _ => exact hspent.elim

theorem Heard.step (hheard : Heard state) (honce : Once state) (hmoves : Moves state after) :
    Heard after := by
  intro conn peer request hmem hspent
  rcases hmoves with ⟨hstages, hlog⟩ | ⟨mover, stage, entries, hmove, hstages, hlog⟩
  · rw [hstages] at hspent
    rw [hlog] at hmem ⊢
    exact hheard conn peer request hmem hspent
  · rw [hstages] at hspent
    rw [hlog] at hmem ⊢
    have hkept (hold : .registered conn peer request ∈ state.log) (hbefore : Spent (state.stages conn)) :
        ∃ entry ∈ state.log ++ entries, Reply conn entry := by
      obtain ⟨entry, hentry, hreply⟩ := hheard conn peer request hold hbefore
      exact ⟨entry, List.mem_append_left _ hentry, hreply⟩
    by_cases heq : conn = mover
    · subst heq
      rw [Function.update_self] at hspent
      rcases List.mem_append.mp hmem with hold | hnew
      · rcases reply_of_move hmove hspent with hbefore | hunread | ⟨entry, hentry, hreply⟩
        · exact hkept hold hbefore
        · exact absurd hunread (honce.unread conn peer request hold)
        · exact ⟨entry, List.mem_append_right _ hentry, hreply⟩
      · exact absurd hspent (registered_of_move hmove hnew).2
    · rw [Function.update_of_ne heq] at hspent
      rcases List.mem_append.mp hmem with hold | hnew
      · exact hkept hold hspent
      · exact absurd (registered_of_move hmove hnew).1 heq

/-! ## Every run -/

/-- What holds in every state of the accept loop. -/
structure Good (maxConcurrent : Nat) (serving : Serving) : Prop where
  accounted : Accounted maxConcurrent serving
  inv : Pairing.Inv serving.state
  attended : Attended serving.state
  spoken : Spoken serving.state
  heard : Heard serving.state

theorem good_listening (relay : Option (SocketAddr × RelayState)) :
    Good maxConcurrent (listening relay) :=
  ⟨accounted_listening relay, Pairing.inv_start relay, attended_start relay, spoken_start relay,
    fun _ _ _ hmem => absurd hmem List.not_mem_nil⟩

theorem Good.step (hgood : Good maxConcurrent serving)
    (hserve : serve maxConcurrent ttl serving event = some next) : Good maxConcurrent next := by
  have hstep := (serve_cases hserve).1
  have hturned := turned_of_step hstep
  have hmoves := moves_of_turned hturned
  exact ⟨hgood.accounted.step hserve, hgood.inv.step hstep,
    hgood.attended.step hgood.inv.sound hturned, hgood.spoken.step hmoves,
    hgood.heard.step hgood.inv.once hmoves⟩

theorem drained_of_idle (hgood : Good maxConcurrent serving) (hidle : serving.held = []) :
    Drained serving := by
  have hrest (conn : Nat) : serving.state.stages conn = .absent ∨ serving.state.stages conn = .done := by
    by_contra hflight
    have hmem := (hgood.accounted.inFlight conn).mpr (not_or.mp hflight)
    rw [hidle] at hmem
    exact absurd hmem List.not_mem_nil
  refine ⟨hidle, ?_, ?_⟩
  · intro code
    by_contra hsome
    obtain ⟨waiter, hlookup⟩ := Option.ne_none_iff_exists'.mp hsome
    rcases hgood.attended code waiter hlookup with hwaiting | ⟨outcome, hcleaning⟩
    · rcases hrest waiter.notify with hstage | hstage <;> rw [hstage] at hwaiting <;> cases hwaiting
    · rcases hrest waiter.notify with hstage | hstage <;> rw [hstage] at hcleaning <;>
        cases hcleaning
  · intro conn peer request hmem
    have hdone : serving.state.stages conn = .done := by
      refine (hrest conn).resolve_left fun habsent => ?_
      exact hgood.inv.once.unread conn peer request hmem (habsent ▸ trivial)
    obtain ⟨entry, hentry, hreply⟩ := hgood.heard conn peer request hmem (hdone ▸ trivial)
    exact ⟨entry, hentry, hreply, fun other hother hagain =>
      hgood.spoken.unique conn other hother entry hentry hagain hreply⟩

/-- A handler takes at most six turns, and from every state of the accept loop every order
of the turns that the handlers in flight still have drains the server. -/
theorem server_drains {relay : Option (SocketAddr × RelayState)} {past : List Event}
    (hrun : run maxConcurrent ttl (listening relay) past = some serving) :
    past.countP Handles ≤ 6 * past.countP Accepts ∧
      Inevitable (serve maxConcurrent ttl) (fun _ event => Handles event = true) Drained serving := by
  have hgood : Good maxConcurrent serving := Foundation.Run.invariant_run (Good maxConcurrent)
    (fun _ _ _ hgood hserve => hgood.step hserve) (good_listening relay) hrun
  constructor
  · have hle := handled_le (accounted_listening relay) hrun
    have hnone : turnsLeft (listening relay) = 0 := rfl
    omega
  · refine inevitable_of_rank (Good maxConcurrent) turnsLeft ?_ ?_ hgood
    · intro serving hgood
      cases hheld : serving.held with
      | nil => exact .inl (drained_of_idle hgood hheld)
      | cons conn rest =>
          have hflight := (hgood.accounted.inFlight conn).mp (hheld ▸ List.mem_cons_self)
          obtain ⟨input, after, hhandles, hstep⟩ := @exists_input ttl _ _ hflight
          have hserve := @serve_of_step maxConcurrent ttl serving (.connection conn input) after
            (by rintro _ peer ⟨⟩; cases hhandles) hstep
          exact .inr ⟨_, _, hhandles, hserve⟩
    · exact fun serving event next hgood hhandles hserve =>
        ⟨hgood.step hserve, turnsLeft_lt hgood.accounted hhandles hserve⟩

theorem server_drains_two : ∃ serving,
    run 2 300 (listening none) twoFirstPeers = some serving ∧
      twoFirstPeers.countP Handles ≤ 6 * twoFirstPeers.countP Accepts ∧
      Inevitable (serve 2 300) (fun _ event => Handles event = true) Drained serving :=
  ⟨_, rfl, @server_drains 2 300 _ none twoFirstPeers rfl⟩

end P2PFileTransfer.Server.Draining
