import Mathlib.Logic.Function.Basic
import P2PFileTransfer.Foundation.Run
import P2PFileTransfer.Session.Rendezvous

/-!
# The hole punch

Both peers dial each other and accept each other at the same time, and each of them keeps
the connection that it gets through first.  A connection is named by the peer that dials
it.  The dialling peer has its connection as soon as the other one has answered; the
accepting peer has it when the control stream has been opened and primed.
-/

namespace P2PFileTransfer.Session.Punch

open P2PFileTransfer.Foundation.Run (Along along_congr)
open P2PFileTransfer.Session.Rendezvous (SocketAddr)

/-- The peer with the smaller device identifier dials at once, the other one after a delay. -/
inductive Peer where
  | early
  | late
  deriving DecidableEq, Repr

def Peer.other : Peer → Peer
  | .early => .late
  | .late => .early

@[simp]
theorem Peer.other_other (peer : Peer) : peer.other.other = peer := by
  cases peer <;> rfl

theorem Peer.other_ne (peer : Peer) : peer.other ≠ peer := by
  cases peer <;> nofun

theorem Peer.eq_or_eq_other (peer dialler : Peer) : dialler = peer ∨ dialler = peer.other := by
  cases peer <;> cases dialler <;> first | exact .inl rfl | exact .inr rfl

/-- `connect`, up to the magic that primes the control stream. -/
inductive Connecting where
  | delayed
  | dialling
  | priming
  | primed
  deriving DecidableEq, Repr

/-- `accept_from`, up to the magic that is read off the control stream. -/
inductive Accepting where
  | listening
  | answering
  | reading
  | opened
  deriving DecidableEq, Repr

/-- What `race_connect_and_accept` returns. -/
inductive Outcome where
  | pending
  | kept (dialler : Peer)
  | failed
  deriving DecidableEq, Repr

structure State where
  peerAddr : Peer → SocketAddr
  connecting : Peer → Connecting
  accepting : Peer → Accepting
  outcome : Peer → Outcome
  /-- `dropped peer dialler`: the peer has closed its end of the connection. -/
  dropped : Peer → Peer → Bool

def start (peerAddr : Peer → SocketAddr) : State where
  peerAddr := peerAddr
  connecting := fun _ => .delayed
  accepting := fun _ => .listening
  outcome := fun _ => .pending
  dropped := fun _ _ => false

def peerMatches (observed expected : SocketAddr) : Bool := observed == expected

/-- The dialling peer has its connection, so the client has finished the handshake. -/
def Connecting.connected : Connecting → Bool
  | .priming | .primed => true
  | .delayed | .dialling => false

inductive Event where
  | dial (peer : Peer)
  | incoming (peer : Peer) (observed : SocketAddr)
  | connected (peer : Peer)
  | primed (peer : Peer)
  | accepted (peer : Peer)
  | opened (peer : Peer)
  | failed (peer : Peer)

/-- The first future of the two that completes wins, and the other connection is dropped. -/
def State.keep (state : State) (peer dialler : Peer) : State :=
  { state with
    outcome := Function.update state.outcome peer (.kept dialler)
    dropped := Function.update state.dropped peer
      (Function.update (state.dropped peer) dialler.other true) }

def State.fail (state : State) (peer : Peer) : State :=
  { state with
    outcome := Function.update state.outcome peer .failed
    dropped := Function.update state.dropped peer fun _ => true }

def State.connect (state : State) (peer : Peer) (stage : Connecting) : State :=
  { state with connecting := Function.update state.connecting peer stage }

def State.accept (state : State) (peer : Peer) (stage : Accepting) : State :=
  { state with accepting := Function.update state.accepting peer stage }

/-- What a peer does while neither of its futures has completed. -/
def State.advance (state : State) : Event → Option State
  | .dial peer =>
      if state.connecting peer = .delayed then some (state.connect peer .dialling) else none
  | .incoming peer observed =>
      if state.accepting peer = .listening then
        if peerMatches observed (state.peerAddr peer) then
          if state.connecting peer.other = .delayed then none
          else some (state.accept peer .answering)
        else some state
      else none
  | .connected peer =>
      if state.connecting peer = .dialling ∧ state.accepting peer.other ≠ .listening then
        some (state.connect peer .priming)
      else none
  | .primed peer =>
      if state.connecting peer = .priming then
        some ((state.connect peer .primed).keep peer peer)
      else none
  | .accepted peer =>
      if state.accepting peer = .answering ∧ (state.connecting peer.other).connected = true then
        some (state.accept peer .reading)
      else none
  | .opened peer =>
      if state.accepting peer = .reading ∧ state.connecting peer.other = .primed then
        some ((state.accept peer .opened).keep peer peer.other)
      else none
  | .failed peer => some (state.fail peer)

def Event.peer : Event → Peer
  | .dial peer | .incoming peer _ | .connected peer | .primed peer | .accepted peer | .opened peer
  | .failed peer => peer

def step (state : State) (event : Event) : Option State :=
  if state.outcome event.peer = .pending then state.advance event else none

abbrev run : State → List Event → Option State := Foundation.Run.run step

/-! ## What holds in every run -/

structure Inv (state : State) : Prop where
  /-- A peer keeps the connection it dials as soon as it has primed the control stream. -/
  primed : ∀ peer, state.connecting peer = .primed → state.outcome peer = .kept peer
  /-- Whoever keeps the connection of the other peer has read the magic of that one. -/
  read : ∀ peer, state.outcome peer = .kept peer.other → state.connecting peer.other = .primed
  pending : ∀ peer dialler, state.outcome peer = .pending → state.dropped peer dialler = false
  held : ∀ peer dialler, state.outcome peer = .kept dialler → state.dropped peer dialler = false

theorem inv_start (peerAddr : Peer → SocketAddr) : Inv (start peerAddr) where
  primed := fun _ hprimed => by cases hprimed
  read := fun _ hkept => by cases hkept
  pending := fun _ _ _ => rfl
  held := fun _ _ _ => rfl

variable {state next : State} {event : Event} {peer : Peer}

/-- A turn inside one of the two futures. -/
theorem Inv.turn (hinv : Inv state) (houtcome : next.outcome = state.outcome)
    (hdropped : next.dropped = state.dropped)
    (hconnecting : ∀ peer, next.connecting peer = .primed ↔ state.connecting peer = .primed) :
    Inv next := by
  constructor
  · intro peer hprimed
    rw [houtcome]
    exact hinv.primed peer ((hconnecting peer).mp hprimed)
  · intro peer hkept
    rw [houtcome] at hkept
    exact (hconnecting _).mpr (hinv.read peer hkept)
  · rw [houtcome, hdropped]
    exact hinv.pending
  · rw [houtcome, hdropped]
    exact hinv.held

theorem Inv.connect (hinv : Inv state) {stage : Connecting}
    (hbefore : state.connecting peer ≠ .primed) (hstage : stage ≠ .primed) :
    Inv (state.connect peer stage) := by
  refine hinv.turn rfl rfl ?_
  intro other
  change Function.update state.connecting peer stage other = _ ↔ _
  by_cases heq : other = peer
  · subst heq
    rw [Function.update_self]
    exact ⟨fun hprimed => absurd hprimed hstage, fun hprimed => absurd hprimed hbefore⟩
  · rw [Function.update_of_ne heq]

/-- A turn in which a peer returns: `connecting` is final where it was not the peer's own. -/
theorem Inv.settle (hinv : Inv state) (peer : Peer) {outcome : Outcome} {drops : Peer → Bool}
    (hpending : state.outcome peer = .pending)
    (houtcomes : next.outcome = Function.update state.outcome peer outcome)
    (hdropped : next.dropped = Function.update state.dropped peer drops)
    (hsame : ∀ other, other ≠ peer → next.connecting other = state.connecting other)
    (hown : next.connecting peer = .primed → outcome = .kept peer)
    (hread : outcome = .kept peer.other → state.connecting peer.other = .primed)
    (hreturned : outcome ≠ .pending)
    (hheld : ∀ dialler, outcome = .kept dialler → drops dialler = false) : Inv next := by
  have hself : next.outcome peer = outcome := by rw [houtcomes, Function.update_self]
  have hothers : ∀ other, other ≠ peer → next.outcome other = state.outcome other := by
    intro other hne
    rw [houtcomes, Function.update_of_ne hne]
  constructor
  · intro other hprimed
    by_cases heq : other = peer
    · subst heq
      rw [hself]
      exact hown hprimed
    · rw [hsame other heq] at hprimed
      rw [hothers other heq]
      exact hinv.primed other hprimed
  · intro other hkept
    by_cases heq : other = peer
    · subst heq
      rw [hself] at hkept
      rw [hsame _ (Peer.other_ne other)]
      exact hread hkept
    · rw [hothers other heq] at hkept
      have hprimed := hinv.read other hkept
      -- the peer would have returned already
      have hdialler : other.other = peer :=
        ((Peer.eq_or_eq_other other peer).resolve_left (Ne.symm heq)).symm
      rw [hdialler] at hprimed
      rw [hinv.primed peer hprimed] at hpending
      cases hpending
  · intro other dialler hother
    by_cases heq : other = peer
    · subst heq
      rw [hself] at hother
      exact absurd hother hreturned
    · rw [hothers other heq] at hother
      rw [hdropped, Function.update_of_ne heq]
      exact hinv.pending other dialler hother
  · intro other dialler hother
    by_cases heq : other = peer
    · subst heq
      rw [hself] at hother
      rw [hdropped, Function.update_self]
      exact hheld dialler hother
    · rw [hothers other heq] at hother
      rw [hdropped, Function.update_of_ne heq]
      exact hinv.held other dialler hother

theorem Inv.step (hinv : Inv state) (hstep : Punch.step state event = some next) : Inv next := by
  unfold Punch.step at hstep
  split at hstep
  · rename_i hpending
    cases event with
    | dial peer =>
        obtain ⟨hstage, hnext⟩ := Option.ite_none_right_eq_some.mp hstep
        cases hnext
        refine hinv.connect ?_ nofun
        rw [hstage]
        nofun
    | incoming peer observed =>
        obtain ⟨_, hmatch⟩ := Option.ite_none_right_eq_some.mp hstep
        split at hmatch
        · obtain ⟨_, hnext⟩ := Option.ite_none_left_eq_some.mp hmatch
          cases hnext
          exact hinv.turn rfl rfl fun _ => Iff.rfl
        · cases hmatch
          exact hinv
    | connected peer =>
        obtain ⟨⟨hstage, _⟩, hnext⟩ := Option.ite_none_right_eq_some.mp hstep
        cases hnext
        refine hinv.connect ?_ nofun
        rw [hstage]
        nofun
    | primed peer =>
        obtain ⟨_, hnext⟩ := Option.ite_none_right_eq_some.mp hstep
        cases hnext
        refine hinv.settle peer hpending rfl rfl ?_ (fun _ => rfl) ?_ nofun ?_
        · exact fun other hne => Function.update_of_ne hne _ _
        · intro hkept
          exact absurd (Outcome.kept.inj hkept).symm (Peer.other_ne peer)
        · intro dialler hkept
          cases hkept
          rw [Function.update_of_ne (Peer.other_ne peer).symm]
          exact hinv.pending peer peer hpending
    | accepted peer =>
        obtain ⟨_, hnext⟩ := Option.ite_none_right_eq_some.mp hstep
        cases hnext
        exact hinv.turn rfl rfl fun _ => Iff.rfl
    | opened peer =>
        obtain ⟨⟨_, hprimed⟩, hnext⟩ := Option.ite_none_right_eq_some.mp hstep
        cases hnext
        refine hinv.settle peer hpending rfl rfl (fun _ _ => rfl) ?_ (fun _ => hprimed) nofun ?_
        · intro hown
          have himpossible := (hinv.primed peer hown).symm.trans hpending
          cases himpossible
        · intro dialler hkept
          cases hkept
          rw [Function.update_of_ne (Peer.other_ne _).symm]
          exact hinv.pending peer _ hpending
    | failed peer =>
        cases hstep
        refine hinv.settle peer hpending rfl rfl (fun _ _ => rfl) ?_ nofun nofun nofun
        intro hown
        have himpossible := (hinv.primed peer hown).symm.trans hpending
        cases himpossible
  · cases hstep

/-! ## Agreement -/

/-- If both peers return a connection, it is the same one, and neither has closed it. -/
def Agree (state : State) : Prop :=
  ∀ peer dialler dialled, state.outcome peer = .kept dialler →
    state.outcome peer.other = .kept dialled →
    dialler = dialled ∧ state.dropped peer dialler = false ∧ state.dropped peer.other dialler = false

/-- Each peer has kept the connection that it dialled itself. -/
def Crossed (state : State) : Prop := ∀ peer, state.outcome peer = .kept peer

/-- A peer does not get through to the other one when that has already kept the connection
it dialled itself. -/
def Uncrossed (state : State) : Event → Prop
  | .primed peer =>
      state.connecting peer = .priming → state.outcome peer = .pending →
        state.outcome peer.other ≠ .kept peer.other
  | _ => True

theorem agree_iff_not_crossed (hinv : Inv state) : Agree state ↔ ¬ Crossed state := by
  constructor
  · intro hagree hcrossed
    have hsame := (hagree .early .early .late (hcrossed .early) (hcrossed .late)).1
    cases hsame
  · intro hcrossed peer dialler dialled hkept hother
    have hsame : dialler = dialled := by
      rcases Peer.eq_or_eq_other peer dialler with rfl | rfl
      · rcases Peer.eq_or_eq_other dialler dialled with rfl | rfl
        · rfl
        · refine absurd ?_ hcrossed
          intro third
          rcases Peer.eq_or_eq_other dialler third with rfl | rfl
          · exact hkept
          · exact hother
      · rw [hinv.primed _ (hinv.read peer hkept)] at hother
        exact Outcome.kept.inj hother
    subst hsame
    exact ⟨rfl, hinv.held peer dialler hkept, hinv.held peer.other dialler hother⟩

/-- Only a peer that primes its connection late makes the two cross. -/
theorem crossed_of_step (hstep : step state event = some next) (hbefore : ¬ Crossed state)
    (hcrossed : Crossed next) : ¬ Uncrossed state event := by
  unfold step at hstep
  split at hstep
  · rename_i hpending
    cases event with
    | primed peer =>
        obtain ⟨hstage, hnext⟩ := Option.ite_none_right_eq_some.mp hstep
        cases hnext
        intro huncrossed
        have hother := hcrossed peer.other
        change Function.update state.outcome peer _ peer.other = _ at hother
        rw [Function.update_of_ne (Peer.other_ne peer)] at hother
        exact huncrossed hstage hpending hother
    | opened peer =>
        obtain ⟨_, hnext⟩ := Option.ite_none_right_eq_some.mp hstep
        cases hnext
        have hown := hcrossed peer
        change Function.update state.outcome peer _ peer = _ at hown
        rw [Function.update_self] at hown
        exact absurd (Outcome.kept.inj hown) (Peer.other_ne peer)
    | failed peer =>
        cases hstep
        have hown := hcrossed peer
        change Function.update state.outcome peer _ peer = _ at hown
        rw [Function.update_self] at hown
        cases hown
    | incoming peer observed =>
        obtain ⟨_, hmatch⟩ := Option.ite_none_right_eq_some.mp hstep
        split at hmatch
        · obtain ⟨_, hnext⟩ := Option.ite_none_left_eq_some.mp hmatch
          cases hnext
          exact absurd hcrossed hbefore
        · cases hmatch
          exact absurd hcrossed hbefore
    | dial peer | connected peer | accepted peer =>
        obtain ⟨_, hnext⟩ := Option.ite_none_right_eq_some.mp hstep
        cases hnext
        exact absurd hcrossed hbefore
  · cases hstep

/-- A late priming makes the two cross. -/
theorem crossed_of_late (hlate : ¬ Uncrossed state event) :
    ∃ next, step state event = some next ∧ Crossed next := by
  cases event with
  | primed peer =>
      by_cases hstage : state.connecting peer = .priming
      · by_cases hpending : state.outcome peer = .pending
        · refine ⟨(state.connect peer .primed).keep peer peer, ?_, ?_⟩
          · exact (if_pos hpending).trans (if_pos hstage)
          · have hother : state.outcome peer.other = .kept peer.other := by
              by_contra hne
              exact hlate fun _ _ => hne
            intro third
            change Function.update state.outcome peer _ third = _
            rcases Peer.eq_or_eq_other peer third with rfl | rfl
            · rw [Function.update_self]
            · rw [Function.update_of_ne (Peer.other_ne peer)]
              exact hother
        · exact absurd (fun _ hnow => absurd hnow hpending) hlate
      · exact absurd (fun hnow => absurd hnow hstage) hlate
  | dial _ | incoming _ _ | connected _ | accepted _ | opened _ | failed _ =>
      exact absurd trivial hlate

/-- In every run, the two peers agree after each step exactly as long as neither of them
primes its connection late. -/
theorem punch_agrees {peerAddr : Peer → SocketAddr} {events : List Event} {final : State}
    (hrun : run (start peerAddr) events = some final) :
    (Along step (fun state event => ∀ next, step state event = some next → Agree next)
        (start peerAddr) events ↔ Along step Uncrossed (start peerAddr) events) ∧
      (Along step Uncrossed (start peerAddr) events → Agree final) := by
  have hkeep : ∀ state event next, Inv state ∧ ¬ Crossed state → Uncrossed state event →
      step state event = some next → Inv next ∧ ¬ Crossed next :=
    fun _ _ _ hinv huncrossed hstep => ⟨hinv.1.step hstep, fun hcrossed =>
      crossed_of_step hstep hinv.2 hcrossed huncrossed⟩
  have hstart : Inv (start peerAddr) ∧ ¬ Crossed (start peerAddr) :=
    ⟨inv_start peerAddr, fun hcrossed => by cases hcrossed .early⟩
  constructor
  · refine along_congr (fun state => Inv state ∧ ¬ Crossed state) ?_ hkeep hstart
    intro state event hinv
    constructor
    · intro hagree
      by_contra hlate
      obtain ⟨next, hstep, hcrossed⟩ := crossed_of_late hlate
      exact (agree_iff_not_crossed (hinv.1.step hstep)).mp (hagree next hstep) hcrossed
    · intro huncrossed next hstep
      obtain ⟨hnext, hcrossed⟩ := hkeep state event next hinv huncrossed hstep
      exact (agree_iff_not_crossed hnext).mpr hcrossed
  · intro huncrossed
    have hfinal := Foundation.Run.invariant_along (fun state => Inv state ∧ ¬ Crossed state) hkeep
      huncrossed hstart hrun
    exact (agree_iff_not_crossed hfinal.1).mpr hfinal.2

/-- Where the packets of the other peer come from. -/
def publicAddr : Peer → SocketAddr
  | .early => ⟨[192, 0, 2, 2], 5555⟩
  | .late => ⟨[192, 0, 2, 1], 5555⟩

/-- The early peer gets through before the late one dials. -/
def meeting : List Event :=
  [.dial .early, .incoming .late (publicAddr .late), .connected .early, .primed .early,
    .accepted .late, .opened .late]

theorem punch_agrees_meeting : ∃ final, run (start publicAddr) meeting = some final ∧
    (Along step (fun state event => ∀ next, step state event = some next → Agree next)
        (start publicAddr) meeting ↔ Along step Uncrossed (start publicAddr) meeting) ∧
      (Along step Uncrossed (start publicAddr) meeting → Agree final) :=
  ⟨_, rfl, @punch_agrees publicAddr meeting _ rfl⟩

/-- Both peers answer the other one before either gets its own answer. -/
def crossing : List Event :=
  [.dial .early, .dial .late, .incoming .late (publicAddr .late),
    .incoming .early (publicAddr .early), .connected .early, .connected .late, .primed .early,
    .primed .late]

theorem punch_crosses :
    ¬ ∀ peerAddr events final, run (start peerAddr) events = some final → Agree final := by
  intro hclaim
  have hsame := (hclaim publicAddr crossing _ rfl .early .early .late rfl rfl).1
  cases hsame

end P2PFileTransfer.Session.Punch
