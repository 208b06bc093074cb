import P2PFileTransfer.Server.Messages

/-!
# Who holds a waiter

A waiter is in the table or with the one connection that took it, and it never comes
back.  So a connection is paired at most once, on one side of the pair only, and never
with itself.
-/

namespace P2PFileTransfer.Server.Ownership

open P2PFileTransfer.Foundation.Tables
open P2PFileTransfer.Session.Rendezvous (SocketAddr)
open P2PFileTransfer.Server.HandleConnection
open P2PFileTransfer.Server.Turns
open P2PFileTransfer.Server.Messages

/-- A connection that may still become either side of a pair. -/
def Early : Stage → Prop
  | .absent | .reading _ | .looking _ _ | .pairing _ _ | .registering _ => True
  | _ => False

/-- A connection that may have put a waiter into the table. -/
def Installed : Stage → Prop
  | .waiting _ | .cleaning _ _ | .answering _ | .done => True
  | _ => False

/-- The waiter a connection has taken. -/
def heldBy : Stage → Option Waiter
  | .pairing _ waiter | .delivering waiter _ _ | .notifying waiter _ => some waiter
  | .rejecting _ held => held
  | _ => none

def Unpaired (log : List Entry) (conn : Nat) : Prop :=
  ∀ second first plan, .paired second first plan ∈ log → second ≠ conn ∧ first ≠ conn

structure Owned (state : State) : Prop where
  early : ∀ conn, Early (state.stages conn) → Unpaired state.log conn
  mapped : ∀ code waiter, state.waiting.lookup code = some waiter →
    Installed (state.stages waiter.notify) ∧ Unpaired state.log waiter.notify
  held : ∀ conn waiter, heldBy (state.stages conn) = some waiter →
    Installed (state.stages waiter.notify)
  pairing : ∀ conn request waiter, state.stages conn = .pairing request waiter →
    Unpaired state.log waiter.notify
  mappedOnce : ∀ code waiter other found, state.waiting.lookup code = some waiter →
    state.waiting.lookup other = some found → waiter.notify = found.notify → code = other
  mappedOrHeld : ∀ code waiter conn found, state.waiting.lookup code = some waiter →
    heldBy (state.stages conn) = some found → waiter.notify ≠ found.notify
  heldOnce : ∀ conn waiter other found, heldBy (state.stages conn) = some waiter →
    heldBy (state.stages other) = some found → waiter.notify = found.notify → conn = other
  pairedOnce : ∀ second first plan otherSecond otherFirst otherPlan,
    .paired second first plan ∈ state.log →
    .paired otherSecond otherFirst otherPlan ∈ state.log →
    second = otherSecond ∨ first = otherFirst →
    second = otherSecond ∧ first = otherFirst ∧ plan = otherPlan
  oneRole : ∀ second first plan otherSecond otherFirst otherPlan,
    .paired second first plan ∈ state.log →
    .paired otherSecond otherFirst otherPlan ∈ state.log → second ≠ otherFirst

theorem owned_start (relay : Option (SocketAddr × Relay.RelayState)) : Owned (start relay) where
  early := fun _ _ _ _ _ hmem => absurd hmem List.not_mem_nil
  mapped := fun _ _ hlookup => by cases hlookup
  held := fun _ _ hheld => by cases hheld
  pairing := fun _ _ _ hstage => by cases hstage
  mappedOnce := fun _ _ _ _ hlookup => by cases hlookup
  mappedOrHeld := fun _ _ _ _ hlookup => by cases hlookup
  heldOnce := fun _ _ _ _ hheld => by cases hheld
  pairedOnce := fun _ _ _ _ _ _ hmem => absurd hmem List.not_mem_nil
  oneRole := fun _ _ _ _ _ _ hmem => absurd hmem List.not_mem_nil

variable {state next : State} {conn : Nat} {stage : Stage} {waiter : Waiter}

/-- A turn that takes no waiter, pairs nobody and adds nothing to the table. -/
theorem Owned.shrink (howned : Owned state) (conn : Nat) (stage : Stage)
    (hstages : next.stages = Function.update state.stages conn stage)
    (hpairs : ∀ second first plan, .paired second first plan ∈ next.log →
      .paired second first plan ∈ state.log)
    (hwaiting : ∀ code waiter, next.waiting.lookup code = some waiter →
      state.waiting.lookup code = some waiter)
    (hearly : Early stage → Early (state.stages conn))
    (hinstalled : Installed (state.stages conn) → Installed stage)
    (hheld : ∀ waiter, heldBy stage = some waiter → heldBy (state.stages conn) = some waiter)
    (hpairing : ∀ request waiter, stage ≠ .pairing request waiter) : Owned next := by
  have hunpaired : ∀ other, Unpaired state.log other → Unpaired next.log other :=
    fun other hother second first plan hmem => hother second first plan (hpairs _ _ _ hmem)
  have hstill : ∀ other, Installed (state.stages other) → Installed (next.stages other) := by
    intro other hother
    rw [hstages]
    exact keep_update Installed hinstalled hother
  have hbefore : ∀ other waiter, heldBy (next.stages other) = some waiter →
      heldBy (state.stages other) = some waiter := by
    intro other waiter hother
    rw [hstages] at hother
    exact before_update (fun stage => heldBy stage = some waiter) (hheld waiter) hother
  constructor
  · intro other hother
    apply hunpaired
    apply howned.early
    rw [hstages] at hother
    exact before_update Early hearly hother
  · intro code waiter hlookup
    obtain ⟨hplace, hfree⟩ := howned.mapped code waiter (hwaiting code waiter hlookup)
    exact ⟨hstill _ hplace, hunpaired _ hfree⟩
  · exact fun other waiter hother => hstill _ (howned.held other waiter (hbefore other waiter hother))
  · intro other request waiter hother
    apply hunpaired
    rw [hstages] at hother
    apply howned.pairing other request waiter
    exact before_update (fun stage => stage = Stage.pairing request waiter)
      (fun hnew => absurd hnew (hpairing request waiter)) hother
  · exact fun code waiter other found hlookup hfound =>
      howned.mappedOnce code waiter other found (hwaiting _ _ hlookup) (hwaiting _ _ hfound)
  · exact fun code waiter other found hlookup hfound =>
      howned.mappedOrHeld code waiter other found (hwaiting _ _ hlookup) (hbefore _ _ hfound)
  · exact fun first waiter other found hfirst hfound =>
      howned.heldOnce first waiter other found (hbefore _ _ hfirst) (hbefore _ _ hfound)
  · exact fun _ _ _ _ _ _ hmem hother =>
      howned.pairedOnce _ _ _ _ _ _ (hpairs _ _ _ hmem) (hpairs _ _ _ hother)
  · exact fun _ _ _ _ _ _ hmem hother =>
      howned.oneRole _ _ _ _ _ _ (hpairs _ _ _ hmem) (hpairs _ _ _ hother)

/-- A connection takes the waiter it found out of the table. -/
theorem Owned.take (howned : Owned state) {conn : Nat} {code : Code} {peer : SocketAddr}
    {request : RegisterRequest} (stamped : RegisterRequest) (hstage : state.stages conn = .looking peer request)
    (hlookup : state.waiting.lookup code = some waiter)
    (hstages : next.stages = Function.update state.stages conn (.pairing stamped waiter))
    (hlog : next.log = state.log)
    (hwaiting : ∀ other found, next.waiting.lookup other = some found →
      state.waiting.lookup other = some found ∧ other ≠ code) : Owned next := by
  obtain ⟨hplace, hfree⟩ := howned.mapped code waiter hlookup
  have hstill : ∀ other, Installed (state.stages other) → Installed (next.stages other) := by
    intro other hother
    rw [hstages]
    refine keep_update Installed (fun hbefore => ?_) hother
    rw [hstage] at hbefore
    exact hbefore.elim
  -- what is held is held before, or it is the waiter that was taken
  have hbefore : ∀ other found, heldBy (next.stages other) = some found →
      heldBy (state.stages other) = some found ∨ other = conn ∧ found = waiter := by
    intro other found hother
    rw [hstages] at hother
    rcases of_update (fun stage => heldBy stage = some found) hother with ⟨heq, hnew⟩ | ⟨_, hold⟩
    · cases hnew
      exact .inr ⟨heq, rfl⟩
    · exact .inl hold
  constructor
  · intro other hother
    rw [hlog]
    apply howned.early
    rw [hstages] at hother
    refine before_update Early (fun _ => ?_) hother
    rw [hstage]
    trivial
  · intro other found hfound
    rw [hlog]
    obtain ⟨hfoundPlace, hfoundFree⟩ := howned.mapped other found (hwaiting other found hfound).1
    exact ⟨hstill _ hfoundPlace, hfoundFree⟩
  · intro other found hother
    rcases hbefore other found hother with hold | ⟨_, rfl⟩
    · exact hstill _ (howned.held other found hold)
    · exact hstill _ hplace
  · intro other found holds hother
    rw [hlog]
    rw [hstages] at hother
    rcases of_update (fun stage => stage = Stage.pairing found holds) hother with ⟨_, hnew⟩ | ⟨_, hold⟩
    · cases hnew
      exact hfree
    · exact howned.pairing other found holds hold
  · intro first found other second hfound hsecond
    exact howned.mappedOnce first found other second (hwaiting _ _ hfound).1 (hwaiting _ _ hsecond).1
  · intro other found holder holds hfound hholds
    obtain ⟨hmapped, hne⟩ := hwaiting other found hfound
    rcases hbefore holder holds hholds with hold | ⟨_, rfl⟩
    · exact howned.mappedOrHeld other found holder holds hmapped hold
    · exact fun hsame => hne (howned.mappedOnce other found code holds hmapped hlookup hsame)
  · intro first found other second hfound hsecond hsame
    rcases hbefore first found hfound with hold | ⟨hfirst, hwaiter⟩
    · rcases hbefore other second hsecond with hother | ⟨_, hwaiter⟩
      · exact howned.heldOnce first found other second hold hother hsame
      · rw [hwaiter] at hsame
        exact absurd hsame.symm (howned.mappedOrHeld code waiter first found hlookup hold)
    · rcases hbefore other second hsecond with hother | ⟨hotherConn, _⟩
      · rw [hwaiter] at hsame
        exact absurd hsame (howned.mappedOrHeld code waiter other second hlookup hother)
      · rw [hfirst, hotherConn]
  · rw [hlog]
    exact howned.pairedOnce
  · rw [hlog]
    exact howned.oneRole

/-- A connection joins the waiter it holds in a pair. -/
theorem Owned.pair (howned : Owned state) {conn : Nat} {request : RegisterRequest} (plan : Plan)
    {message : Message} {payload : NotifyPayload}
    (hstage : state.stages conn = .pairing request waiter)
    (hstages : next.stages = Function.update state.stages conn (.delivering waiter message payload))
    (hpairs : ∀ second first other, .paired second first other ∈ next.log →
      .paired second first other ∈ state.log ∨
        second = conn ∧ first = waiter.notify ∧ other = plan)
    (hwaiting : next.waiting = state.waiting) : Owned next := by
  have hown : Unpaired state.log conn := howned.early conn (by rw [hstage]; trivial)
  have hpeer : Unpaired state.log waiter.notify := howned.pairing conn request waiter hstage
  have hplace : Installed (state.stages waiter.notify) :=
    howned.held conn waiter (by rw [hstage]; rfl)
  have hne : conn ≠ waiter.notify := by
    intro heq
    rw [← heq, hstage] at hplace
    exact hplace
  -- the pair is new to every connection but its own two
  have hunpaired : ∀ other, other ≠ conn → other ≠ waiter.notify → Unpaired state.log other →
      Unpaired next.log other := by
    intro other hconn hnotify hother second first found hmem
    rcases hpairs second first found hmem with hold | ⟨rfl, rfl, _⟩
    · exact hother second first found hold
    · exact ⟨hconn.symm, hnotify.symm⟩
  have hstill : ∀ other, Installed (state.stages other) → Installed (next.stages other) := by
    intro other hother
    rw [hstages]
    refine keep_update Installed (fun hbefore => ?_) hother
    rw [hstage] at hbefore
    exact hbefore.elim
  have hbefore : ∀ other found, heldBy (next.stages other) = some found →
      heldBy (state.stages other) = some found := by
    intro other found hother
    rw [hstages] at hother
    refine before_update (fun stage => heldBy stage = some found) (fun hnew => ?_) hother
    rw [hstage]
    exact hnew
  have hholds : heldBy (state.stages conn) = some waiter := by
    rw [hstage]
    rfl
  constructor
  · intro other hother
    rw [hstages] at hother
    rcases of_update Early hother with ⟨_, hnew⟩ | ⟨hne, hold⟩
    · exact hnew.elim
    · refine hunpaired other hne ?_ (howned.early other hold)
      intro hnotify
      rw [← hnotify] at hplace
      cases hfound : state.stages other <;> rw [hfound] at hplace hold <;>
        first | exact hplace.elim | exact hold.elim
  · intro code found hfound
    rw [hwaiting] at hfound
    obtain ⟨hfoundPlace, hfoundFree⟩ := howned.mapped code found hfound
    refine ⟨hstill _ hfoundPlace, hunpaired _ ?_ ?_ hfoundFree⟩
    · intro heq
      rw [heq, hstage] at hfoundPlace
      exact hfoundPlace
    · exact howned.mappedOrHeld code found conn waiter hfound hholds
  · exact fun other found hother => hstill _ (howned.held other found (hbefore other found hother))
  · intro other found holds hother
    rw [hstages] at hother
    rcases of_update (fun stage => stage = Stage.pairing found holds) hother with ⟨_, hnew⟩ | ⟨hother, hold⟩
    · cases hnew
    · have hheld : heldBy (state.stages other) = some holds := by
        rw [hold]
        rfl
      refine hunpaired _ ?_ ?_ (howned.pairing other found holds hold)
      · intro hsame
        have hthere := howned.held other holds hheld
        rw [hsame, hstage] at hthere
        exact hthere
      · exact fun hsame => hother (howned.heldOnce other holds conn waiter hheld hholds hsame)
  · rw [hwaiting]
    exact howned.mappedOnce
  · intro code found other holds hfound hother
    rw [hwaiting] at hfound
    exact howned.mappedOrHeld code found other holds hfound (hbefore other holds hother)
  · exact fun first found other second hfirst hsecond =>
      howned.heldOnce first found other second (hbefore _ _ hfirst) (hbefore _ _ hsecond)
  · intro second first found otherSecond otherFirst otherPlan hmem hother hsame
    rcases hpairs _ _ _ hmem with hold | ⟨rfl, rfl, rfl⟩
    · rcases hpairs _ _ _ hother with hotherOld | ⟨rfl, rfl, rfl⟩
      · exact howned.pairedOnce _ _ _ _ _ _ hold hotherOld hsame
      · rcases hsame with heq | heq
        · exact absurd heq (hown _ _ _ hold).1
        · exact absurd heq (hpeer _ _ _ hold).2
    · rcases hpairs _ _ _ hother with hotherOld | ⟨rfl, rfl, rfl⟩
      · rcases hsame with heq | heq
        · exact absurd heq.symm (hown _ _ _ hotherOld).1
        · exact absurd heq.symm (hpeer _ _ _ hotherOld).2
      · exact ⟨rfl, rfl, rfl⟩
  · intro second first found otherSecond otherFirst otherPlan hmem hother
    rcases hpairs _ _ _ hmem with hold | ⟨rfl, rfl, rfl⟩
    · rcases hpairs _ _ _ hother with hotherOld | ⟨rfl, rfl, rfl⟩
      · exact howned.oneRole _ _ _ _ _ _ hold hotherOld
      · exact (hpeer _ _ _ hold).1
    · rcases hpairs _ _ _ hother with hotherOld | ⟨_, rfl, _⟩
      · exact (hown _ _ _ hotherOld).2.symm
      · exact hne

/-- A connection becomes a waiter. -/
theorem Owned.install (howned : Owned state) {conn : Nat} {request : RegisterRequest} {code : Code}
    (hstage : state.stages conn = .registering request)
    (hstages : next.stages = Function.update state.stages conn (.waiting request))
    (hlog : next.log = state.log) (hnotify : waiter.notify = conn)
    (hwaiting : ∀ other, next.waiting.lookup other =
      if other = code then some waiter else state.waiting.lookup other) : Owned next := by
  have hearly : Early (state.stages conn) := by
    rw [hstage]
    trivial
  have hplace : Installed (next.stages conn) := by
    rw [hstages, Function.update_self]
    trivial
  have hstill : ∀ other, Installed (state.stages other) → Installed (next.stages other) := by
    intro other hother
    rw [hstages]
    exact keep_update Installed (fun _ => trivial) hother
  have hbefore : ∀ other found, heldBy (next.stages other) = some found →
      heldBy (state.stages other) = some found := by
    intro other found hother
    rw [hstages] at hother
    refine before_update (fun stage => heldBy stage = some found) (fun hnew => ?_) hother
    cases hnew
  -- no sender of this connection is anywhere yet
  have hunheld : ∀ other found, heldBy (state.stages other) = some found → found.notify ≠ conn := by
    intro other found hfound heq
    have hthere := howned.held other found hfound
    rw [heq, hstage] at hthere
    exact hthere
  have hunmapped : ∀ other found, state.waiting.lookup other = some found →
      found.notify ≠ conn := by
    intro other found hfound heq
    have hthere := (howned.mapped other found hfound).1
    rw [heq, hstage] at hthere
    exact hthere
  have hcases : ∀ other found, next.waiting.lookup other = some found →
      other = code ∧ found = waiter ∨ state.waiting.lookup other = some found := by
    intro other found hfound
    rw [hwaiting other] at hfound
    split at hfound
    · rename_i heq
      exact .inl ⟨heq, (Option.some.inj hfound).symm⟩
    · exact .inr hfound
  constructor
  · intro other hother
    rw [hlog]
    apply howned.early
    rw [hstages] at hother
    exact before_update Early (fun _ => hearly) hother
  · intro other found hfound
    rw [hlog]
    rcases hcases other found hfound with ⟨_, rfl⟩ | hold
    · rw [hnotify]
      exact ⟨hplace, howned.early conn hearly⟩
    · obtain ⟨hfoundPlace, hfoundFree⟩ := howned.mapped other found hold
      exact ⟨hstill _ hfoundPlace, hfoundFree⟩
  · exact fun other found hother => hstill _ (howned.held other found (hbefore other found hother))
  · intro other found holds hother
    rw [hlog]
    rw [hstages] at hother
    apply howned.pairing other found holds
    refine before_update (fun stage => stage = Stage.pairing found holds) (fun hnew => ?_) hother
    cases hnew
  · intro first found other second hfound hsecond hsame
    rcases hcases first found hfound with ⟨hfirst, rfl⟩ | hold
    · rcases hcases other second hsecond with ⟨hother, _⟩ | hotherOld
      · rw [hfirst, hother]
      · exact absurd (hsame.symm.trans hnotify) (hunmapped other second hotherOld)
    · rcases hcases other second hsecond with ⟨_, rfl⟩ | hotherOld
      · exact absurd (hsame.trans hnotify) (hunmapped first found hold)
      · exact howned.mappedOnce first found other second hold hotherOld hsame
  · intro other found holder holds hfound hholds
    have hheld := hbefore holder holds hholds
    rcases hcases other found hfound with ⟨_, rfl⟩ | hold
    · rw [hnotify]
      exact (hunheld holder holds hheld).symm
    · exact howned.mappedOrHeld other found holder holds hold hheld
  · exact fun first found other second hfirst hsecond =>
      howned.heldOnce first found other second (hbefore _ _ hfirst) (hbefore _ _ hsecond)
  · rw [hlog]
    exact howned.pairedOnce
  · rw [hlog]
    exact howned.oneRole

theorem Owned.goto (howned : Owned state) (conn : Nat) (stage : Stage)
    (hearly : Early stage → Early (state.stages conn))
    (hinstalled : Installed (state.stages conn) → Installed stage)
    (hheld : ∀ waiter, heldBy stage = some waiter → heldBy (state.stages conn) = some waiter)
    (hpairing : ∀ request waiter, stage ≠ .pairing request waiter) :
    Owned (state.goto conn stage) :=
  howned.shrink conn stage rfl (fun _ _ _ hmem => hmem) (fun _ _ hlookup => hlookup) hearly
    hinstalled hheld hpairing

/-- A turn that logs an entry other than a pair. -/
theorem Owned.log (howned : Owned state) (conn : Nat) (stage : Stage) {entry : Entry}
    (hentry : ∀ second first plan, entry ≠ .paired second first plan)
    (hearly : Early stage → Early (state.stages conn))
    (hinstalled : Installed (state.stages conn) → Installed stage)
    (hheld : ∀ waiter, heldBy stage = some waiter → heldBy (state.stages conn) = some waiter)
    (hpairing : ∀ request waiter, stage ≠ .pairing request waiter) :
    Owned ((state.record entry).goto conn stage) := by
  refine howned.shrink conn stage rfl ?_ (fun _ _ hlookup => hlookup) hearly hinstalled hheld hpairing
  intro second first plan hmem
  rcases List.mem_append.mp hmem with hold | hnew
  · exact hold
  · exact absurd (List.mem_singleton.mp hnew).symm (hentry second first plan)

/-- A connection that ends, and drops what it held. -/
theorem Owned.finish (howned : Owned state) (conn : Nat) (held : Option Waiter) {entry : Entry}
    (hentry : ∀ second first plan, entry ≠ .paired second first plan) :
    Owned (((state.dropHeld held).record entry).goto conn .done) := by
  refine howned.shrink conn .done ?_ ?_ ?_ False.elim (fun _ => trivial) nofun nofun
  · change Function.update (state.dropHeld held).stages conn .done = _
    rw [stages_dropHeld]
  · intro second first plan hmem
    change .paired second first plan ∈ (state.dropHeld held).log ++ [entry] at hmem
    rw [log_dropHeld] at hmem
    rcases List.mem_append.mp hmem with hold | hnew
    · exact hold
    · exact absurd (List.mem_singleton.mp hnew).symm (hentry second first plan)
  · intro code waiter hlookup
    change (state.dropHeld held).waiting.lookup code = some waiter at hlookup
    rw [waiting_dropHeld] at hlookup
    exact hlookup

theorem Owned.step {ttl : Nat} {event : Event} (howned : Owned state)
    (hturned : Turned ttl state event next) : Owned next := by
  cases hturned with
  | accepted hstage =>
      refine howned.goto _ _ ?_ ?_ nofun nofun <;> rw [hstage]
      · exact id
      · exact False.elim
  | unread hstage hnext =>
      rcases hnext with rfl | ⟨reason, rfl⟩
      · exact howned.goto _ _ False.elim (fun _ => trivial) nofun nofun
      · refine howned.goto _ _ False.elim ?_ nofun nofun
        rw [hstage]
        exact False.elim
  | refused hstage =>
      refine howned.log _ _ nofun False.elim ?_ nofun nofun
      rw [hstage]
      exact False.elim
  | admitted hstage hvalid =>
      refine howned.log _ _ nofun ?_ ?_ nofun nofun <;> rw [hstage]
      · exact id
      · exact False.elim
  | took hstage hlookup =>
      rename_i conn now peer request waiter
      refine howned.take (stamp peer request) hstage (lookup_unexpired.mp hlookup).1 ?_ (log_foldl_drop _ _) ?_
      · exact congrArg (fun stages => Function.update stages _ _) (stages_foldl_drop _ _)
      · intro other found hfound
        obtain ⟨hkept, hne⟩ := lookup_of_erase hfound
        exact ⟨(lookup_unexpired.mp hkept).1, hne⟩
  | missed hstage hlookup =>
      rename_i conn now peer request
      refine howned.shrink conn (.registering (stamp peer request)) ?_ ?_ ?_ ?_ ?_ nofun nofun
      · exact congrArg (fun stages => Function.update stages _ _) (stages_foldl_drop _ _)
      · intro second first plan hmem
        change .paired second first plan ∈ ((expired now state.waiting).foldl State.drop state).log
          at hmem
        rw [log_foldl_drop] at hmem
        exact hmem
      · exact fun code found hfound => (lookup_unexpired.mp hfound).1
      · rw [hstage]
        exact id
      · rw [hstage]
        exact False.elim
  | pairedDirect hstage =>
      refine howned.pair .direct hstage rfl ?_ rfl
      intro second first plan hmem
      rcases List.mem_append.mp hmem with hold | hnew
      · exact .inl hold
      · cases List.mem_singleton.mp hnew
        exact .inr ⟨rfl, rfl, rfl⟩
  | pairedRelay hstage hne =>
      rename_i conn now request waiter token relayAddr reserved
      refine howned.pair (.relay relayAddr token) hstage rfl ?_ rfl
      intro second first plan hmem
      rcases List.mem_append.mp hmem with hearlier | hnew
      · rcases List.mem_append.mp hearlier with hold | hreserved
        · exact .inl hold
        · cases List.mem_singleton.mp hreserved
      · cases List.mem_singleton.mp hnew
        exact .inr ⟨rfl, rfl, rfl⟩
  | relayRefused hstage =>
      refine howned.goto _ _ False.elim ?_ ?_ nofun <;> rw [hstage]
      · exact False.elim
      · exact fun _ hheld => hheld
  | delivered hstage =>
      refine howned.log _ _ nofun False.elim ?_ ?_ nofun <;> rw [hstage]
      · exact False.elim
      · exact fun _ hheld => hheld
  | undelivered hstage => exact howned.finish _ (some _) nofun
  | notified hstage =>
      rename_i conn waiter payload
      refine howned.shrink conn .done ?_ ?_ ?_ False.elim (fun _ => trivial) nofun nofun
      · exact congrArg (fun stages => Function.update stages _ _) (stages_notify _ _ _)
      · intro second first plan hmem
        change .paired second first plan ∈ (state.notify waiter payload).log at hmem
        rw [log_notify] at hmem
        exact hmem
      · intro code found hfound
        change (state.notify waiter payload).waiting.lookup code = some found at hfound
        rw [waiting_notify] at hfound
        exact hfound
  | collided hstage =>
      refine howned.goto _ _ False.elim ?_ nofun nofun
      rw [hstage]
      exact False.elim
  | installed hstage hfree =>
      exact howned.install hstage rfl rfl rfl fun other => lookup_insert_ite _ _ _ _
  | woken hstage hchannel => exact howned.goto _ _ False.elim (fun _ => trivial) nofun nofun
  | bereft hstage hchannel => exact howned.goto _ _ False.elim (fun _ => trivial) nofun nofun
  | timedOut hstage hchannel =>
      exact howned.shrink _ _ rfl (fun _ _ _ hmem => hmem) (fun _ _ hlookup => hlookup) False.elim
        (fun _ => trivial) nofun nofun
  | cleaned hstage =>
      rename_i conn request outcome
      refine howned.shrink conn (.answering (outcomeMessage outcome)) ?_ ?_ ?_ False.elim
        (fun _ => trivial) nofun nofun
      · exact congrArg (fun stages => Function.update stages _ _) (stages_cleanUp _ _)
      · intro second first plan hmem
        change .paired second first plan ∈ (state.cleanUp request).log at hmem
        rw [log_cleanUp] at hmem
        exact hmem
      · exact fun code found hfound => lookup_cleanUp hfound
  | answered hstage => exact howned.log _ _ nofun False.elim (fun _ => trivial) nofun nofun
  | unanswered hstage => exact howned.finish _ none nofun
  | turnedAway hstage => exact howned.finish _ _ nofun
  | cutOff hstage => exact howned.finish _ _ nofun
  | relayed =>
      exact ⟨howned.early, howned.mapped, howned.held, howned.pairing, howned.mappedOnce,
        howned.mappedOrHeld, howned.heldOnce, howned.pairedOnce, howned.oneRole⟩

/-! ## One registration each -/

/-- Nothing has been read from the connection. -/
def Unread : Stage → Prop
  | .absent | .reading _ => True
  | _ => False

/-- A connection registers once, with the first thing it says. -/
structure Once (state : State) : Prop where
  unread : ∀ conn peer request, .registered conn peer request ∈ state.log →
    ¬ Unread (state.stages conn)
  unique : ∀ conn peer request other found, .registered conn peer request ∈ state.log →
    .registered conn other found ∈ state.log → peer = other ∧ request = found

theorem once_start (relay : Option (SocketAddr × Relay.RelayState)) : Once (start relay) :=
  ⟨fun _ _ _ hmem => absurd hmem List.not_mem_nil, fun _ _ _ _ _ hmem => absurd hmem List.not_mem_nil⟩

theorem Once.step (honce : Once state) (hmoves : Moves state next) : Once next := by
  rcases hmoves with ⟨hstages, hlog⟩ | ⟨conn, stage, entries, hmove, hstages, hlog⟩
  · constructor
    · rw [hstages, hlog]
      exact honce.unread
    · rw [hlog]
      exact honce.unique
  · have hunread : Unread stage → Unread (state.stages conn) := by
      generalize state.stages conn = before at hmove ⊢
      cases hmove <;> first | exact id | exact False.elim
    -- whoever registers has not been read before, and has been read afterwards
    have hfirst : ∀ other peer request, .registered other peer request ∈ entries →
        other = conn ∧ Unread (state.stages conn) ∧ ¬ Unread stage ∧
          entries = [.registered conn peer request] := by
      intro other peer request hmem
      generalize state.stages conn = before at hmove
      cases hmove with
      | refused _ _ _ | admitted _ _ =>
          cases List.mem_singleton.mp hmem
          exact ⟨rfl, trivial, id, rfl⟩
      | pairedRelay _ _ _ _ _ _ hne =>
          rcases List.mem_cons.mp hmem with hreserved | hpaired
          · cases hreserved
          · cases List.mem_singleton.mp hpaired
      | pairedDirect _ _ _ _ | delivered _ _ _ | undelivered _ _ _ | answered _ | unanswered _
      | turnedAway _ _ | cutOff _ _ => cases List.mem_singleton.mp hmem
      | accepted _ | closed _ | foreign _ _ | took _ _ _ | missed _ _ | relayRefused _ _ _
      | notified _ _ | collided _ _ | installed _ | woken _ _ | cleaned _ _ =>
          exact absurd hmem List.not_mem_nil
    constructor
    · intro other peer request hmem hother
      rw [hlog] at hmem
      rw [hstages] at hother
      rcases List.mem_append.mp hmem with hold | hnew
      · exact honce.unread other peer request hold (before_update Unread hunread hother)
      · obtain ⟨rfl, _, hread, _⟩ := hfirst other peer request hnew
        rw [Function.update_self] at hother
        exact hread hother
    · intro other peer request second found hmem hfound
      rw [hlog] at hmem hfound
      rcases List.mem_append.mp hmem with hold | hnew <;>
        rcases List.mem_append.mp hfound with hfoundOld | hfoundNew
      · exact honce.unique other peer request second found hold hfoundOld
      · obtain ⟨rfl, hbefore, _⟩ := hfirst other second found hfoundNew
        exact absurd hbefore (honce.unread other peer request hold)
      · obtain ⟨rfl, hbefore, _⟩ := hfirst other peer request hnew
        exact absurd hbefore (honce.unread other second found hfoundOld)
      · rw [(hfirst other peer request hnew).2.2.2] at hfoundNew
        cases List.mem_singleton.mp hfoundNew
        exact ⟨rfl, rfl⟩

theorem Once.knows_unique (honce : Once state) {request other : RegisterRequest}
    (hrequest : Knows state.log conn request) (hother : Knows state.log conn other) :
    request = other := by
  obtain ⟨peer, raw, hmem, _, rfl⟩ := hrequest
  obtain ⟨second, found, hfound, _, rfl⟩ := hother
  obtain ⟨rfl, rfl⟩ := honce.unique conn peer raw second found hmem hfound
  rfl

end P2PFileTransfer.Server.Ownership
