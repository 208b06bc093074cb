import Mathlib.Logic.Function.Basic
import P2PFileTransfer.Transfer.Throttling

/-!
# One limiter and many callers

Clones of a limiter share its bucket.  A caller of `wait_for_tokens` holds the lock for one
pass of the loop at a time, and sleeps without it; in between the others refill the bucket and
take from it.  What all of them together are granted in any stretch of time is bounded by the
capacity and by what can flow in meanwhile.
-/

namespace P2PFileTransfer.Transfer.SharedLimiter

open P2PFileTransfer.Foundation.Buckets
open P2PFileTransfer.Foundation.FixedWidth
open P2PFileTransfer.Foundation.Run (invariant_run)
open P2PFileTransfer.Core.Bandwidth (BandwidthLimiter)
open P2PFileTransfer.Transfer.Throttling

/-- A call of `wait_for_tokens` that has not returned. -/
structure Request where
  bytes : Nat
  wakeAt : ℚ

/-- `granted`: when the lock section was that let a request through, and its bytes. -/
structure Shared (Caller : Type) where
  limiter : BandwidthLimiter
  clock : ℚ
  waiting : Caller → Option Request
  granted : List (ℚ × ℚ)

inductive Event (Caller : Type) where
  | elapse (duration : ℚ)
  | call (caller : Caller) (bytes : Nat)
  | lock (caller : Caller)
  | cancel (caller : Caller)

variable {Caller : Type} [DecidableEq Caller]

/-- The time is read with the lock held. -/
def Shared.pass (state : Shared Caller) (caller : Caller) (request : Request) : Shared Caller :=
  match state.limiter.pass request.bytes state.clock with
  | (next, none) =>
      { state with
        limiter := next
        waiting := Function.update state.waiting caller none
        granted := (state.clock, (request.bytes : ℚ)) :: state.granted }
  | (next, some duration) =>
      { state with
        limiter := next
        waiting := Function.update state.waiting caller
          (some { request with wakeAt := state.clock + duration }) }

def step (state : Shared Caller) : Event Caller → Option (Shared Caller)
  | .elapse duration =>
      if 0 ≤ duration then some { state with clock := state.clock + duration } else none
  | .call caller bytes =>
      match state.waiting caller with
      | some _ => none
      | none =>
          some { state with
            waiting := Function.update state.waiting caller (some ⟨bytes, state.clock⟩) }
  | .lock caller =>
      match state.waiting caller with
      | none => none
      | some request =>
          if request.wakeAt ≤ state.clock then some (state.pass caller request) else none
  | .cancel caller =>
      some { state with waiting := Function.update state.waiting caller none }

abbrev run : Shared Caller → List (Event Caller) → Option (Shared Caller) :=
  Foundation.Run.run step

/-- A new limiter, before its first caller. -/
def start (limiter : BandwidthLimiter) (now : ℚ) : Shared Caller where
  limiter := limiter
  clock := now
  waiting := fun _ => none
  granted := []

/-- The limiter of either build. -/
def Made (rate : Nat) (now : ℚ) (limiter : BandwidthLimiter) : Prop :=
  BandwidthLimiter.new rate now = .ok limiter ∨ limiter = .wrapping rate now

/-- The limit of two seconds in the bucket, and of the rate and two seconds in any stretch of
time. -/
structure WithinRate (rate : Nat) (state : Shared Caller) : Prop where
  nonneg : 0 ≤ state.limiter.bucket.tokens
  tokens_le : state.limiter.bucket.tokens ≤ 2 * rate
  windows : ∀ first last, first ≤ last →
    takenBetween state.granted first last ≤ 2 * rate + rate * (last - first)

/-- What every lock section keeps. -/
structure Limited (rate : Nat) (state : Shared Caller) : Prop where
  configured : Configured rate state.limiter
  metered : Metered state.limiter.bucket state.granted
  refilled : state.limiter.bucket.lastRefill ≤ state.clock

variable {rate : Nat} {state next : Shared Caller} {caller : Caller} {request : Request}
  {event : Event Caller} {limiter : BandwidthLimiter} {now : ℚ}

omit [DecidableEq Caller] in
theorem limited_start (rate : Nat) (now : ℚ) :
    Limited rate (start (.wrapping rate now) now : Shared Caller) := by
  refine ⟨configured_wrapping rate now, ?_, le_refl now⟩
  apply metered_full
  · exact Nat.cast_nonneg _
  · exact Nat.cast_nonneg _

/-- A lock section leaves a bucket that is refilled to its time, with its log. -/
theorem Limited.pass (hpos : 0 < rate) (hlimited : Limited rate state) (caller : Caller)
    (request : Request) : Limited rate (state.pass caller request) := by
  obtain ⟨hconfigured, hmetered, hrefilled⟩ := hlimited
  have hrate : 0 ≤ state.limiter.bucket.refillRate := by
    rw [hconfigured.refillRate]
    exact Nat.cast_nonneg rate
  have hfilled := hmetered.refill hrate hrefilled
  have hnext := hconfigured.pass request.bytes state.clock
  have henabled := hconfigured.isEnabled hpos
  unfold Shared.pass
  rw [pass_of_isEnabled henabled] at hnext ⊢
  cases htake : (state.limiter.bucket.refill state.clock).take (request.bytes : ℚ) with
  | none =>
      rw [htake] at hnext
      exact ⟨hnext, hfilled, le_refl _⟩
  | some bucket =>
      rw [htake] at hnext
      have htaken := hfilled.take hrate (Nat.cast_nonneg request.bytes) htake
      obtain ⟨_, rfl⟩ := take_eq_some htake
      exact ⟨hnext, htaken, le_refl _⟩

theorem Limited.step (hpos : 0 < rate) (hlimited : Limited rate state)
    (hstep : step state event = some next) : Limited rate next := by
  cases event with
  | elapse duration =>
      obtain ⟨hduration, hnext⟩ := Option.ite_none_right_eq_some.mp hstep
      cases hnext
      refine ⟨hlimited.configured, hlimited.metered, ?_⟩
      exact le_trans hlimited.refilled (le_add_of_nonneg_right hduration)
  | call caller bytes =>
      unfold SharedLimiter.step at hstep
      dsimp only at hstep
      split at hstep
      · cases hstep
      · cases hstep
        exact ⟨hlimited.configured, hlimited.metered, hlimited.refilled⟩
  | lock caller =>
      unfold SharedLimiter.step at hstep
      dsimp only at hstep
      split at hstep
      · cases hstep
      · obtain ⟨_, hnext⟩ := Option.ite_none_right_eq_some.mp hstep
        cases hnext
        exact hlimited.pass hpos caller _
  | cancel caller =>
      cases hstep
      exact ⟨hlimited.configured, hlimited.metered, hlimited.refilled⟩

omit [DecidableEq Caller] in
/-- The capacity is two seconds' worth, or what is left of it in 64 bits. -/
theorem Limited.capacity_le (hlimited : Limited rate state) :
    state.limiter.bucket.capacity ≤ 2 * rate := by
  have hmod : rate * 2 % 2 ^ 64 ≤ 2 * rate := Nat.mul_comm rate 2 ▸ Nat.mod_le _ _
  rw [hlimited.configured.capacity]
  exact_mod_cast hmod

omit [DecidableEq Caller] in
theorem Limited.withinRate (hlimited : Limited rate state) : WithinRate rate state := by
  constructor
  · exact hlimited.metered.nonneg
  · exact le_trans hlimited.metered.tokens_le hlimited.capacity_le
  · intro first last hle
    have hwindow := hlimited.metered.windows first last hle
    rw [hlimited.configured.refillRate] at hwindow
    exact le_trans hwindow (add_le_add hlimited.capacity_le (le_refl _))

/-- However the lock sections of the callers interleave, the bucket never holds more than two
seconds' worth, and no stretch of time sees more granted than that and its own length allow. -/
theorem never_over_granted (hpos : 0 < rate) (hmade : Made rate now limiter)
    {events : List (Event Caller)} (hrun : run (start limiter now) events = some state) :
    WithinRate rate state := by
  have hlimiter : limiter = .wrapping rate now := hmade.elim eq_wrapping_of_new id
  rw [hlimiter] at hrun
  have hlimited : Limited rate state :=
    invariant_run (Limited rate) (fun _ _ _ hbefore hstep => hbefore.step hpos hstep)
      (limited_start rate now) hrun
  exact hlimited.withinRate

/-- Two callers: the second waits until the first one's bytes have flowed in again. -/
def contended : List (Event Bool) :=
  [.call true 2, .lock true, .call false 1, .lock false, .elapse 1, .lock false]

theorem never_over_granted_contended : ∃ state : Shared Bool,
    run (start (.wrapping 1 0) 0) contended = some state ∧ WithinRate 1 state := by
  obtain ⟨state, hrun⟩ : ∃ state : Shared Bool,
      run (start (.wrapping 1 0) 0) contended = some state :=
    Option.isSome_iff_exists.mp (by decide +kernel)
  exact ⟨state, hrun, never_over_granted Nat.one_pos (.inr rfl) hrun⟩

end P2PFileTransfer.Transfer.SharedLimiter
