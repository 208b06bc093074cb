import Mathlib.Tactic.Linarith
import P2PFileTransfer.Core.Bandwidth

/-!
# Which requests the throttle lets through

`wait_for_tokens` sleeps until the bucket holds the whole request.  The bucket never holds
more than its capacity, so the loop is left exactly when the request fits the bucket, and
then the second pass leaves it at the latest.
-/

namespace P2PFileTransfer.Transfer.Throttling

open P2PFileTransfer.Foundation.Buckets
open P2PFileTransfer.Foundation.FixedWidth
open P2PFileTransfer.Core.Bandwidth

/-- The limiters that earlier requests can leave behind. -/
inductive Reached (rate : Nat) : BandwidthLimiter → Prop where
  | made (now : ℚ) : Reached rate (.wrapping rate now)
  | passed {limiter : BandwidthLimiter} (bytes : Nat) {now : ℚ} :
      Reached rate limiter → limiter.bucket.lastRefill ≤ now →
        Reached rate (limiter.pass bytes now).1

/-- The limiter as the given number of passes leaves it, the first at `clock 0`, while the
loop is not left. -/
def waiting (limiter : BandwidthLimiter) (bytes : Nat) (clock : Nat → ℚ) :
    Nat → Option BandwidthLimiter
  | 0 => some limiter
  | passes + 1 =>
      (waiting limiter bytes clock passes).bind fun current =>
        match current.pass bytes (clock passes) with
        | (_, none) => none
        | (next, some _) => some next

/-- A clock that advances at least by every sleep. -/
structure Honest (limiter : BandwidthLimiter) (bytes : Nat) (clock : Nat → ℚ) : Prop where
  start : limiter.bucket.lastRefill ≤ clock 0
  sleep : ∀ passes current, waiting limiter bytes clock passes = some current →
    ∀ next duration, current.pass bytes (clock passes) = (next, some duration) →
      clock passes + duration ≤ clock (passes + 1)

/-- What no request changes. -/
structure Configured (rate : Nat) (limiter : BandwidthLimiter) : Prop where
  maxBytesPerSec : limiter.maxBytesPerSec = rate
  capacity : limiter.bucket.capacity = (rate * 2 % 2 ^ 64 : ℕ)
  refillRate : limiter.bucket.refillRate = rate

variable {rate bytes : Nat} {limiter next : BandwidthLimiter} {now duration : ℚ}
  {clock : Nat → ℚ}

/-! ## One pass -/

theorem pass_of_isEnabled (henabled : limiter.isEnabled = true) (bytes : Nat) (now : ℚ) :
    limiter.pass bytes now =
      match (limiter.bucket.refill now).take bytes with
      | some bucket => ({ limiter with bucket := bucket }, none)
      | none => ({ limiter with bucket := limiter.bucket.refill now },
          some ((bytes - (limiter.bucket.refill now).tokens) / limiter.bucket.refillRate)) :=
  if_pos henabled

/-- A pass that leaves the loop has found the whole request in the bucket. -/
theorem le_tokens_of_leave (henabled : limiter.isEnabled = true)
    (hpass : limiter.pass bytes now = (next, none)) :
    (bytes : ℚ) ≤ (limiter.bucket.refill now).tokens := by
  rw [pass_of_isEnabled henabled] at hpass
  cases htake : (limiter.bucket.refill now).take (bytes : ℚ) with
  | none =>
      rw [htake] at hpass
      cases hpass
  | some bucket => exact (take_eq_some htake).1

/-- A pass that sleeps has refilled the bucket, and waits for what is missing. -/
theorem pass_eq_sleep (henabled : limiter.isEnabled = true)
    (hpass : limiter.pass bytes now = (next, some duration)) :
    next = { limiter with bucket := limiter.bucket.refill now } ∧
      duration = (bytes - (limiter.bucket.refill now).tokens) / limiter.bucket.refillRate ∧
      (limiter.bucket.refill now).tokens < bytes := by
  rw [pass_of_isEnabled henabled] at hpass
  cases htake : (limiter.bucket.refill now).take (bytes : ℚ) with
  | none =>
      rw [htake] at hpass
      cases hpass
      exact ⟨rfl, rfl, take_eq_none.mp htake⟩
  | some bucket =>
      rw [htake] at hpass
      cases hpass

/-! ## What is reached -/

theorem Configured.isEnabled (hconfigured : Configured rate limiter) (hpos : 0 < rate) :
    limiter.isEnabled = true := by
  apply decide_eq_true
  rw [hconfigured.maxBytesPerSec]
  exact hpos

theorem configured_wrapping (rate : Nat) (now : ℚ) : Configured rate (.wrapping rate now) :=
  ⟨rfl, rfl, rfl⟩

theorem Configured.pass (hconfigured : Configured rate limiter) (bytes : Nat) (now : ℚ) :
    Configured rate (limiter.pass bytes now).1 := by
  obtain ⟨hrate, hcapacity, hrefillRate⟩ := hconfigured
  cases henabled : limiter.isEnabled with
  | false =>
      have hsame : limiter.pass bytes now = (limiter, none) :=
        if_neg (Bool.eq_false_iff.mp henabled)
      rw [hsame]
      exact ⟨hrate, hcapacity, hrefillRate⟩
  | true =>
      rw [pass_of_isEnabled henabled]
      cases htake : (limiter.bucket.refill now).take (bytes : ℚ) with
      | none => exact ⟨hrate, hcapacity, hrefillRate⟩
      | some bucket =>
          obtain ⟨_, rfl⟩ := take_eq_some htake
          exact ⟨hrate, hcapacity, hrefillRate⟩

theorem Reached.configured (hreached : Reached rate limiter) : Configured rate limiter := by
  induction hreached with
  | made now => exact configured_wrapping rate now
  | passed bytes _ _ ih => exact ih.pass bytes _

/-- Where the doubling does not overflow, `new` makes the limiter of both builds. -/
theorem eq_wrapping_of_new (hnew : BandwidthLimiter.new rate now = .ok limiter) :
    limiter = .wrapping rate now := by
  by_cases hpos : 0 < rate
  · rw [BandwidthLimiter.new, if_pos hpos] at hnew
    cases hcapacity : mul 64 rate 2 with
    | error fault =>
        rw [hcapacity] at hnew
        cases hnew
    | ok capacity =>
        rw [hcapacity] at hnew
        cases hnew
        obtain ⟨hfits, rfl⟩ := mul_eq_ok_iff.mp hcapacity
        rw [BandwidthLimiter.wrapping, truncate, Nat.mod_eq_of_lt hfits]
  · rw [BandwidthLimiter.new, if_neg hpos] at hnew
    cases hnew
    rw [Nat.eq_zero_of_not_pos hpos]
    rfl

theorem reached_new (hnew : BandwidthLimiter.new rate now = .ok limiter) :
    Reached rate limiter := by
  rw [eq_wrapping_of_new hnew]
  exact .made now

/-! ## The loop -/

theorem waiting_succ_of_sleep {passes : Nat} {current : BandwidthLimiter}
    (hwaiting : waiting limiter bytes clock passes = some current)
    (hpass : current.pass bytes (clock passes) = (next, some duration)) :
    waiting limiter bytes clock (passes + 1) = some next := by
  rw [waiting, hwaiting, Option.bind_some, hpass]

theorem waiting_succ_of_leave {passes : Nat} {current : BandwidthLimiter}
    (hwaiting : waiting limiter bytes clock passes = some current)
    (hpass : current.pass bytes (clock passes) = (next, none)) :
    waiting limiter bytes clock (passes + 1) = none := by
  rw [waiting, hwaiting, Option.bind_some, hpass]

/-- A request that fits is let through by the second pass. -/
theorem waiting_two_of_fits (hpos : 0 < rate) (hconfigured : Configured rate limiter)
    (hhonest : Honest limiter bytes clock) (hfits : bytes ≤ rate * 2 % 2 ^ 64) :
    waiting limiter bytes clock 2 = none := by
  have henabled := hconfigured.isEnabled hpos
  match hfirst : limiter.pass bytes (clock 0) with
  | (next, none) =>
      have hleft : waiting limiter bytes clock 1 = none := waiting_succ_of_leave rfl hfirst
      rw [waiting, hleft, Option.bind_none]
  | (next, some duration) =>
      have hwaiting : waiting limiter bytes clock 1 = some next := waiting_succ_of_sleep rfl hfirst
      have hsleep := hhonest.sleep 0 limiter rfl next duration hfirst
      obtain ⟨hnext, hduration, _⟩ := pass_eq_sleep henabled hfirst
      have hsecond : Configured rate next := by
        have hsame := hconfigured.pass bytes (clock 0)
        rw [hfirst] at hsame
        exact hsame
      match hagain : next.pass bytes (clock 1) with
      | (last, none) => exact waiting_succ_of_leave hwaiting hagain
      | (last, some more) =>
          -- after the sleep the bucket holds the request
          obtain ⟨_, _, hmissing⟩ := pass_eq_sleep (hsecond.isEnabled hpos) hagain
          have hfilled : (bytes : ℚ) ≤ (next.bucket.refill (clock 1)).tokens := by
            apply le_tokens_refill
            · rw [hsecond.refillRate]
              exact Nat.cast_pos.mpr hpos
            · rw [hsecond.capacity]
              exact Nat.cast_le.mpr hfits
            · rw [hnext]
              rw [hduration] at hsleep
              exact hsleep
          exact absurd hfilled (not_le.mpr hmissing)

/-- A request beyond the capacity sleeps in every pass. -/
theorem waiting_of_large (hpos : 0 < rate) (hconfigured : Configured rate limiter)
    (hlarge : rate * 2 % 2 ^ 64 < bytes) (clock : Nat → ℚ) (passes : Nat) :
    ∃ current, waiting limiter bytes clock passes = some current ∧ Configured rate current := by
  induction passes with
  | zero => exact ⟨limiter, rfl, hconfigured⟩
  | succ passes ih =>
      obtain ⟨current, hwaiting, hcurrent⟩ := ih
      have hnext := hcurrent.pass bytes (clock passes)
      match hpass : current.pass bytes (clock passes) with
      | (next, none) =>
          have hheld := le_tokens_of_leave (hcurrent.isEnabled hpos) hpass
          have hcapacity : (bytes : ℚ) ≤ (rate * 2 % 2 ^ 64 : ℕ) := by
            rw [← hcurrent.capacity]
            exact hheld.trans tokens_refill_le
          exact absurd (Nat.cast_le.mp hcapacity) (Nat.not_le.mpr hlarge)
      | (next, some duration) =>
          rw [hpass] at hnext
          exact ⟨next, waiting_succ_of_sleep hwaiting hpass, hnext⟩

/-- A request is let through, from any bucket and with any clock, exactly when it fits the
capacity of two seconds. -/
theorem let_through_iff (hpos : 0 < rate) (hreached : Reached rate limiter)
    (hhonest : Honest limiter bytes clock) :
    (∃ passes, waiting limiter bytes clock passes = none) ↔ bytes ≤ rate * 2 % 2 ^ 64 := by
  constructor
  · rintro ⟨passes, hleft⟩
    by_contra hlarge
    obtain ⟨current, hwaiting, _⟩ :=
      waiting_of_large hpos hreached.configured (Nat.not_le.mp hlarge) clock passes
    rw [hleft] at hwaiting
    cases hwaiting
  · intro hfits
    exact ⟨2, waiting_two_of_fits hpos hreached.configured hhonest hfits⟩

/-- One byte per second, and the whole burst has just been taken. -/
def emptied : BandwidthLimiter := ((BandwidthLimiter.wrapping 1 0).pass 2 0).1

theorem waiting_of_left {passes : Nat} (hleft : waiting limiter bytes clock passes = none)
    (later : Nat) : waiting limiter bytes clock (passes + later) = none := by
  induction later with
  | zero => exact hleft
  | succ later ih => rw [← Nat.add_assoc, waiting, ih, Option.bind_none]

theorem honest_emptied : Honest emptied 1 (fun passes => passes) := by
  have hfirst : emptied.pass 1 0 = (⟨1, ⟨0, 2, 1, 0⟩⟩, some 1) := by decide +kernel
  have hsecond : (BandwidthLimiter.mk 1 ⟨0, 2, 1, 0⟩).pass 1 1 = (⟨1, ⟨0, 2, 1, 1⟩⟩, none) := by
    decide +kernel
  have hwaiting : waiting emptied 1 (fun passes => passes) 1 = some ⟨1, ⟨0, 2, 1, 0⟩⟩ :=
    waiting_succ_of_sleep rfl hfirst
  have hleft : waiting emptied 1 (fun passes => passes) 2 = none :=
    waiting_succ_of_leave hwaiting hsecond
  constructor
  · have hlast : emptied.bucket.lastRefill = 0 := by decide +kernel
    rw [hlast]
    exact le_refl 0
  · intro passes current hcurrent next duration hpass
    match passes with
    | 0 =>
        cases hcurrent
        obtain ⟨_, hduration⟩ := Prod.mk.inj (hfirst.symm.trans hpass)
        cases hduration
        rw [Nat.cast_add]
        exact le_refl _
    | 1 =>
        rw [hwaiting] at hcurrent
        cases hcurrent
        obtain ⟨_, hduration⟩ := Prod.mk.inj (hsecond.symm.trans hpass)
        cases hduration
    | later + 2 =>
        rw [Nat.add_comm, waiting_of_left hleft later] at hcurrent
        cases hcurrent

theorem let_through_iff_emptied :
    (∃ passes, waiting emptied 1 (fun passes => passes) passes = none) ↔ 1 ≤ 1 * 2 % 2 ^ 64 :=
  let_through_iff Nat.one_pos (.passed 2 (.made 0) (le_refl 0)) honest_emptied

/-- Three bytes never fit the bucket of one byte per second: every pass finds two of them. -/
theorem waiting_three (passes : Nat) :
    ∃ now : ℚ, now ≤ passes ∧
      waiting (.wrapping 1 0) 3 (fun passes => passes) passes = some ⟨1, ⟨2, 2, 1, now⟩⟩ := by
  induction passes with
  | zero => exact ⟨0, le_refl 0, rfl⟩
  | succ passes ih =>
      obtain ⟨now, hnow, hwaiting⟩ := ih
      have hfull : (TokenBucket.mk 2 2 1 now).refill passes = ⟨2, 2, 1, (passes : ℚ)⟩ := by
        have hflow : (2 : ℚ) ≤ 2 + (passes - now) * 1 := by linarith
        rw [TokenBucket.refill, min_eq_right hflow]
      have hshort : (TokenBucket.mk 2 2 1 (passes : ℚ)).take (3 : ℕ) = none := by
        apply take_eq_none.mpr
        norm_num
      refine ⟨passes, ?_, ?_⟩
      · rw [Nat.cast_add]
        exact le_add_of_nonneg_right zero_le_one
      · apply waiting_succ_of_sleep hwaiting
        rw [pass_of_isEnabled rfl]
        dsimp only
        rw [hfull, hshort]

theorem honest_three : Honest (.wrapping 1 0) 3 (fun passes => passes) := by
  constructor
  · exact le_refl 0
  · intro passes current hcurrent next duration hpass
    obtain ⟨now, hnow, hwaiting⟩ := waiting_three passes
    rw [hcurrent] at hwaiting
    cases hwaiting
    obtain ⟨_, hduration, _⟩ := pass_eq_sleep rfl hpass
    have hfull : ((TokenBucket.mk 2 2 1 now).refill passes).tokens = 2 := by
      apply min_eq_right
      linarith
    rw [hduration, hfull, Nat.cast_add]
    norm_num

/-- The request that is never let through. -/
theorem never_let_through :
    ¬ ∀ (rate bytes : Nat) (limiter : BandwidthLimiter) (clock : Nat → ℚ), 0 < rate →
      Reached rate limiter → Honest limiter bytes clock →
        ∃ passes, waiting limiter bytes clock passes = none := by
  intro hclaim
  obtain ⟨passes, hleft⟩ :=
    hclaim 1 3 (.wrapping 1 0) (fun passes => passes) Nat.one_pos (.made 0) honest_three
  obtain ⟨now, _, hwaiting⟩ := waiting_three passes
  rw [hleft] at hwaiting
  cases hwaiting

end P2PFileTransfer.Transfer.Throttling
