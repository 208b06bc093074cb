import Mathlib.Algebra.Order.Field.Basic
import Mathlib.Tactic.Ring

/-!
# Token buckets

A bucket fills at a fixed rate up to its capacity.  Whoever wants an amount takes it out,
or is refused.  What has been taken since the bucket was full is bounded by the capacity
and by what has flowed in.
-/

namespace P2PFileTransfer.Foundation.Buckets

variable {K : Type} [Field K] [LinearOrder K]

structure TokenBucket (K : Type) where
  tokens : K
  capacity : K
  refillRate : K
  lastRefill : K
  deriving DecidableEq, Repr

def TokenBucket.full (capacity refillRate now : K) : TokenBucket K where
  tokens := capacity
  capacity := capacity
  refillRate := refillRate
  lastRefill := now

def TokenBucket.refill (bucket : TokenBucket K) (now : K) : TokenBucket K :=
  { bucket with
    tokens := min (bucket.tokens + (now - bucket.lastRefill) * bucket.refillRate) bucket.capacity
    lastRefill := now }

def TokenBucket.take (bucket : TokenBucket K) (amount : K) : Option (TokenBucket K) :=
  if amount ≤ bucket.tokens then some { bucket with tokens := bucket.tokens - amount } else none

/-- A bucket that was full at `opened`, and out of which `taken` has been taken. -/
structure Drawn (bucket : TokenBucket K) (opened taken : K) : Prop where
  nonneg : 0 ≤ bucket.tokens
  tokens_le : bucket.tokens ≤ bucket.capacity
  balance : taken + bucket.tokens ≤
    bucket.capacity + bucket.refillRate * (bucket.lastRefill - opened)

variable {bucket next : TokenBucket K} {opened taken amount now capacity refillRate : K}

theorem drawn_full (hcapacity : 0 ≤ capacity) :
    Drawn (TokenBucket.full capacity refillRate now) now 0 := by
  refine ⟨hcapacity, le_refl capacity, ?_⟩
  change 0 + capacity ≤ capacity + refillRate * (now - now)
  rw [sub_self, mul_zero, zero_add, add_zero]

theorem take_eq_some (htake : bucket.take amount = some next) :
    amount ≤ bucket.tokens ∧ next = { bucket with tokens := bucket.tokens - amount } := by
  obtain ⟨hamount, hnext⟩ := Option.ite_none_right_eq_some.mp htake
  exact ⟨hamount, (Option.some.inj hnext).symm⟩

theorem take_eq_none : bucket.take amount = none ↔ bucket.tokens < amount := by
  constructor
  · intro hnone
    by_contra hle
    rw [TokenBucket.take, if_pos (not_lt.mp hle)] at hnone
    cases hnone
  · intro hlt
    exact if_neg (not_le.mpr hlt)

theorem tokens_refill_le : (bucket.refill now).tokens ≤ bucket.capacity := min_le_right _ _

variable [IsStrictOrderedRing K]

/-- Whoever is refused an amount that fits the bucket can have it after the wait for what
was missing. -/
theorem le_tokens_refill (hrate : 0 < bucket.refillRate) (hfits : amount ≤ bucket.capacity)
    (hwait : bucket.lastRefill + (amount - bucket.tokens) / bucket.refillRate ≤ now) :
    amount ≤ (bucket.refill now).tokens := by
  apply le_min
  · have hmissing : amount - bucket.tokens ≤ (now - bucket.lastRefill) * bucket.refillRate := by
      rw [← div_le_iff₀ hrate]
      exact le_sub_iff_add_le'.mpr hwait
    exact sub_le_iff_le_add'.mp hmissing
  · exact hfits

theorem Drawn.refill (hdrawn : Drawn bucket opened taken) (hrate : 0 ≤ bucket.refillRate)
    (hnow : bucket.lastRefill ≤ now) : Drawn (bucket.refill now) opened taken := by
  have hflow : 0 ≤ (now - bucket.lastRefill) * bucket.refillRate :=
    mul_nonneg (sub_nonneg.mpr hnow) hrate
  refine ⟨?_, min_le_right _ _, ?_⟩
  · exact le_min (add_nonneg hdrawn.nonneg hflow) (le_trans hdrawn.nonneg hdrawn.tokens_le)
  · have hbalance := hdrawn.balance
    have hless : (bucket.refill now).tokens ≤
        bucket.tokens + (now - bucket.lastRefill) * bucket.refillRate := min_le_left _ _
    calc
      taken + (bucket.refill now).tokens ≤
          taken + (bucket.tokens + (now - bucket.lastRefill) * bucket.refillRate) :=
        add_le_add (le_refl taken) hless
      _ ≤ bucket.capacity + bucket.refillRate * (bucket.lastRefill - opened) +
          (now - bucket.lastRefill) * bucket.refillRate := by
        rw [← add_assoc]
        exact add_le_add hbalance (le_refl _)
      _ = bucket.capacity + bucket.refillRate * (now - opened) := by ring

theorem Drawn.take (hdrawn : Drawn bucket opened taken) (hamount : 0 ≤ amount)
    (htake : bucket.take amount = some next) : Drawn next opened (taken + amount) := by
  obtain ⟨hle, rfl⟩ := take_eq_some htake
  refine ⟨sub_nonneg.mpr hle, ?_, ?_⟩
  · exact le_trans (sub_le_self _ hamount) hdrawn.tokens_le
  · have hbalance := hdrawn.balance
    calc
      taken + amount + (bucket.tokens - amount) = taken + bucket.tokens := by ring
      _ ≤ bucket.capacity + bucket.refillRate * (bucket.lastRefill - opened) := hbalance

/-- What has been taken by the last refill. -/
theorem Drawn.taken_le (hdrawn : Drawn bucket opened taken) :
    taken ≤ bucket.capacity + bucket.refillRate * (bucket.lastRefill - opened) :=
  le_trans (le_add_of_nonneg_right hdrawn.nonneg) hdrawn.balance

/-- Waiting for what is missing is enough for any amount that fits the bucket. -/
theorem tokens_refill_of_wait (hrate : 0 < bucket.refillRate)
    (htokens : bucket.tokens ≤ bucket.capacity) (hamount : amount ≤ bucket.capacity) :
    (bucket.refill (bucket.lastRefill +
      max 0 (amount - bucket.tokens) / bucket.refillRate)).tokens = max amount bucket.tokens := by
  have hflow : (bucket.lastRefill + max 0 (amount - bucket.tokens) / bucket.refillRate -
      bucket.lastRefill) * bucket.refillRate = max 0 (amount - bucket.tokens) := by
    rw [add_sub_cancel_left, div_mul_cancel₀ _ hrate.ne']
  change min (bucket.tokens + (bucket.lastRefill + max 0 (amount - bucket.tokens) /
    bucket.refillRate - bucket.lastRefill) * bucket.refillRate) bucket.capacity = _
  rw [hflow, add_comm, ← max_add_add_right, zero_add, sub_add_cancel, max_comm]
  exact min_eq_left (max_le hamount htokens)

/-! ## Any stretch of time -/

/-- What has been taken after one instant and up to another, out of a log of times and
amounts. -/
def takenBetween (log : List (K × K)) (first last : K) : K :=
  ((log.filter fun entry => decide (first < entry.1 ∧ entry.1 ≤ last)).map Prod.snd).sum

/-- A bucket with the log of what was taken out of it: no stretch of time has seen more than
the capacity and what can flow in meanwhile. -/
structure Metered (bucket : TokenBucket K) (log : List (K × K)) : Prop where
  nonneg : 0 ≤ bucket.tokens
  tokens_le : bucket.tokens ≤ bucket.capacity
  past : ∀ entry ∈ log, entry.1 ≤ bucket.lastRefill
  balance : ∀ first, takenBetween log first bucket.lastRefill + bucket.tokens ≤
    bucket.capacity + bucket.refillRate * max 0 (bucket.lastRefill - first)
  windows : ∀ first last, first ≤ last → takenBetween log first last ≤
    bucket.capacity + bucket.refillRate * (last - first)

variable {log : List (K × K)} {first last later : K}

omit [IsStrictOrderedRing K] in
theorem takenBetween_cons (entry : K × K) (log : List (K × K)) (first last : K) :
    takenBetween (entry :: log) first last =
      (if first < entry.1 ∧ entry.1 ≤ last then entry.2 else 0) + takenBetween log first last := by
  unfold takenBetween
  by_cases hwithin : first < entry.1 ∧ entry.1 ≤ last
  · rw [List.filter_cons_of_pos (by simpa using hwithin), List.map_cons, List.sum_cons,
      if_pos hwithin]
  · rw [List.filter_cons_of_neg (by simpa using hwithin), if_neg hwithin, zero_add]

omit [IsStrictOrderedRing K] in
theorem takenBetween_congr {other : K}
    (hsame : ∀ entry ∈ log, first < entry.1 → (entry.1 ≤ last ↔ entry.1 ≤ other)) :
    takenBetween log first last = takenBetween log first other := by
  unfold takenBetween
  congr 2
  apply List.filter_congr
  intro entry hentry
  exact decide_eq_decide.mpr (and_congr_right (hsame entry hentry))

omit [IsStrictOrderedRing K] in
/-- Nothing is taken after the last entry. -/
theorem takenBetween_of_past (hpast : ∀ entry ∈ log, entry.1 ≤ last) (hle : last ≤ later) :
    takenBetween log first later = takenBetween log first last :=
  takenBetween_congr fun entry hentry _ =>
    ⟨fun _ => hpast entry hentry, fun hearly => le_trans hearly hle⟩

omit [IsStrictOrderedRing K] in
theorem takenBetween_eq_zero (hpast : ∀ entry ∈ log, entry.1 ≤ first) :
    takenBetween log first last = 0 := by
  induction log with
  | nil => rfl
  | cons entry rest ih =>
      have hearly : ¬ (first < entry.1 ∧ entry.1 ≤ last) := fun hwithin =>
        absurd hwithin.1 (not_lt.mpr (hpast entry List.mem_cons_self))
      rw [takenBetween_cons, if_neg hearly, zero_add]
      exact ih fun other hother => hpast other (List.mem_cons_of_mem entry hother)

/-- A shorter log accounts for less. -/
theorem takenBetween_le_of_sublist {shorter : List (K × K)} (hsub : List.Sublist shorter log)
    (hnonneg : ∀ entry ∈ log, 0 ≤ entry.2) (first last : K) :
    takenBetween shorter first last ≤ takenBetween log first last := by
  induction hsub with
  | slnil => exact le_refl _
  | cons entry _ ih =>
      have hrest := ih fun other hother => hnonneg other (List.mem_cons_of_mem entry hother)
      rw [takenBetween_cons]
      split
      · exact le_trans hrest (le_add_of_nonneg_left (hnonneg entry List.mem_cons_self))
      · rw [zero_add]
        exact hrest
  | cons_cons entry _ ih =>
      have hrest := ih fun other hother => hnonneg other (List.mem_cons_of_mem entry hother)
      rw [takenBetween_cons, takenBetween_cons]
      exact add_le_add (le_refl _) hrest

theorem metered_full (hcapacity : 0 ≤ capacity) (hrate : 0 ≤ refillRate) :
    Metered (TokenBucket.full capacity refillRate now) [] := by
  constructor
  · exact hcapacity
  · exact le_refl capacity
  · intro entry hentry
    cases hentry
  · intro first
    change 0 + capacity ≤ capacity + refillRate * max 0 (now - first)
    rw [zero_add]
    exact le_add_of_nonneg_right (mul_nonneg hrate (le_max_left _ _))
  · intro first last hle
    exact add_nonneg hcapacity (mul_nonneg hrate (sub_nonneg.mpr hle))

theorem Metered.refill (hmetered : Metered bucket log) (hrate : 0 ≤ bucket.refillRate)
    (hnow : bucket.lastRefill ≤ now) : Metered (bucket.refill now) log := by
  have hflow : 0 ≤ (now - bucket.lastRefill) * bucket.refillRate :=
    mul_nonneg (sub_nonneg.mpr hnow) hrate
  have hless : (bucket.refill now).tokens ≤
      bucket.tokens + (now - bucket.lastRefill) * bucket.refillRate := min_le_left _ _
  constructor
  · exact le_min (add_nonneg hmetered.nonneg hflow)
      (le_trans hmetered.nonneg hmetered.tokens_le)
  · exact min_le_right _ _
  · exact fun entry hentry => le_trans (hmetered.past entry hentry) hnow
  · intro first
    have hsame : takenBetween log first now = takenBetween log first bucket.lastRefill :=
      takenBetween_of_past hmetered.past hnow
    change takenBetween log first now + (bucket.refill now).tokens ≤
      bucket.capacity + bucket.refillRate * max 0 (now - first)
    rw [hsame]
    rcases le_total first bucket.lastRefill with hearly | hlate
    · have hbalance := hmetered.balance first
      rw [max_eq_right (sub_nonneg.mpr hearly)] at hbalance
      rw [max_eq_right (sub_nonneg.mpr (le_trans hearly hnow))]
      calc
        takenBetween log first bucket.lastRefill + (bucket.refill now).tokens ≤
            takenBetween log first bucket.lastRefill + (bucket.tokens +
              (now - bucket.lastRefill) * bucket.refillRate) := add_le_add (le_refl _) hless
        _ ≤ bucket.capacity + bucket.refillRate * (bucket.lastRefill - first) +
            (now - bucket.lastRefill) * bucket.refillRate := by
          rw [← add_assoc]
          exact add_le_add hbalance (le_refl _)
        _ = bucket.capacity + bucket.refillRate * (now - first) := by ring
    · -- nothing has been taken since, and the bucket is at most full
      have hnone : takenBetween log first bucket.lastRefill = 0 :=
        takenBetween_eq_zero fun entry hentry => le_trans (hmetered.past entry hentry) hlate
      rw [hnone, zero_add]
      exact le_trans (min_le_right _ _)
        (le_add_of_nonneg_right (mul_nonneg hrate (le_max_left _ _)))
  · exact hmetered.windows

theorem Metered.take (hmetered : Metered bucket log) (hrate : 0 ≤ bucket.refillRate)
    (hamount : 0 ≤ amount) (htake : bucket.take amount = some next) :
    Metered next ((bucket.lastRefill, amount) :: log) := by
  obtain ⟨hle, rfl⟩ := take_eq_some htake
  have hbalance : ∀ first, takenBetween ((bucket.lastRefill, amount) :: log) first
      bucket.lastRefill + (bucket.tokens - amount) ≤
        bucket.capacity + bucket.refillRate * max 0 (bucket.lastRefill - first) := by
    intro first
    have hbefore := hmetered.balance first
    rw [takenBetween_cons]
    split
    · calc
        amount + takenBetween log first bucket.lastRefill + (bucket.tokens - amount) =
            takenBetween log first bucket.lastRefill + bucket.tokens := by ring
        _ ≤ _ := hbefore
    · rw [zero_add]
      exact le_trans (add_le_add (le_refl _) (sub_le_self _ hamount)) hbefore
  constructor
  · exact sub_nonneg.mpr hle
  · exact le_trans (sub_le_self _ hamount) hmetered.tokens_le
  · intro entry hentry
    rcases List.mem_cons.mp hentry with rfl | hold
    · exact le_refl _
    · exact hmetered.past entry hold
  · exact hbalance
  · intro first last hwindow
    by_cases hwithin : first < bucket.lastRefill ∧ bucket.lastRefill ≤ last
    · obtain ⟨hafter, hbefore⟩ := hwithin
      have hsame : takenBetween ((bucket.lastRefill, amount) :: log) first last =
          takenBetween ((bucket.lastRefill, amount) :: log) first bucket.lastRefill := by
        apply takenBetween_of_past _ hbefore
        intro entry hentry
        rcases List.mem_cons.mp hentry with rfl | hold
        · exact le_refl _
        · exact hmetered.past entry hold
      have hnow := hbalance first
      rw [max_eq_right (sub_nonneg.mpr (le_of_lt hafter))] at hnow
      rw [hsame]
      calc
        takenBetween ((bucket.lastRefill, amount) :: log) first bucket.lastRefill ≤
            takenBetween ((bucket.lastRefill, amount) :: log) first bucket.lastRefill +
              (bucket.tokens - amount) := le_add_of_nonneg_right (sub_nonneg.mpr hle)
        _ ≤ bucket.capacity + bucket.refillRate * (bucket.lastRefill - first) := hnow
        _ ≤ bucket.capacity + bucket.refillRate * (last - first) :=
          add_le_add (le_refl _)
            (mul_le_mul_of_nonneg_left (sub_le_sub_right hbefore first) hrate)
    · rw [takenBetween_cons, if_neg hwithin, zero_add]
      exact hmetered.windows first last hwindow

end P2PFileTransfer.Foundation.Buckets
