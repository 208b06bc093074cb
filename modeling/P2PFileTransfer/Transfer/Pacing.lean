import Mathlib.Tactic.Linarith
import P2PFileTransfer.Core.Bandwidth

/-!
# What the bandwidth limit bounds

Every file starts with a full bucket, so a transfer may burst once for each of its files.
A bound of one burst for the whole call holds in every schedule exactly when the bursts of
all files together are no more than one.
-/

namespace P2PFileTransfer.Transfer.Pacing

open P2PFileTransfer.Foundation.Buckets
open P2PFileTransfer.Foundation.FileSystem
open P2PFileTransfer.Foundation.FixedWidth
open P2PFileTransfer.Foundation.Run (run_append_of_run run_cons_of_step)
open P2PFileTransfer.Core.Protocol
open P2PFileTransfer.Core.TransferFolder
open P2PFileTransfer.Core.FolderSender (Session metadataOf)
open P2PFileTransfer.Core.Bandwidth

/-- The payloads before the first one that no bucket can hold. -/
def letThrough (capacity : Nat) (chunks : List Nat) : List Nat :=
  chunks.takeWhile fun bytes => decide (bytes ≤ capacity)

/-- What a file can be ahead of the rate. -/
def burst (capacity : Nat) (chunks : List Nat) : Nat := min (letThrough capacity chunks).sum capacity

/-- A file with a payload that is too large is never left. -/
def burstsOf (capacity : Nat) : List (List Nat) → Nat
  | [] => 0
  | file :: rest =>
      burst capacity file + if letThrough capacity file = file then burstsOf capacity rest else 0

section Bursts

variable {capacity : Nat} {past rest file : List Nat} {files : List (List Nat)}

theorem letThrough_append (hpast : ∀ bytes ∈ past, bytes ≤ capacity) :
    letThrough capacity (past ++ rest) = past ++ letThrough capacity rest :=
  List.takeWhile_append_of_pos fun bytes hmem => decide_eq_true (hpast bytes hmem)

theorem letThrough_eq_self (hpast : ∀ bytes ∈ past, bytes ≤ capacity) :
    letThrough capacity past = past := by
  have happend : letThrough capacity (past ++ []) = past ++ letThrough capacity [] :=
    letThrough_append hpast
  rw [List.append_nil] at happend
  exact happend.trans (List.append_nil past)

theorem min_sum_le_burst (hpast : ∀ bytes ∈ past, bytes ≤ capacity) :
    min past.sum capacity ≤ burst capacity (past ++ rest) := by
  rw [burst, letThrough_append hpast, List.sum_append]
  exact min_le_min (Nat.le_add_right _ _) (le_refl _)

theorem burst_le_burstsOf : burst capacity file ≤ burstsOf capacity (file :: files) :=
  Nat.le_add_right _ _

/-- A file that is let through to its end. -/
theorem burstsOf_cons (hpast : ∀ bytes ∈ past, bytes ≤ capacity) :
    burstsOf capacity (past :: files) = min past.sum capacity + burstsOf capacity files := by
  rw [burstsOf, burst, letThrough_eq_self hpast, if_pos rfl]

end Bursts

/-! ## Every schedule keeps within the bursts -/

/-- `before` bytes went out in earlier files; this one was opened at `opened`, and the
chunks `past` have been let through. -/
structure Underway (rate total : Nat) (state : State) (file : FileSession)
    (bucket : TokenBucket ℚ) (opened : ℚ) (before : Nat) (past rest : List Nat) : Prop where
  limiter : file.limiter = some ⟨rate, bucket⟩
  capacity : bucket.capacity = (rate * 2 : ℕ)
  refillRate : bucket.refillRate = rate
  drawn : Drawn bucket opened past.sum
  opened_le : opened ≤ state.clock
  lastRefill_le : bucket.lastRefill ≤ state.clock
  fits : ∀ bytes ∈ past, bytes ≤ rate * 2
  waiting : file.granted = false → file.chunks = rest ∧ state.handed = before + past.sum
  granted : file.granted = true →
    ∃ bytes, file.chunks = bytes :: rest ∧ state.handed + bytes = before + past.sum
  budget : ((before + burstsOf (rate * 2) ((past ++ rest) :: state.files) : ℕ) : ℚ) ≤
    total + rate * opened

/-- What has been handed over, and the bursts still to come, stay within the bursts of the
whole call and the rate. -/
def OnPace (rate total : Nat) (state : State) : Prop :=
  match state.current with
  | none =>
      ((state.handed + burstsOf (rate * 2) state.files : ℕ) : ℚ) ≤ total + rate * state.clock
  | some file => ∃ bucket opened before past rest,
      Underway rate total state file bucket opened before past rest

variable {config : ConfigMessage} {rate total : Nat} {state next : State} {file : FileSession}
  {bucket : TokenBucket ℚ} {opened : ℚ} {before : Nat} {past rest : List Nat}

/-- A file is ahead of the rate by its burst at most. -/
theorem Underway.sum_le (hunderway : Underway rate total state file bucket opened before past rest) :
    (past.sum : ℚ) ≤ (min past.sum (rate * 2) : ℕ) + rate * (state.clock - opened) := by
  have hrate : (0 : ℚ) ≤ rate := Nat.cast_nonneg rate
  have hpassed : (0 : ℚ) ≤ rate * (state.clock - opened) :=
    mul_nonneg hrate (sub_nonneg.mpr hunderway.opened_le)
  rcases Nat.le_total past.sum (rate * 2) with hfits | hfull
  · rw [Nat.min_eq_left hfits]
    exact le_add_of_nonneg_right hpassed
  · rw [Nat.min_eq_right hfull]
    have htaken := hunderway.drawn.taken_le
    rw [hunderway.capacity, hunderway.refillRate] at htaken
    have hrefilled : (rate : ℚ) * (bucket.lastRefill - opened) ≤ rate * (state.clock - opened) :=
      mul_le_mul_of_nonneg_left (sub_le_sub_right hunderway.lastRefill_le opened) hrate
    linarith

theorem Underway.handed_le (hunderway : Underway rate total state file bucket opened before past rest) :
    state.handed ≤ before + past.sum := by
  cases hgranted : file.granted with
  | false => exact le_of_eq (hunderway.waiting hgranted).2
  | true =>
      obtain ⟨bytes, _, hhanded⟩ := hunderway.granted hgranted
      exact Nat.le.intro hhanded

/-- One burst for the whole call is enough as long as the bursts of its files are. -/
theorem OnPace.handed_le (hpace : OnPace rate total state) (htotal : total ≤ rate * 2) :
    (state.handed : ℚ) ≤ 2 * rate + rate * state.clock := by
  have hcap : (total : ℚ) ≤ 2 * rate := by
    have hcast : (total : ℚ) ≤ (rate * 2 : ℕ) := Nat.cast_le.mpr htotal
    push_cast at hcast
    linarith
  unfold OnPace at hpace
  split at hpace
  · push_cast at hpace
    have hleft : (0 : ℚ) ≤ (burstsOf (rate * 2) state.files : ℕ) := Nat.cast_nonneg _
    linarith
  · obtain ⟨bucket, opened, before, past, rest, hunderway⟩ := hpace
    have hsum := hunderway.sum_le
    have hbudget := hunderway.budget
    have hburst : min past.sum (rate * 2) ≤ burstsOf (rate * 2) ((past ++ rest) :: state.files) :=
      le_trans (min_sum_le_burst hunderway.fits) burst_le_burstsOf
    have hburstCast : ((min past.sum (rate * 2) : ℕ) : ℚ) ≤
        (burstsOf (rate * 2) ((past ++ rest) :: state.files) : ℕ) := Nat.cast_le.mpr hburst
    have hhanded : (state.handed : ℚ) ≤ (before + past.sum : ℕ) :=
      Nat.cast_le.mpr hunderway.handed_le
    rw [Nat.cast_add] at hbudget hhanded
    linarith

theorem onPace_start (rate : Nat) (files : List (List Nat)) :
    OnPace rate (burstsOf (rate * 2) files) (start files) := by
  change ((0 + burstsOf (rate * 2) files : ℕ) : ℚ) ≤
    (burstsOf (rate * 2) files : ℕ) + rate * (0 : ℚ)
  rw [Nat.zero_add, mul_zero, add_zero]

theorem fileLimiter_eq (hrate : config.bandwidthLimit.toNat = rate) (hpos : 0 < rate)
    (hfits : rate * 2 < 2 ^ 64) (now : ℚ) :
    fileLimiter config now = .ok (some ⟨rate, .full (rate * 2 : ℕ) rate now⟩) := by
  rw [fileLimiter, hrate, if_pos hpos, BandwidthLimiter.new, if_pos hpos, mul_eq_ok hfits]
  rfl

theorem fileLimiter_error (hrate : config.bandwidthLimit.toNat = rate) (hpos : 0 < rate)
    (hfits : ¬ rate * 2 < 2 ^ 64) (now : ℚ) : fileLimiter config now = .error .overflow := by
  rw [fileLimiter, hrate, if_pos hpos, BandwidthLimiter.new, if_pos hpos, mul, fit, if_neg hfits]
  rfl

/-- Opening a file fills its bucket. -/
theorem onPace_openFile (hrate : config.bandwidthLimit.toNat = rate) (hpos : 0 < rate)
    {limiter : Option BandwidthLimiter} (hlimiter : fileLimiter config state.clock = .ok limiter)
    {chunks : List Nat} {files : List (List Nat)} (hfiles : state.files = chunks :: files)
    (hpace : ((state.handed + burstsOf (rate * 2) state.files : ℕ) : ℚ) ≤
      total + rate * state.clock) :
    OnPace rate total
      { state with current := some ⟨limiter, state.clock, false, chunks⟩, files := files } := by
  have hfits : rate * 2 < 2 ^ 64 := by
    by_contra hlarge
    rw [fileLimiter_error hrate hpos hlarge] at hlimiter
    cases hlimiter
  rw [fileLimiter_eq hrate hpos hfits] at hlimiter
  cases hlimiter
  refine ⟨_, state.clock, state.handed, [], chunks, rfl, rfl, rfl, ?_, le_refl _, le_refl _, ?_,
    fun _ => ⟨rfl, rfl⟩, nofun, ?_⟩
  · rw [List.sum_nil, Nat.cast_zero]
    exact drawn_full (Nat.cast_nonneg _)
  · exact fun _ hmem => absurd hmem List.not_mem_nil
  · rw [hfiles] at hpace
    exact hpace

/-- A pass of the loop takes the tokens, or only refills the bucket. -/
theorem pass_cases (hpos : 0 < rate) (hlimiter : file.limiter = some ⟨rate, bucket⟩) (bytes : Nat)
    (now : ℚ) :
    (∃ left, (bucket.refill now).take bytes = some left ∧
      file.pass bytes now = { file with limiter := some ⟨rate, left⟩, granted := true }) ∨
      ∃ wakeAt, file.pass bytes now =
        { file with limiter := some ⟨rate, bucket.refill now⟩, wakeAt := wakeAt } := by
  have henabled : (BandwidthLimiter.mk rate bucket).isEnabled = true := decide_eq_true hpos
  cases htake : (bucket.refill now).take bytes with
  | some left =>
      left
      refine ⟨left, rfl, ?_⟩
      simp only [FileSession.pass, hlimiter, BandwidthLimiter.pass, henabled, if_true, htake]
  | none =>
      right
      refine ⟨now + (bytes - (bucket.refill now).tokens) / (bucket.refill now).refillRate, ?_⟩
      simp only [FileSession.pass, hlimiter, BandwidthLimiter.pass, henabled, if_true, htake]

theorem Underway.pass (hpos : 0 < rate) {bytes : Nat} {chunks : List Nat}
    (hunderway : Underway rate total state file bucket opened before past rest)
    (hgranted : file.granted = false) (hchunks : file.chunks = bytes :: chunks) :
    OnPace rate total { state with current := some (file.pass bytes state.clock) } := by
  obtain ⟨hrest, hhanded⟩ := hunderway.waiting hgranted
  rw [hchunks] at hrest
  subst hrest
  have hrate : (0 : ℚ) ≤ bucket.refillRate := by
    rw [hunderway.refillRate]
    exact Nat.cast_nonneg rate
  have hfilled := hunderway.drawn.refill hrate hunderway.lastRefill_le
  rcases pass_cases hpos hunderway.limiter bytes state.clock with
    ⟨left, htake, hpass⟩ | ⟨wakeAt, hpass⟩
  · have hdrawn := hfilled.take (Nat.cast_nonneg bytes) htake
    obtain ⟨hle, hleft⟩ := take_eq_some htake
    have hbytes : bytes ≤ rate * 2 := by
      have hcap := le_trans hle hfilled.tokens_le
      change (bytes : ℚ) ≤ bucket.capacity at hcap
      rw [hunderway.capacity] at hcap
      exact Nat.cast_le.mp hcap
    have hsum : (past ++ [bytes]).sum = past.sum + bytes := by
      rw [List.sum_append, List.sum_singleton]
    refine ⟨left, opened, before, past ++ [bytes], chunks, ?_⟩
    rw [hpass]
    refine ⟨rfl, ?_, ?_, ?_, hunderway.opened_le, ?_, ?_, nofun, ?_, ?_⟩
    · rw [hleft]
      exact hunderway.capacity
    · rw [hleft]
      exact hunderway.refillRate
    · rw [hsum, Nat.cast_add]
      exact hdrawn
    · rw [hleft]
      exact le_refl _
    · intro other hmem
      rcases List.mem_append.mp hmem with hold | hnew
      · exact hunderway.fits other hold
      · rw [List.mem_singleton.mp hnew]
        exact hbytes
    · intro _
      refine ⟨bytes, hchunks, ?_⟩
      change state.handed + bytes = _
      rw [hsum, hhanded, Nat.add_assoc]
    · rw [List.append_assoc]
      exact hunderway.budget
  · refine ⟨bucket.refill state.clock, opened, before, past, bytes :: chunks, ?_⟩
    rw [hpass]
    refine ⟨rfl, hunderway.capacity, hunderway.refillRate, hfilled, hunderway.opened_le, le_refl _,
      hunderway.fits, fun _ => ⟨hchunks, hhanded⟩, ?_, hunderway.budget⟩
    intro hnow
    rw [hgranted] at hnow
    cases hnow

theorem Underway.hand {bytes : Nat} {chunks : List Nat}
    (hunderway : Underway rate total state file bucket opened before past rest)
    (hgranted : file.granted = true) (hchunks : file.chunks = bytes :: chunks) :
    OnPace rate total { state with
      current := some { file with granted := false, chunks := chunks }
      handed := state.handed + bytes } := by
  obtain ⟨found, hfound, hhanded⟩ := hunderway.granted hgranted
  rw [hchunks] at hfound
  cases hfound
  exact ⟨bucket, opened, before, past, rest, hunderway.limiter, hunderway.capacity,
    hunderway.refillRate, hunderway.drawn, hunderway.opened_le, hunderway.lastRefill_le,
    hunderway.fits, fun _ => ⟨rfl, hhanded⟩, nofun, hunderway.budget⟩

/-- A file that is left has used up its burst at most. -/
theorem Underway.closeFile (hunderway : Underway rate total state file bucket opened before past rest)
    (hchunks : file.chunks = []) : OnPace rate total { state with current := none } := by
  have hgranted : file.granted = false := by
    cases hflag : file.granted with
    | false => rfl
    | true =>
        obtain ⟨bytes, hother, _⟩ := hunderway.granted hflag
        rw [hchunks] at hother
        cases hother
  obtain ⟨hrest, hhanded⟩ := hunderway.waiting hgranted
  rw [hchunks] at hrest
  subst hrest
  have hsum := hunderway.sum_le
  have hbudget := hunderway.budget
  rw [List.append_nil, burstsOf_cons hunderway.fits] at hbudget
  change ((state.handed + burstsOf (rate * 2) state.files : ℕ) : ℚ) ≤ total + rate * state.clock
  rw [hhanded]
  rw [Nat.cast_add, Nat.cast_add] at hbudget ⊢
  linarith

theorem onPace_elapse {duration : ℚ} (hduration : 0 ≤ duration) (hpace : OnPace rate total state) :
    OnPace rate total { state with clock := state.clock + duration } := by
  have hlater : state.clock ≤ state.clock + duration := le_add_of_nonneg_right hduration
  unfold OnPace at hpace ⊢
  dsimp only
  split at hpace
  · have hrate : (rate : ℚ) * state.clock ≤ rate * (state.clock + duration) :=
      mul_le_mul_of_nonneg_left hlater (Nat.cast_nonneg rate)
    exact le_trans hpace (add_le_add (le_refl _) hrate)
  · obtain ⟨bucket, opened, before, past, rest, hunderway⟩ := hpace
    exact ⟨bucket, opened, before, past, rest, hunderway.limiter, hunderway.capacity,
      hunderway.refillRate, hunderway.drawn, le_trans hunderway.opened_le hlater,
      le_trans hunderway.lastRefill_le hlater, hunderway.fits, hunderway.waiting,
      hunderway.granted, hunderway.budget⟩

theorem onPace_step (hrate : config.bandwidthLimit.toNat = rate) (hpos : 0 < rate) {event : Event}
    (hpace : OnPace rate total state) (hstep : step config state event = some next) :
    OnPace rate total next := by
  unfold step State.advance at hstep
  split at hstep
  · obtain ⟨hduration, hnext⟩ := Option.ite_none_right_eq_some.mp hstep
    cases hnext
    exact onPace_elapse hduration hpace
  · rename_i hcurrent
    rw [OnPace, hcurrent] at hpace
    split at hstep
    · cases hstep
    · rename_i chunks files hfiles
      split at hstep
      · cases hstep
        rw [OnPace]
        dsimp only
        rw [hcurrent]
        exact le_trans (Nat.cast_le.mpr (Nat.add_le_add_left (Nat.zero_le _) _)) hpace
      · rename_i limiter hlimiter
        cases hstep
        exact onPace_openFile hrate hpos hlimiter hfiles hpace
  · rename_i file hcurrent
    rw [OnPace, hcurrent] at hpace
    obtain ⟨bucket, opened, before, past, rest, hunderway⟩ := hpace
    split at hstep
    · rename_i bytes chunks hgranted hchunks
      obtain ⟨_, hnext⟩ := Option.ite_none_right_eq_some.mp hstep
      cases hnext
      exact hunderway.pass hpos hgranted hchunks
    · cases hstep
  · rename_i file hcurrent
    rw [OnPace, hcurrent] at hpace
    obtain ⟨bucket, opened, before, past, rest, hunderway⟩ := hpace
    split at hstep
    · rename_i bytes chunks hgranted hchunks
      cases hstep
      exact hunderway.hand hgranted hchunks
    · cases hstep
  · rename_i file hcurrent
    rw [OnPace, hcurrent] at hpace
    obtain ⟨bucket, opened, before, past, rest, hunderway⟩ := hpace
    split at hstep
    · rename_i hchunks
      cases hstep
      exact hunderway.closeFile hchunks
    · cases hstep
  · cases hstep

/-- A limit whose burst is no `u64` ends the call before its first payload. -/
theorem silent_step (hrate : config.bandwidthLimit.toNat = rate) (hpos : 0 < rate)
    (hlarge : ¬ rate * 2 < 2 ^ 64) {event : Event}
    (hsilent : state.current = none ∧ state.handed = 0) (hstep : step config state event = some next) :
    next.current = none ∧ next.handed = 0 := by
  rw [step, hsilent.1] at hstep
  unfold State.advance at hstep
  split at hstep
  · obtain ⟨_, hnext⟩ := Option.ite_none_right_eq_some.mp hstep
    cases hnext
    exact hsilent
  · split at hstep
    · cases hstep
    · rw [fileLimiter_error hrate hpos hlarge] at hstep
      cases hstep
      exact hsilent
  · rename_i hcurrent
    cases hcurrent
  · rename_i hcurrent
    cases hcurrent
  · rename_i hcurrent
    cases hcurrent
  · cases hstep

theorem clock_nonneg_step {event : Event} (hclock : 0 ≤ state.clock)
    (hstep : step config state event = some next) : 0 ≤ next.clock := by
  unfold step State.advance at hstep
  split at hstep
  · obtain ⟨hduration, hnext⟩ := Option.ite_none_right_eq_some.mp hstep
    cases hnext
    exact add_nonneg hclock hduration
  · split at hstep
    · cases hstep
    · split at hstep <;> cases hstep <;> exact hclock
  · split at hstep
    · obtain ⟨_, hnext⟩ := Option.ite_none_right_eq_some.mp hstep
      cases hnext
      exact hclock
    · cases hstep
  · split at hstep <;> cases hstep
    exact hclock
  · split at hstep <;> cases hstep
    exact hclock
  · cases hstep

/-! ## A schedule that uses every burst -/

def Reaches (config : ConfigMessage) (state final : State) : Prop :=
  ∃ events, run config state events = some final

theorem Reaches.trans {middle final : State} (hfirst : Reaches config state middle)
    (hsecond : Reaches config middle final) : Reaches config state final := by
  obtain ⟨first, hfirst⟩ := hfirst
  obtain ⟨second, hsecond⟩ := hsecond
  exact ⟨first ++ second, (run_append_of_run hfirst second).trans hsecond⟩

theorem Reaches.of_step {event : Event} (hstep : step config state event = some next) :
    Reaches config state next :=
  ⟨[event], run_cons_of_step hstep []⟩

/-- How far a call is ahead of the rate. -/
def lead (rate : Nat) (state : State) : ℚ := state.handed - rate * state.clock

/-- A file that has just refilled its bucket, and may go on with `chunks`. -/
structure Ready (rate : Nat) (state : State) (bucket : TokenBucket ℚ) (wakeAt : ℚ)
    (chunks : List Nat) : Prop where
  current : state.current = some ⟨some ⟨rate, bucket⟩, wakeAt, false, chunks⟩
  capacity : bucket.capacity = (rate * 2 : ℕ)
  refillRate : bucket.refillRate = rate
  nonneg : 0 ≤ bucket.tokens
  tokens_le : bucket.tokens ≤ bucket.capacity
  lastRefill : bucket.lastRefill = state.clock
  wakeAt_le : wakeAt ≤ state.clock

variable {wakeAt : ℚ} {bytes : Nat} {chunks : List Nat}

/-- The next payload goes out as soon as the bucket has filled up to it. -/
theorem Ready.handOne (hready : Ready rate state bucket wakeAt (bytes :: chunks))
    (config : ConfigMessage) (hpos : 0 < rate) (hbytes : bytes ≤ rate * 2) :
    ∃ next left, Reaches config state next ∧ Ready rate next left wakeAt chunks ∧
      next.files = state.files ∧ lead rate next = lead rate state + min (bytes : ℚ) bucket.tokens ∧
      left.tokens = bucket.tokens - min (bytes : ℚ) bucket.tokens := by
  obtain ⟨hcurrent, hcapacity, hrefillRate, hnonneg, htokens, hlast, hwake⟩ := hready
  have hrate : (0 : ℚ) < rate := Nat.cast_pos.mpr hpos
  let duration : ℚ := max 0 ((bytes : ℚ) - bucket.tokens) / rate
  have hduration : 0 ≤ duration := div_nonneg (le_max_left _ _) hrate.le
  have hfilled : (bucket.refill (state.clock + duration)).tokens = max (bytes : ℚ) bucket.tokens := by
    rw [← hlast]
    change (bucket.refill (bucket.lastRefill + max 0 ((bytes : ℚ) - bucket.tokens) / rate)).tokens = _
    rw [← hrefillRate]
    apply tokens_refill_of_wait
    · rw [hrefillRate]
      exact hrate
    · exact htokens
    · rw [hcapacity]
      exact Nat.cast_le.mpr hbytes
  let left : TokenBucket ℚ := { bucket.refill (state.clock + duration) with
    tokens := (bucket.refill (state.clock + duration)).tokens - bytes }
  have htake : (bucket.refill (state.clock + duration)).take (bytes : ℚ) = some left := by
    rw [TokenBucket.take, if_pos]
    rw [hfilled]
    exact le_max_left _ _
  have hleft : left.tokens = bucket.tokens - min (bytes : ℚ) bucket.tokens := by
    have hsum := max_add_min (bytes : ℚ) bucket.tokens
    change (bucket.refill (state.clock + duration)).tokens - bytes = _
    rw [hfilled]
    linarith
  have henabled : (BandwidthLimiter.mk rate bucket).isEnabled = true := decide_eq_true hpos
  have hpass : (FileSession.mk (some ⟨rate, bucket⟩) wakeAt false (bytes :: chunks)).pass bytes
      (state.clock + duration) = ⟨some ⟨rate, left⟩, wakeAt, true, bytes :: chunks⟩ := by
    simp only [FileSession.pass, BandwidthLimiter.pass, henabled, if_true, htake]
  have helapse : step config state (.elapse duration) =
      some { state with clock := state.clock + duration } := by
    simp only [step, hcurrent, State.advance, if_pos hduration]
  have hgrant : step config { state with clock := state.clock + duration } .pass =
      some { state with
        clock := state.clock + duration
        current := some ⟨some ⟨rate, left⟩, wakeAt, true, bytes :: chunks⟩ } := by
    rw [← hpass, step]
    dsimp only
    rw [hcurrent]
    exact if_pos (le_trans hwake (le_add_of_nonneg_right hduration))
  refine ⟨{ state with
    clock := state.clock + duration
    current := some ⟨some ⟨rate, left⟩, wakeAt, false, chunks⟩
    handed := state.handed + bytes }, left, ?_, ?_, rfl, ?_, hleft⟩
  · exact (Reaches.of_step helapse).trans ((Reaches.of_step hgrant).trans ⟨[.hand], rfl⟩)
  · refine ⟨rfl, hcapacity, hrefillRate, ?_, ?_, rfl, ?_⟩
    · rw [hleft]
      exact sub_nonneg.mpr (min_le_right _ _)
    · rw [hleft]
      refine le_trans (sub_le_self _ (le_min (Nat.cast_nonneg bytes) hnonneg)) htokens
    · exact le_trans hwake (le_add_of_nonneg_right hduration)
  · have hwaited : (rate : ℚ) * duration = max 0 ((bytes : ℚ) - bucket.tokens) :=
      mul_div_cancel₀ _ hrate.ne'
    change ((state.handed + bytes : ℕ) : ℚ) - rate * (state.clock + duration) =
      state.handed - rate * state.clock + min (bytes : ℚ) bucket.tokens
    rw [mul_add, hwaited, Nat.cast_add]
    rcases le_total (bytes : ℚ) bucket.tokens with hfew | hmany
    · rw [max_eq_left (sub_nonpos.mpr hfew), min_eq_left hfew]
      ring
    · rw [max_eq_right (sub_nonneg.mpr hmany), min_eq_right hmany]
      ring

/-- A file goes out at the speed of its bucket. -/
theorem Ready.handAll (hready : Ready rate state bucket wakeAt (past ++ rest))
    (config : ConfigMessage) (hpos : 0 < rate) (hpast : ∀ bytes ∈ past, bytes ≤ rate * 2) :
    ∃ next left, Reaches config state next ∧ Ready rate next left wakeAt rest ∧
      next.files = state.files ∧
      lead rate next = lead rate state + min (past.sum : ℚ) bucket.tokens := by
  induction past generalizing state bucket with
  | nil =>
      refine ⟨state, bucket, ⟨[], rfl⟩, hready, rfl, ?_⟩
      rw [List.sum_nil, Nat.cast_zero, min_eq_left hready.nonneg, add_zero]
  | cons bytes past ih =>
      obtain ⟨middle, spent, hreaches, hmiddle, hfiles, hlead, hspent⟩ :=
        hready.handOne config hpos (hpast bytes List.mem_cons_self)
      obtain ⟨next, left, hlater, hnext, hsame, hgain⟩ :=
        ih hmiddle fun other hmem => hpast other (List.mem_cons_of_mem _ hmem)
      refine ⟨next, left, hreaches.trans hlater, hnext, hsame.trans hfiles, ?_⟩
      have hsum : (0 : ℚ) ≤ past.sum := Nat.cast_nonneg _
      rw [hgain, hlead, hspent, List.sum_cons, Nat.cast_add, add_assoc]
      congr 1
      rcases le_total (bytes : ℚ) bucket.tokens with hfew | hmany
      · rw [min_eq_left hfew, ← min_add_add_left, add_sub_cancel]
      · rw [min_eq_right hmany, sub_self, min_eq_right hsum, add_zero,
          min_eq_right (le_add_of_le_of_nonneg hmany hsum)]

/-- A whole call can get ahead of the rate by the bursts of all its files. -/
theorem reaches_bursts (hrate : config.bandwidthLimit.toNat = rate) (hpos : 0 < rate)
    (hfits : rate * 2 < 2 ^ 64) (state : State) (files : List (List Nat))
    (hcurrent : state.current = none) (hfiles : state.files = files) :
    ∃ next, Reaches config state next ∧
      lead rate next = lead rate state + (burstsOf (rate * 2) files : ℕ) := by
  induction files generalizing state with
  | nil =>
      refine ⟨state, ⟨[], rfl⟩, ?_⟩
      change _ = _ + ((0 : ℕ) : ℚ)
      rw [Nat.cast_zero, add_zero]
  | cons file files ih =>
      let bucket : TokenBucket ℚ := .full (rate * 2 : ℕ) rate state.clock
      let opened : State := { state with
        current := some ⟨some ⟨rate, bucket⟩, state.clock, false, file⟩, files := files }
      have hopen : step config state .openFile = some opened := by
        rw [step, hcurrent]
        simp only [State.advance, hfiles, fileLimiter_eq hrate hpos hfits]
        rfl
      have hsplit : letThrough (rate * 2) file ++
          file.dropWhile (fun bytes => decide (bytes ≤ rate * 2)) = file :=
        List.takeWhile_append_dropWhile
      have hpast : ∀ bytes ∈ letThrough (rate * 2) file, bytes ≤ rate * 2 :=
        fun bytes hmem => of_decide_eq_true (List.all_eq_true.mp List.all_takeWhile bytes hmem)
      have hready : Ready rate opened bucket state.clock (letThrough (rate * 2) file ++
          file.dropWhile fun bytes => decide (bytes ≤ rate * 2)) := by
        rw [hsplit]
        exact ⟨rfl, rfl, rfl, Nat.cast_nonneg _, le_refl _, rfl, le_refl _⟩
      obtain ⟨middle, left, hreaches, hmiddle, hsame, hlead⟩ :=
        hready.handAll config hpos hpast
      have hahead : lead rate middle = lead rate state + (burst (rate * 2) file : ℕ) := by
        rw [hlead, burst, Nat.cast_min]
        rfl
      have hstart := (Reaches.of_step hopen).trans hreaches
      by_cases hwhole : letThrough (rate * 2) file = file
      · -- the file is through, and the next one opens with a full bucket
        have hrest : file.dropWhile (fun bytes => decide (bytes ≤ rate * 2)) = [] := by
          rw [hwhole] at hsplit
          exact List.append_right_eq_self.mp hsplit
        rw [hrest] at hmiddle
        have hclose : step config middle .closeFile = some { middle with current := none } := by
          rw [step, hmiddle.current]
          rfl
        obtain ⟨final, hlater, hfinal⟩ := ih { middle with current := none } rfl hsame
        refine ⟨final, hstart.trans ((Reaches.of_step hclose).trans hlater), ?_⟩
        rw [hfinal, burstsOf, if_pos hwhole, Nat.cast_add, ← add_assoc, ← hahead]
        rfl
      · refine ⟨middle, hstart, ?_⟩
        rw [hahead, burstsOf, if_neg hwhole, Nat.add_zero]

/-- The bound of one burst and the rate holds in every schedule of a call exactly when the
bursts of its files come to no more than one. -/
theorem paced_iff (session : Session) (source : Store) (memory : FolderTransferState)
    (hlimit : 0 < session.config.bandwidthLimit.toNat) :
    (∀ events final,
      run session.config (start (folderPayloads session source memory)) events = some final →
        (final.handed : ℚ) ≤ 2 * session.config.bandwidthLimit.toNat +
          session.config.bandwidthLimit.toNat * final.clock) ↔
      2 ^ 64 ≤ session.config.bandwidthLimit.toNat * 2 ∨
        burstsOf (session.config.bandwidthLimit.toNat * 2) (folderPayloads session source memory) ≤
          session.config.bandwidthLimit.toNat * 2 := by
  generalize hrate : session.config.bandwidthLimit.toNat = rate at hlimit ⊢
  generalize folderPayloads session source memory = files
  constructor
  · intro hbound
    by_contra hover
    rw [not_or, Nat.not_le, Nat.not_le] at hover
    obtain ⟨final, ⟨events, hrun⟩, hlead⟩ :=
      reaches_bursts hrate hlimit hover.1 (start files) files rfl rfl
    have hfinal := hbound events final hrun
    have hburst : ((rate * 2 : ℕ) : ℚ) < (burstsOf (rate * 2) files : ℕ) := Nat.cast_lt.mpr hover.2
    have hstart : lead rate (start files) = 0 := by
      change ((0 : ℕ) : ℚ) - rate * 0 = 0
      rw [Nat.cast_zero, mul_zero, sub_zero]
    rw [hstart, zero_add, lead] at hlead
    push_cast at hburst
    linarith
  · intro hcondition events final hrun
    by_cases hfits : rate * 2 < 2 ^ 64
    · have htotal := hcondition.resolve_left (Nat.not_le.mpr hfits)
      have hpace := Foundation.Run.invariant_run (OnPace rate (burstsOf (rate * 2) files))
        (fun _ _ _ hpace hstep => onPace_step hrate hlimit hpace hstep) (onPace_start rate files) hrun
      exact hpace.handed_le htotal
    · have hsilent := Foundation.Run.invariant_run
        (fun state => (state.current = none ∧ state.handed = 0) ∧ 0 ≤ state.clock)
        (fun _ _ _ hboth hstep =>
          ⟨silent_step hrate hlimit hfits hboth.1 hstep, clock_nonneg_step hboth.2 hstep⟩)
        ⟨⟨rfl, rfl⟩, le_refl _⟩ hrun
      rw [hsilent.1.2, Nat.cast_zero]
      have hflow : (0 : ℚ) ≤ rate * final.clock := mul_nonneg (Nat.cast_nonneg rate) hsilent.2
      have hrateCast : (0 : ℚ) ≤ rate := Nat.cast_nonneg rate
      linarith

/-- A limit of two bytes per second. -/
def pairSession : Session where
  codec := .stored fun _ => FixedBytes.filled 32 0
  config := ConfigMessage.mk false 3 false 4 2
  basePath := [47]
  transferId := FixedBytes.filled 16 0
  durationMs := 0

/-- Two files of three bytes. -/
def pairSource : Store := fun location =>
  if location = Foundation.UnixPath.components [47, 97] then some [1, 2, 3]
  else if location = Foundation.UnixPath.components [47, 98] then some [4, 5, 6]
  else none

def pairMemory : FolderTransferState :=
  .new (FixedBytes.filled 16 0) [102]
    [metadataOf [97] 3 0, metadataOf [98] 3 0] pairSession.config

example : folderPayloads pairSession pairSource pairMemory = [[3], [3]] := by decide

theorem paced_iff_pair :
    (∀ events final,
      run pairSession.config (start (folderPayloads pairSession pairSource pairMemory)) events =
          some final →
        (final.handed : ℚ) ≤ 2 * pairSession.config.bandwidthLimit.toNat +
          pairSession.config.bandwidthLimit.toNat * final.clock) ↔
      2 ^ 64 ≤ pairSession.config.bandwidthLimit.toNat * 2 ∨
        burstsOf (pairSession.config.bandwidthLimit.toNat * 2)
            (folderPayloads pairSession pairSource pairMemory) ≤
          pairSession.config.bandwidthLimit.toNat * 2 :=
  paced_iff pairSession pairSource pairMemory (by decide)

/-- Both files go out at once. -/
def burstTwice : List Event :=
  [.openFile, .pass, .hand, .closeFile, .openFile, .pass, .hand]

theorem burst_for_each_file :
    ¬ ∀ (session : Session) (source : Store) (memory : FolderTransferState),
      0 < session.config.bandwidthLimit.toNat → ∀ events final,
        run session.config (start (folderPayloads session source memory)) events = some final →
          (final.handed : ℚ) ≤ 2 * session.config.bandwidthLimit.toNat +
            session.config.bandwidthLimit.toNat * final.clock := by
  intro hclaim
  have hburst : ((run pairSession.config (start (folderPayloads pairSession pairSource pairMemory))
      burstTwice).map fun final => (final.handed, final.clock)) = some (6, 0) := by
    decide +kernel
  obtain ⟨final, hrun, hfinal⟩ := Option.map_eq_some_iff.mp hburst
  obtain ⟨hhanded, hclock⟩ := Prod.mk.inj hfinal
  have hpaced := hclaim pairSession pairSource pairMemory (by decide) burstTwice final hrun
  rw [hhanded, hclock] at hpaced
  have hlimit : pairSession.config.bandwidthLimit.toNat = 2 := rfl
  rw [hlimit] at hpaced
  norm_num at hpaced

end P2PFileTransfer.Transfer.Pacing
