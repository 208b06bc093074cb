import P2PFileTransfer.Core.Reconnect

/-!
# Delays and the number of retries

The delay follows its formula as long as the product is taken in 64 bits, and in the wrapping
build also where the wrapped product still reaches the cap.  The loop of `send_path` goes on
after a failure while one more attempt is below the bound, so a bound of `m` allows `m` sends
and not `m` retries; `retry_with_backoff` does not ask which error it retries.
-/

namespace P2PFileTransfer.Session.Retrying

open P2PFileTransfer.Foundation.FixedWidth
open P2PFileTransfer.Core.Reconnect

/-- The documented delay, over the integers. -/
def formula (config : ReconnectConfig) (n : Nat) : Nat :=
  min (config.initialBackoffSecs.toNat * 2 ^ n) config.maxBackoffSecs.toNat

/-- The delay of this attempt is the documented one. -/
def Exact (build : Build) (config : ReconnectConfig) (n : Nat) : Prop :=
  match build with
  | .checked => n < 64 ∧ config.initialBackoffSecs.toNat * 2 ^ n < 2 ^ 64
  | .wrapping => config.initialBackoffSecs.toNat * 2 ^ n < 2 ^ 64 ∨
      config.maxBackoffSecs.toNat ≤ config.initialBackoffSecs.toNat * 2 ^ n % 2 ^ 64

/-- What holds of the delays of a configuration, and of those that `send_path` sleeps. -/
structure Backoff (build : Build) (config : ReconnectConfig) : Prop where
  delay : ∀ n, config.backoffDelay build n = .ok (formula config n) ↔ Exact build config n
  monotone : ∀ n later first second, n ≤ later → Exact build config n →
    Exact build config later → config.backoffDelay build n = .ok first →
      config.backoffDelay build later = .ok second → first ≤ second
  floor : ∀ n delay, Exact build config n → config.backoffDelay build n = .ok delay →
    min config.initialBackoffSecs.toNat config.maxBackoffSecs.toNat ≤ delay
  slept : ∀ rounds count,
    (∀ n < (sent build config rounds count).slept.length, Exact build config n) →
      ∀ n, n < (sent build config rounds count).slept.length →
        (sent build config rounds count).slept[n]? = some (formula config n)
  unlimited : config.maxAttempts = 0 → ∀ rounds count,
    (∀ n < count, (rounds n).send = .recoverable ∧ Exact build config n) →
      (sent build config rounds count).status = .looping ∧
        (sent build config rounds count).slept.length = count

/-- After a recoverable failure of this send, counted from zero, the loop goes on. -/
def Continues (build : Build) (config : ReconnectConfig) (n : Nat) : Prop :=
  (config.maxAttempts.toNat = 0 ∨ n + 1 < config.maxAttempts.toNat) ∧
    (build = .checked → n + 1 < 2 ^ 32 ∧ (config.exponential = true →
      n < 64 ∧ config.initialBackoffSecs.toNat * 2 ^ n < 2 ^ 64))

/-- The first sends, up to this one, fail recoverably. -/
def Failing (rounds : Nat → Round) (n : Nat) : Prop :=
  ∀ k < n, (rounds k).send = .recoverable

/-- The documented number of retries. -/
structure Budgeted (build : Build) (config : ReconnectConfig) (rounds : Nat → Round) : Prop where
  atMost : 1 ≤ config.maxAttempts.toNat → ∀ n,
    (sent build config rounds n).reconnects ≤ config.maxAttempts.toNat
  exhausted : 1 ≤ config.maxAttempts.toNat → ∀ n, Failing rounds n →
    (sent build config rounds n).runs = min n (config.maxAttempts.toNat + 1) ∧
      (sent build config rounds n).reconnects = min n config.maxAttempts.toNat ∧
      ((sent build config rounds n).status = .looping ↔ n ≤ config.maxAttempts.toNat)
  stops : ∀ n k, k < (sent build config rounds n).runs → (rounds k).send ≠ .recoverable →
    (sent build config rounds n).runs = k + 1 ∧
      (sent build config rounds n).status =
        if (rounds k).send = .succeeded then .returned else .refused
  unlimited : config.maxAttempts.toNat = 0 → ∀ n, Failing rounds n →
    (sent build config rounds n).status = .looping
  sameRuns : ∀ n, (sent build config rounds n).runs = (retried build config rounds n).runs

/-- The bound never ends the loop, and no permanent error comes where the loop would go on. -/
def Spared (build : Build) (config : ReconnectConfig) (rounds : Nat → Round) : Prop :=
  (∀ n, Failing rounds (n + 1) → Continues build config n) ∧
    ∀ n, Failing rounds n → (rounds n).send = .permanent → ¬ Continues build config n

variable {build : Build} {config : ReconnectConfig} {rounds : Nat → Round} {n count : Nat}
  {state : LoopState} {round : Round}

/-! ## The delay -/

/-- A capped value survives wrapping when it fits or when the wrapped one reaches the cap. -/
theorem min_truncate_eq_iff {value cap : Nat} (hcap : cap < 2 ^ 64) :
    min (truncate 64 value) cap = min value cap ↔ value < 2 ^ 64 ∨ cap ≤ value % 2 ^ 64 := by
  unfold truncate
  have hmod := Nat.mod_le value (2 ^ 64)
  have hsmall : value < 2 ^ 64 → value % 2 ^ 64 = value := Nat.mod_eq_of_lt
  omega

theorem delay_iff_exact (hexponential : config.exponential = true) (n : Nat) :
    config.backoffDelay build n = .ok (formula config n) ↔ Exact build config n := by
  cases build with
  | wrapping =>
      rw [backoffDelay_wrapping hexponential, Except.ok.injEq]
      exact min_truncate_eq_iff config.maxBackoffSecs.toNat_lt
  | checked =>
      constructor
      · intro hdelay
        exact (exists_backoffDelay_iff n).mp ⟨_, hdelay⟩ rfl hexponential
      · rintro ⟨hpower, hproduct⟩
        exact backoffDelay_checked hexponential hpower hproduct

theorem formula_le {later : Nat} (hle : n ≤ later) : formula config n ≤ formula config later := by
  have hpower : 2 ^ n ≤ 2 ^ later := Nat.pow_le_pow_right Nat.two_pos hle
  have hproduct := Nat.mul_le_mul_left config.initialBackoffSecs.toNat hpower
  unfold formula
  omega

theorem floor_le_formula (config : ReconnectConfig) (n : Nat) :
    min config.initialBackoffSecs.toNat config.maxBackoffSecs.toNat ≤ formula config n := by
  have hfirst : formula config 0 ≤ formula config n := formula_le (Nat.zero_le n)
  simpa [formula] using hfirst

theorem two_pow_mod_eq_zero {n : Nat} (hlarge : 64 ≤ n) (factor : Nat) :
    factor * 2 ^ n % 2 ^ 64 = 0 := by
  obtain ⟨rest, rfl⟩ := Nat.exists_eq_add_of_le hlarge
  have hsplit : factor * 2 ^ (64 + rest) = 2 ^ 64 * (factor * 2 ^ rest) := by ring
  rw [hsplit]
  exact Nat.mul_mod_right _ _

/-- A counter that has wrapped around still gives an exact delay its value: it is zero. -/
theorem formula_mod (hexact : Exact build config n) :
    Exact build config (n % 2 ^ 32) ∧ formula config (n % 2 ^ 32) = formula config n := by
  rcases Nat.lt_or_ge n (2 ^ 32) with hsmall | hlarge
  · rw [Nat.mod_eq_of_lt hsmall]
    exact ⟨hexact, rfl⟩
  · have hpower : 64 ≤ n := le_trans (by decide) hlarge
    cases build with
    | checked =>
        obtain ⟨hfits, _⟩ := hexact
        exact absurd hpower (Nat.not_le.mpr hfits)
    | wrapping =>
        rcases hexact with hproduct | hcap
        · have hzero : config.initialBackoffSecs.toNat = 0 := by
            by_contra hpos
            have hproductGe : 2 ^ 64 ≤ config.initialBackoffSecs.toNat * 2 ^ n :=
              le_trans (Nat.pow_le_pow_right Nat.two_pos hpower)
                (Nat.le_mul_of_pos_left _ (Nat.pos_of_ne_zero hpos))
            exact absurd hproduct (Nat.not_lt.mpr hproductGe)
          simp [Exact, formula, hzero]
        · rw [two_pow_mod_eq_zero hpower, Nat.le_zero] at hcap
          simp [Exact, formula, hcap]

theorem delay_of_exact (hexponential : config.exponential = true) (hexact : Exact build config n) :
    config.backoffDelay build (n % 2 ^ 32) = .ok (formula config n) := by
  obtain ⟨hcounter, hformula⟩ := formula_mod hexact
  rw [← hformula]
  exact (delay_iff_exact hexponential _).mpr hcounter

/-! ## The loop of `send_path` -/

/-- The delays slept so far are those of the attempts before. -/
structure Slept (build : Build) (config : ReconnectConfig) (count : Nat) (state : LoopState) :
    Prop where
  delays : ∀ i delay, state.slept[i]? = some delay →
    config.backoffDelay build (i % 2 ^ 32) = .ok delay
  place : state.status = .looping → state.attempt = count % 2 ^ 32 ∧ state.slept.length = count

/-- The counter after one more attempt. -/
theorem keep_attempt {next : Nat} (hnext : build.keep 32 (n % 2 ^ 32 + 1) = .ok next) :
    next = (n + 1) % 2 ^ 32 := by
  cases build with
  | checked =>
      obtain ⟨hfits, rfl⟩ := fit_eq_ok_iff.mp hnext
      omega
  | wrapping =>
      have hvalue : (n % 2 ^ 32 + 1) % 2 ^ 32 = next := Except.ok.inj hnext
      omega

theorem Slept.sendTurn (hslept : Slept build config count state)
    (hlooping : state.status = .looping) (round : Round) :
    Slept build config (count + 1) (sendTurn build config round state) := by
  obtain ⟨hattempt, hlength⟩ := hslept.place hlooping
  unfold Core.Reconnect.sendTurn
  dsimp only
  cases round.send with
  | succeeded => exact ⟨hslept.delays, fun hloops => by cases hloops⟩
  | permanent => exact ⟨hslept.delays, fun hloops => by cases hloops⟩
  | recoverable =>
      dsimp only
      split
      · cases hdelay : config.backoffDelay build state.attempt with
        | error fault => exact ⟨hslept.delays, fun hloops => by cases hloops⟩
        | ok delay =>
            have hdelays : ∀ i found, (state.slept ++ [delay])[i]? = some found →
                config.backoffDelay build (i % 2 ^ 32) = .ok found := by
              intro i found hfound
              rcases Nat.lt_trichotomy i state.slept.length with hlt | heq | hgt
              · rw [List.getElem?_append_left hlt] at hfound
                exact hslept.delays i found hfound
              · rw [heq, List.getElem?_concat_length] at hfound
                cases hfound
                rw [heq, hlength, ← hattempt]
                exact hdelay
              · rw [List.getElem?_eq_none (by simp; omega)] at hfound
                cases hfound
            dsimp only
            cases hnext : build.keep 32 (state.attempt + 1) with
            | error fault => exact ⟨hdelays, fun hloops => by cases hloops⟩
            | ok next =>
                refine ⟨hdelays, fun _ => ⟨?_, ?_⟩⟩
                · rw [hattempt] at hnext
                  exact keep_attempt hnext
                · simp [hlength]
      · exact ⟨hslept.delays, fun hloops => by cases hloops⟩

theorem slept_sent (rounds : Nat → Round) (count : Nat) :
    Slept build config count (sent build config rounds count) := by
  induction count with
  | zero =>
      refine ⟨?_, fun _ => ⟨rfl, rfl⟩⟩
      intro i delay hdelay
      cases hdelay
  | succ count ih =>
      by_cases hlooping : (sent build config rounds count).status = .looping
      · have hturn := after_succ hlooping
        change sent build config rounds (count + 1) = _ at hturn
        rw [hturn]
        exact ih.sendTurn hlooping _
      · have hsame := after_succ_of_ended hlooping
        change sent build config rounds (count + 1) = sent build config rounds count at hsame
        rw [hsame]
        exact ⟨ih.delays, fun hloops => absurd hloops hlooping⟩

/-! ## One turn -/

/-- A loop at its attempt number `n`, counted in 32 bits. -/
structure At (n : Nat) (state : LoopState) : Prop where
  looping : state.status = .looping
  attempt : state.attempt = n % 2 ^ 32
  runs : state.runs = n

/-- The loop has gone on after each of the first attempts. -/
def Gone (build : Build) (config : ReconnectConfig) (n : Nat) : Prop :=
  ∀ k < n, Continues build config k

theorem Gone.lt (hgone : Gone build config n)
    (hbounded : build = .checked ∨ config.maxAttempts.toNat ≠ 0) : n < 2 ^ 32 := by
  cases n with
  | zero => decide
  | succ n =>
      obtain ⟨hmax, hfits⟩ := hgone n (Nat.lt_succ_self n)
      rcases hbounded with hchecked | hne
      · exact (hfits hchecked).1
      · have hwidth : config.maxAttempts.toNat < 2 ^ 32 := config.maxAttempts.toNat_lt
        omega

theorem Gone.lt_max (hgone : Gone build config n) (hmax : 1 ≤ config.maxAttempts.toNat)
    (hpos : 1 ≤ n) : n < config.maxAttempts.toNat := by
  obtain ⟨hbound, _⟩ := hgone (n - 1) (by omega)
  omega

/-- What the code asks before it goes on. -/
theorem continues_iff (hgone : Gone build config n) : Continues build config n ↔
    config.shouldRetry (n % 2 ^ 32) = true ∧
      (∃ delay, config.backoffDelay build (n % 2 ^ 32) = .ok delay) ∧
      ∃ next, build.keep 32 (n % 2 ^ 32 + 1) = .ok next := by
  unfold Continues ReconnectConfig.shouldRetry Core.SendPath.shouldRetry
  rw [decide_eq_true_iff, exists_backoffDelay_iff]
  cases build with
  | wrapping =>
      have hsmall := fun hne => hgone.lt (.inr hne)
      have hkept : ∃ next, Build.wrapping.keep 32 (n % 2 ^ 32 + 1) = .ok next := ⟨_, rfl⟩
      simp only [reduceCtorEq, false_imp_iff, and_true, hkept]
      omega
  | checked =>
      have hsmall := hgone.lt (.inl rfl)
      have hkept : (∃ next, Build.checked.keep 32 (n + 1) = .ok next) ↔ n + 1 < 2 ^ 32 :=
        ⟨fun ⟨_, hnext⟩ => (fit_eq_ok_iff.mp hnext).1, fun hfits => ⟨_, fit_eq_ok hfits⟩⟩
      rw [Nat.mod_eq_of_lt hsmall, hkept]
      simp only [true_imp_iff]
      exact and_congr_right fun _ => and_comm

theorem runs_sendTurn (round : Round) (state : LoopState) :
    (sendTurn build config round state).runs = state.runs + 1 := by
  unfold sendTurn
  dsimp only
  split
  · rfl
  · rfl
  · split
    · split
      · rfl
      · split <;> rfl
    · rfl

theorem runs_retryTurn (round : Round) (state : LoopState) :
    (retryTurn build config round state).runs = state.runs + 1 := by
  unfold retryTurn
  dsimp only
  split
  · rfl
  · split
    · split
      · rfl
      · split <;> rfl
    · rfl

/-- `send_path` goes on after a recoverable failure. -/
theorem At.sendTurn (hat : At n state) (hgone : Gone build config n)
    (hcontinues : Continues build config n) (hround : round.send = .recoverable) :
    At (n + 1) (sendTurn build config round state) ∧
      (sendTurn build config round state).reconnects = state.reconnects + 1 := by
  obtain ⟨hretry, ⟨delay, hdelay⟩, next, hnext⟩ := (continues_iff hgone).mp hcontinues
  have hcounter := keep_attempt hnext
  rw [← hat.attempt] at hretry hdelay hnext
  have hturn : Core.Reconnect.sendTurn build config round state =
      { state with
        runs := state.runs + 1
        slept := state.slept ++ [delay]
        reconnects := state.reconnects + 1
        connections := if round.reconnected then state.connections + 1 else state.connections
        attempt := next } := by
    simp [Core.Reconnect.sendTurn, hround, hretry, hdelay, hnext]
  rw [hturn]
  exact ⟨⟨hat.looping, hcounter, congrArg (· + 1) hat.runs⟩, rfl⟩

theorem At.sendTurn_of_not (hat : At n state) (hgone : Gone build config n)
    (hends : ¬ Continues build config n) (hround : round.send = .recoverable) :
    (Core.Reconnect.sendTurn build config round state).status ≠ .looping := by
  rw [continues_iff hgone, ← hat.attempt] at hends
  unfold Core.Reconnect.sendTurn
  rw [hround]
  dsimp only
  split
  · rename_i hretry
    split
    · nofun
    · rename_i delay hdelay
      split
      · nofun
      · rename_i next hnext
        exact absurd ⟨hretry, ⟨delay, hdelay⟩, next, hnext⟩ hends
  · nofun

theorem sendTurn_of_ne (build : Build) (config : ReconnectConfig) (state : LoopState)
    (hround : round.send ≠ .recoverable) :
    (sendTurn build config round state).status =
        (if round.send = .succeeded then Status.returned else .refused) ∧
      (sendTurn build config round state).reconnects = state.reconnects := by
  unfold sendTurn
  cases hsend : round.send with
  | succeeded => exact ⟨rfl, rfl⟩
  | recoverable => exact absurd hsend hround
  | permanent => exact ⟨rfl, rfl⟩

/-- `retry_with_backoff` goes on after any failure. -/
theorem At.retryTurn (hat : At n state) (hgone : Gone build config n)
    (hcontinues : Continues build config n) (hround : round.send ≠ .succeeded) :
    At (n + 1) (retryTurn build config round state) := by
  obtain ⟨hretry, ⟨delay, hdelay⟩, next, hnext⟩ := (continues_iff hgone).mp hcontinues
  have hcounter := keep_attempt hnext
  rw [← hat.attempt] at hretry hdelay hnext
  have hturn : Core.Reconnect.retryTurn build config round state =
      { state with
        runs := state.runs + 1
        slept := state.slept ++ [delay]
        attempt := next } := by
    simp [Core.Reconnect.retryTurn, hround, hretry, hdelay, hnext]
  rw [hturn]
  exact ⟨hat.looping, hcounter, congrArg (· + 1) hat.runs⟩

theorem At.retryTurn_of_not (hat : At n state) (hgone : Gone build config n)
    (hends : round.send = .succeeded ∨ ¬ Continues build config n) :
    (Core.Reconnect.retryTurn build config round state).status ≠ .looping := by
  rw [continues_iff hgone, ← hat.attempt] at hends
  unfold Core.Reconnect.retryTurn
  dsimp only
  split
  · nofun
  · rename_i hfailed
    have hstops := hends.resolve_left hfailed
    split
    · rename_i hretry
      split
      · nofun
      · rename_i delay hdelay
        split
        · nofun
        · rename_i next hnext
          exact absurd ⟨hretry, ⟨delay, hdelay⟩, next, hnext⟩ hstops
    · nofun

/-! ## Runs of both loops -/

theorem sent_succ (hat : At n (sent build config rounds n)) :
    sent build config rounds (n + 1) =
      sendTurn build config (rounds n) (sent build config rounds n) := after_succ hat.looping

theorem retried_succ (hat : At n (retried build config rounds n)) :
    retried build config rounds (n + 1) =
      retryTurn build config (rounds n) (retried build config rounds n) := after_succ hat.looping

theorem at_begin : At 0 LoopState.begin := ⟨rfl, rfl, rfl⟩

theorem Gone.pred (hgone : Gone build config (n + 1)) : Gone build config n :=
  fun k hk => hgone k (Nat.lt_succ_of_lt hk)

theorem Failing.pred (hfailing : Failing rounds (n + 1)) : Failing rounds n :=
  fun k hk => hfailing k (Nat.lt_succ_of_lt hk)

/-- As long as every send fails recoverably and the loop goes on, both loops are at the same
attempt. -/
theorem at_of_gone (hfailing : Failing rounds n) (hgone : Gone build config n) :
    At n (sent build config rounds n) ∧ (sent build config rounds n).reconnects = n ∧
      At n (retried build config rounds n) := by
  induction n with
  | zero => exact ⟨at_begin, rfl, at_begin⟩
  | succ n ih =>
      obtain ⟨hsent, hreconnects, hretried⟩ := ih hfailing.pred hgone.pred
      have hround := hfailing n (Nat.lt_succ_self n)
      have hcontinues := hgone n (Nat.lt_succ_self n)
      obtain ⟨hnext, hcount⟩ := hsent.sendTurn hgone.pred hcontinues hround
      rw [sent_succ hsent, retried_succ hretried]
      refine ⟨hnext, hcount.trans (congrArg (· + 1) hreconnects), ?_⟩
      exact hretried.retryTurn hgone.pred hcontinues (by simp [hround])

/-- Where both loops are when this send was the first one not to fail recoverably. -/
structure Stopped (build : Build) (config : ReconnectConfig) (rounds : Nat → Round)
    (n count : Nat) : Prop where
  failing : Failing rounds n
  different : (rounds n).send ≠ .recoverable
  status : (sent build config rounds count).status =
    if (rounds n).send = .succeeded then .returned else .refused
  runs : (sent build config rounds count).runs = n + 1
  reconnects : (sent build config rounds count).reconnects = n
  ended : (retried build config rounds count).status ≠ .looping
  sameRuns : (retried build config rounds count).runs = n + 1

theorem Stopped.not_looping (hstopped : Stopped build config rounds n count) :
    (sent build config rounds count).status ≠ .looping := by
  rw [hstopped.status]
  split <;> nofun

theorem Stopped.succ (hstopped : Stopped build config rounds n count) :
    Stopped build config rounds n (count + 1) := by
  have hsent : sent build config rounds (count + 1) = sent build config rounds count :=
    after_succ_of_ended hstopped.not_looping
  have hretried : retried build config rounds (count + 1) = retried build config rounds count :=
    after_succ_of_ended hstopped.ended
  refine ⟨hstopped.failing, hstopped.different, ?_, ?_, ?_, ?_, ?_⟩
  · rw [hsent, hstopped.status]
  · rw [hsent, hstopped.runs]
  · rw [hsent, hstopped.reconnects]
  · rw [hretried]
    exact hstopped.ended
  · rw [hretried, hstopped.sameRuns]

theorem stopped_of_different (hfailing : Failing rounds n) (hgone : Gone build config n)
    (hdifferent : (rounds n).send ≠ .recoverable)
    (hends : (rounds n).send = .succeeded ∨ ¬ Continues build config n) :
    Stopped build config rounds n (n + 1) := by
  obtain ⟨hsent, hreconnects, hretried⟩ := at_of_gone hfailing hgone
  obtain ⟨hstatus, hcount⟩ := sendTurn_of_ne build config (sent build config rounds n) hdifferent
  constructor
  · exact hfailing
  · exact hdifferent
  · rw [sent_succ hsent, hstatus]
  · rw [sent_succ hsent, runs_sendTurn, hsent.runs]
  · rw [sent_succ hsent, hcount, hreconnects]
  · rw [retried_succ hretried]
    exact hretried.retryTurn_of_not hgone hends
  · rw [retried_succ hretried, runs_retryTurn, hretried.runs]

theorem Spared.gone (hspared : Spared build config rounds) (hfailing : Failing rounds n) :
    Gone build config n :=
  fun k hk => hspared.1 k fun each heach => hfailing each (by omega)

/-- Every state of both loops: still failing, or stopped at the same send. -/
theorem failing_or_stopped (hspared : Spared build config rounds) (count : Nat) :
    Failing rounds count ∨ ∃ n, n < count ∧ Stopped build config rounds n count := by
  induction count with
  | zero => exact .inl fun k hk => absurd hk (Nat.not_lt_zero k)
  | succ count ih =>
      rcases ih with hfailing | ⟨n, hlt, hstopped⟩
      · by_cases hround : (rounds count).send = .recoverable
        · refine .inl fun k hk => ?_
          rcases Nat.lt_succ_iff_lt_or_eq.mp hk with hlt | rfl
          · exact hfailing k hlt
          · exact hround
        · refine .inr ⟨count, Nat.lt_succ_self count, ?_⟩
          refine stopped_of_different hfailing (hspared.gone hfailing) hround ?_
          cases hsend : (rounds count).send with
          | succeeded => exact .inl rfl
          | recoverable => exact absurd hsend hround
          | permanent => exact .inr (hspared.2 count hfailing hsend)
      · exact .inr ⟨n, Nat.lt_succ_of_lt hlt, hstopped.succ⟩

theorem Spared.le_max (hspared : Spared build config rounds)
    (hmax : 1 ≤ config.maxAttempts.toNat) (hfailing : Failing rounds n) :
    n ≤ config.maxAttempts.toNat := by
  cases n with
  | zero => exact Nat.zero_le _
  | succ n => exact Nat.le_of_lt ((hspared.gone hfailing).lt_max hmax (Nat.succ_pos n))

theorem budgeted_of_spared (hspared : Spared build config rounds) :
    Budgeted build config rounds := by
  constructor
  · intro hmax count
    rcases failing_or_stopped hspared count with hfailing | ⟨n, hlt, hstopped⟩
    · rw [(at_of_gone hfailing (hspared.gone hfailing)).2.1]
      exact hspared.le_max hmax hfailing
    · rw [hstopped.reconnects]
      exact hspared.le_max hmax hstopped.failing
  · intro hmax count hfailing
    obtain ⟨hsent, hreconnects, _⟩ := at_of_gone hfailing (hspared.gone hfailing)
    have hle := hspared.le_max hmax hfailing
    rw [hsent.runs, hreconnects]
    refine ⟨?_, ?_, ?_⟩
    · omega
    · omega
    · simp [hsent.looping, hle]
  · intro count k hk hround
    rcases failing_or_stopped hspared count with hfailing | ⟨n, hlt, hstopped⟩
    · rw [(at_of_gone hfailing (hspared.gone hfailing)).1.runs] at hk
      exact absurd (hfailing k hk) hround
    · rw [hstopped.runs] at hk
      have hsame : k = n := by
        by_contra hne
        exact hround (hstopped.failing k (by omega))
      rw [hsame]
      exact ⟨hstopped.runs, hstopped.status⟩
  · intro _ count hfailing
    exact (at_of_gone hfailing (hspared.gone hfailing)).1.looping
  · intro count
    rcases failing_or_stopped hspared count with hfailing | ⟨n, hlt, hstopped⟩
    · obtain ⟨hsent, _, hretried⟩ := at_of_gone hfailing (hspared.gone hfailing)
      rw [hsent.runs, hretried.runs]
    · rw [hstopped.runs, hstopped.sameRuns]

/-- A loop that keeps its budget goes on after every send that fails recoverably. -/
theorem Budgeted.continues (hbudgeted : Budgeted build config rounds)
    (hfailing : Failing rounds (n + 1)) : Continues build config n := by
  induction n using Nat.strong_induction_on with
  | _ n ih =>
      have hgone : Gone build config n := fun k hk =>
        ih k hk fun each heach => hfailing each (by omega)
      obtain ⟨hsent, _, _⟩ := at_of_gone hfailing.pred hgone
      by_contra hends
      have hended : (sent build config rounds (n + 1)).status ≠ .looping := by
        rw [sent_succ hsent]
        exact hsent.sendTurn_of_not hgone hends (hfailing n (Nat.lt_succ_self n))
      rcases Nat.eq_zero_or_pos config.maxAttempts.toNat with hzero | hmax
      · exact hended (hbudgeted.unlimited hzero _ hfailing)
      · have hlooping := (hbudgeted.exhausted hmax _ hfailing).2.2
        have hlarge : config.maxAttempts.toNat ≤ n := by
          by_contra hsmall
          exact hended (hlooping.mpr (by omega))
        exact absurd (hgone.lt_max hmax (by omega)) (Nat.not_lt.mpr hlarge)

theorem Budgeted.not_continues (hbudgeted : Budgeted build config rounds)
    (hfailing : Failing rounds n) (hpermanent : (rounds n).send = .permanent) :
    ¬ Continues build config n := by
  intro hcontinues
  have hgone : Gone build config n := fun k hk =>
    hbudgeted.continues fun each heach => hfailing each (by omega)
  obtain ⟨hsent, _, hretried⟩ := at_of_gone hfailing hgone
  have hdifferent : (rounds n).send ≠ .recoverable := by simp [hpermanent]
  have hstatus := (sendTurn_of_ne build config (sent build config rounds n) hdifferent).1
  have hended : (sent build config rounds (n + 1)).status ≠ .looping := by
    rw [sent_succ hsent, hstatus, hpermanent]
    nofun
  have hstays : sent build config rounds (n + 2) = sent build config rounds (n + 1) :=
    after_succ_of_ended hended
  have hagain : At (n + 1) (retried build config rounds (n + 1)) := by
    rw [retried_succ hretried]
    exact hretried.retryTurn hgone hcontinues (by simp [hpermanent])
  have hruns := hbudgeted.sameRuns (n + 2)
  rw [hstays, sent_succ hsent, runs_sendTurn, hsent.runs, retried_succ hagain, runs_retryTurn,
    hagain.runs] at hruns
  omega

/-! ## Both loops keep the documented budget -/

/-- Every send fails recoverably, and every reconnect succeeds. -/
def broken : Nat → Round := fun _ => ⟨.recoverable, true⟩

theorem slept_of_exact (hexponential : config.exponential = true)
    (hexact : ∀ i < (sent build config rounds count).slept.length, Exact build config i)
    (hn : n < (sent build config rounds count).slept.length) :
    (sent build config rounds count).slept[n]? = some (formula config n) := by
  have hall : Slept build config count (sent build config rounds count) := slept_sent rounds count
  have hslept := hall.delays n _ (List.getElem?_eq_getElem hn)
  rw [delay_of_exact hexponential (hexact n hn), Except.ok.injEq] at hslept
  rw [List.getElem?_eq_getElem hn, hslept]

/-- Without a bound, exact delays let the loop go on. -/
theorem continues_of_exact (hmax : config.maxAttempts = 0) (hexact : Exact build config n) :
    Continues build config n := by
  refine ⟨.inl (by rw [hmax]; rfl), ?_⟩
  rintro rfl
  obtain ⟨hpower, hproduct⟩ := hexact
  exact ⟨by omega, fun _ => ⟨hpower, hproduct⟩⟩

/-- The delays of an exponential configuration are the documented ones as far as nothing
overflows, or what is left still reaches the cap. -/
theorem backoff_exact (build : Build) (hexponential : config.exponential = true) :
    Backoff build config := by
  constructor
  · exact delay_iff_exact hexponential
  · intro n later first second hle hfirst hsecond hdelay hlater
    rw [(delay_iff_exact hexponential n).mpr hfirst, Except.ok.injEq] at hdelay
    rw [(delay_iff_exact hexponential later).mpr hsecond, Except.ok.injEq] at hlater
    rw [← hdelay, ← hlater]
    exact formula_le hle
  · intro n delay hexact hdelay
    rw [(delay_iff_exact hexponential n).mpr hexact, Except.ok.injEq] at hdelay
    rw [← hdelay]
    exact floor_le_formula config n
  · intro rounds count hexact n hn
    exact slept_of_exact hexponential hexact hn
  · intro hmax rounds count hrounds
    have hgone : Gone build config count := fun k hk =>
      continues_of_exact hmax (hrounds k hk).2
    obtain ⟨hsent, _, _⟩ := at_of_gone (fun k hk => (hrounds k hk).1) hgone
    exact ⟨hsent.looping, ((slept_sent rounds count).place hsent.looping).2⟩

theorem backoff_exact_unlimited : Backoff .checked .unlimited :=
  backoff_exact .checked rfl

/-- With the default delays the checked build panics at attempt 64, and the wrapping one does
not wait at all. -/
theorem unlimited_overflows : ReconnectConfig.unlimited.backoffDelay .checked 64 =
      .error .overflow ∧
    ReconnectConfig.unlimited.backoffDelay .wrapping 64 = .ok 0 ∧
    ¬ ∀ (build : Build) (config : ReconnectConfig) (n : Nat), config.exponential = true →
      config.backoffDelay build n = .ok (formula config n) := by
  refine ⟨backoffDelay_checked_of_power rfl (Nat.le_refl 64),
    (backoffDelay_wrapping rfl 64).trans (congrArg Except.ok (by decide)), ?_⟩
  intro hclaim
  have hdelay := hclaim .wrapping .unlimited 64 rfl
  rw [backoffDelay_wrapping rfl] at hdelay
  exact absurd (Except.ok.inj hdelay) (by decide)

end P2PFileTransfer.Session.Retrying
