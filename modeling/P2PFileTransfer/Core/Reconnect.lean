import P2PFileTransfer.Core.SendPath

/-!
# Retries

`ReconnectConfig` and the two loops that use it: the one in `send_path`, turn by turn, and
`retry_with_backoff`.  A turn is one run of the operation with what follows it, up to the
next run.
-/

namespace P2PFileTransfer.Core.Reconnect

open P2PFileTransfer.Foundation.FixedWidth
open P2PFileTransfer.Foundation.FileSystem
open P2PFileTransfer.Core.TransferFolder
open P2PFileTransfer.Core.SendPath (Settings Phase pathStep afterFailure startAttempt)

/-- No attempts means no bound. -/
structure ReconnectConfig where
  maxAttempts : UInt32
  initialBackoffSecs : UInt64
  maxBackoffSecs : UInt64
  exponential : Bool
  deriving DecidableEq, Repr

namespace ReconnectConfig

def default : ReconnectConfig where
  maxAttempts := 5
  initialBackoffSecs := 3
  maxBackoffSecs := 180
  exponential := true

def unlimited : ReconnectConfig := { ReconnectConfig.default with maxAttempts := 0 }

def withMaxAttempts (maxAttempts : UInt32) : ReconnectConfig :=
  { ReconnectConfig.default with maxAttempts := maxAttempts }

/-- The delay in seconds; the power and the product are taken before the cap. -/
def backoffDelay (build : Build) (config : ReconnectConfig) (attempt : Nat) : Checked Nat :=
  if config.exponential then do
    let power ← build.keep 64 (2 ^ attempt)
    let expDelay ← build.keep 64 (config.initialBackoffSecs.toNat * power)
    .ok (min expDelay config.maxBackoffSecs.toNat)
  else .ok config.initialBackoffSecs.toNat

def shouldRetry (config : ReconnectConfig) (attempt : Nat) : Bool :=
  SendPath.shouldRetry config.maxAttempts.toNat attempt

end ReconnectConfig

/-- How a run of the operation ends: `is_recoverable` divides the errors. -/
inductive Outcome where
  | succeeded
  | recoverable
  | permanent
  deriving DecidableEq, Repr

/-- What one turn meets: a run, and a reconnect in case there is one. -/
structure Round where
  send : Outcome
  reconnected : Bool

inductive Status where
  | looping
  | returned
  | refused
  | gaveUp (attempts : Nat)
  | panicked
  deriving DecidableEq, Repr

/-- A loop and what it has done. -/
structure LoopState where
  status : Status
  attempt : Nat
  runs : Nat
  reconnects : Nat
  connections : Nat
  slept : List Nat
  deriving DecidableEq, Repr

def LoopState.begin : LoopState := ⟨.looping, 0, 0, 0, 1, []⟩

/-- One turn of `send_path`; a reconnect that fails leaves the old connection in place. -/
def sendTurn (build : Build) (config : ReconnectConfig) (round : Round) (state : LoopState) :
    LoopState :=
  let tried := { state with runs := state.runs + 1 }
  match round.send with
  | .succeeded => { tried with status := .returned }
  | .permanent => { tried with status := .refused }
  | .recoverable =>
      if config.shouldRetry state.attempt then
        match config.backoffDelay build state.attempt with
        | .error _ => { tried with status := .panicked }
        | .ok delay =>
            let again := { tried with
              slept := state.slept ++ [delay]
              reconnects := state.reconnects + 1
              connections :=
                if round.reconnected then state.connections + 1 else state.connections }
            match build.keep 32 (state.attempt + 1) with
            | .error _ => { again with status := .panicked }
            | .ok next => { again with attempt := next }
      else { tried with status := .gaveUp (state.attempt + 1) }

/-- One turn of `retry_with_backoff`, which counts before it sleeps. -/
def retryTurn (build : Build) (config : ReconnectConfig) (round : Round) (state : LoopState) :
    LoopState :=
  let tried := { state with runs := state.runs + 1 }
  if round.send = .succeeded then { tried with status := .returned }
  else if config.shouldRetry state.attempt then
    match config.backoffDelay build state.attempt with
    | .error _ => { tried with status := .panicked }
    | .ok delay =>
        match build.keep 32 (state.attempt + 1) with
        | .error _ => { tried with status := .panicked }
        | .ok next => { tried with attempt := next, slept := state.slept ++ [delay] }
  else { tried with status := .gaveUp (state.attempt + 1) }

/-- A loop after this many turns; one that has ended stays as it is. -/
def after (turn : Round → LoopState → LoopState) (rounds : Nat → Round) : Nat → LoopState
  | 0 => .begin
  | count + 1 =>
      let state := after turn rounds count
      if state.status = .looping then turn (rounds count) state else state

def sent (build : Build) (config : ReconnectConfig) (rounds : Nat → Round) : Nat → LoopState :=
  after (sendTurn build config) rounds

def retried (build : Build) (config : ReconnectConfig) (rounds : Nat → Round) :
    Nat → LoopState :=
  after (retryTurn build config) rounds

variable {turn : Round → LoopState → LoopState} {rounds : Nat → Round} {build : Build}
  {config : ReconnectConfig} {state : LoopState} {round : Round} {count : Nat}

/-! ## Turns -/

theorem after_succ (hlooping : (after turn rounds count).status = .looping) :
    after turn rounds (count + 1) = turn (rounds count) (after turn rounds count) :=
  if_pos hlooping

theorem after_succ_of_ended (hended : (after turn rounds count).status ≠ .looping) :
    after turn rounds (count + 1) = after turn rounds count := if_neg hended

/-- Nothing happens in a loop that has ended. -/
theorem after_of_ended {later : Nat} (hended : (after turn rounds count).status ≠ .looping)
    (hle : count ≤ later) : after turn rounds later = after turn rounds count := by
  induction later, hle using Nat.le_induction with
  | base => rfl
  | succ later hle ih => rw [after_succ_of_ended (ih ▸ hended), ih]

/-! ## The delay -/

theorem backoffDelay_linear (hlinear : config.exponential = false) (attempt : Nat) :
    config.backoffDelay build attempt = .ok config.initialBackoffSecs.toNat := by
  simp [ReconnectConfig.backoffDelay, hlinear]

/-- What the wrapping build computes. -/
theorem backoffDelay_wrapping (hexponential : config.exponential = true) (attempt : Nat) :
    config.backoffDelay .wrapping attempt =
      .ok (min (truncate 64 (config.initialBackoffSecs.toNat * 2 ^ attempt))
        config.maxBackoffSecs.toNat) := by
  rw [ReconnectConfig.backoffDelay, if_pos hexponential, ← truncate_mul_truncate]
  rfl

theorem backoffDelay_checked_of_power (hexponential : config.exponential = true) {attempt : Nat}
    (hlarge : 64 ≤ attempt) : config.backoffDelay .checked attempt = .error .overflow := by
  rw [ReconnectConfig.backoffDelay, if_pos hexponential,
    Build.keep_checked_of_le (Nat.pow_le_pow_right Nat.two_pos hlarge)]
  rfl

theorem backoffDelay_checked_of_product (hexponential : config.exponential = true) {attempt : Nat}
    (hlarge : 2 ^ 64 ≤ config.initialBackoffSecs.toNat * 2 ^ attempt) :
    config.backoffDelay .checked attempt = .error .overflow := by
  rcases Nat.lt_or_ge attempt 64 with hfits | hpower
  · rw [ReconnectConfig.backoffDelay, if_pos hexponential,
      Build.keep_of_lt _ (Nat.pow_lt_pow_right Nat.one_lt_two hfits)]
    change (Build.checked.keep 64 (config.initialBackoffSecs.toNat * 2 ^ attempt) >>= _) = _
    rw [Build.keep_checked_of_le hlarge]
    rfl
  · exact backoffDelay_checked_of_power hexponential hpower

theorem backoffDelay_checked (hexponential : config.exponential = true) {attempt : Nat}
    (hpower : attempt < 64) (hproduct : config.initialBackoffSecs.toNat * 2 ^ attempt < 2 ^ 64) :
    config.backoffDelay .checked attempt =
      .ok (min (config.initialBackoffSecs.toNat * 2 ^ attempt) config.maxBackoffSecs.toNat) := by
  rw [ReconnectConfig.backoffDelay, if_pos hexponential,
    Build.keep_of_lt _ (Nat.pow_lt_pow_right Nat.one_lt_two hpower)]
  change (Build.checked.keep 64 (config.initialBackoffSecs.toNat * 2 ^ attempt) >>= _) = _
  rw [Build.keep_of_lt _ hproduct]
  rfl

/-- The wrapping build always has a delay, the checked one as long as nothing overflows. -/
theorem exists_backoffDelay_iff (attempt : Nat) :
    (∃ delay, config.backoffDelay build attempt = .ok delay) ↔
      (build = .checked → config.exponential = true →
        attempt < 64 ∧ config.initialBackoffSecs.toNat * 2 ^ attempt < 2 ^ 64) := by
  cases hexponential : config.exponential with
  | false => simp [backoffDelay_linear hexponential]
  | true =>
      cases build with
      | wrapping => simp [backoffDelay_wrapping hexponential]
      | checked =>
          simp only [true_imp_iff]
          constructor
          · rintro ⟨delay, hdelay⟩
            refine ⟨?_, ?_⟩
            · by_contra hpower
              rw [backoffDelay_checked_of_power hexponential (Nat.not_lt.mp hpower)] at hdelay
              cases hdelay
            · by_contra hproduct
              rw [backoffDelay_checked_of_product hexponential (Nat.not_lt.mp hproduct)] at hdelay
              cases hdelay
          · rintro ⟨hpower, hproduct⟩
            exact ⟨_, backoffDelay_checked hexponential hpower hproduct⟩

/-! ## The calls that send -/

/-- How an attempt to send the folder has ended. -/
def outcomeOf : FolderSender.PointStatus → Option Outcome
  | .returned _ => some .succeeded
  | .failed point error =>
      if (FolderSender.returnedError point error).isRecoverable then some .recoverable
      else some .permanent
  | .running _ | .panicked _ _ => none

/-- A phase of a call and a loop that stand at the same attempt. -/
def Matches : Phase → LoopState → Prop
  | .sending _ attempt _, state => state.status = .looping ∧ state.attempt = attempt
  | .returned _, state => state.status = .returned
  | .failed _ _, state => state.status = .refused ∨ ∃ attempts, state.status = .gaveUp attempts
  | .idle, _ | .retrying _ _ _, _ => False

/-- A call leaves an attempt the way the loop turns, as long as no number overflows. -/
theorem matches_turn {settings : Settings} {call : SendPath.Call} {attempt : Nat}
    {status : FolderSender.PointStatus} {store : Store} {delay : Nat}
    (hmax : settings.maxAttempts = config.maxAttempts.toNat)
    (hmatches : Matches (.sending call attempt status) state)
    (hsend : outcomeOf status = some round.send)
    (hdelay : config.backoffDelay build attempt = .ok delay) (hcounter : attempt + 1 < 2 ^ 32) :
    ∃ next, pathStep settings (.sending call attempt status, store) .leave = some (next, store) ∧
      (Matches next (sendTurn build config round state) ∨
        ∃ memory, next = .retrying call attempt memory ∧
          pathStep settings (next, store) .again =
            some (startAttempt call (attempt + 1) memory, store) ∧
          Matches (startAttempt call (attempt + 1) memory)
            (sendTurn build config round state)) := by
  obtain ⟨hlooping, hattempt⟩ := hmatches
  cases status with
  | running point => cases hsend
  | panicked point fault => cases hsend
  | returned memory =>
      refine ⟨.returned memory, rfl, .inl ?_⟩
      have hround : round.send = .succeeded := (Option.some.inj hsend).symm
      simp [Matches, sendTurn, hround]
  | failed point error =>
      refine ⟨afterFailure settings.maxAttempts call attempt point error, rfl, ?_⟩
      unfold afterFailure
      dsimp only
      cases hrecoverable : (FolderSender.returnedError point error).isRecoverable with
      | true =>
          have hround : round.send = .recoverable := by
            simpa [outcomeOf, hrecoverable] using hsend.symm
          rw [if_pos rfl, hmax]
          cases hretry : SendPath.shouldRetry config.maxAttempts.toNat attempt with
          | true =>
              refine .inr ⟨point.memory, rfl, rfl, ?_⟩
              simp [Matches, startAttempt, sendTurn, hround, ReconnectConfig.shouldRetry, hattempt,
                hretry, hdelay, Build.keep_of_lt build hcounter, hlooping]
          | false =>
              refine .inl ?_
              simp [Matches, sendTurn, hround, ReconnectConfig.shouldRetry, hattempt, hretry]
      | false =>
          have hround : round.send = .permanent := by
            simpa [outcomeOf, hrecoverable] using hsend.symm
          refine .inl ?_
          simp [Matches, sendTurn, hround]

end P2PFileTransfer.Core.Reconnect
