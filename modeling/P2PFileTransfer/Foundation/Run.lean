import Mathlib.Data.List.Basic

/-!
# Runs of a partial step function

A system is a function that takes a state and an input to the next state, or
refuses.  A run feeds a list of inputs.  An invariant that every accepted step
keeps holds in every state a run reaches, also when it is only kept by the
inputs that satisfy a side condition on the state they meet.
-/

namespace P2PFileTransfer.Foundation.Run

variable {State Input : Type}

def run (step : State → Input → Option State) : State → List Input → Option State
  | state, [] => some state
  | state, input :: rest => (step state input).bind fun next => run step next rest

/-- Every input of the run meets the side condition in the state it is fed to. -/
def Along (step : State → Input → Option State) (allowed : State → Input → Prop) :
    State → List Input → Prop
  | _, [] => True
  | state, input :: rest =>
      allowed state input ∧ ∀ next, step state input = some next → Along step allowed next rest

variable {step : State → Input → Option State}

@[simp]
theorem run_nil (state : State) : run step state [] = some state := rfl

theorem run_cons (state : State) (input : Input) (rest : List Input) :
    run step state (input :: rest) = (step state input).bind fun next => run step next rest := rfl

theorem run_cons_of_step {state next : State} {input : Input} (hstep : step state input = some next)
    (rest : List Input) : run step state (input :: rest) = run step next rest := by
  rw [run_cons, hstep, Option.bind_some]

theorem run_append (state : State) (first second : List Input) :
    run step state (first ++ second) =
      (run step state first).bind fun middle => run step middle second := by
  induction first generalizing state with
  | nil => rfl
  | cons input rest ih =>
      rw [List.cons_append, run_cons, run_cons]
      cases step state input with
      | none => rfl
      | some next => exact ih next

theorem run_append_of_run {state middle : State} {first : List Input}
    (hfirst : run step state first = some middle) (second : List Input) :
    run step state (first ++ second) = run step middle second := by
  rw [run_append, hfirst, Option.bind_some]

/-- A step invariant is a run invariant, under a side condition on the inputs. -/
theorem invariant_along {allowed : State → Input → Prop} (invariant : State → Prop)
    (hkeep : ∀ state input next, invariant state → allowed state input →
      step state input = some next → invariant next)
    {state final : State} {inputs : List Input} (hallowed : Along step allowed state inputs)
    (hstart : invariant state) (hrun : run step state inputs = some final) : invariant final := by
  induction inputs generalizing state with
  | nil =>
      cases hrun
      exact hstart
  | cons input rest ih =>
      obtain ⟨next, hstep, hrest⟩ := Option.bind_eq_some_iff.mp hrun
      exact ih (hallowed.2 next hstep) (hkeep state input next hstart hallowed.1 hstep) hrest

/-- An invariant may also speak about the inputs fed so far. -/
theorem invariant_history {allowed : State → Input → Prop} (invariant : List Input → State → Prop)
    (hkeep : ∀ past state input next, invariant past state → allowed state input →
      step state input = some next → invariant (past ++ [input]) next)
    {past inputs : List Input} {state final : State} (hallowed : Along step allowed state inputs)
    (hstart : invariant past state) (hrun : run step state inputs = some final) :
    invariant (past ++ inputs) final := by
  induction inputs generalizing past state with
  | nil =>
      cases hrun
      rw [List.append_nil]
      exact hstart
  | cons input rest ih =>
      obtain ⟨next, hstep, hrest⟩ := Option.bind_eq_some_iff.mp hrun
      have hnext := hkeep past state input next hstart hallowed.1 hstep
      have hfinal := ih (hallowed.2 next hstep) hnext hrest
      rw [List.append_assoc] at hfinal
      exact hfinal

theorem along_of_forall {allowed : State → Input → Prop} {inputs : List Input}
    (hall : ∀ state, ∀ input ∈ inputs, allowed state input) (state : State) :
    Along step allowed state inputs := by
  induction inputs generalizing state with
  | nil => trivial
  | cons input rest ih =>
      exact ⟨hall state input List.mem_cons_self,
        fun next _ => ih (fun state other hother =>
          hall state other (List.mem_cons_of_mem _ hother)) next⟩

theorem along_append {allowed : State → Input → Prop} {first second : List Input} {state : State}
    (hfirst : Along step allowed state first)
    (hsecond : ∀ middle, run step state first = some middle → Along step allowed middle second) :
    Along step allowed state (first ++ second) := by
  induction first generalizing state with
  | nil => exact hsecond state rfl
  | cons input rest ih =>
      refine ⟨hfirst.1, fun next hstep => ih (hfirst.2 next hstep) fun middle hrun => ?_⟩
      exact hsecond middle ((run_cons_of_step hstep rest).trans hrun)

theorem along_of_append {allowed : State → Input → Prop} {first second : List Input}
    {state middle : State} (hallowed : Along step allowed state (first ++ second))
    (hrun : run step state first = some middle) :
    Along step allowed state first ∧ Along step allowed middle second := by
  induction first generalizing state with
  | nil =>
      cases hrun
      exact ⟨trivial, hallowed⟩
  | cons input rest ih =>
      obtain ⟨next, hstep, hrest⟩ := Option.bind_eq_some_iff.mp hrun
      have hsplit := ih (hallowed.2 next hstep) hrest
      refine ⟨⟨hallowed.1, fun other hother => ?_⟩, hsplit.2⟩
      cases hstep.symm.trans hother
      exact hsplit.1

theorem along_and {allowed permitted : State → Input → Prop} {inputs : List Input} {state : State}
    (hallowed : Along step allowed state inputs) (hpermitted : Along step permitted state inputs) :
    Along step (fun state input => allowed state input ∧ permitted state input) state inputs := by
  induction inputs generalizing state with
  | nil => trivial
  | cons input rest ih =>
      constructor
      · exact ⟨hallowed.1, hpermitted.1⟩
      · intro next hstep
        exact ih (hallowed.2 next hstep) (hpermitted.2 next hstep)

/-- Two side conditions that agree where an invariant holds, and each of which keeps it. -/
theorem along_congr {allowed permitted : State → Input → Prop} (invariant : State → Prop)
    (hsame : ∀ state input, invariant state → (allowed state input ↔ permitted state input))
    (hkeep : ∀ state input next, invariant state → permitted state input →
      step state input = some next → invariant next) {inputs : List Input} {state : State}
    (hstart : invariant state) :
    Along step allowed state inputs ↔ Along step permitted state inputs := by
  induction inputs generalizing state with
  | nil => exact Iff.rfl
  | cons input rest ih =>
      have hhead := hsame state input hstart
      constructor
      · exact fun hallowed => ⟨hhead.mp hallowed.1, fun next hstep =>
          (ih (hkeep state input next hstart (hhead.mp hallowed.1) hstep)).mp
            (hallowed.2 next hstep)⟩
      · exact fun hpermitted => ⟨hhead.mpr hpermitted.1, fun next hstep =>
          (ih (hkeep state input next hstart hpermitted.1 hstep)).mpr (hpermitted.2 next hstep)⟩

theorem invariant_run (invariant : State → Prop)
    (hkeep : ∀ state input next, invariant state → step state input = some next → invariant next)
    {state final : State} {inputs : List Input} (hstart : invariant state)
    (hrun : run step state inputs = some final) : invariant final := by
  have hallowed : Along step (fun _ _ => True) state inputs :=
    along_of_forall (fun _ _ _ => trivial) state
  exact invariant_along invariant
    (fun state input next hinv _ hstep => hkeep state input next hinv hstep) hallowed hstart hrun

/-- Steps that lower a measure as long as the goal is not reached lead to it. -/
theorem exists_run_of_measure {allowed : Input → Prop} (invariant goal : State → Prop)
    (measure : State → Nat)
    (hstep : ∀ state, invariant state → goal state ∨ ∃ input next, allowed input ∧
      step state input = some next ∧ invariant next ∧ measure next < measure state)
    {state : State} (hstart : invariant state) :
    ∃ inputs final, (∀ input ∈ inputs, allowed input) ∧ run step state inputs = some final ∧
      invariant final ∧ goal final := by
  induction hsize : measure state using Nat.strongRecOn generalizing state with
  | _ size ih =>
      rcases hstep state hstart with hgoal | ⟨input, next, hallowed, hnext, hkept, hless⟩
      · refine ⟨[], state, ?_, rfl, hstart, hgoal⟩
        intro input hmem
        cases hmem
      · obtain ⟨inputs, final, hall, hrun, hfinal⟩ := ih (measure next) (hsize ▸ hless) hkept rfl
        refine ⟨input :: inputs, final, ?_, ?_, hfinal⟩
        · intro other hmem
          rcases List.mem_cons.mp hmem with rfl | hmem
          · exact hallowed
          · exact hall other hmem
        · rw [run_cons_of_step hnext, hrun]

/-- A value kept next to a run, updated in the state every input is fed to. -/
def track {Value : Type} (step : State → Input → Option State)
    (update : State → Input → Value → Value) : Value → State → List Input → Value
  | value, _, [] => value
  | value, state, input :: rest =>
      match step state input with
      | none => value
      | some next => track step update (update state input value) next rest

/-- An invariant may also speak about such a value. -/
theorem invariant_track {Value : Type} {update : State → Input → Value → Value}
    {allowed : Input → Prop} (invariant : Value → State → Prop)
    (hkeep : ∀ value state input next, invariant value state → allowed input →
      step state input = some next → invariant (update state input value) next)
    {value : Value} {state final : State} {inputs : List Input}
    (hallowed : ∀ input ∈ inputs, allowed input) (hstart : invariant value state)
    (hrun : run step state inputs = some final) :
    invariant (track step update value state inputs) final := by
  induction inputs generalizing value state with
  | nil =>
      cases hrun
      exact hstart
  | cons input rest ih =>
      obtain ⟨next, hstep, hrest⟩ := Option.bind_eq_some_iff.mp hrun
      rw [track, hstep]
      refine ih (fun other hother => hallowed other (List.mem_cons_of_mem _ hother)) ?_ hrest
      exact hkeep value state input next hstart (hallowed input List.mem_cons_self) hstep

end P2PFileTransfer.Foundation.Run
