import Mathlib.Data.Prod.Lex

/-!
# What a system cannot avoid

A goal is inevitable in a state when every way of going on leads to it, and until it is
reached there is a way to go on.  A rank in a well-founded order that every step lowers,
together with an invariant under which the system is at its goal or can move, makes it so.
-/

namespace P2PFileTransfer.Foundation.Liveness

variable {State Input Rank : Type}

inductive Inevitable (step : State → Input → Option State) (allowed : State → Input → Prop)
    (goal : State → Prop) : State → Prop where
  | reached {state : State} (hgoal : goal state) : Inevitable step allowed goal state
  | ahead {state : State}
      (hopen : ∃ input next, allowed state input ∧ step state input = some next)
      (hnext : ∀ input next, allowed state input → step state input = some next →
        Inevitable step allowed goal next) : Inevitable step allowed goal state

variable {step : State → Input → Option State} {allowed : State → Input → Prop}
  {goal : State → Prop} {state : State}

/-- The rule for a rank: the induction is on the rank of the state. -/
theorem inevitable_of_rank [LT Rank] [WellFoundedLT Rank] (invariant : State → Prop)
    (rank : State → Rank)
    (hopen : ∀ state, invariant state →
      goal state ∨ ∃ input next, allowed state input ∧ step state input = some next)
    (hkeep : ∀ state input next, invariant state → allowed state input →
      step state input = some next → invariant next ∧ rank next < rank state)
    (hstart : invariant state) : Inevitable step allowed goal state := by
  induction hrank : rank state using WellFoundedLT.induction generalizing state with
  | _ _ ih =>
      rcases hopen state hstart with hgoal | hsome
      · exact .reached hgoal
      · refine .ahead hsome fun input next hallowed hstep => ?_
        obtain ⟨hnext, hlower⟩ := hkeep state input next hstart hallowed hstep
        exact ih (rank next) (hrank ▸ hlower) hnext rfl

theorem Inevitable.imp {other : State → Prop} (hweaker : ∀ state, goal state → other state)
    (hinevitable : Inevitable step allowed goal state) : Inevitable step allowed other state := by
  induction hinevitable with
  | reached hgoal => exact .reached (hweaker _ hgoal)
  | ahead hopen _ ih => exact .ahead hopen ih

/-! ## Ranks of four figures -/

abbrev Figures := Nat ×ₗ Nat ×ₗ Nat ×ₗ Nat

def figures (first second third fourth : Nat) : Figures :=
  toLex (first, toLex (second, toLex (third, fourth)))

@[simp]
theorem figures_lt_figures {a b c d e f g h : Nat} : figures a b c d < figures e f g h ↔
    a < e ∨ a = e ∧ (b < f ∨ b = f ∧ (c < g ∨ c = g ∧ d < h)) := by
  simp only [figures, Prod.Lex.toLex_lt_toLex]

end P2PFileTransfer.Foundation.Liveness
