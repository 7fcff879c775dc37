import Mathlib.Logic.Relation
import Mathlib.Tactic.Common

/-!
# What happens in every run

A goal is inevitable from a state when every run from it comes to the goal, however its
steps are chosen, and no run stops before.

The goal is inevitable when an invariant lets every state step or be at the goal, and every
step before the goal lowers a measure (`Inevitable.of_measure`), or it is when it is so in a model
that simulates the steps (`Inevitable.of_simulation`). Goals can be put one after the other
(`Inevitable.trans`). When its states are the last ones, a goal that is inevitable stays
so in every run (`Inevitable.along`), and a state with no step left is one of them
(`Inevitable.stuck`).
-/

set_option autoImplicit false

namespace Reactive

variable {σ : Type*} {step : σ → σ → Prop} {goal : σ → Prop}

/-- Every run comes to the goal, and none stops before it. -/
inductive Inevitable (step : σ → σ → Prop) (goal : σ → Prop) : σ → Prop where
  | now {s : σ} (reached : goal s) : Inevitable step goal s
  | later {s : σ} (enabled : ∃ t, step s t) (next : ∀ t, step s t → Inevitable step goal t) :
      Inevitable step goal s

namespace Inevitable

/-- **An invariant, progress and a measure that every step lowers make a goal inevitable.** -/
theorem of_measure {I : σ → Prop} (measure : σ → ℕ)
    (progress : ∀ s, I s → ¬ goal s → ∃ t, step s t)
    (lower : ∀ s t, I s → ¬ goal s → step s t → I t ∧ measure t < measure s)
    {s : σ} (start : I s) : Inevitable step goal s := by
  induction bound : measure s using Nat.strongRecOn generalizing s with
  | ind n ih =>
      by_cases reached : goal s
      · exact .now reached
      · refine .later (progress s start reached) fun t next => ?_
        obtain ⟨kept, less⟩ := lower s t start reached next
        exact ih (measure t) (bound ▸ less) kept rfl

/-- Some run comes to the goal. -/
theorem reaches {s : σ} (inevitable : Inevitable step goal s) :
    ∃ t, Relation.ReflTransGen step s t ∧ goal t := by
  induction inevitable with
  | now reached => exact ⟨_, .refl, reached⟩
  | later enabled _ ih =>
      obtain ⟨t, first⟩ := enabled
      obtain ⟨u, run, reached⟩ := ih t first
      exact ⟨u, .head first run, reached⟩

/-- What is inevitable stays so in every run, when its states are the last ones. -/
theorem along {s t : σ} (last : ∀ u v, goal u → ¬ step u v) (inevitable : Inevitable step goal s)
    (run : Relation.ReflTransGen step s t) : Inevitable step goal t := by
  induction run with
  | refl => exact inevitable
  | tail _ next ih =>
      cases ih with
      | now reached => exact absurd next (last _ _ reached)
      | later _ all => exact all _ next

/-- What is inevitable has happened where no step is left. -/
theorem stuck {s : σ} (inevitable : Inevitable step goal s) (end_here : ∀ t, ¬ step s t) :
    goal s := by
  cases inevitable with
  | now reached => exact reached
  | later enabled _ =>
      obtain ⟨t, next⟩ := enabled
      exact absurd next (end_here t)

/-- What is inevitable from every state of an inevitable goal is inevitable. -/
theorem trans {goal' : σ → Prop} {s : σ} (first : Inevitable step goal s)
    (second : ∀ t, goal t → Inevitable step goal' t) : Inevitable step goal' s := by
  induction first with
  | now reached => exact second _ reached
  | later enabled _ ih => exact .later enabled ih

/-- What a goal that is inevitable implies is inevitable. -/
theorem mono {goal' : σ → Prop} {s : σ} (weaker : ∀ t, goal t → goal' t)
    (inevitable : Inevitable step goal s) : Inevitable step goal' s :=
  inevitable.trans fun t reached => .now (weaker t reached)

/-- **What is inevitable in a model is inevitable in what it simulates**, if the steps of the one
are steps of the other and nothing stops before the goal. -/
theorem of_simulation {ρ : Type*} {step' : ρ → ρ → Prop} {goal' : ρ → Prop} {R : ρ → σ → Prop}
    (reached : ∀ x s, R x s → goal' x → goal s)
    (progress : ∀ x s, R x s → ¬ goal s → ∃ t, step s t)
    (simulates : ∀ x s t, R x s → ¬ goal s → step s t → goal t ∨ ∃ y, step' x y ∧ R y t)
    {x : ρ} {s : σ} (related : R x s) (inevitable : Inevitable step' goal' x) :
    Inevitable step goal s := by
  induction inevitable generalizing s with
  | now there => exact .now (reached _ s related there)
  | later _ _ ih =>
      by_cases there : goal s
      · exact .now there
      · refine .later (progress _ s related there) fun t next => ?_
        rcases simulates _ s t related there next with there | ⟨y, next', related'⟩
        · exact .now there
        · exact ih y next' related'

end Inevitable

/-- An invariant of the steps holds in every state of a run. -/
theorem invariant_run {I : σ → Prop} (kept : ∀ s t, I s → step s t → I t) {s t : σ}
    (run : Relation.ReflTransGen step s t) (start : I s) : I t := by
  induction run with
  | refl => exact start
  | tail _ next ih => exact kept _ _ ih next

end Reactive
