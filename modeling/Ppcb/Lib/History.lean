import Mathlib.Data.List.Induction
import Mathlib.Tactic.Common

/-!
# Histories of calls that may fail

A state starts at `init`, and a call may refuse to change it. After a history of calls the
state is what the calls, one after the other, have made of it (`runAll`). A history is
admitted when every call finds room after the calls before it (`Admits`); that speaks about
histories only.

If some invariant between history and state says what each call does (`Tracks`), then a run
succeeds exactly for the admitted histories (`Tracks.isSome_iff`), and the invariant holds where
it ends (`Tracks.inv_of_runAll`). A scope bounds the histories that are looked at.
-/

set_option autoImplicit false

namespace History

variable {σ α : Type*}

/-- One call after the other. -/
def runAll (step : σ → α → Option σ) (init : σ) (history : List α) : Option σ :=
  history.foldlM step init

@[simp] theorem runAll_nil (step : σ → α → Option σ) (init : σ) :
    runAll step init [] = some init := rfl

@[simp] theorem runAll_concat (step : σ → α → Option σ) (init : σ) (history : List α) (a : α) :
    runAll step init (history ++ [a]) =
      (runAll step init history).bind fun state => step state a := by
  simp only [runAll, List.foldlM_append, List.foldlM_cons, List.foldlM_nil, Option.bind_eq_bind,
    Option.pure_def, Option.bind_fun_some]

/-- Every call of the history finds room after the calls before it. -/
def Admits (room : List α → α → Prop) (history : List α) : Prop :=
  ∀ before a after, history = before ++ a :: after → room before a

section Admits

variable {room : List α → α → Prop} {history : List α}

theorem Admits.earlier (admits : Admits room history) {before : List α}
    (part : before <+: history) : Admits room before := by
  obtain ⟨rest, rfl⟩ := part
  intro before a after same
  apply admits before a (after ++ rest)
  rw [same, List.append_assoc, List.cons_append]

theorem admits_nil : Admits room [] := by
  intro before a after same
  exact absurd same.symm (List.append_ne_nil_of_right_ne_nil before (List.cons_ne_nil a after))

theorem admits_concat {a : α} :
    Admits room (history ++ [a]) ↔ Admits room history ∧ room history a := by
  constructor
  · intro admits
    exact ⟨admits.earlier (List.prefix_append history [a]), admits history a [] rfl⟩
  · rintro ⟨admits, last⟩ before b after same
    rcases List.eq_nil_or_concat after with rfl | ⟨after', c, end'⟩
    · obtain ⟨rfl, rfl⟩ := List.append_inj' same rfl |>.imp id List.singleton_inj.mp
      exact last
    · rw [end', List.concat_eq_append, ← List.cons_append, ← List.append_assoc] at same
      exact admits before b after' (List.append_inj' same rfl).1

end Admits

/-- The invariant says what each call does: it finds room and keeps the invariant, or it finds
no room and fails. -/
structure Tracks (step : σ → α → Option σ) (init : σ) (scope : List α → Prop)
    (room : List α → α → Prop) (inv : List α → σ → Prop) : Prop where
  within : ∀ history a, scope (history ++ [a]) → scope history
  start : inv [] init
  call : ∀ history a state, scope (history ++ [a]) → inv history state →
    (room history a ∧ ∃ next, step state a = some next ∧ inv (history ++ [a]) next) ∨
      (¬ room history a ∧ step state a = none)

namespace Tracks

variable {step : σ → α → Option σ} {init : σ} {scope : List α → Prop}
  {room : List α → α → Prop} {inv : List α → σ → Prop}

/-- **The invariant holds at the end of every run.** -/
theorem inv_of_runAll (tracks : Tracks step init scope room inv) {history : List α}
    (bounded : scope history) {state : σ} (run : runAll step init history = some state) :
    inv history state := by
  induction history using List.reverseRecOn generalizing state with
  | nil =>
      cases run
      exact tracks.start
  | append_singleton history a ih =>
      rw [runAll_concat, Option.bind_eq_some_iff] at run
      obtain ⟨before, run, last⟩ := run
      have held := ih (tracks.within history a bounded) run
      rcases tracks.call history a before bounded held with ⟨-, next, done, kept⟩ | ⟨-, failed⟩
      · rw [done] at last
        cases last
        exact kept
      · rw [failed] at last
        cases last

/-- **A run succeeds exactly when every call finds room.** -/
theorem isSome_iff (tracks : Tracks step init scope room inv) {history : List α}
    (bounded : scope history) : (runAll step init history).isSome ↔ Admits room history := by
  induction history using List.reverseRecOn with
  | nil =>
      rw [runAll_nil]
      exact iff_of_true rfl admits_nil
  | append_singleton history a ih =>
      have earlier := ih (tracks.within history a bounded)
      rw [runAll_concat, admits_concat, ← earlier]
      cases run : runAll step init history with
      | none => exact iff_of_false nofun fun both => nomatch both.1
      | some state =>
          have held := tracks.inv_of_runAll (tracks.within history a bounded) run
          rw [Option.bind_some]
          rcases tracks.call history a state bounded held with ⟨room, next, done, -⟩ | ⟨full, failed⟩
          · rw [done]
            exact iff_of_true rfl ⟨rfl, room⟩
          · rw [failed]
            exact iff_of_false nofun fun both => full both.2

end Tracks

end History
