import Mathlib.Data.List.Basic
import Mathlib.Tactic.Common

/-!
# Machines driven by events

A machine answers every event with a new state and a list of outputs. A run is
the fold of the machine over a list of events.

* An invariant kept by every step holds after every run (`invariant_after`). A
  property that the steps which meet a side condition keep holds after every run whose
  steps meet it (`invariant_along`, and `history_along` with the outputs so far).
* A counter that a step raises exactly when it is marked holds the number of marked
  steps of the run (`counter_after`).
* A machine can be watched by somebody who sees something else of its steps than its outputs
  (`watching`), and what every step keeps of the state and what was seen holds after every run
  (`watched`).
* Deleting hidden events changes neither the visible outputs nor the state up to a
  relation, when a hidden event keeps the relation on one side and every other
  event keeps it on both (`unwinding`).
-/

set_option autoImplicit false

namespace Reactive

variable {State Event Output : Type*}

/-- A machine that answers an event with a new state and a list of outputs. -/
structure Machine (State Event Output : Type*) where
  step : State → Event → State × List Output

namespace Machine

variable (M : Machine State Event Output)

/-- The state after one event. -/
def next (s : State) (e : Event) : State := (M.step s e).1

/-- The outputs of one event. -/
def emit (s : State) (e : Event) : List Output := (M.step s e).2

/-- The state after a run. -/
def after : State → List Event → State
  | s, [] => s
  | s, e :: es => after (M.next s e) es

/-- The outputs of a run, in order. -/
def outputs : State → List Event → List Output
  | _, [] => []
  | s, e :: es => M.emit s e ++ outputs (M.next s e) es

@[simp] theorem after_nil (s : State) : M.after s [] = s := rfl

@[simp] theorem after_cons (s : State) (e : Event) (es : List Event) :
    M.after s (e :: es) = M.after (M.next s e) es := rfl

@[simp] theorem outputs_nil (s : State) : M.outputs s [] = [] := rfl

@[simp] theorem outputs_cons (s : State) (e : Event) (es : List Event) :
    M.outputs s (e :: es) = M.emit s e ++ M.outputs (M.next s e) es := rfl

/-! ## Invariants of runs -/

/-- Every step of the run meets the side condition, in the state it is taken in. -/
def Along (ok : State → Event → Prop) : State → List Event → Prop
  | _, [] => True
  | s, e :: es => ok s e ∧ Along ok (M.next s e) es

variable {M}

/-- Events that meet the side condition in every state make a run that does. -/
theorem along_of_forall {ok : State → Event → Prop} {es : List Event}
    (always : ∀ e ∈ es, ∀ s, ok s e) (s : State) : M.Along ok s es := by
  induction es generalizing s with
  | nil => trivial
  | cons e es ih =>
      refine ⟨always e List.mem_cons_self s, ih (fun f member => ?_) _⟩
      exact always f (List.mem_cons_of_mem e member)

/-- A condition that fails in some run from every state that has not stopped holds in all runs
from a state exactly when it has stopped. -/
theorem forever_iff {P : State → Prop} {ok : State → Event → Prop}
    (stays : ∀ s e, P s → ok s e ∧ P (M.next s e))
    (fails : ∀ s, ¬ P s → ∃ es, ¬ M.Along ok s es) (s : State) :
    (∀ es, M.Along ok s es) ↔ P s := by
  constructor
  · intro always
    by_contra running
    obtain ⟨es, violated⟩ := fails s running
    exact violated (always es)
  · intro stopped es
    induction es generalizing s with
    | nil => trivial
    | cons e es ih =>
        obtain ⟨here, stopped'⟩ := stays s e stopped
        exact ⟨here, ih _ stopped'⟩

/-- A property of the state and the outputs so far that the steps which meet the side
condition keep holds after every run whose steps meet it. -/
theorem history_along {P : State → List Output → Prop} {ok : State → Event → Prop}
    (kept : ∀ s history e, P s history → ok s e → P (M.next s e) (history ++ M.emit s e))
    {s : State} {history : List Output} {es : List Event} (start : P s history)
    (along : M.Along ok s es) : P (M.after s es) (history ++ M.outputs s es) := by
  induction es generalizing s history with
  | nil =>
      rw [outputs_nil, List.append_nil]
      exact start
  | cons e es ih =>
      rw [outputs_cons, ← List.append_assoc]
      exact ih (kept s history e start along.1) along.2

/-- A property of the state and the outputs so far that every step keeps holds after every
run. -/
theorem history_after {P : State → List Output → Prop}
    (kept : ∀ s history e, P s history → P (M.next s e) (history ++ M.emit s e)) {s : State}
    {history : List Output} (start : P s history) (es : List Event) :
    P (M.after s es) (history ++ M.outputs s es) := by
  have along : M.Along (fun _ _ => True) s es := along_of_forall (fun _ _ _ => trivial) s
  exact history_along (fun s history e held _ => kept s history e held) start along

/-- A property kept by every step holds after every run. -/
theorem invariant_after {I : State → Prop} (kept : ∀ s e, I s → I (M.next s e))
    {s : State} (start : I s) (es : List Event) : I (M.after s es) := by
  induction es generalizing s with
  | nil => exact start
  | cons e es ih => exact ih (kept s e start)

/-- Side conditions that an invariant makes equivalent hold along the same runs. -/
theorem along_congr {I : State → Prop} {ok ok' : State → Event → Prop}
    (kept : ∀ s e, I s → I (M.next s e)) (same : ∀ s e, I s → (ok s e ↔ ok' s e))
    {s : State} (start : I s) (es : List Event) : M.Along ok s es ↔ M.Along ok' s es := by
  induction es generalizing s with
  | nil => exact Iff.rfl
  | cons e es ih => exact and_congr (same s e start) (ih (kept s e start))

/-- A property that the steps which meet the side condition keep holds after every run whose
steps meet it. -/
theorem invariant_along {I : State → Prop} {ok : State → Event → Prop}
    (kept : ∀ s e, I s → ok s e → I (M.next s e)) {s : State} (start : I s) {es : List Event}
    (along : M.Along ok s es) : I (M.after s es) := by
  induction es generalizing s with
  | nil => exact start
  | cons e es ih => exact ih (kept s e start along.1) along.2

variable {Mark : Type*}

variable (M) in
/-- The marks of a run, in order. A step has at most one. -/
def marks (mark : State → Event → Option Mark) : State → List Event → List Mark
  | _, [] => []
  | s, e :: es => (mark s e).toList ++ marks mark (M.next s e) es

/-- A counter that a step raises by one exactly when it has a mark counts the marks of
the run. -/
theorem counter_after (counter : State → ℕ) (mark : State → Event → Option Mark)
    (raised : ∀ s e, counter (M.next s e) = counter s + (mark s e).toList.length)
    (s : State) (es : List Event) :
    counter (M.after s es) = counter s + (M.marks mark s es).length := by
  induction es generalizing s with
  | nil => rfl
  | cons e es ih =>
      rw [after_cons, ih (M.next s e), raised s e, marks, List.length_append, Nat.add_assoc]

/-! ## Watching a machine -/

variable {Observation : Type*}

variable (M) in
/-- The same machine, of which something else is seen. -/
def watching (watch : State → Event → List Observation) : Machine State Event Observation where
  step s e := (M.next s e, watch s e)

theorem after_watching (watch : State → Event → List Observation) (s : State)
    (es : List Event) : (M.watching watch).after s es = M.after s es := by
  induction es generalizing s with
  | nil => rfl
  | cons e es ih => exact ih (M.next s e)

/-- A property of the state and what was seen so far that every step keeps holds after every
run. -/
theorem watched {watch : State → Event → List Observation}
    {P : State → List Observation → Prop}
    (kept : ∀ s seen e, P s seen → P (M.next s e) (seen ++ watch s e)) {s : State}
    (start : P s []) (es : List Event) : P (M.after s es) ((M.watching watch).outputs s es) := by
  have all := history_after (M := M.watching watch) kept start es
  rwa [after_watching, List.nil_append] at all

/-! ## Hiding events -/

/-- **Unwinding.** A relation that a hidden event keeps when only the first machine takes
it, silently as far as the observer sees, and that every other event keeps when
both take it, with the same visible outputs, relates a run to the run with the hidden
events deleted. The side condition is asked of the steps of the first run only. -/
theorem unwinding {R : State → State → Prop} {hidden : Event → Bool}
    {ok : State → Event → Prop} {visible : Output → Bool}
    (hide : ∀ s t e, hidden e = true → ok s e → R s t →
      R (M.next s e) t ∧ (M.emit s e).filter visible = [])
    (keep : ∀ s t e, hidden e = false → ok s e → R s t →
      R (M.next s e) (M.next t e) ∧
        (M.emit s e).filter visible = (M.emit t e).filter visible)
    {s t : State} {es : List Event} (related : R s t) (along : M.Along ok s es) :
    R (M.after s es) (M.after t (es.filter (!hidden ·))) ∧
      (M.outputs s es).filter visible =
        (M.outputs t (es.filter (!hidden ·))).filter visible := by
  induction es generalizing s t with
  | nil => exact ⟨related, rfl⟩
  | cons e es ih =>
      cases seen : hidden e with
      | true =>
          obtain ⟨related', silent⟩ := hide s t e seen along.1 related
          simpa [List.filter_cons, seen, silent] using ih related' along.2
      | false =>
          obtain ⟨related', same⟩ := keep s t e seen along.1 related
          simpa [List.filter_cons, seen, same] using ih related' along.2

end Machine

end Reactive
