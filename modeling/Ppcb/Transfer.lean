import Mathlib.Data.List.Basic
import Mathlib.Logic.Relation
import Mathlib.Tactic.Common

/-!
# A transfer, as its two ends see it

What the protocols over UDP are for, without packets, ids or losses. The receiving end
opens sessions; in the last one it accepts the chunks of the file in order, until the
session is complete. The sending end counts chunks as confirmed, and may finish.

`Transfer.Step` lets the sender count a chunk only when some session has it, and finish
only when some session is complete. In every state of every run each session holds the
first chunks of the file, in order (`Reachable.safe`).
-/

set_option autoImplicit false

namespace Ppcb

variable {α : Type*}

structure Transfer (α : Type*) where
  received : List (List α)
  confirmed : ℕ
  finished : Bool

namespace Transfer

/-- Some session has accepted chunk `i`. -/
def Accepted (t : Transfer α) (i : ℕ) : Prop := ∃ session ∈ t.received, i < session.length

/-- Some session is complete. -/
def Completed (Complete : List α → Prop) (t : Transfer α) : Prop :=
  ∃ session ∈ t.received, Complete session

variable (chunk : ℕ → α) (Complete : List α → Prop)

inductive Step : Transfer α → Transfer α → Prop where
  | opened (t : Transfer α) : Step t { t with received := t.received ++ [[]] }
  | accepted (t : Transfer α) (earlier : List (List α)) (last : List α)
      (current : t.received = earlier ++ [last]) (incomplete : ¬ Complete last) :
      Step t { t with received := earlier ++ [last ++ [chunk last.length]] }
  | confirmed (t : Transfer α) (accepted : t.Accepted t.confirmed) :
      Step t { t with confirmed := t.confirmed + 1 }
  | finished (t : Transfer α) (completed : t.Completed Complete) :
      Step t { t with finished := true }

/-- The states of the runs from a start. -/
abbrev Reachable : Transfer α → Transfer α → Prop := Relation.ReflTransGen (Step chunk Complete)

def start : Transfer α := ⟨[], 0, false⟩

/-- What the two ends may rely on. -/
structure Safe (t : Transfer α) : Prop where
  inOrder : ∀ session ∈ t.received, session = (List.range session.length).map chunk
  confirmed : ∀ i < t.confirmed, t.Accepted i
  finished : t.finished = true → t.Completed Complete

variable {chunk Complete}

/-! ## What is accepted stays accepted -/

theorem Step.accepted_mono {t t' : Transfer α} (step : Step chunk Complete t t') {i : ℕ}
    (accepted : t.Accepted i) : t'.Accepted i := by
  obtain ⟨session, member, longer⟩ := accepted
  cases step with
  | opened => exact ⟨session, List.mem_append_left _ member, longer⟩
  | accepted earlier last current =>
      rw [current, List.mem_append, List.mem_singleton] at member
      rcases member with member | rfl
      · exact ⟨session, List.mem_append_left _ member, longer⟩
      · refine ⟨_, List.mem_append_right _ (List.mem_singleton_self _), ?_⟩
        rw [List.length_append]
        exact Nat.lt_add_right _ longer
  | confirmed => exact ⟨session, member, longer⟩
  | finished => exact ⟨session, member, longer⟩

theorem Step.completed_mono {t t' : Transfer α} (step : Step chunk Complete t t')
    (completed : t.Completed Complete) : t'.Completed Complete := by
  obtain ⟨session, member, complete⟩ := completed
  cases step with
  | opened => exact ⟨session, List.mem_append_left _ member, complete⟩
  | accepted earlier last current incomplete =>
      rw [current, List.mem_append, List.mem_singleton] at member
      rcases member with member | rfl
      · exact ⟨session, List.mem_append_left _ member, complete⟩
      · exact absurd complete incomplete
  | confirmed => exact ⟨session, member, complete⟩
  | finished => exact ⟨session, member, complete⟩

/-! ## Safety -/

theorem safe_start : Safe chunk Complete start where
  inOrder _ member := nomatch member
  confirmed _ below := nomatch below
  finished done := nomatch done

theorem Step.inOrder {t t' : Transfer α} (step : Step chunk Complete t t')
    (before : ∀ session ∈ t.received, session = (List.range session.length).map chunk) :
    ∀ session ∈ t'.received, session = (List.range session.length).map chunk := by
  intro session member
  cases step with
  | opened =>
      rcases List.mem_append.mp member with member | member
      · exact before session member
      · cases List.mem_singleton.mp member
        rfl
  | accepted earlier last current =>
      rcases List.mem_append.mp member with member | member
      · exact before session (by rw [current]; exact List.mem_append_left _ member)
      · cases List.mem_singleton.mp member
        have first := before last (by rw [current]; simp)
        rw [List.length_append, List.length_singleton, List.range_succ, List.map_append,
          List.map_singleton, ← first]
  | confirmed => exact before session member
  | finished => exact before session member

theorem Step.safe {t t' : Transfer α} (step : Step chunk Complete t t')
    (before : Safe chunk Complete t) : Safe chunk Complete t' where
  inOrder := step.inOrder before.inOrder
  confirmed := by
    intro i below
    have kept : t.Accepted i → t'.Accepted i := step.accepted_mono
    cases step with
    | confirmed accepted =>
        rcases Nat.lt_succ_iff_lt_or_eq.mp below with below | rfl
        · exact before.confirmed i below
        · exact accepted
    | opened => exact kept (before.confirmed i below)
    | accepted => exact kept (before.confirmed i below)
    | finished => exact kept (before.confirmed i below)
  finished := by
    intro done
    have kept : t.Completed Complete → t'.Completed Complete := step.completed_mono
    cases step with
    | finished completed => exact completed
    | opened => exact kept (before.finished done)
    | accepted => exact kept (before.finished done)
    | confirmed => exact kept (before.finished done)

/-- **Every reachable state is safe.** -/
theorem Reachable.safe {t : Transfer α} (run : Reachable chunk Complete start t) :
    Safe chunk Complete t := by
  induction run with
  | refl => exact safe_start
  | tail _ step ih => exact step.safe ih

end Transfer

end Ppcb
