import Ppcb.Lib.Machine
import Mathlib.Logic.Relation

/-!
# Two machines over a network that loses, repeats and reorders

The network keeps every message either machine has sent. Delivering a message does
not take it away, so a message may arrive late, repeatedly, out of order or never,
but only a message that was sent can arrive. A `Link` says when an event of a
machine is possible, given what the other machine has sent so far.

An invariant of the joint runs is proved from one step of either machine
(`Reachable.invariant`). What was sent is never withdrawn (`Step.fromLeft_grows`), so
a bound on the traffic of a run bounds the traffic of every earlier state
(`Reachable.invariant_within`).
-/

set_option autoImplicit false

namespace Reactive

variable {σ τ ε δ α β : Type*}

/-- When an event of one machine is possible, given what the other has sent. -/
structure Link (ε δ α β : Type*) where
  toLeft : ε → List β → Prop
  toRight : δ → List α → Prop

/-- The joint state: the two machines, and everything each has sent. -/
structure Duplex (σ τ α β : Type*) where
  left : σ
  right : τ
  fromLeft : List α
  fromRight : List β

namespace Duplex

variable (A : Machine σ ε α) (B : Machine τ δ β) (link : Link ε δ α β)

/-- The left machine takes an event. -/
def leftStep (s : Duplex σ τ α β) (e : ε) : Duplex σ τ α β :=
  { s with left := A.next s.left e, fromLeft := s.fromLeft ++ A.emit s.left e }

/-- The right machine takes an event. -/
def rightStep (s : Duplex σ τ α β) (d : δ) : Duplex σ τ α β :=
  { s with right := B.next s.right d, fromRight := s.fromRight ++ B.emit s.right d }

/-- One step of the joint system. -/
inductive Step : Duplex σ τ α β → Duplex σ τ α β → Prop where
  | left (s : Duplex σ τ α β) (e : ε) (possible : link.toLeft e s.fromRight) :
      Step s (s.leftStep A e)
  | right (s : Duplex σ τ α β) (d : δ) (possible : link.toRight d s.fromLeft) :
      Step s (s.rightStep B d)

/-- The states of the joint runs from a start. -/
abbrev Reachable : Duplex σ τ α β → Duplex σ τ α β → Prop :=
  Relation.ReflTransGen (Step A B link)

variable {A B link}

/-- An invariant is proved from one step of either machine. -/
theorem Reachable.invariant {I : Duplex σ τ α β → Prop} {start s : Duplex σ τ α β}
    (run : Reachable A B link start s) (begin : I start)
    (left : ∀ s e, I s → link.toLeft e s.fromRight → I (s.leftStep A e))
    (right : ∀ s d, I s → link.toRight d s.fromLeft → I (s.rightStep B d)) : I s := by
  induction run with
  | refl => exact begin
  | tail _ step ih =>
      cases step with
      | left e possible => exact left _ e ih possible
      | right d possible => exact right _ d ih possible

theorem Step.fromLeft_grows {s s' : Duplex σ τ α β} (step : Step A B link s s') :
    s.fromLeft.length ≤ s'.fromLeft.length := by
  cases step with
  | left e => simp [leftStep]
  | right d => exact Nat.le_refl _

/-- An invariant of the runs in which the left machine sends fewer than `bound`
messages. -/
theorem Reachable.invariant_within {I : Duplex σ τ α β → Prop} {start s : Duplex σ τ α β}
    {bound : ℕ} (run : Reachable A B link start s) (begin : I start)
    (left : ∀ s e, I s → link.toLeft e s.fromRight →
      (s.leftStep A e).fromLeft.length < bound → I (s.leftStep A e))
    (right : ∀ s d, I s → link.toRight d s.fromLeft →
      s.fromLeft.length < bound → I (s.rightStep B d))
    (within : s.fromLeft.length < bound) : I s := by
  induction run with
  | refl => exact begin
  | tail _ step ih =>
      have before := ih (Nat.lt_of_le_of_lt step.fromLeft_grows within)
      cases step with
      | left e possible => exact left _ e before possible within
      | right d possible => exact right _ d before possible within

/-! ## Playing a list of events -/

section Play

variable (A B link)
variable [∀ e sent, Decidable (link.toLeft e sent)] [∀ d sent, Decidable (link.toRight d sent)]

/-- Take the events in order; `none` when one of them is not possible. -/
def play : Duplex σ τ α β → List (ε ⊕ δ) → Option (Duplex σ τ α β)
  | s, [] => some s
  | s, .inl e :: es => if link.toLeft e s.fromRight then play (s.leftStep A e) es else none
  | s, .inr d :: es => if link.toRight d s.fromLeft then play (s.rightStep B d) es else none

variable {A B link}

/-- What can be played is reachable. -/
theorem play_reachable {s t : Duplex σ τ α β} {es : List (ε ⊕ δ)}
    (played : play A B link s es = some t) : Reachable A B link s t := by
  induction es generalizing s with
  | nil =>
      cases played
      exact .refl
  | cons e es ih =>
      cases e with
      | inl e =>
          simp only [play] at played
          split at played
          · exact .head (.left s e ‹_›) (ih played)
          · cases played
      | inr d =>
          simp only [play] at played
          split at played
          · exact .head (.right s d ‹_›) (ih played)
          · cases played

/-- The end of a run that can be played is reachable. -/
theorem get_play_reachable {s : Duplex σ τ α β} {es : List (ε ⊕ δ)}
    (possible : (play A B link s es).isSome = true) :
    Reachable A B link s ((play A B link s es).get possible) :=
  play_reachable (Option.some_get possible).symm

end Play

end Duplex

end Reactive
