import Ppcb.Lib.Duplex
import Mathlib.Logic.Function.Basic

/-!
# Many machines and one

A family of machines that all talk to one machine, which answers them one message at a time
(`Crowd`). Seen by one member of the family the crowd is a `Duplex` (`Crowd.view`): a
member's own step is a step of its view, the step of another member leaves the view alone,
and a step of the shared machine is a step of every view.

So an invariant of the crowd that speaks about the views one by one is proved from one step of
a view. It may use, at that step, what holds of all the other views (`Reachable.views`).
-/

set_option autoImplicit false

namespace Reactive

universe u v

variable {ι : Type u}

/-- When an event is possible: at a member, given what the shared machine has sent; at the
shared machine, given what each member has sent. -/
structure CrowdLink (ι : Type u) (ε δ α β : Type v) where
  toMember : ι → ε → List β → Prop
  toShared : δ → (ι → List α) → Prop

/-- The joint state: the members, the shared machine, and everything each has sent. -/
structure Crowd (σ : ι → Type v) (τ α β : Type v) where
  member : ∀ i, σ i
  shared : τ
  fromMember : ι → List α
  fromShared : List β

namespace Crowd

variable [DecidableEq ι] {σ : ι → Type v} {τ ε δ α β : Type v}
variable (A : ∀ i, Machine (σ i) ε α) (B : Machine τ δ β) (link : CrowdLink ι ε δ α β)

/-- A member takes an event. -/
def memberStep (s : Crowd σ τ α β) (i : ι) (e : ε) : Crowd σ τ α β :=
  { s with
    member := Function.update s.member i ((A i).next (s.member i) e)
    fromMember := Function.update s.fromMember i (s.fromMember i ++ (A i).emit (s.member i) e) }

/-- The shared machine takes an event. -/
def sharedStep (s : Crowd σ τ α β) (d : δ) : Crowd σ τ α β :=
  { s with shared := B.next s.shared d, fromShared := s.fromShared ++ B.emit s.shared d }

/-- One step of the crowd. -/
inductive Step : Crowd σ τ α β → Crowd σ τ α β → Prop where
  | member (s : Crowd σ τ α β) (i : ι) (e : ε) (possible : link.toMember i e s.fromShared) :
      Step s (s.memberStep A i e)
  | shared (s : Crowd σ τ α β) (d : δ) (possible : link.toShared d s.fromMember) :
      Step s (s.sharedStep B d)

/-- The states of the runs from a start. -/
abbrev Reachable : Crowd σ τ α β → Crowd σ τ α β → Prop :=
  Relation.ReflTransGen (Step A B link)

/-! ## The view of one member -/

omit [DecidableEq ι] in
/-- What one member and the shared machine make up. -/
def view (s : Crowd σ τ α β) (i : ι) : Duplex (σ i) τ α β :=
  ⟨s.member i, s.shared, s.fromMember i, s.fromShared⟩

variable {A B link}

theorem view_memberStep (s : Crowd σ τ α β) (i : ι) (e : ε) :
    (s.memberStep A i e).view i = (s.view i).leftStep (A i) e := by
  simp only [view, memberStep, Duplex.leftStep, Function.update_self]

theorem view_memberStep_of_ne (s : Crowd σ τ α β) {i j : ι} (e : ε) (other : j ≠ i) :
    (s.memberStep A i e).view j = s.view j := by
  simp only [view, memberStep, Function.update_of_ne other]

/-- **A property of every view** is proved from one step of a view, which may use the property
of all the views before it. -/
theorem Reachable.views {I : ∀ i, Duplex (σ i) τ α β → Prop} {start s : Crowd σ τ α β}
    (run : Reachable A B link start s) (begin : ∀ i, I i (start.view i))
    (member : ∀ s i e, (∀ j, I j (view s j)) → link.toMember i e s.fromShared →
      I i ((s.view i).leftStep (A i) e))
    (shared : ∀ s d, (∀ j, I j (view s j)) → link.toShared d s.fromMember →
      ∀ i, I i ((s.view i).rightStep B d)) : ∀ i, I i (s.view i) := by
  induction run with
  | refl => exact begin
  | tail _ step ih =>
      intro j
      cases step with
      | member i e possible =>
          by_cases own : j = i
          · subst own
            rw [view_memberStep]
            exact member _ j e ih possible
          · rw [view_memberStep_of_ne _ e own]
            exact ih j
      | shared d possible => exact shared _ d ih possible j

/-! ## Playing a list of events -/

section Play

variable (A B link)
variable [∀ i e sent, Decidable (link.toMember i e sent)]
  [∀ d sent, Decidable (link.toShared d sent)]

/-- Take the events in order; `none` when one of them is not possible. -/
def play : Crowd σ τ α β → List ((ι × ε) ⊕ δ) → Option (Crowd σ τ α β)
  | s, [] => some s
  | s, .inl (i, e) :: es =>
      if link.toMember i e s.fromShared then play (s.memberStep A i e) es else none
  | s, .inr d :: es =>
      if link.toShared d s.fromMember then play (s.sharedStep B d) es else none

variable {A B link}

/-- What can be played is reachable. -/
theorem play_reachable {s t : Crowd σ τ α β} {es : List ((ι × ε) ⊕ δ)}
    (played : play A B link s es = some t) : Reachable A B link s t := by
  induction es generalizing s with
  | nil =>
      cases played
      exact .refl
  | cons e es ih =>
      cases e with
      | inl e =>
          simp only [play] at played
          split at played
          · exact .head (.member s e.1 e.2 ‹_›) (ih played)
          · cases played
      | inr d =>
          simp only [play] at played
          split at played
          · exact .head (.shared s d ‹_›) (ih played)
          · cases played

/-- The end of a run that can be played is reachable. -/
theorem get_play_reachable {s : Crowd σ τ α β} {es : List ((ι × ε) ⊕ δ)}
    (possible : (play A B link s es).isSome = true) :
    Reachable A B link s ((play A B link s es).get possible) :=
  play_reachable (Option.some_get possible).symm

end Play

end Crowd

end Reactive
