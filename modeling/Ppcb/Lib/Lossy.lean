import Ppcb.Lib.Channel

/-!
# Channels that lose elements

Two machines at channels that keep the order, but lose elements of some kinds at any time
(`Loses`). Since what a machine waits for may be lost, it may also run into a timeout
(`TimedPort`), which takes nothing. The timeouts of each side and the losses are counted.
-/

set_option autoImplicit false

namespace Reactive

variable {σ τ ε δ ω ψ α β : Type*}

/-- One element of a kind that may be lost is lost. -/
inductive Loses (may : α → Prop) : List α → List α → Prop where
  | here {a : α} {rest : List α} (lost : may a) : Loses may (a :: rest) rest
  | later (a : α) {l l' : List α} (loses : Loses may l l') : Loses may (a :: l) (a :: l')

namespace Loses

variable {may : α → Prop} {l l' : List α}

theorem length (loses : Loses may l l') : l'.length + 1 = l.length := by
  induction loses with
  | here => rfl
  | later a _ ih => exact congrArg (· + 1) ih

theorem sublist (loses : Loses may l l') : l'.Sublist l := by
  induction loses with
  | here => exact List.sublist_cons_self _ _
  | later a _ ih => exact ih.cons_cons a

/-- Whatever kinds may be lost, if these may. -/
theorem mono {may' : α → Prop} (weaker : ∀ a ∈ l, may a → may' a) (loses : Loses may l l') :
    Loses may' l l' := by
  induction loses with
  | here lost => exact .here (weaker _ List.mem_cons_self lost)
  | later a _ ih => exact .later a (ih fun b member => weaker b (List.mem_cons_of_mem a member))

/-- What is lost is lost among the images as well. -/
theorem map {f : α → β} (loses : Loses may l l') :
    Loses (fun _ => True) (l.map f) (l'.map f) := by
  induction loses with
  | here lost => exact .here trivial
  | later a _ ih => exact .later (f a) ih

/-- A loss among images is a loss among what they are images of. -/
theorem of_map {may : β → Prop} {f : α → β} {l : List α} {k : List β}
    (loses : Loses may (l.map f) k) : ∃ l', k = l'.map f ∧ Loses (fun a => may (f a)) l l' := by
  induction l generalizing k with
  | nil => cases loses
  | cons a l ih =>
      cases loses with
      | here lost => exact ⟨l, rfl, .here lost⟩
      | later _ loses =>
          obtain ⟨l', rfl, loses'⟩ := ih loses
          exact ⟨a :: l', rfl, .later a loses'⟩

end Loses

/-- A port of a machine that may run into a timeout instead of taking something. -/
structure TimedPort (σ ε ω α β : Type*) extends Port σ ε ω α β where
  times : σ → ε → Prop

/-- Two machines, what is on its way to each, how often each has run into a timeout, and how much
has been lost. -/
structure Lossy (σ τ α β : Type*) where
  left : σ
  right : τ
  toRight : List α
  toLeft : List β
  leftTimeouts : ℕ
  rightTimeouts : ℕ
  losses : ℕ

namespace Lossy

/-- Two machines at their start. -/
def start (left : σ) (right : τ) : Lossy σ τ α β := ⟨left, right, [], [], 0, 0, 0⟩

/-- Nothing has been lost, and nothing has come too late. -/
def Faultless (s : Lossy σ τ α β) : Prop :=
  s.losses = 0 ∧ s.leftTimeouts = 0 ∧ s.rightTimeouts = 0

/-- Either machine takes an event, if what it takes is what comes next on its channel, or runs
into a timeout, or something is lost. -/
inductive Step (A : Machine σ ε ω) (B : Machine τ δ ψ) (p : TimedPort σ ε ω α β)
    (q : TimedPort τ δ ψ β α) (lostRight : α → Prop) (lostLeft : β → Prop) :
    Lossy σ τ α β → Lossy σ τ α β → Prop where
  | left {s : Lossy σ τ α β} {rest : List β} (e : ε) (may : p.may s.left e)
      (arrives : s.toLeft = p.takes e ++ rest) :
      Step A B p q lostRight lostLeft s
        { s with
          left := A.next s.left e
          toRight := s.toRight ++ p.puts (A.emit s.left e)
          toLeft := rest }
  | right {s : Lossy σ τ α β} {rest : List α} (d : δ) (may : q.may s.right d)
      (arrives : s.toRight = q.takes d ++ rest) :
      Step A B p q lostRight lostLeft s
        { s with
          right := B.next s.right d
          toRight := rest
          toLeft := s.toLeft ++ q.puts (B.emit s.right d) }
  | leftTimeout {s : Lossy σ τ α β} (e : ε) (times : p.times s.left e) :
      Step A B p q lostRight lostLeft s
        { s with
          left := A.next s.left e
          toRight := s.toRight ++ p.puts (A.emit s.left e)
          leftTimeouts := s.leftTimeouts + 1 }
  | rightTimeout {s : Lossy σ τ α β} (d : δ) (times : q.times s.right d) :
      Step A B p q lostRight lostLeft s
        { s with
          right := B.next s.right d
          toLeft := s.toLeft ++ q.puts (B.emit s.right d)
          rightTimeouts := s.rightTimeouts + 1 }
  | loseRight {s : Lossy σ τ α β} {rest : List α} (loses : Loses lostRight s.toRight rest) :
      Step A B p q lostRight lostLeft s { s with toRight := rest, losses := s.losses + 1 }
  | loseLeft {s : Lossy σ τ α β} {rest : List β} (loses : Loses lostLeft s.toLeft rest) :
      Step A B p q lostRight lostLeft s { s with toLeft := rest, losses := s.losses + 1 }

end Lossy

end Reactive
