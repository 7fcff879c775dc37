import Ppcb.Lib.Channel
import Ppcb.Lib.Inevitable

/-!
# Machines that follow a script

A machine follows a script when all it can do is the acts of the script in their order: it
takes what the act takes, as soon as that has come, and puts what the act puts
(`Port.Follows`).

When the two machines of a joined pair follow scripts, an order of the acts in which each finds
what it takes is a way to meet (`Meets`). Acts of the two sides do not get in each other's way,
so one such order is enough for all: whatever act is done first, the rest can still be done
(`Meets.left_first`, `Meets.right_first`). The end of the scripts is inevitable
(`Joined.meet_inevitable`), and its schedule is never asked for.
-/

set_option autoImplicit false

namespace Reactive

variable {σ τ ε δ ω ψ α β : Type*}

/-- One act of a script. -/
structure Act (α β : Type*) where
  takes : List β
  puts : List α

namespace Act

/-- Something is put. -/
def put (a : α) : Act α β := ⟨[], [a]⟩

/-- Something is taken. -/
def take (b : β) : Act α β := ⟨[b], []⟩

end Act

namespace Port

variable (port : Port σ ε ω α β) (M : Machine σ ε ω)

/-- All the machine can do from here are these acts, and then it is where `done` says. -/
def Follows (done : σ → Prop) : List (Act α β) → σ → Prop
  | [], s => done s
  | act :: script, s =>
      (∃ e, port.may s e ∧ port.takes e = act.takes) ∧
        ∀ e, port.may s e → (port.takes e).length = act.takes.length ∧
          (port.takes e = act.takes →
            port.puts (M.emit s e) = act.puts ∧ Follows done script (M.next s e))

/-- The machine does nothing more unless something comes. -/
def Rests (s : σ) : Prop := ∀ e, port.may s e → port.takes e ≠ []

variable {port M} {done done' : σ → Prop}

/-- A machine that can only take rests. -/
theorem Follows.rests {act : Act α β} {script : List (Act α β)} {s : σ}
    (follows : port.Follows M done (act :: script) s) (hears : act.takes ≠ []) : port.Rests s := by
  intro e may nothing
  have length := (follows.2 e may).1
  rw [nothing] at length
  exact hears (List.length_eq_zero_iff.mp length.symm)

/-- Scripts are followed one after the other. -/
theorem Follows.append {first second : List (Act α β)} {s : σ}
    (follows : port.Follows M done first s)
    (next : ∀ t, done t → port.Follows M done' second t) :
    port.Follows M done' (first ++ second) s := by
  induction first generalizing s with
  | nil => exact next s follows
  | cons act first ih =>
      obtain ⟨enabled, all⟩ := follows
      refine ⟨enabled, fun e may => ?_⟩
      obtain ⟨length, acts⟩ := all e may
      exact ⟨length, fun takes => ⟨(acts takes).1, ih (acts takes).2⟩⟩

/-- The first part of a script leads to where the second is followed. -/
theorem Follows.split (first : List (Act α β)) {second : List (Act α β)} {s : σ}
    (follows : port.Follows M done (first ++ second) s) :
    port.Follows M (fun t => port.Follows M done second t) first s := by
  induction first generalizing s with
  | nil => exact follows
  | cons act first ih =>
      obtain ⟨enabled, all⟩ := follows
      refine ⟨enabled, fun e may => ?_⟩
      obtain ⟨length, acts⟩ := all e may
      exact ⟨length, fun takes => ⟨(acts takes).1, ih (acts takes).2⟩⟩

theorem Follows.mono {script : List (Act α β)} {s : σ} (follows : port.Follows M done script s)
    (weaker : ∀ t, done t → done' t) : port.Follows M done' script s := by
  have nothing : port.Follows M done' (script ++ []) s := follows.append weaker
  rwa [List.append_nil] at nothing

/-- A loop whose passes are scripts, as far as an invariant of the passes goes. -/
theorem Follows.loop {I : ℕ → σ → Prop} {script : ℕ → List (Act α β)} {n : ℕ}
    (pass : ∀ i s, i < n → I i s → port.Follows M (I (i + 1)) (script i) s)
    {s : σ} (first : I 0 s) :
    port.Follows M (I n) ((List.range n).flatMap script) s := by
  induction n with
  | zero => exact first
  | succ n ih =>
      rw [List.range_succ, List.flatMap_append, List.flatMap_singleton]
      exact (ih fun i s below => pass i s (Nat.lt_succ_of_lt below)).append
        fun t there => pass n t (Nat.lt_succ_self n) there

/-- An event that can be taken is the next act, if what comes is what the script takes. -/
theorem Follows.step {script : List (Act α β)} {s : σ} (follows : port.Follows M done script s)
    (rests : ∀ t, done t → port.Rests t) {e : ε} (may : port.may s e) {rest : List β}
    (comes : script.flatMap Act.takes = port.takes e ++ rest) :
    ∃ act script', script = act :: script' ∧ port.takes e = act.takes ∧
      port.puts (M.emit s e) = act.puts ∧ port.Follows M done script' (M.next s e) := by
  cases script with
  | nil => exact absurd (List.append_eq_nil_iff.mp comes.symm).1 (rests s follows e may)
  | cons act script =>
      obtain ⟨length, acts⟩ := follows.2 e may
      rw [List.flatMap_cons] at comes
      have takes : port.takes e = act.takes := List.append_inj_left comes.symm length
      exact ⟨act, script, rfl, takes, acts takes⟩

end Port

/-! ## Scripts that meet -/

/-- Two scripts can be done to their ends from what is on its way to either side. -/
inductive Meets : List (Act α β) → List (Act β α) → List β → List α → Prop where
  | finished : Meets [] [] [] []
  | left (act : Act α β) {left : List (Act α β)} {right : List (Act β α)} {toLeft : List β}
      {toRight : List α} (rest : Meets left right toLeft (toRight ++ act.puts)) :
      Meets (act :: left) right (act.takes ++ toLeft) toRight
  | right (act : Act β α) {left : List (Act α β)} {right : List (Act β α)} {toLeft : List β}
      {toRight : List α} (rest : Meets left right (toLeft ++ act.puts) toRight) :
      Meets left (act :: right) toLeft (act.takes ++ toRight)

namespace Meets

variable {left : List (Act α β)} {right : List (Act β α)} {toLeft : List β} {toRight : List α}

/-- A meeting is one from the other side, too. -/
theorem symm (meets : Meets left right toLeft toRight) : Meets right left toRight toLeft := by
  induction meets with
  | finished => exact .finished
  | left act _ ih => exact .right act ih
  | right act _ ih => exact .left act ih

/-- What the left side will take is on its way or will be put. -/
theorem takes (meets : Meets left right toLeft toRight) :
    left.flatMap Act.takes = toLeft ++ right.flatMap Act.puts := by
  induction meets with
  | finished => rfl
  | left act _ ih => rw [List.flatMap_cons, ih, List.append_assoc]
  | right act _ ih => rw [ih, List.flatMap_cons, List.append_assoc]

/-- **Any act whose time has come can be done first.** -/
theorem left_first {act : Act α β} {rest : List β}
    (meets : Meets (act :: left) right toLeft toRight) (here : toLeft = act.takes ++ rest) :
    Meets left right rest (toRight ++ act.puts) := by
  generalize whole : act :: left = acts at meets
  induction meets generalizing rest with
  | finished => cases whole
  | left _ meets _ =>
      cases whole
      rwa [← List.append_cancel_left here]
  | @right other acts right toLeft toRight _ ih =>
      rw [List.append_assoc]
      refine .right other (ih ?_ whole)
      rw [here, List.append_assoc]

theorem right_first {act : Act β α} {rest : List α}
    (meets : Meets left (act :: right) toLeft toRight) (here : toRight = act.takes ++ rest) :
    Meets left right (toLeft ++ act.puts) rest :=
  (meets.symm.left_first here).symm

theorem put {a : α} (rest : Meets left right toLeft (toRight ++ [a])) :
    Meets (.put a :: left) right toLeft toRight :=
  .left (.put a) rest

theorem take {b : β} (rest : Meets left right toLeft toRight) :
    Meets (.take b :: left) right (b :: toLeft) toRight := by
  refine .left (.take b) ?_
  rwa [Act.take, List.append_nil]

/-- What comes is taken, one by one. -/
theorem take_all {l : List β} (rest : Meets left right toLeft toRight) :
    Meets (l.map .take ++ left) right (l ++ toLeft) toRight := by
  induction l with
  | nil => exact rest
  | cons b l ih => exact ih.take

/-- The other side takes something and answers. -/
theorem answer {a : α} {answers : List β} (rest : Meets left right (toLeft ++ answers) toRight) :
    Meets left (⟨[a], answers⟩ :: right) toLeft (a :: toRight) :=
  .right ⟨[a], answers⟩ rest

end Meets

/-! ## Joined machines with scripts -/

namespace Joined

/-- What was put and is not yet taken. -/
structure Pending (s : Joined σ τ α β) (toLeft : List β) (toRight : List α) : Prop where
  left : s.fromRight = s.atLeft ++ toLeft
  right : s.fromLeft = s.atRight ++ toRight

variable {A : Machine σ ε ω} {B : Machine τ δ ψ} {p : Port σ ε ω α β} {q : Port τ δ ψ β α}
variable {s t : Joined σ τ α β} {toLeft : List β} {toRight : List α}

theorem Pending.start (left : σ) (right : τ) :
    (start left right : Joined σ τ α β).Pending [] [] := ⟨rfl, rfl⟩

theorem Pending.leftStep {e : ε} (pending : s.Pending (p.takes e ++ toLeft) toRight) :
    (s.leftStep A p e).Pending toLeft (toRight ++ p.puts (A.emit s.left e)) where
  left := pending.left.trans (List.append_assoc _ _ _).symm
  right := (congrArg (· ++ _) pending.right).trans (List.append_assoc _ _ _)

theorem Pending.rightStep {d : δ} (pending : s.Pending toLeft (q.takes d ++ toRight)) :
    (s.rightStep B q d).Pending (toLeft ++ q.puts (B.emit s.right d)) toRight where
  left := (congrArg (· ++ _) pending.left).trans (List.append_assoc _ _ _)
  right := pending.right.trans (List.append_assoc _ _ _).symm

/-- When nothing is on its way, machines that rest do nothing. -/
theorem Pending.still (pending : s.Pending [] []) (restsLeft : p.Rests s.left)
    (restsRight : q.Rests s.right) : ¬ Step A B p q s t := by
  intro step
  cases step with
  | left e may arrives =>
      rw [pending.left, List.prefix_append_right_inj] at arrives
      exact restsLeft e may (List.prefix_nil.mp arrives)
  | right d may arrives =>
      rw [pending.right, List.prefix_append_right_inj] at arrives
      exact restsRight d may (List.prefix_nil.mp arrives)

/-- Both machines follow scripts that can meet. -/
structure Meeting (A : Machine σ ε ω) (B : Machine τ δ ψ) (p : Port σ ε ω α β)
    (q : Port τ δ ψ β α) (doneLeft : σ → Prop) (doneRight : τ → Prop)
    (acts : List (Act α β)) (acts' : List (Act β α)) (s : Joined σ τ α β) : Prop where
  left : p.Follows A doneLeft acts s.left
  right : q.Follows B doneRight acts' s.right
  meets : ∃ toLeft toRight, s.Pending toLeft toRight ∧ Meets acts acts' toLeft toRight

variable {doneLeft : σ → Prop} {doneRight : τ → Prop}
variable {acts : List (Act α β)} {acts' : List (Act β α)}

/-- Before the end one of the machines can go on. -/
theorem Meeting.progress (meeting : Meeting A B p q doneLeft doneRight acts acts' s)
    (before : acts ≠ [] ∨ acts' ≠ []) : ∃ t, Step A B p q s t := by
  obtain ⟨followsLeft, followsRight, toLeft, toRight, pending, meets⟩ := meeting
  cases meets with
  | finished => exact absurd before (by simp)
  | left act _ =>
      obtain ⟨⟨e, may, takes⟩, -⟩ := followsLeft
      refine ⟨_, .left s e may ?_⟩
      rw [takes, pending.left, ← List.append_assoc]
      exact List.prefix_append _ _
  | right act _ =>
      obtain ⟨⟨d, may, takes⟩, -⟩ := followsRight
      refine ⟨_, .right s d may ?_⟩
      rw [takes, pending.right, ← List.append_assoc]
      exact List.prefix_append _ _

/-- What the two sides have put and what is left to put. -/
structure Remains (s t : Joined σ τ α β) (acts : List (Act α β)) (acts' : List (Act β α))
    (rest : List (Act α β)) (rest' : List (Act β α)) : Prop where
  left : t.fromLeft ++ rest.flatMap Act.puts = s.fromLeft ++ acts.flatMap Act.puts
  right : t.fromRight ++ rest'.flatMap Act.puts = s.fromRight ++ acts'.flatMap Act.puts

theorem Remains.refl (s : Joined σ τ α β) (acts : List (Act α β)) (acts' : List (Act β α)) :
    Remains s s acts acts' acts acts' := ⟨rfl, rfl⟩

theorem Remains.trans {s t u : Joined σ τ α β} {acts rest more : List (Act α β)}
    {acts' rest' more' : List (Act β α)} (first : Remains s t acts acts' rest rest')
    (second : Remains t u rest rest' more more') : Remains s u acts acts' more more' :=
  ⟨second.left.trans first.left, second.right.trans first.right⟩

/-- Every step is an act of one of the scripts, and the rest can still meet. -/
theorem Meeting.step (restsLeft : ∀ s, doneLeft s → p.Rests s)
    (restsRight : ∀ s, doneRight s → q.Rests s)
    (meeting : Meeting A B p q doneLeft doneRight acts acts' s) (step : Step A B p q s t) :
    ∃ rest rest', Meeting A B p q doneLeft doneRight rest rest' t ∧
      rest.length + rest'.length < acts.length + acts'.length ∧
      Remains s t acts acts' rest rest' := by
  obtain ⟨followsLeft, followsRight, toLeft, toRight, pending, meets⟩ := meeting
  cases step with
  | left e may arrives =>
      rw [pending.left, List.prefix_append_right_inj] at arrives
      obtain ⟨rest, rfl⟩ := arrives
      have comes := meets.takes
      rw [List.append_assoc] at comes
      obtain ⟨act, script, rfl, takes, puts, follows⟩ := followsLeft.step restsLeft may comes
      have next : (s.leftStep A p e).Pending rest (toRight ++ act.puts) := puts ▸ pending.leftStep
      refine ⟨script, acts', ⟨follows, followsRight, _, _, next,
        meets.left_first (by rw [takes])⟩, Nat.add_lt_add_right (Nat.lt_succ_self _) _, ?_, rfl⟩
      rw [List.flatMap_cons, ← List.append_assoc, ← puts]
      rfl
  | right d may arrives =>
      rw [pending.right, List.prefix_append_right_inj] at arrives
      obtain ⟨rest, rfl⟩ := arrives
      have comes := meets.symm.takes
      rw [List.append_assoc] at comes
      obtain ⟨act, script, rfl, takes, puts, follows⟩ := followsRight.step restsRight may comes
      have next : (s.rightStep B q d).Pending (toLeft ++ act.puts) rest :=
        puts ▸ pending.rightStep
      refine ⟨acts, script, ⟨followsLeft, follows, _, _, next,
        meets.right_first (by rw [takes])⟩, Nat.add_lt_add_left (Nat.lt_succ_self _) _, rfl, ?_⟩
      rw [List.flatMap_cons, ← List.append_assoc, ← puts]
      rfl

/-- **In every run** the rest of the scripts can still meet. -/
theorem Meeting.run (restsLeft : ∀ s, doneLeft s → p.Rests s)
    (restsRight : ∀ s, doneRight s → q.Rests s)
    (meeting : Meeting A B p q doneLeft doneRight acts acts' s)
    (run : Relation.ReflTransGen (Step A B p q) s t) :
    ∃ rest rest', Meeting A B p q doneLeft doneRight rest rest' t ∧
      Remains s t acts acts' rest rest' := by
  induction run with
  | refl => exact ⟨acts, acts', meeting, .refl s acts acts'⟩
  | tail _ step ih =>
      obtain ⟨rest, rest', met, before⟩ := ih
      obtain ⟨more, more', met', -, after⟩ := met.step restsLeft restsRight step
      exact ⟨more, more', met', before.trans after⟩

/-- **The end of scripts that can meet is inevitable.** -/
theorem meet_inevitable (restsLeft : ∀ s, doneLeft s → p.Rests s)
    (restsRight : ∀ s, doneRight s → q.Rests s)
    (meeting : Meeting A B p q doneLeft doneRight acts acts' s) :
    Inevitable (Step A B p q)
      (fun t => doneLeft t.left ∧ doneRight t.right ∧ t.Pending [] []) s := by
  induction count : acts.length + acts'.length using Nat.strongRecOn generalizing acts acts' s with
  | ind n ih =>
      by_cases before : acts ≠ [] ∨ acts' ≠ []
      · refine .later (meeting.progress before) fun t step => ?_
        obtain ⟨rest, rest', met, fewer, -⟩ := meeting.step restsLeft restsRight step
        exact ih _ (count ▸ fewer) met rfl
      · rw [not_or, not_not, not_not] at before
        obtain ⟨rfl, rfl⟩ := before
        obtain ⟨followsLeft, followsRight, toLeft, toRight, pending, meets⟩ := meeting
        cases meets
        exact .now ⟨followsLeft, followsRight, pending⟩

end Joined

end Reactive
