import Ppcb.Lib.Machine
import Ppcb.Lib.Connection

/-!
# Machines at channels that keep the order

A `Port` says how a machine meets the two channels that lead to and from it: which events it
can take in a state, what an event takes off the incoming channel, and what the outputs of a
step put on the outgoing one.

`Port.Run` are the runs of one machine, with all that it has taken and put. Nothing is said of
the other end, so what holds of these runs (`Run.invariant`) holds whoever is there.

Two machines are *joined* when each takes what the other has put, in that order, with nothing
left out and nothing added (`Joined.Step`). What is put need not arrive, and an event that
takes nothing, such as a failure, is up to the machine alone. A run of the pair is a run of each
(`Joined.Reachable.leftRun`, `rightRun`), and what one has taken begins what the other has put
(`inOrder`).

A connection of two processes, on which nothing fails and each sees the end of the other, is a
case of this when the machines take the calls of the processes (`Port.Carries`): each process
runs as its machine (`Port.Carries.run_connected`), and the runs are joint runs
(`Joined.of_connected`).
-/

set_option autoImplicit false

namespace Reactive

variable {σ τ ε δ ω ψ α β : Type*}

/-- How a machine meets its channels. -/
structure Port (σ ε ω α β : Type*) where
  may : σ → ε → Prop
  takes : ε → List β
  puts : List ω → List α

namespace Port

/-- The runs of a machine at a port: the state, what was taken and what was put. -/
inductive Run (port : Port σ ε ω α β) (M : Machine σ ε ω) (start : σ) :
    σ → List β → List α → Prop where
  | begin : Run port M start start [] []
  | step {s : σ} {taken : List β} {put : List α} (e : ε) (run : Run port M start s taken put)
      (may : port.may s e) :
      Run port M start (M.next s e) (taken ++ port.takes e) (put ++ port.puts (M.emit s e))

variable {port : Port σ ε ω α β} {M : Machine σ ε ω}

/-- **What the start has and every step keeps holds in every run.** -/
theorem Run.invariant {I : σ → List β → List α → Prop} {start s : σ} {taken : List β}
    {put : List α} (run : port.Run M start s taken put) (first : I start [] [])
    (kept : ∀ s taken put e, I s taken put → port.may s e →
      I (M.next s e) (taken ++ port.takes e) (put ++ port.puts (M.emit s e))) :
    I s taken put := by
  induction run with
  | begin => exact first
  | step e _ may ih => exact kept _ _ _ e ih may

/-- What the outputs of a run put on the channel. -/
def puttings (port : Port σ ε ω α β) (M : Machine σ ε ω) : σ → List ε → List α
  | _, [] => []
  | s, e :: es => port.puts (M.emit s e) ++ puttings port M (M.next s e) es

/-- A run over events that can be taken. -/
theorem Run.play {start s : σ} {taken : List β} {put : List α} {es : List ε}
    (run : port.Run M start s taken put) (along : M.Along port.may s es) :
    port.Run M start (M.after s es) (taken ++ es.flatMap port.takes)
      (put ++ port.puttings M s es) := by
  induction es generalizing s taken put with
  | nil =>
      rw [List.flatMap_nil, puttings, List.append_nil, List.append_nil]
      exact run
  | cons e es ih =>
      have played := ih (.step e run along.1) along.2
      rwa [List.append_assoc, List.append_assoc, ← List.flatMap_cons] at played

end Port

/-- Two machines, what each has put and what each has taken. -/
structure Joined (σ τ α β : Type*) where
  left : σ
  right : τ
  fromLeft : List α
  fromRight : List β
  atLeft : List β
  atRight : List α

namespace Joined

/-- Two machines at their start. -/
def start (left : σ) (right : τ) : Joined σ τ α β := ⟨left, right, [], [], [], []⟩

section Steps

variable (A : Machine σ ε ω) (B : Machine τ δ ψ) (p : Port σ ε ω α β) (q : Port τ δ ψ β α)

/-- The left machine takes an event. -/
def leftStep (s : Joined σ τ α β) (e : ε) : Joined σ τ α β :=
  { s with
    left := A.next s.left e
    fromLeft := s.fromLeft ++ p.puts (A.emit s.left e)
    atLeft := s.atLeft ++ p.takes e }

/-- The right machine takes an event. -/
def rightStep (s : Joined σ τ α β) (d : δ) : Joined σ τ α β :=
  { s with
    right := B.next s.right d
    fromRight := s.fromRight ++ q.puts (B.emit s.right d)
    atRight := s.atRight ++ q.takes d }

/-- Either machine takes an event, if what it takes is what comes next on its channel. -/
inductive Step : Joined σ τ α β → Joined σ τ α β → Prop where
  | left (s : Joined σ τ α β) (e : ε) (may : p.may s.left e)
      (arrives : s.atLeft ++ p.takes e <+: s.fromRight) : Step s (s.leftStep A p e)
  | right (s : Joined σ τ α β) (d : δ) (may : q.may s.right d)
      (arrives : s.atRight ++ q.takes d <+: s.fromLeft) : Step s (s.rightStep B q d)

/-- The states of the joint runs from a start. -/
abbrev Reachable : Joined σ τ α β → Joined σ τ α β → Prop :=
  Relation.ReflTransGen (Step A B p q)

end Steps

variable {A : Machine σ ε ω} {B : Machine τ δ ψ} {p : Port σ ε ω α β} {q : Port τ δ ψ β α}
variable {left : σ} {right : τ} {s : Joined σ τ α β}

/-- **A joint run is a run of the left machine.** -/
theorem Reachable.leftRun (run : Reachable A B p q (start left right) s) :
    p.Run A left s.left s.atLeft s.fromLeft := by
  induction run with
  | refl => exact .begin
  | tail _ step ih =>
      cases step with
      | left e may arrives => exact .step e ih may
      | right d may arrives => exact ih

/-- **A joint run is a run of the right machine.** -/
theorem Reachable.rightRun (run : Reachable A B p q (start left right) s) :
    q.Run B right s.right s.atRight s.fromRight := by
  induction run with
  | refl => exact .begin
  | tail _ step ih =>
      cases step with
      | left e may arrives => exact ih
      | right d may arrives => exact .step d ih may

/-- **What one machine has taken begins what the other has put.** -/
theorem Reachable.inOrder (run : Reachable A B p q (start left right) s) :
    s.atLeft <+: s.fromRight ∧ s.atRight <+: s.fromLeft := by
  induction run with
  | refl => exact ⟨List.prefix_rfl, List.prefix_rfl⟩
  | tail _ step ih =>
      cases step with
      | left e may arrives => exact ⟨arrives, ih.2.trans (List.prefix_append _ _)⟩
      | right d may arrives => exact ⟨ih.1.trans (List.prefix_append _ _), arrives⟩

end Joined

/-! ## Connections are a case -/

/-- The machine takes the calls of the process: the event in which a `read` returns some bytes,
and the event in which a `write` returns a number. -/
structure Port.Carries (port : Port σ ε ω α α) (M : Machine σ ε ω) (P : Process σ α) where
  onRead : List α → ε
  onWrite : ℕ → ε
  reads : ∀ {s n bytes}, P.call s = .read n → bytes.length ≤ n →
    port.may s (onRead bytes) ∧ port.takes (onRead bytes) = bytes ∧
      M.next s (onRead bytes) = P.onRead s bytes ∧ port.puts (M.emit s (onRead bytes)) = []
  writes : ∀ {s bytes k}, P.call s = .write bytes → k ≤ bytes.length →
    port.may s (onWrite k) ∧ port.takes (onWrite k) = [] ∧
      M.next s (onWrite k) = P.onWrite s k ∧ port.puts (M.emit s (onWrite k)) = bytes.take k

namespace Port.Carries

variable {port : Port σ ε ω α α} {M : Machine σ ε ω} {P : Process σ α}

/-- A call that succeeds is an event. -/
theorem move (carries : port.Carries M P) {s t : σ} {input rest out : List α}
    (move : P.Move s input t rest out) :
    ∃ e, port.may s e ∧ input = port.takes e ++ rest ∧ M.next s e = t ∧
      port.puts (M.emit s e) = out := by
  cases move with
  | reads blocked some' fits =>
      obtain ⟨may, takes, next, puts⟩ := carries.reads blocked fits
      exact ⟨_, may, by rw [takes], next, puts⟩
  | writes blocked positive fits =>
      obtain ⟨may, takes, next, puts⟩ := carries.writes blocked fits
      exact ⟨_, may, by rw [takes, List.nil_append], next, puts⟩

/-- A `read` that finds the end of the stream is an event. -/
theorem ended (carries : port.Carries M P) {s : σ} {n : ℕ} (blocked : P.call s = .read n) :
    ∃ e, port.may s e ∧ port.takes e = [] ∧ M.next s e = P.onRead s [] ∧
      port.puts (M.emit s e) = [] :=
  ⟨_, carries.reads blocked (Nat.zero_le n)⟩

/-- **A process at its end of a connection runs as its machine**, whoever is at the other end. -/
theorem run_connected (carries : port.Carries M P) {Q : Process τ α} {start : σ} {taken : List α}
    {c d : Connected σ τ α} (run : Connected.Reachable P Q c d)
    (first : port.Run M start c.left taken c.fromLeft) :
    ∃ taken', port.Run M start d.left taken' d.fromLeft := by
  induction run with
  | refl => exact ⟨taken, first⟩
  | tail _ step ih =>
      obtain ⟨taken', run⟩ := ih
      cases step with
      | left move =>
          obtain ⟨e, may, -, rfl, rfl⟩ := carries.move move
          exact ⟨_, .step e run may⟩
      | leftEnd blocked =>
          obtain ⟨e, may, -, next, puts⟩ := carries.ended blocked
          have ended := run.step e may
          rw [next, puts, List.append_nil] at ended
          exact ⟨_, ended⟩
      | right => exact ⟨taken', run⟩
      | rightEnd => exact ⟨taken', run⟩

end Port.Carries

namespace Joined

variable {A : Machine σ ε ω} {B : Machine τ δ ψ} {p : Port σ ε ω α α} {q : Port τ δ ψ α α}
variable {P : Process σ α} {Q : Process τ α}

/-- The joint state of a connection of which this has been read. -/
def reading (c : Connected σ τ α) (atLeft atRight : List α) : Joined σ τ α α :=
  ⟨c.left, c.right, c.fromLeft, c.fromRight, atLeft, atRight⟩

/-- What was read and what is on its way are what was written. -/
def Divides (c : Connected σ τ α) (atLeft atRight : List α) : Prop :=
  atLeft ++ c.toLeft = c.fromRight ∧ atRight ++ c.toRight = c.fromLeft

/-- **A step of a connection is a joint step.** -/
theorem step_reading (carriesLeft : p.Carries A P) (carriesRight : q.Carries B Q)
    {c d : Connected σ τ α} {atLeft atRight : List α} (divides : Divides c atLeft atRight)
    (step : Connected.Step P Q c d) : ∃ atLeft' atRight',
      Step A B p q (reading c atLeft atRight) (reading d atLeft' atRight') ∧
        Divides d atLeft' atRight' := by
  obtain ⟨toLeft, toRight⟩ := divides
  cases step with
  | @left s _ r fromLeft fromRight _ _ _ _ move =>
      obtain ⟨e, may, rfl, rfl, rfl⟩ := carriesLeft.move move
      rw [← List.append_assoc] at toLeft
      refine ⟨_, _, .left ⟨s, r, fromLeft, fromRight, atLeft, atRight⟩ e may ⟨_, toLeft⟩,
        toLeft, ?_⟩
      show atRight ++ (_ ++ _) = fromLeft ++ _
      rw [← List.append_assoc]
      exact congrArg (· ++ _) toRight
  | @right s r _ fromLeft fromRight _ _ _ _ move =>
      obtain ⟨d, may, rfl, rfl, rfl⟩ := carriesRight.move move
      rw [← List.append_assoc] at toRight
      refine ⟨_, _, .right ⟨s, r, fromLeft, fromRight, atLeft, atRight⟩ d may ⟨_, toRight⟩,
        ?_, toRight⟩
      show atLeft ++ (_ ++ _) = fromRight ++ _
      rw [← List.append_assoc]
      exact congrArg (· ++ _) toLeft
  | @leftEnd s r fromLeft fromRight toRight n blocked gone =>
      obtain ⟨e, may, takes, next, puts⟩ := carriesLeft.ended blocked
      have arrives : atLeft ++ p.takes e <+: fromRight := by
        rw [takes, List.append_nil]
        exact ⟨[], toLeft⟩
      have step := Step.left (A := A) (B := B) (p := p) (q := q)
        ⟨s, r, fromLeft, fromRight, atLeft, atRight⟩ e may arrives
      simp only [leftStep, takes, puts, next, List.append_nil] at step
      exact ⟨atLeft, atRight, step, toLeft, toRight⟩
  | @rightEnd s r fromLeft fromRight toLeft n blocked gone =>
      obtain ⟨d, may, takes, next, puts⟩ := carriesRight.ended blocked
      have arrives : atRight ++ q.takes d <+: fromLeft := by
        rw [takes, List.append_nil]
        exact ⟨[], toRight⟩
      have step := Step.right (A := A) (B := B) (p := p) (q := q)
        ⟨s, r, fromLeft, fromRight, atLeft, atRight⟩ d may arrives
      simp only [rightStep, takes, puts, next, List.append_nil] at step
      exact ⟨atLeft, atRight, step, toLeft, toRight⟩

/-- **The runs of a connection are joint runs.** -/
theorem of_connected (carriesLeft : p.Carries A P) (carriesRight : q.Carries B Q)
    {c d : Connected σ τ α} {atLeft atRight : List α} (divides : Divides c atLeft atRight)
    (run : Connected.Reachable P Q c d) : ∃ atLeft' atRight',
      Reachable A B p q (reading c atLeft atRight) (reading d atLeft' atRight') ∧
        Divides d atLeft' atRight' := by
  induction run with
  | refl => exact ⟨atLeft, atRight, .refl, divides⟩
  | tail _ step ih =>
      obtain ⟨atLeft', atRight', run, divides'⟩ := ih
      obtain ⟨atLeft'', atRight'', next, divides''⟩ :=
        step_reading carriesLeft carriesRight divides' step
      exact ⟨atLeft'', atRight'', run.tail next, divides''⟩

end Joined

end Reactive
