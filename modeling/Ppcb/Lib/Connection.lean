import Ppcb.Lib.Inevitable
import Mathlib.Data.List.Basic

/-!
# Processes that talk over byte streams

A process at one end of a connection is blocked in a call: it reads up to `n` bytes, it
writes some bytes, or it is no longer there. A read returns any part of what has arrived, as
long as it is not empty and fits; a write takes any part that is not empty (`Process.Move`).

A process is *fed* when its input is a fixed byte string (`Fed`), and *connected* when it
reads what another process writes (`Connected`).

A promise says of each state what the process will still write, given what it will still
read. A promise that single calls keep (`Process.Promises`) holds over whole runs, however the
streams are split: what is written in the end is what was promised (`Fed.promised`), the run of
a fed process ends (`Fed.settles`), and two processes each of which reads what the other
promises to write come to an end together (`Connected.completes`).
-/

set_option autoImplicit false

namespace Reactive

variable {σ τ α : Type*}

/-- The call a process is blocked in. -/
inductive Call (α : Type*) where
  | read (n : ℕ)
  | write (bytes : List α)
  | closed
deriving DecidableEq

/-- A process: its call, and the state after the call returned the bytes read, or the number
of bytes written. A read returns no bytes at the end of the stream. -/
structure Process (σ α : Type*) where
  call : σ → Call α
  onRead : σ → List α → σ
  onWrite : σ → ℕ → σ

/-- A call that succeeds: the state and the input before, the state and the input after, and
the bytes written. -/
inductive Process.Move (P : Process σ α) : σ → List α → σ → List α → List α → Prop where
  | reads {s : σ} {n : ℕ} {bytes rest : List α} (blocked : P.call s = .read n)
      (some : bytes ≠ []) (fits : bytes.length ≤ n) :
      Move P s (bytes ++ rest) (P.onRead s bytes) rest []
  | writes {s : σ} {input bytes : List α} {k : ℕ} (blocked : P.call s = .write bytes)
      (positive : 0 < k) (fits : k ≤ bytes.length) :
      Move P s input (P.onWrite s k) input (bytes.take k)

/-- The call is not a read. -/
def Process.Busy (P : Process σ α) (s : σ) : Prop := ∀ n, P.call s ≠ .read n

/-- In a state with `R s puts takes` the process will write exactly `puts` when what it will
find to read is `takes`. -/
structure Process.Promises (P : Process σ α) (R : σ → List α → List α → Prop) : Prop where
  reads : ∀ {s puts takes n}, R s puts takes → P.call s = .read n → 0 < n ∧
    ∀ bytes rest, takes = bytes ++ rest → bytes ≠ [] → bytes.length ≤ n →
      R (P.onRead s bytes) puts rest
  writes : ∀ {s puts takes bytes}, R s puts takes → P.call s = .write bytes → bytes ≠ [] ∧
    ∃ later, puts = bytes ++ later ∧
      ∀ k, 0 < k → k ≤ bytes.length → R (P.onWrite s k) (bytes.drop k ++ later) takes
  closed : ∀ {s puts takes}, R s puts takes → P.call s = .closed → puts = []

namespace Process

variable {P : Process σ α} {R : σ → List α → List α → Prop}

/-- More input changes nothing for a call. -/
theorem Move.more {s t : σ} {input rest out : List α} (move : P.Move s input t rest out)
    (later : List α) : P.Move s (input ++ later) t (rest ++ later) out := by
  cases move with
  | reads blocked some fits =>
      rw [List.append_assoc]
      exact .reads blocked some fits
  | writes blocked positive fits => exact .writes blocked positive fits

/-- **One call keeps a promise.** -/
theorem Promises.move (promises : P.Promises R) {s t : σ} {puts input rest out : List α}
    (promise : R s puts input) (move : P.Move s input t rest out) :
    ∃ later, puts = out ++ later ∧ R t later rest ∧
      later.length + rest.length < puts.length + input.length := by
  cases move with
  | @reads n bytes _ blocked some fits =>
      refine ⟨puts, rfl, (promises.reads promise blocked).2 bytes rest rfl some fits, ?_⟩
      have positive : 0 < bytes.length := List.length_pos_of_ne_nil some
      rw [List.length_append]
      omega
  | @writes _ bytes k blocked positive fits =>
      obtain ⟨-, later, rfl, kept⟩ := promises.writes promise blocked
      refine ⟨bytes.drop k ++ later, ?_, kept k positive fits, ?_⟩
      · rw [← List.append_assoc, List.take_append_drop]
      · simp only [List.length_append, List.length_drop]
        omega

/-- A process that has something to write can. -/
theorem Promises.can_write (promises : P.Promises R) {s : σ} {puts takes bytes : List α}
    (promise : R s puts takes) (blocked : P.call s = .write bytes) (input : List α) :
    ∃ t out, P.Move s input t input out := by
  obtain ⟨some, -⟩ := promises.writes promise blocked
  exact ⟨_, _, .writes blocked (List.length_pos_of_ne_nil some) (Nat.le_refl _)⟩

/-- A process that reads can, when something has arrived. -/
theorem Promises.can_read (promises : P.Promises R) {s : σ} {puts takes : List α} {n : ℕ}
    (promise : R s puts takes) (blocked : P.call s = .read n) {input : List α}
    (arrived : input ≠ []) : ∃ t rest out, P.Move s input t rest out := by
  obtain ⟨positive, -⟩ := promises.reads promise blocked
  cases input with
  | nil => exact absurd rfl arrived
  | cons b rest => exact ⟨_, rest, [], .reads blocked (List.cons_ne_nil b []) positive⟩

end Process

/-! ## A process with a fixed input -/

/-- A process, the input it has not read, and what it has written. -/
structure Fed (σ α : Type*) where
  state : σ
  unread : List α
  written : List α

namespace Fed

/-- A call succeeds, or a read finds the input at its end and comes back as `atEnd` says. -/
inductive Step (P : Process σ α) (atEnd : σ → σ → Prop) : Fed σ α → Fed σ α → Prop where
  | move {s t : σ} {unread rest written out : List α} (move : P.Move s unread t rest out) :
      Step P atEnd ⟨s, unread, written⟩ ⟨t, rest, written ++ out⟩
  | ended {s t : σ} {n : ℕ} {written : List α} (blocked : P.call s = .read n)
      (ends : atEnd s t) : Step P atEnd ⟨s, [], written⟩ ⟨t, [], written⟩

/-- The states of the runs from a start. -/
abbrev Reachable (P : Process σ α) (atEnd : σ → σ → Prop) : Fed σ α → Fed σ α → Prop :=
  Relation.ReflTransGen (Step P atEnd)

/-- The process is gone, or waits for input that is not there. -/
def Settled (P : Process σ α) (s : Fed σ α) : Prop :=
  P.call s.state = .closed ∨ (∃ n, P.call s.state = .read n) ∧ s.unread = []

variable {P : Process σ α} {R : σ → List α → List α → Prop} {atEnd : σ → σ → Prop}
variable {more : List α}

/-- **What was written and what is still promised are what was promised at the start.** The
promise may count on input that is not there yet. -/
theorem promised (promises : P.Promises R)
    (ends : ∀ {s t puts n}, R s puts more → P.call s = .read n → atEnd s t → R t puts more)
    {s t : Fed σ α} {puts : List α} (promise : R s.state puts (s.unread ++ more))
    (run : Reachable P atEnd s t) :
    ∃ later, s.written ++ puts = t.written ++ later ∧ R t.state later (t.unread ++ more) := by
  induction run with
  | refl => exact ⟨puts, rfl, promise⟩
  | tail _ step ih =>
      obtain ⟨later, equal, kept⟩ := ih
      cases step with
      | move move =>
          obtain ⟨rest, rfl, kept', -⟩ := promises.move kept (move.more more)
          exact ⟨rest, by rw [equal, List.append_assoc], kept'⟩
      | ended blocked atEnd => exact ⟨later, equal, ends kept blocked atEnd⟩

/-- A process that reads counts for one step. -/
def weight (P : Process σ α) (s : σ) : ℕ :=
  match P.call s with
  | .read _ => 1
  | _ => 0

theorem weight_le (s : σ) : weight P s ≤ 1 := by
  rw [weight]
  split <;> decide

theorem weight_busy {s : σ} (busy : P.Busy s) : weight P s = 0 := by
  rw [weight]
  split
  · exact absurd ‹_› (busy _)
  · rfl

/-- **The run of a fed process ends**, at a goal that is reached at the latest when the
process is gone, or when it waits and the input does not end. -/
theorem settles {goal : Fed σ α → Prop} (promises : P.Promises R)
    (ends : ∀ {s t puts n}, R s puts more → P.call s = .read n → atEnd s t →
      R t puts more ∧ P.Busy t)
    (enough : ∀ s puts, R s.state puts (s.unread ++ more) → s.Settled P →
      goal s ∨ s.unread = [] ∧ (∃ n, P.call s.state = .read n) ∧ ∃ t, atEnd s.state t)
    {s : Fed σ α} {puts : List α} (promise : R s.state puts (s.unread ++ more)) :
    Inevitable (Step P atEnd) goal s := by
  classical
  -- The promised output and the unread input weigh twice, so that the end of the input,
  -- which only turns a reading process into a busy one, lowers the measure as well.
  have lowers : ∀ {s t : Fed σ α} {puts : List α}, R s.state puts (s.unread ++ more) →
      Step P atEnd s t → ∃ later, R t.state later (t.unread ++ more) ∧
        2 * (later.length + t.unread.length) + weight P t.state <
          2 * (puts.length + s.unread.length) + weight P s.state := by
    intro s t puts promise step
    cases step with
    | @move s t unread rest written out move =>
        obtain ⟨later, -, kept, less⟩ := promises.move promise (move.more more)
        refine ⟨later, kept, ?_⟩
        have light := weight_le (P := P) t
        simp only [List.length_append] at less
        show 2 * (later.length + rest.length) + weight P t <
          2 * (puts.length + unread.length) + weight P s
        omega
    | @ended s t n written blocked atEnd =>
        obtain ⟨kept, busy⟩ := ends promise blocked atEnd
        refine ⟨puts, kept, ?_⟩
        have heavy : weight P s = 1 := by rw [weight, blocked]
        show 2 * (puts.length + 0) + weight P t < 2 * (puts.length + 0) + weight P s
        rw [weight_busy busy, heavy]
        exact Nat.lt_succ_self _
  induction bound : 2 * (puts.length + s.unread.length) + weight P s.state
      using Nat.strongRecOn generalizing s puts with
  | ind n ih =>
      by_cases reached : goal s
      · exact .now reached
      refine .later ?_ fun t step => ?_
      · obtain ⟨state, unread, written⟩ := s
        cases blocked : P.call state with
        | read n =>
            by_cases arrived : unread = []
            · rcases enough _ puts promise (.inr ⟨⟨n, blocked⟩, arrived⟩) with
                found | ⟨-, -, t, atEnd⟩
              · exact absurd found reached
              · subst arrived
                exact ⟨_, .ended blocked atEnd⟩
            · obtain ⟨t, rest, out, move⟩ := promises.can_read promise blocked arrived
              exact ⟨_, .move move⟩
        | write bytes =>
            obtain ⟨t, out, move⟩ := promises.can_write promise blocked unread
            exact ⟨_, .move move⟩
        | closed =>
            rcases enough _ puts promise (.inl blocked) with found | ⟨-, ⟨n, reads⟩, -⟩
            · exact absurd found reached
            · rw [show P.call state = _ from reads] at blocked
              cases blocked
      · obtain ⟨later, kept, less⟩ := lowers promise step
        exact ih _ (bound ▸ less) kept rfl

end Fed

/-! ## Two processes -/

/-- Two processes, everything each has written, and the part of it that the other has not
read. -/
structure Connected (σ τ α : Type*) where
  left : σ
  right : τ
  fromLeft : List α
  fromRight : List α
  toRight : List α
  toLeft : List α

namespace Connected

/-- A call of either process succeeds, or one of them finds that the other is gone. -/
inductive Step (A : Process σ α) (B : Process τ α) : Connected σ τ α → Connected σ τ α → Prop where
  | left {s t : σ} {r : τ} {fromLeft fromRight toRight toLeft rest out : List α}
      (move : A.Move s toLeft t rest out) :
      Step A B ⟨s, r, fromLeft, fromRight, toRight, toLeft⟩
        ⟨t, r, fromLeft ++ out, fromRight, toRight ++ out, rest⟩
  | right {s : σ} {r t : τ} {fromLeft fromRight toRight toLeft rest out : List α}
      (move : B.Move r toRight t rest out) :
      Step A B ⟨s, r, fromLeft, fromRight, toRight, toLeft⟩
        ⟨s, t, fromLeft, fromRight ++ out, rest, toLeft ++ out⟩
  | leftEnd {s : σ} {r : τ} {fromLeft fromRight toRight : List α} {n : ℕ}
      (blocked : A.call s = .read n) (gone : B.call r = .closed) :
      Step A B ⟨s, r, fromLeft, fromRight, toRight, []⟩
        ⟨A.onRead s [], r, fromLeft, fromRight, toRight, []⟩
  | rightEnd {s : σ} {r : τ} {fromLeft fromRight toLeft : List α} {n : ℕ}
      (blocked : B.call r = .read n) (gone : A.call s = .closed) :
      Step A B ⟨s, r, fromLeft, fromRight, [], toLeft⟩
        ⟨s, B.onRead r [], fromLeft, fromRight, [], toLeft⟩

/-- The states of the runs from a start. -/
abbrev Reachable (A : Process σ α) (B : Process τ α) :
    Connected σ τ α → Connected σ τ α → Prop :=
  Relation.ReflTransGen (Step A B)

variable {A : Process σ α} {B : Process τ α}
variable {RA : σ → List α → List α → Prop} {RB : τ → List α → List α → Prop}

/-- Each process reads what the other promises to write, after what is on its way. -/
structure Agreed (RA : σ → List α → List α → Prop) (RB : τ → List α → List α → Prop)
    (allLeft allRight : List α) (s : Connected σ τ α) : Prop where
  promised : ∃ putsLeft putsRight, RA s.left putsLeft (s.toLeft ++ putsRight) ∧
    RB s.right putsRight (s.toRight ++ putsLeft) ∧
    s.fromLeft ++ putsLeft = allLeft ∧ s.fromRight ++ putsRight = allRight

variable {allLeft allRight : List α}

/-- What is left to write and to read in a state that is agreed. -/
def remaining (s : Connected σ τ α) (allLeft allRight : List α) : ℕ :=
  2 * (allLeft.length - s.fromLeft.length) + s.toRight.length +
    (2 * (allRight.length - s.fromRight.length) + s.toLeft.length)

section Reads

variable (promisesLeft : A.Promises RA) (promisesRight : B.Promises RB)
variable (leftReads : ∀ {s puts takes n}, RA s puts takes → A.call s = .read n → takes ≠ [])
variable (rightReads : ∀ {r puts takes n}, RB r puts takes → B.call r = .read n → takes ≠ [])

include promisesLeft promisesRight leftReads rightReads

/-- **A step keeps the agreement** and leaves less to do. -/
theorem Step.agreed {s t : Connected σ τ α} (step : Step A B s t)
    (agreed : Agreed RA RB allLeft allRight s) :
    Agreed RA RB allLeft allRight t ∧
      t.remaining allLeft allRight < s.remaining allLeft allRight := by
  obtain ⟨putsLeft, putsRight, left, right, rfl, rfl⟩ := agreed
  cases step with
  | @left s t r fromLeft fromRight toRight toLeft rest out move =>
      obtain ⟨later, rfl, kept, less⟩ := promisesLeft.move left (move.more putsRight)
      refine ⟨⟨later, putsRight, kept, ?_, by simp, rfl⟩, ?_⟩
      · simpa using right
      · simp only [remaining, List.length_append] at less ⊢
        omega
  | @right s r t fromLeft fromRight toRight toLeft rest out move =>
      obtain ⟨later, rfl, kept, less⟩ := promisesRight.move right (move.more putsLeft)
      refine ⟨⟨putsLeft, later, ?_, kept, rfl, by simp⟩, ?_⟩
      · simpa using left
      · simp only [remaining, List.length_append] at less ⊢
        omega
  | leftEnd blocked gone =>
      obtain rfl := promisesRight.closed right gone
      exact absurd rfl (leftReads left blocked)
  | rightEnd blocked gone =>
      obtain rfl := promisesLeft.closed left gone
      exact absurd rfl (rightReads right blocked)

/-- The agreement holds in every state of a run. -/
theorem Reachable.agreed {s t : Connected σ τ α} (run : Reachable A B s t)
    (agreed : Agreed RA RB allLeft allRight s) : Agreed RA RB allLeft allRight t :=
  invariant_run (fun _ _ agreed step =>
    (step.agreed promisesLeft promisesRight leftReads rightReads agreed).1) run agreed

/-- **Two processes that agree come to an end together**, when they do not wait for each
other with nothing on its way. -/
theorem completes
    (noDeadlock : ∀ {s r putsLeft putsRight n k}, RA s putsLeft putsRight →
      RB r putsRight putsLeft → A.call s = .read n → B.call r ≠ .read k)
    {s : Connected σ τ α} (agreed : Agreed RA RB allLeft allRight s) :
    Inevitable (Step A B) (fun t => A.call t.left = .closed ∧ B.call t.right = .closed) s := by
  refine Inevitable.of_measure (fun t => t.remaining allLeft allRight) ?_
    (fun _ _ agreed _ step =>
      step.agreed promisesLeft promisesRight leftReads rightReads agreed) agreed
  rintro ⟨s, r, fromLeft, fromRight, toRight, toLeft⟩
    ⟨putsLeft, putsRight, left, right, -, -⟩ running
  cases callLeft : A.call s with
  | write bytes =>
      obtain ⟨t, out, move⟩ := promisesLeft.can_write left callLeft toLeft
      exact ⟨_, .left move⟩
  | closed =>
      cases callRight : B.call r with
      | write bytes =>
          obtain ⟨t, out, move⟩ := promisesRight.can_write right callRight toRight
          exact ⟨_, .right move⟩
      | closed => exact absurd ⟨callLeft, callRight⟩ running
      | read n =>
          by_cases arrived : toRight = []
          · subst arrived
            exact ⟨_, .rightEnd callRight callLeft⟩
          · obtain ⟨t, rest, out, move⟩ := promisesRight.can_read right callRight arrived
            exact ⟨_, .right move⟩
  | read n =>
      by_cases arrivedLeft : toLeft = []
      · subst arrivedLeft
        cases callRight : B.call r with
        | write bytes =>
            obtain ⟨t, out, move⟩ := promisesRight.can_write right callRight toRight
            exact ⟨_, .right move⟩
        | closed => exact ⟨_, .leftEnd callLeft callRight⟩
        | read k =>
            by_cases arrivedRight : toRight = []
            · subst arrivedRight
              exact absurd callRight (noDeadlock left right callLeft)
            · obtain ⟨t, rest, out, move⟩ :=
                promisesRight.can_read right callRight arrivedRight
              exact ⟨_, .right move⟩
      · obtain ⟨t, rest, out, move⟩ := promisesLeft.can_read left callLeft arrivedLeft
        exact ⟨_, .left move⟩

end Reads

end Connected

end Reactive
