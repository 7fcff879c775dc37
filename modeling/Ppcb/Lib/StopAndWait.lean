import Ppcb.Lib.Lossy
import Ppcb.Lib.Inevitable

/-!
# Stop and wait

The left side sends the messages `0` to `last` one at a time. It sends a message again after a
timeout, until the reply comes. The right side replies to each message that is the next one,
sends its last reply again after a timeout, and after message `last` confirms all of them with one
reply more. The channels keep the order, and what is on them may be lost.

Whatever is lost, all messages are served, or one of the sides runs into more than `limit`
timeouts. They are confirmed as well unless the reply to the last message or the confirmation is
lost (`Exchange.inevitable`): the right side is done then and does not send them again.

Two machines that do what the two sides do (`Asks`, `Answers`) come to the end of the messages
in the same way (`Lossy.inevitable`). If nothing is spared, a left machine that gives up sooner or
later (`Closes`) still comes to its end, with all messages served (`Lossy.closed_inevitable`).
-/

set_option autoImplicit false

namespace Reactive

/-! ## The exchange -/

/-- How far the two sides are, what is on its way, and how often each has run into a timeout. The
left side is at message `asked`, which it is about to send or waits for the reply to. The right
side has served `served` messages. -/
structure Exchange where
  asked : ℕ
  sending : Bool
  served : ℕ
  toRight : List ℕ
  toLeft : List ℕ
  leftTimeouts : ℕ
  rightTimeouts : ℕ

namespace Exchange

def start : Exchange := ⟨0, true, 0, [], [], 0, 0⟩

variable (last : ℕ)

/-- What the right side replies to a message that it serves. -/
def answers (b : ℕ) : List ℕ := b :: if b = last then [last + 1] else []

/-- The reply to the last message and the confirmation are not lost. -/
def Losable (r : ℕ) : Prop := r ≠ last ∧ r ≠ last + 1

inductive Step : Exchange → Exchange → Prop where
  | send {a b : ℕ} {toRight toLeft : List ℕ} {i j : ℕ} :
      Step ⟨a, true, b, toRight, toLeft, i, j⟩ ⟨a, false, b, toRight ++ [a], toLeft, i, j⟩
  | proceed {a b : ℕ} {toRight toLeft : List ℕ} {i j : ℕ} (within : a ≤ last + 1) :
      Step ⟨a, false, b, toRight, a :: toLeft, i, j⟩
        ⟨a + 1, decide (a < last), b, toRight, toLeft, i, j⟩
  | stale {a b : ℕ} {toRight toLeft : List ℕ} {i j : ℕ} (within : a + 1 ≤ last) :
      Step ⟨a + 1, false, b, toRight, a :: toLeft, i, j⟩
        ⟨a + 1, false, b, toRight, toLeft, i, j⟩
  | serve {a : ℕ} {w : Bool} {b : ℕ} {toRight toLeft : List ℕ} {i j : ℕ} (within : b ≤ last) :
      Step ⟨a, w, b, b :: toRight, toLeft, i, j⟩
        ⟨a, w, b + 1, toRight, toLeft ++ answers last b, i, j⟩
  | ignore {a : ℕ} {w : Bool} {b : ℕ} {toRight toLeft : List ℕ} {i j : ℕ}
      (within : b + 1 ≤ last) :
      Step ⟨a, w, b + 1, b :: toRight, toLeft, i, j⟩ ⟨a, w, b + 1, toRight, toLeft, i, j⟩
  | reject {a : ℕ} {w : Bool} {toRight toLeft : List ℕ} {i j : ℕ} :
      Step ⟨a, w, last + 1, last :: toRight, toLeft, i, j⟩
        ⟨a, w, last + 1, toRight, toLeft ++ [last + 2], i, j⟩
  | loseRight {a : ℕ} {w : Bool} {b : ℕ} {toRight toRight' toLeft : List ℕ} {i j : ℕ}
      (loses : Loses (fun _ => True) toRight toRight') :
      Step ⟨a, w, b, toRight, toLeft, i, j⟩ ⟨a, w, b, toRight', toLeft, i, j⟩
  | loseLeft {a : ℕ} {w : Bool} {b : ℕ} {toRight toLeft toLeft' : List ℕ} {i j : ℕ}
      (loses : Loses (Losable last) toLeft toLeft') :
      Step ⟨a, w, b, toRight, toLeft, i, j⟩ ⟨a, w, b, toRight, toLeft', i, j⟩
  | leftTimeout {a b : ℕ} {toRight toLeft : List ℕ} {i j : ℕ} (within : a ≤ last) :
      Step ⟨a, false, b, toRight, toLeft, i, j⟩ ⟨a, true, b, toRight, toLeft, i + 1, j⟩
  | rightTimeout {a : ℕ} {w : Bool} {b : ℕ} {toRight toLeft : List ℕ} {i j : ℕ}
      (within : b + 1 ≤ last) :
      Step ⟨a, w, b + 1, toRight, toLeft, i, j⟩ ⟨a, w, b + 1, toRight, toLeft ++ [b], i, j + 1⟩

/-! ## What is on its way -/

/-- Replies to the message before, then the last reply and the confirmation. -/
inductive Concluding : List ℕ → Prop where
  | last (rejected : List ℕ) : Concluding (last :: (last + 1) :: rejected)
  | before {r : ℕ} {l : List ℕ} (stale : r + 1 = last) (concluding : Concluding l) :
      Concluding (r :: l)

/-- What may be on its way to the left side when it is at message `a` and `b` are served. -/
inductive Replies : ℕ → ℕ → List ℕ → Prop where
  | underway {a b : ℕ} {l : List ℕ} (within : b ≤ last) (asked : a ≤ b) (served : b ≤ a + 1)
      (sorted : l.Pairwise (· ≤ ·)) (recent : ∀ r ∈ l, a ≤ r + 1 ∧ r < b) : Replies a b l
  | served {l : List ℕ} (concluding : Concluding last l) : Replies last (last + 1) l
  | confirmed (l : List ℕ) : Replies (last + 1) (last + 1) ((last + 1) :: l)
  | ended (l : List ℕ) : Replies (last + 2) (last + 1) l

/-- What holds in every run. -/
structure Good (x : Exchange) : Prop where
  sends : x.sending = true → x.asked ≤ last
  sorted : x.toRight.Pairwise (· ≤ ·)
  messages : ∀ m ∈ x.toRight, x.served ≤ m + 1 ∧ m ≤ x.asked ∧ m ≤ last
  replies : Replies last x.asked x.served x.toLeft

variable {last}

theorem Concluding.append {l : List ℕ} (concluding : Concluding last l) (more : List ℕ) :
    Concluding last (l ++ more) := by
  induction concluding with
  | last rejected => exact .last (rejected ++ more)
  | before stale _ ih => exact .before stale ih

theorem Concluding.loses {l l' : List ℕ} (concluding : Concluding last l)
    (loses : Loses (Losable last) l l') : Concluding last l' := by
  induction concluding generalizing l' with
  | last rejected =>
      cases loses with
      | here lost => exact absurd rfl lost.1
      | later _ loses =>
          cases loses with
          | here lost => exact absurd rfl lost.2
          | later _ loses => exact .last _
  | before stale concluding ih =>
      cases loses with
      | here => exact concluding
      | later _ loses => exact .before stale (ih loses)

/-- Replies to the message before, when the last message is served. -/
theorem concluding_of_stale {l : List ℕ} (stale : ∀ r ∈ l, r + 1 = last) :
    Concluding last (l ++ [last, last + 1]) := by
  induction l with
  | nil => exact .last []
  | cons r l ih =>
      exact .before (stale r List.mem_cons_self)
        (ih fun s member => stale s (List.mem_cons_of_mem r member))

namespace Replies

variable {a b : ℕ} {l l' : List ℕ}

theorem served_le (replies : Replies last a b l) : b ≤ last + 1 := by
  cases replies with
  | underway within => exact Nat.le_succ_of_le within
  | served => exact Nat.le_refl _
  | confirmed => exact Nat.le_refl _
  | ended => exact Nat.le_refl _

theorem asked_le (within : b ≤ last) (replies : Replies last a b l) : a ≤ b := by
  cases replies with
  | underway _ asked => exact asked
  | served => exact absurd within (Nat.not_succ_le_self _)
  | confirmed => exact absurd within (Nat.not_succ_le_self _)
  | ended => exact absurd within (Nat.not_succ_le_self _)

/-- Before the last message is served, only earlier ones have been replied to. -/
theorem earlier (within : b ≤ last) (replies : Replies last a b l) : ∀ r ∈ l, r < b := by
  cases replies with
  | underway _ _ _ _ recent => exact fun r member => (recent r member).2
  | served => exact absurd within (Nat.not_succ_le_self _)
  | confirmed => exact absurd within (Nat.not_succ_le_self _)
  | ended => exact absurd within (Nat.not_succ_le_self _)

theorem served_le_succ (within : a ≤ last) (replies : Replies last a b l) : b ≤ a + 1 := by
  cases replies with
  | underway _ _ served => exact served
  | served => exact Nat.le_refl _
  | confirmed => exact absurd within (Nat.not_succ_le_self _)
  | ended => exact absurd within (by omega)

theorem asked_cases (replies : Replies last a b l) :
    a ≤ last ∨ (∃ rest, a = last + 1 ∧ l = (last + 1) :: rest) ∨
      (a = last + 2 ∧ b = last + 1) := by
  cases replies with
  | underway within asked => exact .inl (Nat.le_trans asked within)
  | served => exact .inl (Nat.le_refl _)
  | confirmed rest => exact .inr (.inl ⟨rest, rfl, rfl⟩)
  | ended => exact .inr (.inr ⟨rfl, rfl⟩)

theorem loses (replies : Replies last a b l) (loses : Loses (Losable last) l l') :
    Replies last a b l' := by
  cases replies with
  | underway within asked served sorted recent =>
      exact .underway within asked served (sorted.sublist loses.sublist)
        fun r member => recent r (loses.sublist.subset member)
  | served concluding => exact .served (concluding.loses loses)
  | confirmed =>
      cases loses with
      | here lost => exact absurd rfl lost.2
      | later _ loses => exact .confirmed _
  | ended => exact .ended _

/-- A waiting left side takes the reply it waits for, or an earlier one, or it is done. -/
theorem head {r : ℕ} (replies : Replies last a b (r :: l)) :
    (r = a ∧ a ≤ last + 1) ∨ (r + 1 = a ∧ a ≤ last) ∨ a = last + 2 := by
  cases replies with
  | underway within asked served sorted recent =>
      have bounds := recent r List.mem_cons_self
      omega
  | served concluding =>
      cases concluding with
      | last => exact .inl ⟨rfl, Nat.le_succ _⟩
      | before stale => exact .inr (.inl ⟨stale, Nat.le_refl _⟩)
  | confirmed => exact .inl ⟨rfl, Nat.le_refl _⟩
  | ended => exact .inr (.inr rfl)

theorem proceed (within : a ≤ last + 1) (replies : Replies last a b (a :: l)) :
    Replies last (a + 1) b l := by
  cases replies with
  | underway below asked served sorted recent =>
      have served' := (recent a List.mem_cons_self).2
      refine .underway below served' (Nat.le_succ_of_le served) (List.pairwise_cons.mp sorted).2
        fun r member => ⟨?_, (recent r (List.mem_cons_of_mem _ member)).2⟩
      exact Nat.succ_le_succ ((List.pairwise_cons.mp sorted).1 r member)
  | served concluding =>
      cases concluding with
      | last rejected => exact .confirmed rejected
      | before stale => exact absurd stale (Nat.succ_ne_self _)
  | confirmed => exact .ended l
  | ended => exact absurd within (Nat.not_succ_le_self _)

theorem stale {r : ℕ} (within : r + 1 ≤ last) (replies : Replies last (r + 1) b (r :: l)) :
    Replies last (r + 1) b l := by
  cases replies with
  | underway below asked served sorted recent =>
      exact .underway below asked served (List.pairwise_cons.mp sorted).2
        fun s member => recent s (List.mem_cons_of_mem _ member)
  | served concluding =>
      cases concluding with
      | before _ concluding => exact .served concluding
  | ended => exact absurd within (by omega)

theorem serve (asked : b ≤ a) (within : b ≤ last) (replies : Replies last a b l) :
    Replies last a (b + 1) (l ++ answers last b) := by
  cases replies with
  | underway _ asked' served sorted recent =>
      have same : a = b := Nat.le_antisymm asked' asked
      subst same
      rw [answers]
      split
      · rename_i final
        subst final
        exact .served (concluding_of_stale fun r member => by have bounds := recent r member; omega)
      · rename_i more
        refine .underway (by omega) (by omega) (by omega) ?_ ?_
        · refine List.pairwise_append.mpr ⟨sorted, List.pairwise_singleton _ _, ?_⟩
          intro r member s single
          rw [List.mem_singleton.mp single]
          exact Nat.le_of_lt (recent r member).2
        · intro r member
          rcases List.mem_append.mp member with member | single
          · have bounds := recent r member
            omega
          · rw [List.mem_singleton.mp single]
            omega
  | served => exact absurd within (Nat.not_succ_le_self _)
  | confirmed => exact absurd within (Nat.not_succ_le_self _)
  | ended => exact absurd within (Nat.not_succ_le_self _)

theorem reject (replies : Replies last a (last + 1) l) (more : List ℕ) :
    Replies last a (last + 1) (l ++ more) := by
  cases replies with
  | underway within => exact absurd within (Nat.not_succ_le_self _)
  | served concluding => exact .served (concluding.append more)
  | confirmed rejected => exact .confirmed (rejected ++ more)
  | ended => exact .ended _

theorem again (within : b + 1 ≤ last) (replies : Replies last a (b + 1) l) :
    Replies last a (b + 1) (l ++ [b]) := by
  cases replies with
  | underway _ asked served sorted recent =>
      refine .underway within asked served ?_ ?_
      · refine List.pairwise_append.mpr ⟨sorted, List.pairwise_singleton _ _, ?_⟩
        intro r member s single
        rw [List.mem_singleton.mp single]
        exact Nat.le_of_lt_succ (recent r member).2
      · intro r member
        rcases List.mem_append.mp member with member | single
        · exact recent r member
        · rw [List.mem_singleton.mp single]
          exact ⟨asked, Nat.lt_succ_self b⟩
  | served => exact absurd within (Nat.not_succ_le_self _)
  | confirmed => exact absurd within (Nat.not_succ_le_self _)
  | ended => exact absurd within (Nat.not_succ_le_self _)

end Replies

theorem good_start : Good last start where
  sends _ := Nat.zero_le last
  sorted := .nil
  messages _ member := absurd member List.not_mem_nil
  replies := .underway (Nat.zero_le _) (Nat.le_refl _) (Nat.zero_le _) .nil
    fun _ member => absurd member List.not_mem_nil

/-- A message that arrives is the next one, or the one before, or it comes after the end. -/
theorem Good.head {x : Exchange} (good : Good last x) {m : ℕ} {rest : List ℕ}
    (arrives : x.toRight = m :: rest) :
    (m = x.served ∧ x.served ≤ last) ∨ (m + 1 = x.served ∧ x.served ≤ last) ∨
      (m = last ∧ x.served = last + 1) := by
  have bounds := good.messages m (arrives ▸ List.mem_cons_self)
  have served := good.replies.served_le
  rcases Nat.lt_or_eq_of_le served with more | done
  · have asked := good.replies.asked_le (Nat.le_of_lt_succ more)
    omega
  · omega

/-- **Every step keeps the invariant.** -/
theorem Good.step {x y : Exchange} (good : Good last x) (step : Step last x y) : Good last y := by
  obtain ⟨sends, sorted, messages, replies⟩ := good
  cases step with
  | send =>
      refine ⟨Bool.noConfusion, ?_, fun m member => ?_, replies⟩
      · refine List.pairwise_append.mpr ⟨sorted, List.pairwise_singleton _ _, ?_⟩
        intro m member n single
        rw [List.mem_singleton.mp single]
        exact (messages m member).2.1
      · rcases List.mem_append.mp member with member | single
        · exact messages m member
        · rw [List.mem_singleton.mp single]
          exact ⟨replies.served_le_succ (sends rfl), Nat.le_refl _, sends rfl⟩
  | proceed within =>
      refine ⟨fun more => of_decide_eq_true more, sorted, fun m member => ?_,
        replies.proceed within⟩
      obtain ⟨served, asked, small⟩ := messages m member
      exact ⟨served, Nat.le_succ_of_le asked, small⟩
  | stale within => exact ⟨Bool.noConfusion, sorted, messages, replies.stale within⟩
  | serve within =>
      obtain ⟨first, rest⟩ := List.pairwise_cons.mp sorted
      obtain ⟨-, asked, -⟩ := messages _ List.mem_cons_self
      refine ⟨sends, rest, fun m member => ?_, replies.serve asked within⟩
      exact ⟨Nat.succ_le_succ (first m member), (messages m (List.mem_cons_of_mem _ member)).2⟩
  | ignore within =>
      exact ⟨sends, (List.pairwise_cons.mp sorted).2,
        fun m member => messages m (List.mem_cons_of_mem _ member), replies⟩
  | reject =>
      exact ⟨sends, (List.pairwise_cons.mp sorted).2,
        fun m member => messages m (List.mem_cons_of_mem _ member), replies.reject _⟩
  | loseRight loses =>
      exact ⟨sends, sorted.sublist loses.sublist,
        fun m member => messages m (loses.sublist.subset member), replies⟩
  | loseLeft loses => exact ⟨sends, sorted, messages, replies.loses loses⟩
  | leftTimeout within => exact ⟨fun _ => within, sorted, messages, replies⟩
  | rightTimeout within => exact ⟨sends, sorted, messages, replies.again within⟩

/-! ## The end of an exchange -/

variable (last) in
/-- Everything is served and confirmed. -/
def Done (x : Exchange) : Prop := x.asked = last + 2 ∧ x.served = last + 1

/-- One side has run into too many timeouts. -/
def Broken (limit : ℕ) (x : Exchange) : Prop := limit < x.leftTimeouts ∨ limit < x.rightTimeouts

/-- Before the end the left side can send or run into a timeout, or the confirmation is there. -/
theorem Good.ready {x : Exchange} (good : Good last x) (before : ¬ x.Done last) :
    x.sending = true ∨ (x.sending = false ∧ x.asked ≤ last) ∨
      ∃ rest, x.sending = false ∧ x.asked = last + 1 ∧ x.toLeft = (last + 1) :: rest := by
  rcases Bool.eq_false_or_eq_true x.sending with sends | waits
  · exact .inl sends
  rcases good.replies.asked_cases with within | ⟨rest, confirmed, comes⟩ | done
  · exact .inr (.inl ⟨waits, within⟩)
  · exact .inr (.inr ⟨rest, waits, confirmed, comes⟩)
  · exact absurd done before

theorem Good.progress {x : Exchange} (good : Good last x) (before : ¬ x.Done last) :
    ∃ y, Step last x y := by
  obtain ⟨a, w, b, toRight, toLeft, i, j⟩ := x
  rcases good.ready before with rfl | ⟨rfl, within⟩ | ⟨rest, rfl, rfl, rfl⟩
  · exact ⟨_, .send⟩
  · exact ⟨_, .leftTimeout within⟩
  · exact ⟨_, .proceed (Nat.le_refl _)⟩

variable (last) in
/-- What is left to do, counting what is on its way and the timeouts that are allowed. -/
def rank (limit : ℕ) (x : Exchange) : ℕ :=
  4 * (last + 2 - x.asked) + 3 * (last + 1 - x.served) + 4 * (limit + 1 - x.leftTimeouts) +
    2 * (limit + 1 - x.rightTimeouts) + 3 * x.sending.toNat + 2 * x.toRight.length +
      x.toLeft.length

theorem length_answers (b : ℕ) : (answers last b).length ≤ 2 := by
  rw [answers]
  split
  · exact Nat.le_refl 2
  · exact Nat.le_succ 1

/-- **Every step before the end lowers the rank.** -/
theorem Step.lowers {limit : ℕ} {x y : Exchange} (within : ¬ x.Broken limit)
    (step : Step last x y) : y.rank last limit < x.rank last limit := by
  obtain ⟨left, right⟩ := not_or.mp within
  cases step with
  | send =>
      simp only [rank, List.length_append, List.length_singleton, Bool.toNat_true, Bool.toNat_false]
      omega
  | @proceed a b toRight toLeft i j within =>
      have bit := Bool.toNat_le (decide (a < last))
      simp only [rank, List.length_cons, Bool.toNat_false]
      omega
  | stale =>
      simp only [rank, List.length_cons]
      omega
  | @serve a w b toRight toLeft i j within =>
      have few : (answers last b).length ≤ 2 := length_answers b
      simp only [rank, List.length_append, List.length_cons]
      omega
  | ignore =>
      simp only [rank, List.length_cons]
      omega
  | reject =>
      simp only [rank, List.length_append, List.length_cons, List.length_nil]
      omega
  | loseRight loses =>
      have shorter := loses.length
      simp only [rank]
      omega
  | loseLeft loses =>
      have shorter := loses.length
      simp only [rank]
      omega
  | leftTimeout =>
      simp only [rank, Bool.toNat_true, Bool.toNat_false] at left ⊢
      omega
  | rightTimeout =>
      simp only [rank, List.length_append, List.length_cons, List.length_nil] at right ⊢
      omega

variable (last) in
/-- **Everything is served and confirmed, or a side runs into too many timeouts**, in every
run. -/
theorem inevitable (limit : ℕ) : Inevitable (Step last)
    (fun x => x.Done last ∨ x.Broken limit) start := by
  refine Inevitable.of_measure (I := Good last) (rank last limit) ?_ ?_ good_start
  · intro x good before
    exact good.progress (not_or.mp before).1
  · intro x y good before step
    exact ⟨good.step step, step.lowers (not_or.mp before).2⟩

end Exchange

/-! ## Machines that exchange messages -/

section Machines

variable {σ τ ε δ ω ψ α β : Type*}

/-- A machine that does what the left side does, with these messages and replies. `At a w i` says
that it is at message `a`, about to send it or not, after `i` timeouts. -/
structure Asks (A : Machine σ ε ω) (p : TimedPort σ ε ω α β) (message : ℕ → α) (reply : ℕ → β)
    (last limit : ℕ) where
  At : ℕ → Bool → ℕ → σ → Prop
  sends : ∀ {a i s}, At a true i s → (∃ e, p.may s e) ∧ ∀ e, p.may s e →
    p.takes e = [] ∧ p.puts (A.emit s e) = [message a] ∧ At a false i (A.next s e)
  hears : ∀ {a i s}, At a false i s → a ≤ last + 1 → ∀ y, ∃ e, p.may s e ∧ p.takes e = [y]
  hears_one : ∀ {a i s e}, At a false i s → p.may s e → ∃ y, p.takes e = [y]
  proceeds : ∀ {a i s e}, At a false i s → a ≤ last + 1 → p.may s e → p.takes e = [reply a] →
    p.puts (A.emit s e) = [] ∧ At (a + 1) (decide (a < last)) i (A.next s e)
  ignores : ∀ {a i s e}, At (a + 1) false i s → a + 1 ≤ last → p.may s e →
    p.takes e = [reply a] → p.puts (A.emit s e) = [] ∧ At (a + 1) false i (A.next s e)
  ended : ∀ {i s e}, At (last + 2) false i s → ¬ p.may s e
  waits : ∀ {a i s}, At a false i s → a ≤ last → ∃ e, p.times s e
  times : ∀ {a w i s e}, At a w i s → a ≤ last → p.times s e → w = false ∧
    (i < limit → p.puts (A.emit s e) = [] ∧ At a true (i + 1) (A.next s e))

/-- A machine that does what the right side does. `At b j` says that it has served `b` messages,
after `j` timeouts. -/
structure Answers (B : Machine τ δ ψ) (q : TimedPort τ δ ψ β α) (message : ℕ → α)
    (reply : ℕ → β) (last limit : ℕ) where
  At : ℕ → ℕ → τ → Prop
  hears_one : ∀ {s d}, q.may s d → ∃ x, q.takes d = [x]
  serves : ∀ {b j s d}, At b j s → b ≤ last → q.may s d → q.takes d = [message b] →
    q.puts (B.emit s d) = (Exchange.answers last b).map reply ∧ At (b + 1) j (B.next s d)
  ignores : ∀ {b j s d}, At (b + 1) j s → b + 1 ≤ last → q.may s d → q.takes d = [message b] →
    q.puts (B.emit s d) = [] ∧ At (b + 1) j (B.next s d)
  rejects : ∀ {j s d}, At (last + 1) j s → q.may s d → q.takes d = [message last] →
    q.puts (B.emit s d) = [reply (last + 2)] ∧ At (last + 1) j (B.next s d)
  times : ∀ {b j s d}, At b j s → q.times s d → ∃ m, b = m + 1 ∧ m + 1 ≤ last ∧
    (j < limit → q.puts (B.emit s d) = [reply m] ∧ At b (j + 1) (B.next s d))

variable {A : Machine σ ε ω} {B : Machine τ δ ψ} {p : TimedPort σ ε ω α β}
variable {q : TimedPort τ δ ψ β α} {message : ℕ → α} {reply : ℕ → β} {last limit : ℕ}

namespace Lossy

/-- The two machines are where the sides of the exchange are. -/
structure Represents (asks : Asks A p message reply last limit)
    (answers : Answers B q message reply last limit) (x : Exchange) (s : Lossy σ τ α β) :
    Prop where
  good : x.Good last
  left : asks.At x.asked x.sending x.leftTimeouts s.left
  right : answers.At x.served x.rightTimeouts s.right
  leftTimeouts : s.leftTimeouts = x.leftTimeouts
  rightTimeouts : s.rightTimeouts = x.rightTimeouts
  toRight : s.toRight = x.toRight.map message
  toLeft : s.toLeft = x.toLeft.map reply

/-- The messages are served and confirmed. -/
def Done (asks : Asks A p message reply last limit)
    (answers : Answers B q message reply last limit) (s : Lossy σ τ α β) : Prop :=
  (∃ i, asks.At (last + 2) false i s.left) ∧ ∃ j, answers.At (last + 1) j s.right

/-- One machine has run into too many timeouts. -/
def Broken (limit : ℕ) (s : Lossy σ τ α β) : Prop :=
  limit < s.leftTimeouts ∨ limit < s.rightTimeouts

variable {asks : Asks A p message reply last limit}
variable {answers : Answers B q message reply last limit} {lostRight : α → Prop}
variable {lostLeft : β → Prop} {x : Exchange} {s t : Lossy σ τ α β}

theorem Represents.done (represents : Represents asks answers x s) (done : x.Done last) :
    Done asks answers s := by
  obtain ⟨asked, served⟩ := done
  have silent : x.sending = false := by
    refine Bool.eq_false_iff.mpr fun sends => ?_
    have within := represents.good.sends sends
    omega
  have left := represents.left
  have right := represents.right
  rw [asked, silent] at left
  rw [served] at right
  exact ⟨⟨_, left⟩, _, right⟩

theorem Represents.broken_iff (represents : Represents asks answers x s) :
    s.Broken limit ↔ x.Broken limit := by
  rw [Broken, Exchange.Broken, represents.leftTimeouts, represents.rightTimeouts]

/-- Before the end one of the machines can go on. -/
theorem Represents.progress (represents : Represents asks answers x s) (before : ¬ x.Done last) :
    ∃ t, Step A B p q lostRight lostLeft s t := by
  have left := represents.left
  rcases represents.good.ready before with
    sends | ⟨waits, within⟩ | ⟨rest, waits, asked, comes⟩
  · rw [sends] at left
    obtain ⟨⟨e, may⟩, all⟩ := asks.sends left
    have arrives : s.toLeft = p.takes e ++ s.toLeft := by rw [(all e may).1]; rfl
    exact ⟨_, .left e may arrives⟩
  · rw [waits] at left
    obtain ⟨e, times⟩ := asks.waits left within
    exact ⟨_, .leftTimeout e times⟩
  · rw [waits, asked] at left
    obtain ⟨e, may, takes⟩ := asks.hears left (Nat.le_refl _) (reply (last + 1))
    have arrives : s.toLeft = p.takes e ++ rest.map reply := by
      rw [takes, represents.toLeft, comes]
      rfl
    exact ⟨_, .left e may arrives⟩

/-- An event of the left machine is a step of the exchange. -/
theorem Represents.leftStep (represents : Represents asks answers x s) {e : ε}
    (may : p.may s.left e) {rest : List β} (arrives : s.toLeft = p.takes e ++ rest) :
    ∃ y, Exchange.Step last x y ∧ Represents asks answers y
      { s with
        left := A.next s.left e
        toRight := s.toRight ++ p.puts (A.emit s.left e)
        toLeft := rest } := by
  obtain ⟨a, w, b, toRight, toLeft, i, j⟩ := x
  obtain ⟨good, left, right, leftTimeouts, rightTimeouts, puts, comes⟩ := represents
  rw [comes] at arrives
  cases w with
  | true =>
      obtain ⟨takes, sent, next⟩ := (asks.sends left).2 e may
      have step : Exchange.Step last ⟨a, true, b, toRight, toLeft, i, j⟩ _ := .send
      refine ⟨_, step, good.step step, next, right, leftTimeouts, rightTimeouts, ?_, ?_⟩
      · show s.toRight ++ _ = _
        rw [puts, sent, List.map_append]
        rfl
      · rw [takes] at arrives
        exact arrives.symm
  | false =>
      obtain ⟨y, takes⟩ := asks.hears_one left may
      rw [takes] at arrives
      obtain ⟨r, toLeft, rfl, rfl, rfl⟩ := List.map_eq_cons_iff.mp arrives
      have silent (none : p.puts (A.emit s.left e) = []) :
          s.toRight ++ p.puts (A.emit s.left e) = toRight.map message := by
        rw [none, List.append_nil]
        exact puts
      rcases good.replies.head with ⟨rfl, within⟩ | ⟨rfl, within⟩ | done
      · obtain ⟨none, next⟩ := asks.proceeds left within may takes
        have step : Exchange.Step last ⟨r, false, b, toRight, r :: toLeft, i, j⟩ _ :=
          .proceed within
        exact ⟨_, step, good.step step, next, right, leftTimeouts, rightTimeouts, silent none, rfl⟩
      · obtain ⟨none, next⟩ := asks.ignores left within may takes
        have step : Exchange.Step last ⟨r + 1, false, b, toRight, r :: toLeft, i, j⟩ _ :=
          .stale within
        exact ⟨_, step, good.step step, next, right, leftTimeouts, rightTimeouts, silent none, rfl⟩
      · have ended : asks.At (last + 2) false i s.left := done ▸ left
        exact absurd may (asks.ended ended)

/-- An event of the right machine is a step of the exchange. -/
theorem Represents.rightStep (represents : Represents asks answers x s) {d : δ}
    (may : q.may s.right d) {rest : List α} (arrives : s.toRight = q.takes d ++ rest) :
    ∃ y, Exchange.Step last x y ∧ Represents asks answers y
      { s with
        right := B.next s.right d
        toRight := rest
        toLeft := s.toLeft ++ q.puts (B.emit s.right d) } := by
  obtain ⟨a, w, b, toRight, toLeft, i, j⟩ := x
  obtain ⟨good, left, right, leftTimeouts, rightTimeouts, comes, puts⟩ := represents
  obtain ⟨y, takes⟩ := answers.hears_one may
  rw [comes, takes] at arrives
  obtain ⟨m, toRight, rfl, rfl, rfl⟩ := List.map_eq_cons_iff.mp arrives
  have replied {more : List ℕ} (replies : q.puts (B.emit s.right d) = more.map reply) :
      s.toLeft ++ q.puts (B.emit s.right d) = (toLeft ++ more).map reply := by
    rw [replies, List.map_append, puts]
  rcases good.head rfl with ⟨rfl, within⟩ | ⟨rfl, within⟩ | ⟨rfl, rfl⟩
  · obtain ⟨replies, next⟩ := answers.serves right within may takes
    have step : Exchange.Step last ⟨a, w, m, m :: toRight, toLeft, i, j⟩ _ := .serve within
    exact ⟨_, step, good.step step, left, next, leftTimeouts, rightTimeouts, rfl, replied replies⟩
  · obtain ⟨none, next⟩ := answers.ignores right within may takes
    have step : Exchange.Step last ⟨a, w, m + 1, m :: toRight, toLeft, i, j⟩ _ := .ignore within
    refine ⟨_, step, good.step step, left, next, leftTimeouts, rightTimeouts, rfl, ?_⟩
    rw [@replied [] none, List.append_nil]
  · obtain ⟨replies, next⟩ := answers.rejects right may takes
    have step : Exchange.Step m ⟨a, w, m + 1, m :: toRight, toLeft, i, j⟩ _ := .reject
    exact ⟨_, step, good.step step, left, next, leftTimeouts, rightTimeouts, rfl, replied replies⟩

/-- The reply to the last message and the confirmation are not lost, and the left machine does not
give up waiting for the confirmation. -/
structure Spares (asks : Asks A p message reply last limit) (lostLeft : β → Prop) : Prop where
  losable : ∀ r, lostLeft (reply r) → Exchange.Losable last r
  patient : ∀ {a w i s e}, asks.At a w i s → p.times s e → a ≤ last

/-- Nothing has to be spared before the last message is served. -/
theorem Represents.asked_le (represents : Represents asks answers x s)
    (spared : x.served ≤ last ∨ Spares asks lostLeft) {e : ε} (times : p.times s.left e) :
    x.asked ≤ last := by
  rcases spared with within | spares
  · exact Nat.le_trans (represents.good.replies.asked_le within) within
  · exact spares.patient represents.left times

theorem Represents.losable (represents : Represents asks answers x s)
    (spared : x.served ≤ last ∨ Spares asks lostLeft) {r : ℕ} (member : r ∈ x.toLeft)
    (lost : lostLeft (reply r)) : Exchange.Losable last r := by
  rcases spared with within | spares
  · have earlier := represents.good.replies.earlier within r member
    exact ⟨by omega, by omega⟩
  · exact spares.losable r lost

/-- **Every step of the machines is a step of the exchange**, or there have been too many
timeouts. -/
theorem Represents.step (spared : x.served ≤ last ∨ Spares asks lostLeft)
    (represents : Represents asks answers x s) (step : Step A B p q lostRight lostLeft s t) :
    t.Broken limit ∨ ∃ y, Exchange.Step last x y ∧ Represents asks answers y t := by
  obtain ⟨a, w, b, toRight, toLeft, i, j⟩ := x
  cases step with
  | left e may arrives => exact .inr (represents.leftStep may arrives)
  | right d may arrives => exact .inr (represents.rightStep may arrives)
  | leftTimeout e times =>
      have within : a ≤ last := represents.asked_le spared times
      obtain ⟨good, left, right, leftTimeouts, rightTimeouts, puts, comes⟩ := represents
      obtain ⟨rfl, next⟩ := asks.times left within times
      by_cases few : i < limit
      · obtain ⟨none, next⟩ := next few
        have step : Exchange.Step last ⟨a, false, b, toRight, toLeft, i, j⟩ _ :=
          .leftTimeout within
        refine .inr ⟨_, step, good.step step, next, right, congrArg (· + 1) leftTimeouts,
          rightTimeouts, ?_, comes⟩
        show s.toRight ++ _ = _
        rw [none, List.append_nil]
        exact puts
      · refine .inl (.inl ?_)
        show limit < s.leftTimeouts + 1
        rw [leftTimeouts]
        exact Nat.lt_succ_of_le (Nat.not_lt.mp few)
  | rightTimeout d times =>
      obtain ⟨good, left, right, leftTimeouts, rightTimeouts, comes, puts⟩ := represents
      obtain ⟨m, rfl, within, next⟩ := answers.times right times
      by_cases few : j < limit
      · obtain ⟨replies, next⟩ := next few
        have step : Exchange.Step last ⟨a, w, m + 1, toRight, toLeft, i, j⟩ _ :=
          .rightTimeout within
        refine .inr ⟨_, step, good.step step, left, next, leftTimeouts,
          congrArg (· + 1) rightTimeouts, comes, ?_⟩
        show s.toLeft ++ _ = _
        rw [replies, puts, List.map_append]
        rfl
      · refine .inl (.inr ?_)
        show limit < s.rightTimeouts + 1
        rw [rightTimeouts]
        exact Nat.lt_succ_of_le (Nat.not_lt.mp few)
  | loseRight loses =>
      obtain ⟨good, left, right, leftTimeouts, rightTimeouts, comes, puts⟩ := represents
      rw [comes] at loses
      obtain ⟨rest, rfl, loses'⟩ := loses.of_map
      have step : Exchange.Step last ⟨a, w, b, toRight, toLeft, i, j⟩ _ :=
        .loseRight (loses'.mono fun _ _ _ => trivial)
      exact .inr ⟨_, step, good.step step, left, right, leftTimeouts, rightTimeouts, rfl, puts⟩
  | loseLeft loses =>
      have losable (r : ℕ) (member : r ∈ toLeft) (lost : lostLeft (reply r)) :
          Exchange.Losable last r := represents.losable spared member lost
      obtain ⟨good, left, right, leftTimeouts, rightTimeouts, puts, comes⟩ := represents
      rw [comes] at loses
      obtain ⟨rest, rfl, loses'⟩ := loses.of_map
      have step : Exchange.Step last ⟨a, w, b, toRight, toLeft, i, j⟩ _ :=
        .loseLeft (loses'.mono losable)
      exact .inr ⟨_, step, good.step step, left, right, leftTimeouts, rightTimeouts, puts, rfl⟩

theorem represents_start {left : σ} {right : τ} (atLeft : asks.At 0 true 0 left)
    (atRight : answers.At 0 0 right) :
    Represents asks answers .start (start left right : Lossy σ τ α β) :=
  ⟨Exchange.good_start, atLeft, atRight, rfl, rfl, rfl, rfl⟩

/-- **The messages are served and confirmed, or a machine runs into too many timeouts**,
whatever else is lost. -/
theorem inevitable (asks : Asks A p message reply last limit)
    (answers : Answers B q message reply last limit) (spares : Spares asks lostLeft)
    {left : σ} {right : τ} (atLeft : asks.At 0 true 0 left) (atRight : answers.At 0 0 right) :
    Inevitable (Step A B p q lostRight lostLeft)
      (fun s => Done asks answers s ∨ s.Broken limit) (start left right) := by
  refine Inevitable.of_simulation (R := Represents asks answers) ?_ ?_ ?_
    (represents_start atLeft atRight) (Exchange.inevitable last limit)
  · rintro x s represents (done | broken)
    · exact .inl (represents.done done)
    · exact .inr (represents.broken_iff.mpr broken)
  · intro x s represents before
    exact represents.progress (mt represents.done (not_or.mp before).1)
  · intro x s t represents _ step
    rcases represents.step (.inr spares) step with broken | matched
    · exact .inl (.inr broken)
    · exact .inr matched

/-! ## When nothing is spared -/

/-- All messages are served. -/
def Served (asks : Asks A p message reply last limit)
    (answers : Answers B q message reply last limit) (s : Lossy σ τ α β) : Prop :=
  ∃ x : Exchange, Represents asks answers x s ∧ x.served = last + 1

/-- **All messages are served, or a machine runs into too many timeouts**, whatever is lost. -/
theorem served_inevitable (asks : Asks A p message reply last limit)
    (answers : Answers B q message reply last limit) {left : σ} {right : τ}
    (atLeft : asks.At 0 true 0 left) (atRight : answers.At 0 0 right) :
    Inevitable (Step A B p q lostRight lostLeft)
      (fun s => Served asks answers s ∨ s.Broken limit) (start left right) := by
  have before {x : Exchange} {s : Lossy σ τ α β} (represents : Represents asks answers x s)
      (before : ¬ (Served asks answers s ∨ s.Broken limit)) : x.served ≤ last := by
    have served := represents.good.replies.served_le
    rcases Nat.lt_or_eq_of_le served with more | all
    · exact Nat.le_of_lt_succ more
    · exact absurd (.inl ⟨x, represents, all⟩) before
  refine Inevitable.of_simulation (R := Represents asks answers) ?_ ?_ ?_
    (represents_start atLeft atRight) (Exchange.inevitable last limit)
  · rintro x s represents (done | broken)
    · exact .inl ⟨x, represents, done.2⟩
    · exact .inr (represents.broken_iff.mpr broken)
  · intro x s represents unserved
    have within := before represents unserved
    refine represents.progress fun done => ?_
    rw [done.2] at within
    exact Nat.not_succ_le_self _ within
  · intro x s t represents unserved step
    rcases represents.step (.inl (before represents unserved)) step with broken | matched
    · exact .inl (.inr broken)
    · exact .inr matched

end Lossy

/-- A left machine that comes to its end once all messages are served. `At n w s` says that it will
send the last message or run into a timeout at most `n` times, and whether it is about to send. -/
structure Closes (A : Machine σ ε ω) (p : TimedPort σ ε ω α β) (last : α) where
  At : ℕ → Bool → σ → Prop
  sends : ∀ {n s}, At n true s → (∃ e, p.may s e) ∧ ∀ e, p.may s e →
    p.takes e = [] ∧ p.puts (A.emit s e) = [last] ∧ At n false (A.next s e)
  hears : ∀ {n s e}, At n false s → p.may s e → (∃ y, p.takes e = [y]) ∧
    p.puts (A.emit s e) = [] ∧ ∃ m w, At m w (A.next s e) ∧ m + w.toNat ≤ n
  waits : ∀ {n s}, At n false s → 0 < n → ∃ e, p.times s e
  times : ∀ {n w s e}, At n w s → p.times s e → w = false ∧ p.puts (A.emit s e) = [] ∧
    ∃ m w', At m w' (A.next s e) ∧ m < n

namespace Lossy

variable {asks : Asks A p message reply last limit}
variable {answers : Answers B q message reply last limit} {lostRight : α → Prop}
variable {lostLeft : β → Prop}

/-- **The left machine comes to its end**, when all messages are served. -/
theorem closes_inevitable (closes : Closes A p (message last))
    (answers : Answers B q message reply last limit) {n j : ℕ} {w : Bool} {s : Lossy σ τ α β}
    (left : closes.At n w s.left) (right : answers.At (last + 1) j s.right)
    (comes : ∀ a ∈ s.toRight, a = message last) :
    Inevitable (Step A B p q lostRight lostLeft)
      (fun s => closes.At 0 false s.left ∧ ∃ j, answers.At (last + 1) j s.right) s := by
  induction bound : 4 * n + 3 * w.toNat + 2 * s.toRight.length + s.toLeft.length
      using Nat.strongRecOn generalizing n w s with
  | ind k ih =>
      by_cases ended : n = 0 ∧ w = false
      · obtain ⟨rfl, rfl⟩ := ended
        exact .now ⟨left, j, right⟩
      refine .later ?_ fun t step => ?_
      · cases w with
        | true =>
            obtain ⟨⟨e, may⟩, all⟩ := closes.sends left
            have arrives : s.toLeft = p.takes e ++ s.toLeft := by rw [(all e may).1]; rfl
            exact ⟨_, .left e may arrives⟩
        | false =>
            have some' : 0 < n := Nat.pos_of_ne_zero fun none => ended ⟨none, rfl⟩
            obtain ⟨e, times⟩ := closes.waits left some'
            exact ⟨_, .leftTimeout e times⟩
      · cases step with
        | @left rest e may arrives =>
            cases w with
            | true =>
                obtain ⟨takes, puts, next⟩ := (closes.sends left).2 e may
                refine ih _ ?_ next right ?_ rfl
                · rw [takes] at arrives
                  simp only [puts, arrives, List.nil_append, List.length_append,
                    List.length_singleton, Bool.toNat_true, Bool.toNat_false] at bound ⊢
                  omega
                · intro a member
                  rw [puts] at member
                  rcases List.mem_append.mp member with member | single
                  · exact comes a member
                  · exact List.mem_singleton.mp single
            | false =>
                obtain ⟨⟨y, takes⟩, puts, m, w, next, less⟩ := closes.hears left may
                rw [puts, List.append_nil]
                refine ih _ ?_ next right comes rfl
                have bit := Bool.toNat_le w
                simp only [arrives, takes, List.length_append, List.length_singleton,
                  Bool.toNat_false] at bound ⊢
                omega
        | @right rest d may arrives =>
            obtain ⟨x, takes⟩ := answers.hears_one may
            rw [takes] at arrives
            have same : x = message last :=
              comes x (arrives ▸ List.mem_append_left _ (List.mem_singleton_self x))
            rw [same] at takes
            obtain ⟨puts, next⟩ := answers.rejects right may takes
            refine ih _ ?_ left next (fun a member => ?_) rfl
            · simp only [puts, arrives, List.length_append, List.length_singleton] at bound ⊢
              omega
            · exact comes a (arrives ▸ List.mem_append_right _ member)
        | leftTimeout e times =>
            obtain ⟨rfl, puts, m, w', next, less⟩ := closes.times left times
            have bit := Bool.toNat_le w'
            rw [puts, List.append_nil]
            refine ih _ ?_ next right comes rfl
            simp only [Bool.toNat_false] at bound ⊢
            omega
        | rightTimeout d times =>
            obtain ⟨m, same, within, -⟩ := answers.times right times
            omega
        | loseRight loses =>
            have shorter := loses.length
            refine ih _ ?_ left right (fun a member => comes a (loses.sublist.subset member)) rfl
            simp only at bound ⊢
            omega
        | loseLeft loses =>
            have shorter := loses.length
            refine ih _ ?_ left right comes rfl
            simp only at bound ⊢
            omega

/-- **The left machine comes to its end and all messages are served**, or a machine runs into too
many timeouts, whatever is lost. -/
theorem closed_inevitable (asks : Asks A p message reply last limit)
    (answers : Answers B q message reply last limit) (closes : Closes A p (message last))
    (begins : ∀ {a w i s}, asks.At a w i s → last ≤ a → ∃ n w', closes.At n w' s)
    {left : σ} {right : τ} (atLeft : asks.At 0 true 0 left) (atRight : answers.At 0 0 right) :
    Inevitable (Step A B p q lostRight lostLeft)
      (fun s => (closes.At 0 false s.left ∧ ∃ j, answers.At (last + 1) j s.right) ∨
        s.Broken limit) (start left right) := by
  refine (served_inevitable asks answers atLeft atRight).trans ?_
  rintro s (⟨x, represents, served⟩ | broken)
  · obtain ⟨good, left, right, -, -, comes, -⟩ := represents
    have asked : last ≤ x.asked := by
      rcases good.replies.asked_cases with within | ⟨-, asked, -⟩ | ⟨asked, -⟩
      · have bound := good.replies.served_le_succ within
        omega
      · omega
      · omega
    obtain ⟨n, w, left⟩ := begins left asked
    rw [served] at right
    refine (closes_inevitable closes answers left right fun a member => ?_).mono ?_
    · rw [comes] at member
      obtain ⟨m, sent, rfl⟩ := List.mem_map.mp member
      have bounds := good.messages m sent
      rw [show m = last by omega]
    · exact fun _ closed => .inl closed
  · exact .now (.inr broken)

end Lossy

end Machines

end Reactive
