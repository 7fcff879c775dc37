import Ppcb.Lib.Lossy
import Ppcb.Lib.Inevitable

/-!
# Messages sent once

The left side sends the messages `0` to `last`, each of them once. It sends the first one, the
others when it has heard the reply to it, and waits for a confirmation then. The right side
takes the messages in order. It replies to the first one and confirms the last one. A side gives
up when something else comes than what it waits for, or nothing. The right side then rejects
what still comes.

The channels keep the order, and anything on them may be lost. Every run comes to an end, and
there the left side has heard the confirmation exactly if nothing was lost and nothing
came too late (`Volley.Good.hopes_iff`). Two machines that do what the two sides do
(`SendsOnce`, `TakesOnce`) come to an end in the same way (`Lossy.volley_inevitable`).
-/

set_option autoImplicit false

namespace Reactive

/-! ## The volley -/

/-- How far the two sides are and whether they have given up, what is on its way, and what has gone
wrong. Reply `0` answers the first message, reply `1` is the confirmation, all others reject. -/
structure Volley where
  sent : ℕ
  heard : ℕ
  hopes : Bool
  served : ℕ
  serves : Bool
  toRight : List ℕ
  toLeft : List ℕ
  losses : ℕ
  leftTimeouts : ℕ
  rightTimeouts : ℕ

namespace Volley

def start : Volley := ⟨0, 0, true, 0, true, [], [], 0, 0, 0⟩

variable (last : ℕ)

/-- The left side is about to send. -/
def Sending (sent heard : ℕ) : Prop := (sent = 0 ∧ heard = 0) ∨ (sent ≤ last ∧ heard = 1)

/-- The left side waits for a reply. -/
def Waiting (sent heard : ℕ) : Prop := (sent = 1 ∧ heard = 0) ∨ (sent = last + 1 ∧ heard = 1)

/-- How many replies come to the messages that are served. -/
def promised (served : ℕ) : ℕ := if served = 0 then 0 else if served ≤ last then 1 else 2

/-- The replies to a message that is served. -/
def replies (b : ℕ) : List ℕ :=
  List.range' (promised last b) (promised last (b + 1) - promised last b)

inductive Step : Volley → Volley → Prop where
  | send {x : Volley} (hopes : x.hopes = true) (sending : Sending last x.sent x.heard) :
      Step x { x with sent := x.sent + 1, toRight := x.toRight ++ [x.sent] }
  | hear {x : Volley} {rest : List ℕ} (hopes : x.hopes = true)
      (waiting : Waiting last x.sent x.heard) (arrives : x.toLeft = x.heard :: rest) :
      Step x { x with heard := x.heard + 1, toLeft := rest }
  | despair {x : Volley} {r : ℕ} {rest : List ℕ} (hopes : x.hopes = true)
      (waiting : Waiting last x.sent x.heard) (arrives : x.toLeft = r :: rest)
      (other : r ≠ x.heard) : Step x { x with hopes := false, toLeft := rest }
  | serve {x : Volley} {rest : List ℕ} (serves : x.serves = true) (within : x.served ≤ last)
      (arrives : x.toRight = x.served :: rest) :
      Step x
        { x with
          served := x.served + 1
          toRight := rest
          toLeft := x.toLeft ++ replies last x.served }
  | reject {x : Volley} {m : ℕ} {rest : List ℕ} (serves : x.serves = true)
      (begun : 0 < x.served) (within : x.served ≤ last) (arrives : x.toRight = m :: rest)
      (missing : x.served < m) :
      Step x { x with serves := false, toRight := rest, toLeft := x.toLeft ++ [2] }
  | refuse {x : Volley} {m : ℕ} {rest : List ℕ} (gone : x.serves = false)
      (arrives : x.toRight = m :: rest) :
      Step x { x with toRight := rest, toLeft := x.toLeft ++ [2] }
  | leftTimeout {x : Volley} (hopes : x.hopes = true)
      (waiting : Waiting last x.sent x.heard) :
      Step x { x with hopes := false, leftTimeouts := x.leftTimeouts + 1 }
  | rightTimeout {x : Volley} (serves : x.serves = true) (begun : 0 < x.served)
      (within : x.served ≤ last) :
      Step x { x with serves := false, rightTimeouts := x.rightTimeouts + 1 }
  | loseRight {x : Volley} {rest : List ℕ} (loses : Loses (fun _ => True) x.toRight rest) :
      Step x { x with toRight := rest, losses := x.losses + 1 }
  | loseLeft {x : Volley} {rest : List ℕ} (loses : Loses (fun _ => True) x.toLeft rest) :
      Step x { x with toLeft := rest, losses := x.losses + 1 }

/-- Nothing has been lost, and nothing has come too late. -/
def Faultless (x : Volley) : Prop :=
  x.losses = 0 ∧ x.leftTimeouts = 0 ∧ x.rightTimeouts = 0

/-- Both sides rest, and nothing is on its way to the right. -/
structure Over (x : Volley) : Prop where
  left : x.hopes = true → x.heard = 2
  right : x.serves = true → x.served = 0 ∨ x.served = last + 1
  toRight : x.toRight = []

/-! ## What holds in every run -/

/-- As long as neither side has given up, the messages and the replies that are neither taken nor
on their way are lost. -/
structure Good (x : Volley) : Prop where
  sent_le : x.sent ≤ last + 1
  served_le : x.served ≤ x.sent
  heard_le : x.heard ≤ promised last x.served
  opens : x.heard = 0 → x.sent ≤ 1
  messages : ∀ m ∈ x.toRight, m < x.sent ∧ (0 < x.served → 0 < m)
  ahead : x.serves = true → x.toRight.Pairwise (· < ·) ∧ ∀ m ∈ x.toRight, x.served ≤ m
  behind : x.hopes = true → x.serves = true → x.toLeft.Pairwise (· < ·) ∧
    ∀ r ∈ x.toLeft, x.heard ≤ r ∧ r < promised last x.served
  counts : x.hopes = true → x.serves = true →
    x.losses + x.served + x.toRight.length + x.heard + x.toLeft.length =
      x.sent + promised last x.served
  hopeful : x.hopes = true → x.leftTimeouts = 0
  serving : x.serves = true → x.rightTimeouts = 0
  faulty : x.hopes = false ∨ x.serves = false →
    0 < x.losses + x.leftTimeouts + x.rightTimeouts
  gone : x.serves = false → 0 < x.served ∧ x.served ≤ last
  unconfirmed : x.served ≤ last → ∀ r ∈ x.toLeft, r ≠ 1

variable {last}

theorem promised_le_two (b : ℕ) : promised last b ≤ 2 := by
  rw [promised]
  split
  · exact Nat.zero_le 2
  · split
    · exact Nat.le_succ 1
    · exact Nat.le_refl 2

theorem promised_eq_zero_iff {b : ℕ} : promised last b = 0 ↔ b = 0 := by
  rw [promised]
  split
  · rename_i zero
    exact ⟨fun _ => zero, fun _ => rfl⟩
  · rename_i more
    refine ⟨fun zero => ?_, fun zero => absurd zero more⟩
    split at zero <;> cases zero

theorem promised_eq_two_iff {b : ℕ} : promised last b = 2 ↔ last < b := by
  rw [promised]
  split
  · omega
  · split <;> omega

theorem promised_le_succ (b : ℕ) : promised last b ≤ promised last (b + 1) := by
  rw [promised, promised, if_neg (Nat.succ_ne_zero b)]
  split_ifs <;> omega

theorem promised_of_within {b : ℕ} (begun : 0 < b) (within : b ≤ last) : promised last b = 1 := by
  rw [promised, if_neg (Nat.ne_of_gt begun), if_pos within]

theorem length_replies (b : ℕ) :
    promised last b + (replies last b).length = promised last (b + 1) := by
  rw [replies, List.length_range', Nat.add_sub_cancel' (promised_le_succ b)]

theorem mem_replies {b r : ℕ} :
    r ∈ replies last b ↔ promised last b ≤ r ∧ r < promised last (b + 1) := by
  rw [replies, List.mem_range'_1, Nat.add_sub_cancel' (promised_le_succ b)]

theorem Sending.within {n h : ℕ} (sending : Sending last n h) : n ≤ last := by
  rcases sending with ⟨zero, -⟩ | ⟨below, -⟩
  · exact zero ▸ Nat.zero_le last
  · exact below

/-- A side that has heard the first reply and waits has sent everything. -/
theorem Waiting.sent_all {n : ℕ} (waiting : Waiting last n 1) : n = last + 1 := by
  rcases waiting with ⟨-, none⟩ | ⟨all, -⟩
  · exact absurd none Nat.one_ne_zero
  · exact all

/-- An increasing list between two bounds is no longer than what is between them. -/
theorem length_le_of_increasing {l : List ℕ} {low high : ℕ} (increasing : l.Pairwise (· < ·))
    (bounds : ∀ m ∈ l, low ≤ m ∧ m < high) (ordered : low ≤ high) :
    low + l.length ≤ high := by
  induction l generalizing low with
  | nil => exact ordered
  | cons m l ih =>
      obtain ⟨first, rest⟩ := List.pairwise_cons.mp increasing
      obtain ⟨from_low, to_high⟩ := bounds m List.mem_cons_self
      have shorter : m + 1 + l.length ≤ high := ih rest
        (fun n member => ⟨first n member, (bounds n (List.mem_cons_of_mem m member)).2⟩) to_high
      rw [List.length_cons]
      omega

theorem good_start : Good last start where
  sent_le := Nat.zero_le _
  served_le := Nat.le_refl 0
  heard_le := Nat.zero_le _
  opens _ := Nat.zero_le 1
  messages _ member := absurd member List.not_mem_nil
  ahead _ := ⟨.nil, fun _ member => absurd member List.not_mem_nil⟩
  behind _ _ := ⟨.nil, fun _ member => absurd member List.not_mem_nil⟩
  counts _ _ := rfl
  hopeful _ := rfl
  serving _ := rfl
  faulty gone := by rcases gone with gone | gone <;> cases gone
  gone gone := by cases gone
  unconfirmed _ _ member := absurd member List.not_mem_nil

namespace Good

variable {x : Volley}

/-- What the left side can do as long as it hopes. -/
theorem left_cases (good : Good last x) :
    Sending last x.sent x.heard ∨ Waiting last x.sent x.heard ∨
      (x.heard = 2 ∧ x.sent = last + 1) := by
  obtain ⟨sent_le, served_le, heard_le, opens, -⟩ := good
  have heard : x.heard = 0 ∨ x.heard = 1 ∨ x.heard = 2 := by
    have bound : promised last x.served ≤ 2 := promised_le_two x.served
    omega
  rcases heard with heard | heard | heard
  · have few := opens heard
    rcases Nat.lt_or_eq_of_le few with none | one
    · exact .inl (.inl ⟨Nat.lt_one_iff.mp none, heard⟩)
    · exact .inr (.inl (.inl ⟨one, heard⟩))
  · rcases Nat.lt_or_eq_of_le sent_le with more | all
    · exact .inl (.inr ⟨Nat.le_of_lt_succ more, heard⟩)
    · exact .inr (.inl (.inr ⟨all, heard⟩))
  · have both : promised last x.served = 2 :=
      Nat.le_antisymm (promised_le_two _) (heard ▸ heard_le)
    have all : last < x.served := promised_eq_two_iff.mp both
    exact .inr (.inr ⟨heard, by omega⟩)

/-- Something can be done before the end. -/
theorem enabled (good : Good last x) (before : ¬ Over last x) :
    (x.hopes = true ∧ (Sending last x.sent x.heard ∨ Waiting last x.sent x.heard)) ∨
      (x.serves = true ∧ 0 < x.served ∧ x.served ≤ last) ∨ x.toRight ≠ [] := by
  by_contra none
  obtain ⟨left, right, toRight⟩ : ¬ _ ∧ ¬ _ ∧ ¬ _ := by simpa only [not_or] using none
  refine before ⟨fun hopes => ?_, fun serves => ?_, not_not.mp toRight⟩
  · rcases good.left_cases with sending | waiting | ⟨heard, -⟩
    · exact absurd ⟨hopes, .inl sending⟩ left
    · exact absurd ⟨hopes, .inr waiting⟩ left
    · exact heard
  · have served : x.served ≤ last + 1 := Nat.le_trans good.served_le good.sent_le
    have idle : ¬ (0 < x.served ∧ x.served ≤ last) := fun both => right ⟨serves, both⟩
    omega

/-- The first message is not missing as long as something comes. -/
theorem begun (good : Good last x) {m : ℕ} (missing : x.served < m) (sent : m < x.sent) :
    0 < x.served := by
  refine Nat.pos_of_ne_zero fun none => ?_
  have silent : x.heard ≤ 0 := (promised_eq_zero_iff.mpr none) ▸ good.heard_le
  have few := good.opens (Nat.le_zero.mp silent)
  omega

/-- A left side that still hopes at the end has heard the confirmation of everything. -/
theorem confirmed (good : Good last x) (ended : Over last x) (hopes : x.hopes = true) :
    x.serves = true ∧ x.served = last + 1 ∧ x.losses = 0 ∧ x.toLeft = [] := by
  have heard := ended.left hopes
  have both : promised last x.served = 2 :=
    Nat.le_antisymm (promised_le_two _) (heard ▸ good.heard_le)
  have all : last < x.served := promised_eq_two_iff.mp both
  have serves : x.serves = true := by
    cases serves : x.serves with
    | true => rfl
    | false => exact absurd (good.gone serves).2 (Nat.not_le_of_gt all)
  have counts := good.counts hopes serves
  have sent := good.sent_le
  have served := good.served_le
  refine ⟨serves, by omega, by omega, List.length_eq_zero_iff.mp (by omega)⟩

/-- **At the end the confirmation has been heard exactly if nothing went wrong.** -/
theorem hopes_iff (good : Good last x) (ended : Over last x) :
    x.hopes = true ↔ x.Faultless := by
  constructor
  · intro hopes
    obtain ⟨serves, -, losses, -⟩ := good.confirmed ended hopes
    exact ⟨losses, good.hopeful hopes, good.serving serves⟩
  · rintro ⟨losses, leftTimeouts, rightTimeouts⟩
    cases hopes : x.hopes with
    | true => rfl
    | false =>
        have faulty := good.faulty (.inl hopes)
        omega

/-- A message is sent. -/
theorem send (good : Good last x) (sending : Sending last x.sent x.heard) :
    Good last { x with sent := x.sent + 1, toRight := x.toRight ++ [x.sent] } :=
  { good with
    sent_le := Nat.succ_le_succ sending.within
    served_le := Nat.le_succ_of_le good.served_le
    opens := by
      intro none
      rcases sending with ⟨zero, -⟩ | ⟨-, one⟩
      · exact Nat.le_of_eq (congrArg (· + 1) zero)
      · exact absurd (none.symm.trans one) Nat.zero_ne_one
    messages := by
      intro m member
      rcases List.mem_append.mp member with member | single
      · exact ⟨Nat.lt_succ_of_lt (good.messages m member).1, (good.messages m member).2⟩
      · rw [List.mem_singleton.mp single]
        exact ⟨Nat.lt_succ_self _, fun begun => Nat.lt_of_lt_of_le begun good.served_le⟩
    ahead := by
      intro serves
      obtain ⟨increasing, later⟩ := good.ahead serves
      constructor
      · refine List.pairwise_append.mpr ⟨increasing, List.pairwise_singleton _ _, ?_⟩
        intro m member n single
        rw [List.mem_singleton.mp single]
        exact (good.messages m member).1
      · intro m member
        rcases List.mem_append.mp member with member | single
        · exact later m member
        · rw [List.mem_singleton.mp single]
          exact good.served_le
    counts := by
      intro hopes serves
      have before := good.counts hopes serves
      simp only [List.length_append, List.length_singleton]
      omega }

/-- The reply comes that the left side waits for. -/
theorem hear (good : Good last x) {rest : List ℕ} (hopes : x.hopes = true)
    (arrives : x.toLeft = x.heard :: rest) :
    Good last { x with heard := x.heard + 1, toLeft := rest } :=
  { good with
    heard_le := by
      cases serves : x.serves with
      | true => exact ((good.behind hopes serves).2 _ (arrives ▸ List.mem_cons_self)).2
      | false =>
          obtain ⟨begun, within⟩ := good.gone serves
          have other : x.heard ≠ 1 := good.unconfirmed within _ (arrives ▸ List.mem_cons_self)
          have one : promised last x.served = 1 := promised_of_within begun within
          have before := good.heard_le
          show x.heard + 1 ≤ promised last x.served
          omega
    opens := fun none => absurd none (Nat.succ_ne_zero _)
    behind := by
      intro hopes serves
      obtain ⟨increasing, bounds⟩ := good.behind hopes serves
      rw [arrives] at increasing bounds
      obtain ⟨first, rest_increasing⟩ := List.pairwise_cons.mp increasing
      exact ⟨rest_increasing,
        fun r member => ⟨first r member, (bounds r (List.mem_cons_of_mem _ member)).2⟩⟩
    counts := by
      intro hopes serves
      have before := good.counts hopes serves
      rw [arrives, List.length_cons] at before
      simp only
      omega
    unconfirmed := fun within r member =>
      good.unconfirmed within r (arrives ▸ List.mem_cons_of_mem _ member) }

/-- No more messages are on their way than have been sent and are not served. -/
theorem few_toRight (good : Good last x) (serves : x.serves = true) :
    x.served + x.toRight.length ≤ x.sent :=
  length_le_of_increasing (good.ahead serves).1
    (fun m member => ⟨(good.ahead serves).2 m member, (good.messages m member).1⟩) good.served_le

/-- No more replies are on their way than are promised and have not been heard. -/
theorem few_toLeft (good : Good last x) (hopes : x.hopes = true) (serves : x.serves = true) :
    x.heard + x.toLeft.length ≤ promised last x.served :=
  length_le_of_increasing (good.behind hopes serves).1 (good.behind hopes serves).2 good.heard_le

/-- Another reply comes than the one that the left side waits for: one has been lost. -/
theorem despair (good : Good last x) {r : ℕ} {rest : List ℕ} (hopes : x.hopes = true)
    (arrives : x.toLeft = r :: rest) (other : r ≠ x.heard) :
    Good last { x with hopes := false, toLeft := rest } :=
  { good with
    behind := Bool.noConfusion
    counts := Bool.noConfusion
    hopeful := Bool.noConfusion
    faulty := by
      intro _
      show 0 < x.losses + x.leftTimeouts + x.rightTimeouts
      cases serves : x.serves with
      | false => exact good.faulty (.inr serves)
      | true =>
          have before := good.counts hopes serves
          have few := good.few_toRight serves
          obtain ⟨increasing, bounds⟩ := good.behind hopes serves
          rw [arrives] at increasing bounds before
          obtain ⟨first, rest_increasing⟩ := List.pairwise_cons.mp increasing
          obtain ⟨later, small⟩ := bounds r List.mem_cons_self
          have short : r + 1 + rest.length ≤ promised last x.served :=
            length_le_of_increasing rest_increasing
              (fun s member => ⟨first s member, (bounds s (List.mem_cons_of_mem _ member)).2⟩)
              small
          rw [List.length_cons] at before
          omega
    unconfirmed := fun within s member =>
      good.unconfirmed within s (arrives ▸ List.mem_cons_of_mem _ member) }

/-- The next message comes. -/
theorem serve (good : Good last x) {rest : List ℕ} (serves : x.serves = true)
    (arrives : x.toRight = x.served :: rest) :
    Good last
      { x with
        served := x.served + 1
        toRight := rest
        toLeft := x.toLeft ++ replies last x.served } := by
  obtain ⟨increasing, -⟩ := good.ahead serves
  have messages := good.messages
  rw [arrives] at increasing messages
  obtain ⟨first, rest_increasing⟩ := List.pairwise_cons.mp increasing
  exact
    { good with
      served_le := (messages _ List.mem_cons_self).1
      heard_le := Nat.le_trans good.heard_le (promised_le_succ _)
      messages := fun m member => ⟨(messages m (List.mem_cons_of_mem _ member)).1,
        fun _ => Nat.lt_of_le_of_lt (Nat.zero_le _) (first m member)⟩
      ahead := fun _ => ⟨rest_increasing, first⟩
      behind := by
        intro hopes _
        obtain ⟨increasing, bounds⟩ := good.behind hopes serves
        constructor
        · refine List.pairwise_append.mpr ⟨increasing, List.pairwise_lt_range', ?_⟩
          intro r member s reply
          exact Nat.lt_of_lt_of_le (bounds r member).2 (mem_replies.mp reply).1
        · intro r member
          rcases List.mem_append.mp member with member | reply
          · obtain ⟨later, small⟩ := bounds r member
            exact ⟨later, Nat.lt_of_lt_of_le small (promised_le_succ _)⟩
          · obtain ⟨later, small⟩ := mem_replies.mp reply
            exact ⟨Nat.le_trans good.heard_le later, small⟩
      counts := by
        intro hopes _
        have before := good.counts hopes serves
        have more : promised last x.served + (replies last x.served).length =
            promised last (x.served + 1) := length_replies x.served
        rw [arrives, List.length_cons] at before
        simp only [List.length_append]
        omega
      gone := fun none => absurd (serves.symm.trans none) Bool.noConfusion
      unconfirmed := by
        intro within r member
        rcases List.mem_append.mp member with member | reply
        · exact good.unconfirmed (Nat.le_of_succ_le within) r member
        · have one : promised last (x.served + 1) = 1 :=
            promised_of_within (Nat.succ_pos _) within
          have small := (mem_replies.mp reply).2
          omega }

/-- What rejects does not confirm. -/
theorem unconfirmed_rejection (good : Good last x) (within : x.served ≤ last) :
    ∀ r ∈ x.toLeft ++ [2], r ≠ 1 := by
  intro r member
  rcases List.mem_append.mp member with member | single
  · exact good.unconfirmed within r member
  · rw [List.mem_singleton.mp single]
    exact Nat.succ_ne_self 1

/-- A message comes that is not the next one: one has been lost. -/
theorem reject (good : Good last x) {m : ℕ} {rest : List ℕ} (serves : x.serves = true)
    (begun : 0 < x.served) (within : x.served ≤ last) (arrives : x.toRight = m :: rest)
    (missing : x.served < m) :
    Good last { x with serves := false, toRight := rest, toLeft := x.toLeft ++ [2] } :=
  { good with
    messages := fun n member => good.messages n (arrives ▸ List.mem_cons_of_mem _ member)
    ahead := Bool.noConfusion
    behind := fun _ => Bool.noConfusion
    counts := fun _ => Bool.noConfusion
    serving := Bool.noConfusion
    faulty := by
      intro _
      show 0 < x.losses + x.leftTimeouts + x.rightTimeouts
      cases hopes : x.hopes with
      | false => exact good.faulty (.inl hopes)
      | true =>
          have before := good.counts hopes serves
          have few := good.few_toLeft hopes serves
          obtain ⟨increasing, -⟩ := good.ahead serves
          have messages := good.messages
          rw [arrives] at increasing messages before
          obtain ⟨first, rest_increasing⟩ := List.pairwise_cons.mp increasing
          have short : m + 1 + rest.length ≤ x.sent :=
            length_le_of_increasing rest_increasing
              (fun n member => ⟨first n member, (messages n (List.mem_cons_of_mem _ member)).1⟩)
              (messages m List.mem_cons_self).1
          rw [List.length_cons] at before
          omega
    gone := fun _ => ⟨begun, within⟩
    unconfirmed := fun _ => good.unconfirmed_rejection within }

/-- A message comes when the right side has given up. -/
theorem refuse (good : Good last x) {m : ℕ} {rest : List ℕ} (none : x.serves = false)
    (arrives : x.toRight = m :: rest) :
    Good last { x with toRight := rest, toLeft := x.toLeft ++ [2] } :=
  have gone : ¬ x.serves = true := fun serves => absurd (none.symm.trans serves) Bool.noConfusion
  { good with
    messages := fun n member => good.messages n (arrives ▸ List.mem_cons_of_mem _ member)
    ahead := fun serves => absurd serves gone
    behind := fun _ serves => absurd serves gone
    counts := fun _ serves => absurd serves gone
    unconfirmed := good.unconfirmed_rejection }

theorem leftTimeout (good : Good last x) :
    Good last { x with hopes := false, leftTimeouts := x.leftTimeouts + 1 } :=
  { good with
    behind := Bool.noConfusion
    counts := Bool.noConfusion
    hopeful := Bool.noConfusion
    faulty := by
      intro _
      show 0 < x.losses + (x.leftTimeouts + 1) + x.rightTimeouts
      omega }

theorem rightTimeout (good : Good last x) (begun : 0 < x.served) (within : x.served ≤ last) :
    Good last { x with serves := false, rightTimeouts := x.rightTimeouts + 1 } :=
  { good with
    ahead := Bool.noConfusion
    behind := fun _ => Bool.noConfusion
    counts := fun _ => Bool.noConfusion
    serving := Bool.noConfusion
    faulty := fun _ => Nat.succ_pos _
    gone := fun _ => ⟨begun, within⟩ }

theorem loseRight (good : Good last x) {rest : List ℕ}
    (loses : Loses (fun _ => True) x.toRight rest) :
    Good last { x with toRight := rest, losses := x.losses + 1 } :=
  have kept (m : ℕ) (member : m ∈ rest) : m ∈ x.toRight := loses.sublist.subset member
  { good with
    messages := fun m member => good.messages m (kept m member)
    ahead := fun serves => ⟨(good.ahead serves).1.sublist loses.sublist,
      fun m member => (good.ahead serves).2 m (kept m member)⟩
    counts := by
      intro hopes serves
      have before := good.counts hopes serves
      have shorter := loses.length
      simp only
      omega
    faulty := by
      intro _
      show 0 < x.losses + 1 + x.leftTimeouts + x.rightTimeouts
      omega }

theorem loseLeft (good : Good last x) {rest : List ℕ}
    (loses : Loses (fun _ => True) x.toLeft rest) :
    Good last { x with toLeft := rest, losses := x.losses + 1 } :=
  have kept (r : ℕ) (member : r ∈ rest) : r ∈ x.toLeft := loses.sublist.subset member
  { good with
    behind := fun hopes serves => ⟨(good.behind hopes serves).1.sublist loses.sublist,
      fun r member => (good.behind hopes serves).2 r (kept r member)⟩
    counts := by
      intro hopes serves
      have before := good.counts hopes serves
      have shorter := loses.length
      simp only
      omega
    faulty := by
      intro _
      show 0 < x.losses + 1 + x.leftTimeouts + x.rightTimeouts
      omega
    unconfirmed := fun within r member => good.unconfirmed within r (kept r member) }

/-- **Every step keeps the invariant.** -/
theorem step {y : Volley} (good : Good last x) (step : Step last x y) : Good last y := by
  cases step with
  | send _ sending => exact good.send sending
  | hear hopes _ arrives => exact good.hear hopes arrives
  | despair hopes _ arrives other => exact good.despair hopes arrives other
  | serve serves _ arrives => exact good.serve serves arrives
  | reject serves begun within arrives missing =>
      exact good.reject serves begun within arrives missing
  | refuse none arrives => exact good.refuse none arrives
  | leftTimeout => exact good.leftTimeout
  | rightTimeout _ begun within => exact good.rightTimeout begun within
  | loseRight loses => exact good.loseRight loses
  | loseLeft loses => exact good.loseLeft loses

end Good

variable (last) in
/-- What the steps lower. -/
def rank (x : Volley) : ℕ :=
  4 * (last + 1 - x.sent) + 3 * x.toRight.length + x.toLeft.length + x.hopes.toNat +
    x.serves.toNat

/-- **Every step lowers the rank.** -/
theorem Step.rank {x y : Volley} (step : Step last x y) : y.rank last < x.rank last := by
  cases step with
  | send _ sending =>
      have below := sending.within
      simp only [Volley.rank, List.length_append, List.length_singleton]
      omega
  | hear _ _ arrives =>
      simp only [Volley.rank, arrives, List.length_cons]
      omega
  | despair hopes _ arrives _ =>
      simp only [Volley.rank, arrives, hopes, List.length_cons, Bool.toNat_true, Bool.toNat_false]
      omega
  | serve serves _ arrives =>
      have few : promised last x.served + (replies last x.served).length =
          promised last (x.served + 1) := length_replies x.served
      have bound : promised last (x.served + 1) ≤ 2 := promised_le_two _
      simp only [Volley.rank, arrives, List.length_cons, List.length_append]
      omega
  | reject serves _ _ arrives _ =>
      simp only [Volley.rank, arrives, serves, List.length_cons, List.length_append,
        List.length_nil, Bool.toNat_true, Bool.toNat_false]
      omega
  | refuse _ arrives =>
      simp only [Volley.rank, arrives, List.length_cons, List.length_append, List.length_nil]
      omega
  | leftTimeout hopes _ =>
      simp only [Volley.rank, hopes, Bool.toNat_true, Bool.toNat_false]
      omega
  | rightTimeout serves _ _ =>
      simp only [Volley.rank, serves, Bool.toNat_true, Bool.toNat_false]
      omega
  | loseRight loses =>
      have shorter := loses.length
      simp only [Volley.rank]
      omega
  | loseLeft loses =>
      have shorter := loses.length
      simp only [Volley.rank]
      omega

variable (last) in
/-- **Every volley comes to its end.** -/
theorem inevitable : Inevitable (Step last) (fun x => Good last x ∧ Over last x) start := by
  refine Inevitable.of_measure (I := Good last) (rank last) (fun x good before => ?_)
    (fun x y good _ step => ⟨good.step step, step.rank⟩) good_start
  have before : ¬ Over last x := fun ended => before ⟨good, ended⟩
  rcases good.enabled before with ⟨hopes, sending | waiting⟩ | ⟨serves, begun, within⟩ | some'
  · exact ⟨_, .send hopes sending⟩
  · exact ⟨_, .leftTimeout hopes waiting⟩
  · exact ⟨_, .rightTimeout serves begun within⟩
  · obtain ⟨m, rest, arrives⟩ := List.exists_cons_of_ne_nil some'
    have loses : Loses (fun _ => True) x.toRight rest := by
      rw [arrives]
      exact .here trivial
    exact ⟨_, .loseRight loses⟩

end Volley

/-! ## Machines that send once -/

section Machines

variable {σ τ ε δ ω ψ α β : Type*}

/-- A left machine that sends each message once. `At n h s` says that it has sent `n` messages and
heard `h` replies. -/
structure SendsOnce (A : Machine σ ε ω) (p : TimedPort σ ε ω α β) (message : ℕ → α)
    (kind : β → ℕ) (last : ℕ) where
  At : ℕ → ℕ → σ → Prop
  Failed : σ → Prop
  sends : ∀ {n h s}, At n h s → Volley.Sending last n h → (∃ e, p.may s e) ∧
    ∀ e, p.may s e → p.takes e = [] ∧ p.puts (A.emit s e) = [message n] ∧ At (n + 1) h (A.next s e)
  hears : ∀ {n h s e}, At n h s → Volley.Waiting last n h → p.may s e →
    p.puts (A.emit s e) = [] ∧ ∃ y, p.takes e = [y] ∧
      (kind y = h → At n (h + 1) (A.next s e)) ∧ (kind y ≠ h → Failed (A.next s e))
  waits : ∀ {n h s}, At n h s → Volley.Waiting last n h → ∃ e, p.times s e
  times : ∀ {n h s e}, At n h s → p.times s e → Volley.Waiting last n h ∧
    p.puts (A.emit s e) = [] ∧ Failed (A.next s e)
  ended : ∀ {s e}, At (last + 1) 2 s → ¬ p.may s e
  failed : ∀ {s e}, Failed s → ¬ p.may s e ∧ ¬ p.times s e

/-- A right machine that takes the messages in order, or gives up. `At b s` says that it has served
`b` messages. -/
structure TakesOnce (B : Machine τ δ ψ) (q : TimedPort τ δ ψ β α) (message : ℕ → α)
    (kind : β → ℕ) (last : ℕ) where
  At : ℕ → τ → Prop
  GivenUp : ℕ → τ → Prop
  hears_one : ∀ {s d}, q.may s d → ∃ x, q.takes d = [x]
  serves : ∀ {b s d}, At b s → b ≤ last → q.may s d → q.takes d = [message b] →
    (q.puts (B.emit s d)).map kind = Volley.replies last b ∧ At (b + 1) (B.next s d)
  rejects : ∀ {b m s d}, At b s → 0 < b → b < m → m ≤ last → q.may s d → q.takes d = [message m] →
    (q.puts (B.emit s d)).map kind = [2] ∧ GivenUp b (B.next s d)
  refuses : ∀ {b m s d}, GivenUp b s → 0 < m → m ≤ last → q.may s d → q.takes d = [message m] →
    (q.puts (B.emit s d)).map kind = [2] ∧ GivenUp b (B.next s d)
  waits : ∀ {b s}, At b s → 0 < b → b ≤ last → ∃ d, q.times s d
  times : ∀ {b s d}, At b s → q.times s d → 0 < b ∧ b ≤ last ∧
    q.puts (B.emit s d) = [] ∧ GivenUp b (B.next s d)
  gone : ∀ {b s d}, GivenUp b s → ¬ q.times s d

variable {A : Machine σ ε ω} {B : Machine τ δ ψ} {p : TimedPort σ ε ω α β}
variable {q : TimedPort τ δ ψ β α} {message : ℕ → α} {kind : β → ℕ} {last : ℕ}

namespace Lossy

/-- Two machines that are as far as the two sides of a volley. -/
structure Volleys (sends : SendsOnce A p message kind last)
    (takes : TakesOnce B q message kind last) (x : Volley) (s : Lossy σ τ α β) : Prop where
  good : Volley.Good last x
  hopes : x.hopes = true → sends.At x.sent x.heard s.left
  failed : x.hopes = false → sends.Failed s.left
  serves : x.serves = true → takes.At x.served s.right
  gone : x.serves = false → takes.GivenUp x.served s.right
  toRight : s.toRight = x.toRight.map message
  toLeft : s.toLeft.map kind = x.toLeft
  losses : s.losses = x.losses
  leftTimeouts : s.leftTimeouts = x.leftTimeouts
  rightTimeouts : s.rightTimeouts = x.rightTimeouts

variable {sends : SendsOnce A p message kind last} {takes : TakesOnce B q message kind last}
variable {x : Volley} {s t : Lossy σ τ α β}

theorem Volleys.faultless_iff (volleys : Volleys sends takes x s) :
    s.Faultless ↔ x.Faultless := by
  rw [Faultless, Volley.Faultless, volleys.losses, volleys.leftTimeouts, volleys.rightTimeouts]

/-- Something can be done before the end. -/
theorem Volleys.progress (volleys : Volleys sends takes x s) (before : ¬ Volley.Over last x) :
    ∃ t, Step A B p q (fun _ => True) (fun _ => True) s t := by
  rcases volleys.good.enabled before with
    ⟨hopes, sending | waiting⟩ | ⟨serves, begun, within⟩ | some'
  · obtain ⟨⟨e, may⟩, all⟩ := sends.sends (volleys.hopes hopes) sending
    have arrives : s.toLeft = p.takes e ++ s.toLeft := by rw [(all e may).1]; rfl
    exact ⟨_, .left e may arrives⟩
  · obtain ⟨e, times⟩ := sends.waits (volleys.hopes hopes) waiting
    exact ⟨_, .leftTimeout e times⟩
  · obtain ⟨d, times⟩ := takes.waits (volleys.serves serves) begun within
    exact ⟨_, .rightTimeout d times⟩
  · obtain ⟨m, rest, arrives⟩ := List.exists_cons_of_ne_nil some'
    have loses : Loses (fun _ => True) s.toRight (rest.map message) := by
      rw [volleys.toRight, arrives]
      exact .here trivial
    exact ⟨_, .loseRight loses⟩

/-- A step of the left machine. -/
theorem Volleys.leftStep (volleys : Volleys sends takes x s) {e : ε} {rest : List β}
    (may : p.may s.left e) (arrives : s.toLeft = p.takes e ++ rest) :
    ∃ y, Volley.Step last x y ∧ Volleys sends takes y
      { s with
        left := A.next s.left e
        toRight := s.toRight ++ p.puts (A.emit s.left e)
        toLeft := rest } := by
  cases hopes : x.hopes with
  | false => exact absurd may (sends.failed (volleys.failed hopes)).1
  | true =>
      have there := volleys.hopes hopes
      rcases volleys.good.left_cases with sending | waiting | ⟨heard, sent⟩
      · obtain ⟨takes', puts, next⟩ := (sends.sends there sending).2 e may
        have step : Volley.Step last x _ := .send hopes sending
        refine ⟨_, step, volleys.good.step step, fun _ => next,
          fun failed => absurd (hopes.symm.trans failed) Bool.noConfusion, volleys.serves,
          volleys.gone, ?_, ?_, volleys.losses, volleys.leftTimeouts, volleys.rightTimeouts⟩
        · rw [puts, volleys.toRight, List.map_append, List.map_singleton]
        · rw [takes', List.nil_append] at arrives
          rw [← arrives]
          exact volleys.toLeft
      · obtain ⟨puts, y, takes', proceeds, fails⟩ := sends.hears there waiting may
        have toLeft := volleys.toLeft
        rw [arrives, takes', List.singleton_append, List.map_cons] at toLeft
        have toRight : s.toRight ++ p.puts (A.emit s.left e) = x.toRight.map message := by
          rw [puts, List.append_nil, volleys.toRight]
        by_cases expected : kind y = x.heard
        · rw [expected] at toLeft
          have step : Volley.Step last x _ := .hear hopes waiting toLeft.symm
          exact ⟨_, step, volleys.good.step step, fun _ => proceeds expected,
            fun failed => absurd (hopes.symm.trans failed) Bool.noConfusion, volleys.serves,
            volleys.gone, toRight, rfl, volleys.losses, volleys.leftTimeouts,
            volleys.rightTimeouts⟩
        · have step : Volley.Step last x _ := .despair hopes waiting toLeft.symm expected
          exact ⟨_, step, volleys.good.step step, Bool.noConfusion, fun _ => fails expected,
            volleys.serves, volleys.gone, toRight, rfl, volleys.losses, volleys.leftTimeouts,
            volleys.rightTimeouts⟩
      · rw [heard, sent] at there
        exact absurd may (sends.ended there)

/-- A step of the right machine. -/
theorem Volleys.rightStep (volleys : Volleys sends takes x s) {d : δ} {rest : List α}
    (may : q.may s.right d) (arrives : s.toRight = q.takes d ++ rest) :
    ∃ y, Volley.Step last x y ∧ Volleys sends takes y
      { s with
        right := B.next s.right d
        toRight := rest
        toLeft := s.toLeft ++ q.puts (B.emit s.right d) } := by
  obtain ⟨y, takes'⟩ := takes.hears_one may
  rw [volleys.toRight, takes'] at arrives
  obtain ⟨m, toRight, comes, rfl, rfl⟩ := List.map_eq_cons_iff.mp arrives
  obtain ⟨sent, later⟩ := volleys.good.messages m (comes ▸ List.mem_cons_self)
  have within : m ≤ last := Nat.le_of_lt_succ (Nat.lt_of_lt_of_le sent volleys.good.sent_le)
  have replied {more : List ℕ} (replies : (q.puts (B.emit s.right d)).map kind = more) :
      (s.toLeft ++ q.puts (B.emit s.right d)).map kind = x.toLeft ++ more := by
    rw [List.map_append, volleys.toLeft, replies]
  cases serves : x.serves with
  | false =>
      have begun : 0 < x.served := (volleys.good.gone serves).1
      obtain ⟨replies, next⟩ := takes.refuses (volleys.gone serves) (later begun) within may takes'
      have step : Volley.Step last x _ := .refuse serves comes
      exact ⟨_, step, volleys.good.step step, volleys.hopes, volleys.failed,
        fun serving => absurd (serves.symm.trans serving) Bool.noConfusion, fun _ => next, rfl,
        replied replies, volleys.losses, volleys.leftTimeouts, volleys.rightTimeouts⟩
  | true =>
      have there := volleys.serves serves
      have ahead : x.served ≤ m := (volleys.good.ahead serves).2 m (comes ▸ List.mem_cons_self)
      rcases Nat.eq_or_lt_of_le ahead with rfl | missing
      · obtain ⟨replies, next⟩ := takes.serves there within may takes'
        have step : Volley.Step last x _ := .serve serves within comes
        exact ⟨_, step, volleys.good.step step, volleys.hopes, volleys.failed, fun _ => next,
          fun gone => absurd (serves.symm.trans gone) Bool.noConfusion, rfl, replied replies,
          volleys.losses, volleys.leftTimeouts, volleys.rightTimeouts⟩
      · have begun : 0 < x.served := volleys.good.begun missing sent
        obtain ⟨replies, next⟩ := takes.rejects there begun missing within may takes'
        have step : Volley.Step last x _ :=
          .reject serves begun (Nat.le_trans ahead within) comes missing
        exact ⟨_, step, volleys.good.step step, volleys.hopes, volleys.failed, Bool.noConfusion,
          fun _ => next, rfl, replied replies, volleys.losses, volleys.leftTimeouts,
          volleys.rightTimeouts⟩

/-- **Every step of the machines is a step of the volley.** -/
theorem Volleys.step (volleys : Volleys sends takes x s)
    (step : Step A B p q (fun _ => True) (fun _ => True) s t) :
    ∃ y, Volley.Step last x y ∧ Volleys sends takes y t := by
  cases step with
  | left e may arrives => exact volleys.leftStep may arrives
  | right d may arrives => exact volleys.rightStep may arrives
  | leftTimeout e times =>
      cases hopes : x.hopes with
      | false => exact absurd times (sends.failed (volleys.failed hopes)).2
      | true =>
          obtain ⟨waiting, puts, next⟩ := sends.times (volleys.hopes hopes) times
          have step : Volley.Step last x _ := .leftTimeout hopes waiting
          refine ⟨_, step, volleys.good.step step, Bool.noConfusion, fun _ => next,
            volleys.serves, volleys.gone, ?_, volleys.toLeft, volleys.losses,
            congrArg (· + 1) volleys.leftTimeouts, volleys.rightTimeouts⟩
          rw [puts, List.append_nil]
          exact volleys.toRight
  | rightTimeout d times =>
      cases serves : x.serves with
      | false => exact absurd times (takes.gone (volleys.gone serves))
      | true =>
          obtain ⟨begun, within, puts, next⟩ := takes.times (volleys.serves serves) times
          have step : Volley.Step last x _ := .rightTimeout serves begun within
          refine ⟨_, step, volleys.good.step step, volleys.hopes, volleys.failed,
            Bool.noConfusion, fun _ => next, volleys.toRight, ?_, volleys.losses,
            volleys.leftTimeouts, congrArg (· + 1) volleys.rightTimeouts⟩
          rw [puts, List.append_nil]
          exact volleys.toLeft
  | loseRight loses =>
      have comes := volleys.toRight
      rw [comes] at loses
      obtain ⟨rest, rfl, loses'⟩ := loses.of_map
      have step : Volley.Step last x _ := .loseRight loses'
      exact ⟨_, step, volleys.good.step step, volleys.hopes, volleys.failed, volleys.serves,
        volleys.gone, rfl, volleys.toLeft, congrArg (· + 1) volleys.losses, volleys.leftTimeouts,
        volleys.rightTimeouts⟩
  | loseLeft loses =>
      have loses' : Loses (fun _ => True) (s.toLeft.map kind) (_ : List ℕ) := loses.map
      rw [volleys.toLeft] at loses'
      have step : Volley.Step last x _ := .loseLeft loses'
      exact ⟨_, step, volleys.good.step step, volleys.hopes, volleys.failed, volleys.serves,
        volleys.gone, volleys.toRight, rfl, congrArg (· + 1) volleys.losses, volleys.leftTimeouts,
        volleys.rightTimeouts⟩

/-- **The machines come to their end**, whatever is lost. -/
theorem volley_inevitable (sends : SendsOnce A p message kind last)
    (takes : TakesOnce B q message kind last) {left : σ} {right : τ} (atLeft : sends.At 0 0 left)
    (atRight : takes.At 0 right) :
    Inevitable (Step A B p q (fun _ => True) (fun _ => True))
      (fun s => ∃ x, Volleys sends takes x s ∧ Volley.Over last x) (start left right) := by
  have started : Volleys sends takes .start (start left right) :=
    ⟨Volley.good_start, fun _ => atLeft, Bool.noConfusion, fun _ => atRight, Bool.noConfusion,
      rfl, rfl, rfl, rfl, rfl⟩
  refine Inevitable.of_simulation (R := Volleys sends takes) ?_ ?_ ?_ started (Volley.inevitable last)
  · exact fun x s volleys ended => ⟨x, volleys, ended.2⟩
  · exact fun x s volleys before => volleys.progress fun ended => before ⟨x, volleys, ended⟩
  · exact fun x s t volleys _ step => .inr (volleys.step step)

end Lossy

end Machines

end Reactive
