import Ppcb.ServerSpec

/-!
# What a receiver should make of `DATA` packets

Packets are accepted as long as each is the next one and stays within the total, and the
first that does not is rejected by its own id (`judge`). A sequence of packets goes in one of
four ways (`course`).
-/

set_option autoImplicit false

namespace Ppcb

open ByteOrder

/-! ## Packets and their judgement -/

/-- A well-formed `DATA` packet of the session. -/
structure DataPacket where
  id : UInt64
  payload : List UInt8
  fits : payload.length ≤ maxAllowedPacketSize

def DataPacket.bytes (sessionId : UInt64) (p : DataPacket) : List UInt8 :=
  dataBytes sessionId p.id p.payload

/-- The packets one after the other. -/
def wire (sessionId : UInt64) (packets : List DataPacket) : List UInt8 :=
  (packets.map (DataPacket.bytes sessionId)).flatten

def payloads (packets : List DataPacket) : List (List UInt8) := packets.map DataPacket.payload

inductive Verdict where
  | pending
  | received
  | rejected (id : UInt64)
deriving DecidableEq, Repr

/-- The packets a verdict is sent as. -/
def Verdict.answer (sessionId : UInt64) : Verdict → List (List UInt8)
  | .pending => []
  | .received => [(initRCVD sessionId).store]
  | .rejected id => [(initRJT sessionId id).store]

structure Judgement where
  accepted : List (List UInt8)
  verdict : Verdict
deriving DecidableEq, Repr

/-- The same judgement, with more packets accepted first. -/
def Judgement.after (j : Judgement) (before : List (List UInt8)) : Judgement :=
  { j with accepted := before ++ j.accepted }

/-- The id that comes next and the number of bytes received. -/
structure Expected where
  id : UInt64
  received : ℕ
deriving DecidableEq, Repr

namespace Expected

def start : Expected := ⟨0, 0⟩

def accept (e : Expected) (p : DataPacket) : Expected :=
  ⟨e.id + 1, e.received + p.payload.length⟩

def afterAll (e : Expected) (packets : List DataPacket) : Expected := packets.foldl accept e

end Expected

/-- What the packets come to. -/
def judge (total : ℕ) (e : Expected) : List DataPacket → Judgement
  | [] => ⟨[], if e.received < total then .pending else .received⟩
  | p :: packets =>
      if e.received < total then
        if p.id = e.id ∧ e.received + p.payload.length ≤ total then
          (judge total (e.accept p) packets).after [p.payload]
        else ⟨[], .rejected p.id⟩
      else ⟨[], .received⟩

/-- No packet has to be rejected: until the total is reached each is the next one and stays
within the total. -/
def Orderly (total : ℕ) (e : Expected) : List DataPacket → Prop
  | [] => True
  | p :: packets => e.received < total →
      p.id = e.id ∧ e.received + p.payload.length ≤ total ∧
        Orderly total (e.accept p) packets

/-- Each packet is the next one, and the total is not reached. -/
def Advances (total : ℕ) (e : Expected) : List DataPacket → Prop
  | [] => True
  | p :: packets => p.id = e.id ∧ e.received + p.payload.length < total ∧
      Advances total (e.accept p) packets

section Judge

variable {total : ℕ} {e : Expected} {before rest : List DataPacket}

theorem Advances.received_lt (advances : Advances total e before) (more : e.received < total) :
    (e.afterAll before).received < total := by
  induction before generalizing e with
  | nil => exact more
  | cons p before ih =>
      obtain ⟨-, less, later⟩ := advances
      exact ih later less

/-- Packets that advance are accepted. -/
theorem Advances.judge (advances : Advances total e before) (more : e.received < total) :
    judge total e (before ++ rest) =
      (Ppcb.judge total (e.afterAll before) rest).after (payloads before) := by
  induction before generalizing e with
  | nil => rfl
  | cons p before ih =>
      obtain ⟨next, less, later⟩ := advances
      rw [List.cons_append, Ppcb.judge, if_pos more, if_pos ⟨next, Nat.le_of_lt less⟩,
        ih later less]
      rfl

theorem Advances.orderly (advances : Advances total e before) (more : e.received < total) :
    Orderly total e (before ++ rest) ↔ Orderly total (e.afterAll before) rest := by
  induction before generalizing e with
  | nil => rfl
  | cons p before ih =>
      obtain ⟨next, less, later⟩ := advances
      have tail := ih later less
      constructor
      · intro orderly
        exact tail.mp (orderly more).2.2
      · intro orderly _
        exact ⟨next, Nat.le_of_lt less, tail.mpr orderly⟩

/-- The packet that completes the total is the last one. -/
theorem judge_full {p : DataPacket} (more : e.received < total) (next : p.id = e.id)
    (full : e.received + p.payload.length = total) (packets : List DataPacket) :
    judge total e (p :: packets) = ⟨[p.payload], .received⟩ := by
  have reached : ¬ (e.accept p).received < total := Nat.not_lt.mpr (Nat.le_of_eq full.symm)
  rw [judge, if_pos more, if_pos ⟨next, Nat.le_of_eq full⟩]
  cases packets <;> rw [judge, if_neg reached] <;> rfl

/-- A packet that is not the next one, or exceeds the total, is rejected. -/
theorem judge_rejected {p : DataPacket} (more : e.received < total)
    (wrong : ¬ (p.id = e.id ∧ e.received + p.payload.length ≤ total))
    (packets : List DataPacket) : judge total e (p :: packets) = ⟨[], .rejected p.id⟩ := by
  rw [judge, if_pos more, if_neg wrong]

/-- The four ways a sequence of packets can go. -/
inductive Course (total : ℕ) (e : Expected) : List DataPacket → Prop where
  | pending {packets : List DataPacket} (advances : Advances total e packets) :
      Course total e packets
  | received {before after : List DataPacket} {p : DataPacket}
      (advances : Advances total e before) (next : p.id = (e.afterAll before).id)
      (full : (e.afterAll before).received + p.payload.length = total) :
      Course total e (before ++ p :: after)
  | wrongId {before after : List DataPacket} {p : DataPacket}
      (advances : Advances total e before) (other : p.id ≠ (e.afterAll before).id) :
      Course total e (before ++ p :: after)
  | tooMuch {before after : List DataPacket} {p : DataPacket}
      (advances : Advances total e before) (next : p.id = (e.afterAll before).id)
      (much : total < (e.afterAll before).received + p.payload.length) :
      Course total e (before ++ p :: after)

theorem Course.cons {p : DataPacket} {packets : List DataPacket} (next : p.id = e.id)
    (less : e.received + p.payload.length < total) (course : Course total (e.accept p) packets) :
    Course total e (p :: packets) := by
  cases course with
  | pending advances => exact .pending ⟨next, less, advances⟩
  | received advances next' full =>
      exact @Course.received total e (p :: _) _ _ ⟨next, less, advances⟩ next' full
  | wrongId advances other =>
      exact @Course.wrongId total e (p :: _) _ _ ⟨next, less, advances⟩ other
  | tooMuch advances next' much =>
      exact @Course.tooMuch total e (p :: _) _ _ ⟨next, less, advances⟩ next' much

theorem course (total : ℕ) (e : Expected) (packets : List DataPacket) :
    Course total e packets := by
  induction packets generalizing e with
  | nil => exact .pending trivial
  | cons p packets ih =>
      by_cases next : p.id = e.id
      · rcases Nat.lt_trichotomy (e.received + p.payload.length) total with less | full | much
        · exact .cons next less (ih _)
        · exact @Course.received total e [] _ _ trivial next full
        · exact @Course.tooMuch total e [] _ _ trivial next much
      · exact @Course.wrongId total e [] _ _ trivial next

end Judge

end Ppcb
