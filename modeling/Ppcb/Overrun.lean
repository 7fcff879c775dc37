import Ppcb.Lib.History
import Ppcb.MyVecSpec

/-!
# Writes past the end of the vector

The vector starts with 16384 bytes and doubles at most once for a piece, and a piece may have
32768 bytes. Once the vector has grown, every piece fits. Before that, a piece fits only if it
ends within the first 32768 bytes.

Whether the vector has grown is seen from the calls so far (`HasGrown`): a piece makes it grow
as soon as it reaches the end of the memory, a character only when it would pass it. So the
calls never write past the end exactly when every piece comes after the first growing or ends
within twice the first memory (`never_overruns_iff`).
-/

set_option autoImplicit false

namespace Ppcb

open CString History

/-- What one call of `read` puts into the read buffer before the end of the input. -/
structure Piece where
  bytes : List UInt8
  nonempty : 1 ≤ bytes.length
  bounded : bytes.length ≤ inputBuffSize

/-- A call that adds to the vector. -/
inductive VecCall where
  | pushBackStrToVec (piece : Piece)
  | myVecPushBack (c : UInt8)

namespace VecCall

/-- How many bytes the call adds. -/
def size : VecCall → ℕ
  | .pushBackStrToVec piece => piece.bytes.length
  | .myVecPushBack _ => 1

def run (vec : MyVec) : VecCall → Option MyVec
  | .pushBackStrToVec piece =>
      Ppcb.pushBackStrToVec vec piece.bytes (UInt64.ofNat piece.bytes.length)
  | .myVecPushBack c => Ppcb.myVecPushBack vec c

end VecCall

/-- How many bytes the calls add. -/
def totalSize (calls : List VecCall) : ℕ := (calls.map VecCall.size).sum

@[simp] theorem totalSize_concat (calls : List VecCall) (call : VecCall) :
    totalSize (calls ++ [call]) = totalSize calls + call.size := by
  rw [totalSize, List.map_append, List.sum_append, List.map_singleton, List.sum_singleton,
    totalSize]

theorem totalSize_prefix_le {before calls : List VecCall} (part : before <+: calls) :
    totalSize before ≤ totalSize calls := by
  obtain ⟨rest, rfl⟩ := part
  rw [totalSize, totalSize, List.map_append, List.sum_append]
  exact Nat.le_add_right _ _

/-! ## When the vector has grown -/

/-- The calls have filled more than the first memory, or all of it with a piece at the end. -/
def HasGrown (calls : List VecCall) : Prop :=
  initVecSize.toNat < totalSize calls ∨
    totalSize calls = initVecSize.toNat ∧
      ∃ piece, calls.getLast? = some (.pushBackStrToVec piece)

section HasGrown

variable {calls : List VecCall}

theorem HasGrown.le (grown : HasGrown calls) : initVecSize.toNat ≤ totalSize calls := by
  rcases grown with more | ⟨full, -⟩
  · exact Nat.le_of_lt more
  · exact Nat.le_of_eq full.symm

/-- A piece that reaches the end of the first memory makes the vector grow. -/
theorem hasGrown_piece (piece : Piece) :
    HasGrown (calls ++ [.pushBackStrToVec piece]) ↔
      initVecSize.toNat ≤ totalSize calls + piece.bytes.length := by
  constructor
  · intro grown
    have reached := grown.le
    rwa [totalSize_concat] at reached
  · intro reached
    rw [HasGrown, totalSize_concat]
    rcases Nat.lt_or_eq_of_le reached with more | full
    · exact .inl more
    · exact .inr ⟨full.symm, piece, List.getLast?_concat⟩

/-- A character makes the vector grow when the first memory is already full. -/
theorem hasGrown_char (c : UInt8) :
    HasGrown (calls ++ [.myVecPushBack c]) ↔ initVecSize.toNat ≤ totalSize calls := by
  rw [HasGrown, totalSize_concat, List.getLast?_concat]
  constructor
  · rintro (more | ⟨-, piece, ⟨⟩⟩)
    exact Nat.le_of_lt_succ more
  · intro full
    exact .inl (Nat.lt_succ_of_le full)

end HasGrown

/-! ## The vector after some calls -/

/-- The vector holds as many bytes as were added, in the first memory or, once it has grown, in
one that is at least twice as big. -/
def Filled (calls : List VecCall) (vec : MyVec) : Prop :=
  ∃ capacity content, vec.Holds capacity content ∧ content.length = totalSize calls ∧
    initVecSize.toNat ∣ capacity ∧ initVecSize.toNat ≤ capacity ∧
      (HasGrown calls ↔ inputBuffSize ≤ capacity)

/-- The call adds a character, or a piece that fits after one doubling. -/
def Room (calls : List VecCall) : VecCall → Prop
  | .pushBackStrToVec piece =>
      HasGrown calls ∨ totalSize calls + piece.bytes.length ≤ inputBuffSize
  | .myVecPushBack _ => True

theorem filled_init : Filled [] myVecInit := by
  refine ⟨_, [], myVecInit_holds, rfl, Nat.dvd_refl _, Nat.le_refl _, ?_⟩
  constructor
  · intro grown
    exact absurd grown.le (by decide)
  · intro large
    exact absurd large (by decide)

/-- A doubling is enough for a piece exactly when there is room for it. -/
theorem room_piece_iff {calls : List VecCall} {capacity : ℕ} (piece : Piece)
    (within : totalSize calls ≤ capacity) (blocks : initVecSize.toNat ∣ capacity)
    (first : initVecSize.toNat ≤ capacity) (grown : HasGrown calls ↔ inputBuffSize ≤ capacity) :
    totalSize calls + piece.bytes.length ≤
        grownCapacity capacity (totalSize calls + piece.bytes.length) ↔
      Room calls (.pushBackStrToVec piece) := by
  have bounded := piece.bounded
  have init : initVecSize.toNat = 16384 := rfl
  rw [Room, grown, grownCapacity]
  rw [init] at blocks first
  simp only [inputBuffSize] at bounded ⊢
  split <;> omega

section Step

variable {calls : List VecCall} {call : VecCall} {vec : MyVec} {capacity needed : ℕ}

/-- A call that asked for `needed` bytes and made the vector grow if that reaches the end of the
memory. -/
theorem filled_concat {next : MyVec} {content : List UInt8}
    (blocks : initVecSize.toNat ∣ capacity) (first : initVecSize.toNat ≤ capacity)
    (grown : HasGrown calls ↔ inputBuffSize ≤ capacity) (asked : totalSize calls ≤ needed)
    (grows : HasGrown (calls ++ [call]) ↔ initVecSize.toNat ≤ needed)
    (holds : next.Holds (grownCapacity capacity needed) content)
    (length : content.length = totalSize calls + call.size) : Filled (calls ++ [call]) next := by
  refine ⟨_, content, holds, length.trans (totalSize_concat calls call).symm, ?_, ?_, ?_⟩
  · rw [grownCapacity]
    split
    · exact Nat.dvd_mul_left_of_dvd blocks 2
    · exact blocks
  · rw [grownCapacity]
    split <;> omega
  · have init : initVecSize.toNat = 16384 := rfl
    have reached := @HasGrown.le calls
    rw [grows, grownCapacity]
    rw [grown] at reached
    simp only [init, inputBuffSize] at blocks first reached ⊢
    split <;> omega

/-- **A piece is added exactly when there is room for it.** -/
theorem Filled.piece (filled : Filled calls vec) (piece : Piece)
    (small : totalSize calls + piece.bytes.length < 2 ^ 63) :
    (Room calls (.pushBackStrToVec piece) ∧ ∃ next,
        (VecCall.pushBackStrToVec piece).run vec = some next ∧
          Filled (calls ++ [.pushBackStrToVec piece]) next) ∨
      (¬ Room calls (.pushBackStrToVec piece) ∧
        (VecCall.pushBackStrToVec piece).run vec = none) := by
  obtain ⟨capacity, content, holds, length, blocks, first, grown⟩ := filled
  have init : initVecSize.toNat = 16384 := rfl
  have within := holds.within
  have push := pushBackStrToVec_holds holds piece.bytes (by omega) (by rw [init] at blocks; omega)
  rw [length] at within push
  rw [← room_piece_iff piece within blocks first grown]
  split at push
  · rename_i fits
    obtain ⟨next, success, holds'⟩ := push
    refine .inl ⟨fits, next, success, ?_⟩
    apply filled_concat blocks first grown (Nat.le_add_right _ _) (hasGrown_piece piece) holds'
    rw [List.length_append, length_grownContent, length_strncpy, length, VecCall.size]
  · rename_i tooLong
    exact .inr ⟨tooLong, push⟩

/-- **A character is always added.** -/
theorem Filled.char (filled : Filled calls vec) (c : UInt8)
    (small : totalSize calls + 1 < 2 ^ 63) :
    ∃ next, (VecCall.myVecPushBack c).run vec = some next ∧
      Filled (calls ++ [.myVecPushBack c]) next := by
  obtain ⟨capacity, content, holds, length, blocks, first, grown⟩ := filled
  have init : initVecSize.toNat = 16384 := rfl
  have within := holds.within
  have push := myVecPushBack_holds holds c
  rw [length] at within push
  have doubles : pushedCapacity capacity (totalSize calls) =
      grownCapacity capacity (totalSize calls) := by
    rw [pushedCapacity, grownCapacity, realocatedCapacity]
    split
    · exact if_pos (by omega)
    · rfl
  have room : totalSize calls < grownCapacity capacity (totalSize calls) := by
    rw [init] at first
    rw [grownCapacity]
    split <;> omega
  rw [doubles, if_pos room] at push
  obtain ⟨next, success, holds'⟩ := push
  refine ⟨next, success, ?_⟩
  apply filled_concat blocks first grown (Nat.le_refl _) (hasGrown_char c) holds'
  rw [List.length_append, length_grownContent, length, VecCall.size, List.length_singleton]

end Step

theorem vecCalls_track :
    Tracks VecCall.run myVecInit (fun calls => totalSize calls < 2 ^ 63)
      Room Filled where
  within calls call small := by
    rw [totalSize_concat] at small
    exact Nat.lt_of_le_of_lt (Nat.le_add_right _ _) small
  start := filled_init
  call calls call vec small filled := by
    rw [totalSize_concat] at small
    cases call with
    | pushBackStrToVec piece => exact filled.piece piece small
    | myVecPushBack c => exact .inl ⟨trivial, filled.char c small⟩

/-! ## Reading the input -/

/-- Reading the input is one call after the other. -/
theorem myVecReadStdin_eq_runAll (vec : MyVec) (pieces : List Piece) :
    myVecReadStdin vec (pieces.map Piece.bytes) =
      runAll VecCall.run vec (pieces.map VecCall.pushBackStrToVec) := by
  induction pieces generalizing vec with
  | nil => rfl
  | cons piece pieces ih =>
      rw [List.map_cons, List.map_cons, myVecReadStdin, runAll, List.foldlM_cons]
      apply congrArg
      funext next
      exact ih next

/-- **The input is read without a write past the end exactly when every read comes after the first
growing or ends within the size of the read buffer.** -/
theorem myVecReadStdin_isSome_iff (pieces : List Piece)
    (small : totalSize (pieces.map VecCall.pushBackStrToVec) < 2 ^ 63) :
    (myVecReadStdin myVecInit (pieces.map Piece.bytes)).isSome ↔
      ∀ before piece after, pieces = before ++ piece :: after →
        Room (before.map VecCall.pushBackStrToVec) (.pushBackStrToVec piece) := by
  rw [myVecReadStdin_eq_runAll, vecCalls_track.isSome_iff small]
  constructor
  · rintro admits before piece after rfl
    apply admits _ _ (after.map VecCall.pushBackStrToVec)
    rw [List.map_append, List.map_cons]
  · intro room before call after same
    obtain ⟨before', rest, rfl, rfl, last⟩ := List.map_eq_append_iff.mp same
    obtain ⟨piece, after', rfl, rfl, rfl⟩ := List.map_eq_cons_iff.mp last
    exact room before' piece after' rfl

/-! ## Every write stays inside the memory -/

/-- After every call the vector is within the memory it owns. A write past the end of that memory
would have made the call fail. -/
def NeverOverruns (calls : List VecCall) : Prop :=
  ∀ before, before <+: calls → ∃ vec, runAll VecCall.run myVecInit before = some vec ∧
    vec.firstFreeSpaceIdx = vec.occupiedSize ∧ vec.occupiedSize ≤ vec.buffSize ∧
      vec.buff.length = vec.buffSize.toNat

theorem Filled.inside {calls : List VecCall} {vec : MyVec} (filled : Filled calls vec) :
    vec.firstFreeSpaceIdx = vec.occupiedSize ∧ vec.occupiedSize ≤ vec.buffSize ∧
      vec.buff.length = vec.buffSize.toNat := by
  obtain ⟨capacity, content, holds, -⟩ := filled
  refine ⟨?_, ?_, ?_⟩
  · exact UInt64.toNat_inj.mp (holds.free.trans holds.occupied.symm)
  · rw [UInt64.le_iff_toNat_le, holds.occupied, holds.size]
    exact holds.within
  · exact holds.length.trans holds.size.symm

/-- **The vector never overruns its memory exactly when every piece comes after the first growing
or ends within the size of the read buffer.** -/
theorem never_overruns_iff (calls : List VecCall) (small : totalSize calls < 2 ^ 63) :
    NeverOverruns calls ↔ ∀ before piece after,
      calls = before ++ .pushBackStrToVec piece :: after →
        HasGrown before ∨ totalSize before + piece.bytes.length ≤ inputBuffSize := by
  have run := vecCalls_track.isSome_iff small
  constructor
  · intro inside before piece after same
    obtain ⟨vec, success, -⟩ := inside calls (List.prefix_refl calls)
    exact run.mp (Option.isSome_iff_exists.mpr ⟨vec, success⟩) before _ after same
  · intro fits before part
    have admits : Admits Room calls := by
      intro before call after same
      cases call with
      | pushBackStrToVec piece => exact fits before piece after same
      | myVecPushBack c => trivial
    have small' := Nat.lt_of_le_of_lt (totalSize_prefix_le part) small
    have success := (vecCalls_track.isSome_iff small').mpr (admits.earlier part)
    obtain ⟨vec, success⟩ := Option.isSome_iff_exists.mp success
    exact ⟨vec, success, (vecCalls_track.inv_of_runAll small' success).inside⟩

/-- A read that returns `n` letters. -/
def letters (n : ℕ) (nonempty : 1 ≤ n) (bounded : n ≤ inputBuffSize) : Piece where
  bytes := List.replicate n 65
  nonempty := by rwa [List.length_replicate]
  bounded := by rwa [List.length_replicate]

theorem length_letters (n : ℕ) (nonempty : 1 ≤ n) (bounded : n ≤ inputBuffSize) :
    (letters n nonempty bounded).bytes.length = n :=
  List.length_replicate

theorem totalSize_cons (call : VecCall) (calls : List VecCall) :
    totalSize (call :: calls) = call.size + totalSize calls := by
  rw [totalSize, List.map_cons, List.sum_cons, totalSize]

/-- Reads that fill the read buffer, as from a file, do no harm. -/
theorem full_reads_never_overrun :
    NeverOverruns [.pushBackStrToVec (letters 32768 (by decide) (by decide)),
      .pushBackStrToVec (letters 32768 (by decide) (by decide))] := by
  apply (never_overruns_iff _ (by rw [totalSize_cons, totalSize_cons, VecCall.size, length_letters]; decide)).mpr
  intro before piece after same
  have bounded := piece.bounded
  rcases before with _ | ⟨call, before⟩
  · exact .inr (by rwa [totalSize, List.map_nil, List.sum_nil, Nat.zero_add])
  · rw [List.cons_append, List.cons.injEq] at same
    rw [← same.1, HasGrown, totalSize_cons, VecCall.size, length_letters]
    exact .inl (.inl (Nat.lt_add_right _ (by decide)))

/-- A short read and then a full one, as from a pipe, write past the end. -/
theorem short_read_overruns :
    ¬ ∀ calls : List VecCall, totalSize calls < 2 ^ 63 → NeverOverruns calls := by
  intro inside
  have small : totalSize [.pushBackStrToVec (letters 16000 (by decide) (by decide)),
      .pushBackStrToVec (letters 32768 (by decide) (by decide))] < 2 ^ 63 := by
    rw [totalSize_cons, totalSize_cons, VecCall.size, VecCall.size, length_letters, length_letters]
    decide
  have added : totalSize [.pushBackStrToVec (letters 16000 (by decide) (by decide))] = 16000 := by
    rw [totalSize_cons, VecCall.size, length_letters]
    rfl
  obtain ⟨vec, success, -⟩ := inside _ small _ (List.prefix_refl _)
  have admits := (vecCalls_track.isSome_iff small).mp (Option.isSome_iff_exists.mpr ⟨vec, success⟩)
  rcases admits [_] _ [] rfl with grown | fits
  · have reached := grown.le
    rw [added] at reached
    exact absurd reached (by decide)
  · rw [added, length_letters] at fits
    exact absurd fits (by decide)

end Ppcb
