import Ppcb.Lib.History
import Ppcb.MyVecSpec

/-!
# Reading back what was pushed

Characters are pushed onto a new vector, one at a time. The vector grows each time it is full,
and growing copies the whole content with `strncpy`. The sizes at which it grows are known
(`memorySize`), so the vector reads as what was pushed exactly when the characters up to each of
these sizes have their zeros last (`pushed_faithful_iff`).
-/

set_option autoImplicit false

namespace Ppcb

open CString History

/-- The size of the memory after `j` doublings. -/
def memorySize (j : ℕ) : ℕ := initVecSize.toNat * 2 ^ j

theorem memorySize_succ (j : ℕ) : memorySize (j + 1) = 2 * memorySize j := by
  rw [memorySize, memorySize, Nat.pow_succ, Nat.mul_comm (2 ^ j) 2, Nat.mul_left_comm]

theorem memorySize_pos (j : ℕ) : 0 < memorySize j :=
  Nat.mul_pos (by decide) (Nat.two_pow_pos j)

theorem memorySize_mono {i j : ℕ} (le : i ≤ j) : memorySize i ≤ memorySize j :=
  Nat.mul_le_mul_left _ (Nat.pow_le_pow_right (by decide) le)

/-- The last growing stops at the largest size there is. -/
theorem realocatedCapacity_memorySize (j : ℕ) :
    realocatedCapacity (memorySize j) = min (memorySize (j + 1)) (2 ^ 64 - 1) := by
  have init : initVecSize.toNat = 16384 := rfl
  rw [memorySize_succ, realocatedCapacity, memorySize, init]
  split <;> omega

/-! ## The vector after some characters -/

/-- The vector has grown at the sizes below the number of characters, and it holds the
characters exactly when every growing was faithful. -/
def Pushed (chars : List UInt8) (vec : MyVec) : Prop :=
  ∃ j content, vec.Holds (min (memorySize j) (2 ^ 64 - 1)) content ∧ Erodes chars content ∧
    (∀ i < j, memorySize i < chars.length) ∧
      (content = chars ↔ ∀ i < j, ZerosLast (chars.take (memorySize i)))

theorem pushed_init : Pushed [] myVecInit := by
  refine ⟨0, [], myVecInit_holds, Erodes.refl [], nofun, ?_⟩
  exact iff_of_true rfl nofun

section Push

variable {chars : List UInt8} {vec : MyVec}

/-- The characters up to an earlier size are the same after one more. -/
theorem take_memorySize_concat {i : ℕ} (below : memorySize i ≤ chars.length) (c : UInt8) :
    (chars ++ [c]).take (memorySize i) = chars.take (memorySize i) :=
  List.take_append_of_le_length below

/-- **A character is always added, and the vector grows when it is full.** -/
theorem Pushed.push (pushed : Pushed chars vec) (c : UInt8) (small : chars.length + 1 < 2 ^ 64) :
    ∃ next, myVecPushBack vec c = some next ∧ Pushed (chars ++ [c]) next := by
  obtain ⟨j, content, holds, erodes, grown, faithful⟩ := pushed
  have length := erodes.length_eq
  have within := holds.within
  have push := myVecPushBack_holds holds c
  rw [← length] at within push
  by_cases full : min (memorySize j) (2 ^ 64 - 1) ≤ chars.length
  · -- The vector grows, and everything in it is copied.
    have size : chars.length = memorySize j := by omega
    have positive := memorySize_pos j
    have doubled := memorySize_succ j
    have grows : pushedCapacity (min (memorySize j) (2 ^ 64 - 1)) chars.length =
        min (memorySize (j + 1)) (2 ^ 64 - 1) := by
      rw [pushedCapacity, if_pos full, Nat.min_eq_left (by omega), realocatedCapacity_memorySize]
    rw [grows, if_pos (by omega)] at push
    obtain ⟨next, success, holds'⟩ := push
    have whole : chars.take (memorySize j) = chars :=
      List.take_of_length_le (Nat.le_of_eq size)
    have copied := erodes_grownContent (min (memorySize j) (2 ^ 64 - 1)) chars.length erodes
    refine ⟨next, success, j + 1, _, holds', copied.append (Erodes.refl [c]), ?_, ?_⟩
    · intro i below
      have earlier := memorySize_mono (Nat.le_of_lt_succ below)
      rw [List.length_append, List.length_singleton]
      omega
    · rw [List.append_left_inj, grownContent, if_pos full, erodes.strncpy_eq_iff, faithful,
        Nat.forall_lt_succ_right, take_memorySize_concat (Nat.le_of_eq size.symm), whole]
      apply and_congr_left'
      apply forall₂_congr
      intro i below
      rw [take_memorySize_concat (Nat.le_of_lt (grown i below))]
  · have fits := Nat.lt_of_not_le full
    rw [pushedCapacity, if_neg full, grownContent, if_neg full, if_pos fits] at push
    obtain ⟨next, success, holds'⟩ := push
    refine ⟨next, success, j, content ++ [c], holds', erodes.append (Erodes.refl [c]), ?_, ?_⟩
    · intro i below
      rw [List.length_append]
      exact Nat.lt_add_right _ (grown i below)
    · rw [List.append_left_inj, faithful]
      apply forall₂_congr
      intro i below
      rw [take_memorySize_concat (Nat.le_of_lt (grown i below))]

end Push

theorem pushes_track :
    Tracks myVecPushBack myVecInit (fun chars => chars.length < 2 ^ 64) (fun _ _ => True)
      Pushed where
  within chars c small := by
    rw [List.length_append] at small
    exact Nat.lt_of_le_of_lt (Nat.le_add_right _ _) small
  start := pushed_init
  call chars c vec small pushed := by
    rw [List.length_append] at small
    exact .inl ⟨trivial, pushed.push c small⟩

/-! ## The vector as a sequence -/

/-- The pushes succeed, and the vector reads as what was pushed. -/
def Faithful (chars : List UInt8) : Prop :=
  ∃ vec, runAll myVecPushBack myVecInit chars = some vec ∧
    vec.firstFreeSpaceIdx.toNat = chars.length ∧
      ∀ i < vec.firstFreeSpaceIdx, myVecGet vec i = chars[i.toNat]?

theorem Pushed.reads_iff {chars : List UInt8} {vec : MyVec} (pushed : Pushed chars vec) :
    (∀ i < vec.firstFreeSpaceIdx, myVecGet vec i = chars[i.toNat]?) ↔
      ∀ j, memorySize j < chars.length → ZerosLast (chars.take (memorySize j)) := by
  obtain ⟨k, content, holds, erodes, grown, faithful⟩ := pushed
  have length := erodes.length_eq
  have within := holds.within
  rw [holds.reads_iff length.symm, faithful]
  constructor
  · intro last j below
    apply last
    -- The vector is not bigger than the size after `k` doublings.
    by_contra later
    have bigger := memorySize_mono (Nat.le_of_not_lt later)
    omega
  · intro last j below
    exact last j (grown j below)

theorem faithful_iff (chars : List UInt8) :
    Faithful chars ↔ chars.length < 2 ^ 64 ∧
      ∀ j, memorySize j < chars.length → ZerosLast (chars.take (memorySize j)) := by
  constructor
  · rintro ⟨vec, success, counts, reads⟩
    have small : chars.length < 2 ^ 64 := by
      rw [← counts]
      exact vec.firstFreeSpaceIdx.toNat_lt
    exact ⟨small, (pushes_track.inv_of_runAll small success).reads_iff.mp reads⟩
  · rintro ⟨small, last⟩
    have success := (pushes_track.isSome_iff small).mpr fun _ _ _ _ => trivial
    obtain ⟨vec, success⟩ := Option.isSome_iff_exists.mp success
    have pushed := pushes_track.inv_of_runAll small success
    refine ⟨vec, success, ?_, pushed.reads_iff.mpr last⟩
    obtain ⟨k, content, holds, erodes, -⟩ := pushed
    exact holds.free.trans erodes.length_eq.symm

/-- Growing leaves the stored bytes as they are. -/
def Preserves (vec : MyVec) : Prop :=
  ∃ grown, realocateMyVec vec = some grown ∧
    grown.buff.take vec.occupiedSize.toNat = vec.buff.take vec.occupiedSize.toNat

theorem preserves_iff {vec : MyVec} {capacity : ℕ} {content : List UInt8}
    (holds : vec.Holds capacity content) : Preserves vec ↔ ZerosLast content := by
  obtain ⟨grown, success, holds'⟩ := realocateMyVec_holds holds
  have copied := holds'.content
  rw [length_strncpy] at copied
  rw [← strncpy_eq_iff, Preserves, success, holds.occupied, holds.content]
  simp only [Option.some.injEq, exists_eq_left', copied]

/-- **The vector is a faithful sequence exactly when each time it grows the characters so far
have their zeros last, and growing any vector preserves its content exactly when that has its
zeros last.** -/
theorem pushed_faithful_iff (chars : List UInt8) :
    (Faithful chars ↔ chars.length < 2 ^ 64 ∧
      ∀ j, memorySize j < chars.length → ZerosLast (chars.take (memorySize j))) ∧
    ∀ vec capacity content, MyVec.Holds vec capacity content →
      (Preserves vec ↔ ZerosLast content) :=
  ⟨faithful_iff chars, fun _ _ _ holds => preserves_iff holds⟩

/-- One zero, and 16384 characters behind it: the last one makes the vector grow. -/
theorem pushed_zero_loses : ¬ ∀ chars, Faithful chars := by
  intro faithful
  obtain ⟨-, last⟩ := (faithful_iff (0 :: List.replicate 16384 65)).mp (faithful _)
  have size : memorySize 0 = 16384 := rfl
  have zeros := last 0 (by rw [size, List.length_cons, List.length_replicate]; decide)
  rw [size, List.take_succ_cons, List.take_replicate] at zeros
  exact absurd (zeros 65 (List.mem_replicate.mpr ⟨by decide, rfl⟩)) (by decide)

end Ppcb
