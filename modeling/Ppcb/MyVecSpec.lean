import Mathlib.Algebra.Ring.Nat
import Ppcb.MyVec

/-!
# What the vector holds

One lemma for each operation on the vector. A vector holds a content in the first bytes of
the memory it owns (`MyVec.Holds`). Growing keeps the length of the content and copies it with
`strncpy`, so that what stands behind a zero byte is lost. A character is put behind the
content whenever the vector can still grow (`myVecPushBack_holds`). A piece is put behind it
only if it fits after one doubling (`pushBackStrToVec_holds`).
-/

set_option autoImplicit false

namespace Ppcb

open CString

/-- The vector owns `capacity` bytes of memory and is filled with `content`. -/
structure MyVec.Holds (vec : MyVec) (capacity : ℕ) (content : List UInt8) : Prop where
  size : vec.buffSize.toNat = capacity
  length : vec.buff.length = capacity
  occupied : vec.occupiedSize.toNat = content.length
  free : vec.firstFreeSpaceIdx.toNat = content.length
  content : vec.buff.take content.length = content

/-- The capacity once `needed` bytes were asked for: it doubles at most once. -/
def grownCapacity (capacity needed : ℕ) : ℕ :=
  if capacity ≤ needed then 2 * capacity else capacity

/-- What growing leaves of the content. -/
def grownContent (capacity needed : ℕ) (content : List UInt8) : List UInt8 :=
  if capacity ≤ needed then strncpy content content.length else content

@[simp] theorem length_grownContent (capacity needed : ℕ) (content : List UInt8) :
    (grownContent capacity needed content).length = content.length := by
  rw [grownContent]
  split
  · exact length_strncpy _ _
  · rfl

theorem erodes_grownContent (capacity needed : ℕ) {done content : List UInt8}
    (erodes : Erodes done content) : Erodes done (grownContent capacity needed content) := by
  rw [grownContent]
  split
  · have lost := erodes_strncpy (Nat.le_refl content.length)
    rw [List.take_length] at lost
    exact erodes.trans lost
  · exact erodes

theorem myVecInit_holds : myVecInit.Holds initVecSize.toNat [] where
  size := rfl
  length := List.length_replicate
  occupied := rfl
  free := rfl
  content := List.take_zero

/-! ## Growing -/

/-- The size that `realocate_my_vec` asks for. -/
def realocatedCapacity (capacity : ℕ) : ℕ :=
  if capacity < 2 ^ 63 - 1 then 2 * capacity else 2 ^ 64 - 1

section Vec

variable {vec : MyVec} {capacity : ℕ} {content : List UInt8}

theorem MyVec.Holds.within (holds : vec.Holds capacity content) : content.length ≤ capacity := by
  have length := congrArg List.length holds.content
  rw [List.length_take, holds.length] at length
  omega

theorem MyVec.Holds.capacity_lt (holds : vec.Holds capacity content) : capacity < 2 ^ 64 := by
  rw [← holds.size]
  exact vec.buffSize.toNat_lt

/-- The size of the bigger memory does not wrap. -/
theorem MyVec.Holds.newSize (holds : vec.Holds capacity content) :
    (if vec.buffSize < uint64Max / 2 then 2 * vec.buffSize else uint64Max).toNat =
      realocatedCapacity capacity := by
  have half : (uint64Max / 2).toNat = 2 ^ 63 - 1 := rfl
  have whole : uint64Max.toNat = 2 ^ 64 - 1 := rfl
  rw [realocatedCapacity]
  by_cases doubles : capacity < 2 ^ 63 - 1
  · have two : (2 : UInt64).toNat = 2 := rfl
    have below : vec.buffSize < uint64Max / 2 := by
      rwa [UInt64.lt_iff_toNat_lt, holds.size, half]
    rw [if_pos doubles, if_pos below, UInt64.toNat_mul, holds.size, two]
    exact Nat.mod_eq_of_lt (by omega)
  · have above : ¬ vec.buffSize < uint64Max / 2 := by
      rwa [UInt64.lt_iff_toNat_lt, holds.size, half]
    rw [if_neg doubles, if_neg above, whole]

/-- Growing copies the content. -/
theorem realocateMyVec_holds (holds : vec.Holds capacity content) :
    ∃ grown, realocateMyVec vec = some grown ∧
      grown.Holds (realocatedCapacity capacity) (strncpy content content.length) := by
  have within := holds.within
  have bounded := holds.capacity_lt
  have size := holds.newSize
  rw [realocateMyVec]
  generalize (if vec.buffSize < uint64Max / 2 then 2 * vec.buffSize else uint64Max) = newSize
    at size ⊢
  have room : (calloc newSize).length = realocatedCapacity capacity := by
    rw [calloc, List.length_replicate, size]
  have fits : (writeAt (calloc newSize) 0 (strncpy vec.buff vec.occupiedSize.toNat)).isSome := by
    rw [writeAt_isSome_iff, length_strncpy, room, holds.occupied, realocatedCapacity]
    split <;> omega
  obtain ⟨written, success⟩ := Option.isSome_iff_exists.mp fits
  have kept := take_writeAt success
  rw [length_strncpy, holds.occupied, Nat.zero_add, List.take_zero, List.nil_append,
    ← strncpy_take, holds.content] at kept
  refine ⟨{ vec with buff := written, buffSize := newSize }, ?_, ?_⟩
  · simp only [success, Option.map_some]
  · refine ⟨size, (length_writeAt success).trans room, ?_, ?_, ?_⟩
    · rw [length_strncpy]
      exact holds.occupied
    · rw [length_strncpy]
      exact holds.free
    · rw [length_strncpy]
      exact kept

/-! ## Writing behind the content -/

/-- The write behind the content succeeds exactly when it fits. -/
theorem MyVec.Holds.write (holds : vec.Holds capacity content) {bytes : List UInt8} {n : UInt64}
    (counts : n.toNat = bytes.length) (small : content.length + bytes.length < 2 ^ 64) :
    if content.length + bytes.length ≤ capacity then
      ∃ written, writeAt vec.buff vec.firstFreeSpaceIdx.toNat bytes = some written ∧
        MyVec.Holds ⟨written, vec.buffSize, vec.occupiedSize + n, vec.firstFreeSpaceIdx + n⟩
          capacity (content ++ bytes)
    else writeAt vec.buff vec.firstFreeSpaceIdx.toNat bytes = none := by
  have room : (writeAt vec.buff vec.firstFreeSpaceIdx.toNat bytes).isSome ↔
      content.length + bytes.length ≤ capacity := by
    rw [writeAt_isSome_iff, holds.free, holds.length]
  have moved (index : UInt64) (at' : index.toNat = content.length) :
      (index + n).toNat = (content ++ bytes).length := by
    rw [UInt64.toNat_add, at', counts, List.length_append]
    exact Nat.mod_eq_of_lt small
  split
  · rename_i fits
    obtain ⟨written, success⟩ := Option.isSome_iff_exists.mp (room.mpr fits)
    refine ⟨written, success, holds.size, (length_writeAt success).trans holds.length,
      moved _ holds.occupied, moved _ holds.free, ?_⟩
    have kept := take_writeAt success
    rw [holds.free, holds.content] at kept
    rw [List.length_append]
    exact kept
  · rename_i tooLong
    exact Option.not_isSome_iff_eq_none.mp (mt room.mp tooLong)

/-- Copying a piece behind the content succeeds exactly when it fits. -/
theorem copyStrToVec_holds (holds : vec.Holds capacity content) (piece : List UInt8)
    (small : content.length + piece.length < 2 ^ 64) :
    if content.length + piece.length ≤ capacity then
      ∃ filled, copyStrToVec vec piece (UInt64.ofNat piece.length) = some filled ∧
        filled.Holds capacity (content ++ strncpy piece piece.length)
    else copyStrToVec vec piece (UInt64.ofNat piece.length) = none := by
  have size : (UInt64.ofNat piece.length).toNat = piece.length :=
    UInt64.toNat_ofNat_of_lt' (Nat.lt_of_le_of_lt (Nat.le_add_left _ _) small)
  have copied : (strncpy piece piece.length).length = piece.length := length_strncpy _ _
  have written := holds.write (size.trans copied.symm) (by rwa [copied])
  rw [copied] at written
  rw [copyStrToVec, size]
  split at written
  · rename_i fits
    obtain ⟨buff, success, holds'⟩ := written
    rw [if_pos fits, success]
    exact ⟨_, rfl, holds'⟩
  · rename_i tooLong
    rw [if_neg tooLong, written, Option.map_none]

/-- Putting a character behind the content succeeds exactly when there is room. -/
theorem putInVec_holds (holds : vec.Holds capacity content) (c : UInt8) :
    if content.length < capacity then
      ∃ filled, putInVec vec c = some filled ∧ filled.Holds capacity (content ++ [c])
    else putInVec vec c = none := by
  have within := holds.within
  have bounded := holds.capacity_lt
  have one : (1 : UInt64).toNat = [c].length := rfl
  rw [putInVec]
  by_cases fits : content.length < capacity
  · have written := holds.write one (by rw [List.length_singleton]; omega)
    rw [List.length_singleton, if_pos (by omega)] at written
    obtain ⟨buff, success, holds'⟩ := written
    rw [if_pos fits, success]
    exact ⟨_, rfl, holds'⟩
  · rw [if_neg fits, Option.map_eq_none_iff, ← Option.not_isSome_iff_eq_none,
      writeAt_isSome_iff, holds.free, holds.length, List.length_singleton]
    omega

/-- **A piece is added if it fits after at most one doubling.** -/
theorem pushBackStrToVec_holds (holds : vec.Holds capacity content) (piece : List UInt8)
    (small : content.length + piece.length < 2 ^ 64)
    (doubles : capacity ≤ content.length + piece.length → capacity < 2 ^ 63 - 1) :
    if content.length + piece.length ≤
        grownCapacity capacity (content.length + piece.length) then
      ∃ filled, pushBackStrToVec vec piece (UInt64.ofNat piece.length) = some filled ∧
        filled.Holds (grownCapacity capacity (content.length + piece.length))
          (grownContent capacity (content.length + piece.length) content ++
            strncpy piece piece.length)
    else pushBackStrToVec vec piece (UInt64.ofNat piece.length) = none := by
  have size : (UInt64.ofNat piece.length).toNat = piece.length :=
    UInt64.toNat_ofNat_of_lt' (Nat.lt_of_le_of_lt (Nat.le_add_left _ _) small)
  have asks : vec.occupiedSize + UInt64.ofNat piece.length ≥ vec.buffSize ↔
      capacity ≤ content.length + piece.length := by
    rw [ge_iff_le, UInt64.le_iff_toNat_le, holds.size, UInt64.toNat_add, holds.occupied, size,
      Nat.mod_eq_of_lt small]
  by_cases grows : capacity ≤ content.length + piece.length
  · obtain ⟨grown, success, holds'⟩ := realocateMyVec_holds holds
    have copies := copyStrToVec_holds holds' piece (by rwa [length_strncpy])
    rw [length_strncpy, realocatedCapacity, if_pos (doubles grows)] at copies
    simpa only [grownCapacity, grownContent, pushBackStrToVec, asks, if_pos grows, success,
      Option.bind_some] using copies
  · have copies := copyStrToVec_holds holds piece small
    simpa only [grownCapacity, grownContent, pushBackStrToVec, asks, if_neg grows] using copies

/-- The capacity once one more character was asked for. -/
def pushedCapacity (capacity needed : ℕ) : ℕ :=
  if capacity ≤ needed then realocatedCapacity capacity else capacity

/-- **A character is added if there is room, after growing when the vector is full.** -/
theorem myVecPushBack_holds (holds : vec.Holds capacity content) (c : UInt8) :
    if content.length < pushedCapacity capacity content.length then
      ∃ filled, myVecPushBack vec c = some filled ∧
        filled.Holds (pushedCapacity capacity content.length)
          (grownContent capacity content.length content ++ [c])
    else myVecPushBack vec c = none := by
  have asks : vec.firstFreeSpaceIdx ≥ vec.buffSize ↔ capacity ≤ content.length := by
    rw [ge_iff_le, UInt64.le_iff_toNat_le, holds.size, holds.free]
  by_cases grows : capacity ≤ content.length
  · obtain ⟨grown, success, holds'⟩ := realocateMyVec_holds holds
    have put := putInVec_holds holds' c
    rw [length_strncpy] at put
    simpa only [pushedCapacity, grownContent, myVecPushBack, asks, if_pos grows, success,
      Option.bind_some] using put
  · have put := putInVec_holds holds c
    simpa only [pushedCapacity, grownContent, myVecPushBack, asks, if_neg grows] using put

/-! ## Reading the content -/

theorem myVecGet_holds (holds : vec.Holds capacity content) {i : UInt64}
    (within : i < vec.firstFreeSpaceIdx) : myVecGet vec i = content[i.toNat]? := by
  have below : i.toNat < content.length := by
    rwa [UInt64.lt_iff_toNat_lt, holds.free] at within
  rw [myVecGet, if_pos within, ← List.getElem?_take_of_lt below, holds.content]

/-- The vector reads as `chars` exactly when that is its content. -/
theorem MyVec.Holds.reads_iff (holds : vec.Holds capacity content) {chars : List UInt8}
    (length : content.length = chars.length) :
    (∀ i < vec.firstFreeSpaceIdx, myVecGet vec i = chars[i.toNat]?) ↔ content = chars := by
  constructor
  · intro reads
    apply List.ext_getElem?
    intro n
    by_cases below : n < content.length
    · have bounded := Nat.lt_of_le_of_lt holds.within holds.capacity_lt
      have index : (UInt64.ofNat n).toNat = n :=
        UInt64.toNat_ofNat_of_lt' (Nat.lt_trans below bounded)
      have within : UInt64.ofNat n < vec.firstFreeSpaceIdx := by
        rwa [UInt64.lt_iff_toNat_lt, index, holds.free]
      have read := reads (UInt64.ofNat n) within
      rwa [myVecGet_holds holds within, index] at read
    · rw [List.getElem?_eq_none (Nat.le_of_not_lt below),
        List.getElem?_eq_none (length ▸ Nat.le_of_not_lt below)]
  · rintro rfl i within
    exact myVecGet_holds holds within

end Vec

end Ppcb
