import Mathlib.Data.List.TakeDrop
import Mathlib.Data.List.Forall2
import Mathlib.Tactic.Common

/-!
# Copying with `strncpy`

`strncpy` copies up to the first zero byte of the source and fills the rest of the
destination with zeros. A copy of `n` bytes is faithful exactly when no byte after the
first zero is different from zero (`strncpy_eq_take_iff`).

A copy never makes up a byte: each byte of the result is the byte of the source or zero.
That is the order `Erodes`. Since it is antisymmetric, a chain of copies that ends in
what it started from was faithful at every link (`Erodes.antisymm`). A byte string that is
cut into blocks and copied block by block arrives exactly when every block has its zeros last
(`copyBlocks_eq_iff`).

`writeAt` is a write into a block of memory; it fails when it would pass the end.
-/

set_option autoImplicit false

namespace CString

/-- The `n` bytes that `strncpy` writes. A source that is too short counts as ended. -/
def strncpy : List UInt8 → ℕ → List UInt8
  | _, 0 => []
  | [], n + 1 => List.replicate (n + 1) 0
  | b :: src, n + 1 => if b = 0 then List.replicate (n + 1) 0 else b :: strncpy src n

/-- Every byte after the first zero is zero. -/
def ZerosLast : List UInt8 → Prop
  | [] => True
  | b :: l => if b = 0 then ∀ c ∈ l, c = 0 else ZerosLast l

instance decidableZerosLast : (l : List UInt8) → Decidable (ZerosLast l)
  | [] => inferInstanceAs (Decidable True)
  | b :: l =>
      if zero : b = 0 then
        decidable_of_iff (∀ c ∈ l, c = 0) (by simp only [ZerosLast, if_pos zero])
      else
        have := decidableZerosLast l
        decidable_of_iff (ZerosLast l) (by simp only [ZerosLast, if_neg zero])

theorem zerosLast_of_ne_zero {l : List UInt8} (nonzero : ∀ b ∈ l, b ≠ 0) : ZerosLast l := by
  induction l with
  | nil => trivial
  | cons b l ih =>
      rw [ZerosLast, if_neg (nonzero b List.mem_cons_self)]
      exact ih fun c member => nonzero c (List.mem_cons_of_mem b member)

@[simp] theorem strncpy_zero (src : List UInt8) : strncpy src 0 = [] := by
  cases src <;> rfl

@[simp] theorem length_strncpy (src : List UInt8) (n : ℕ) : (strncpy src n).length = n := by
  induction n generalizing src with
  | zero => simp
  | succ n ih =>
      cases src with
      | nil => simp [strncpy]
      | cons b src =>
          by_cases zero : b = 0
          · simp [strncpy, zero]
          · simp [strncpy, zero, ih]

/-- **A copy is faithful exactly when the copied bytes have their zeros last.** -/
theorem strncpy_eq_take_iff {src : List UInt8} {n : ℕ} (within : n ≤ src.length) :
    strncpy src n = src.take n ↔ ZerosLast (src.take n) := by
  induction n generalizing src with
  | zero => simp [ZerosLast]
  | succ n ih =>
      cases src with
      | nil => simp at within
      | cons b src =>
          have within' : n ≤ src.length := by simpa using within
          by_cases zero : b = 0
          · subst zero
            have length : (src.take n).length = n := List.length_take_of_le within'
            simp only [strncpy, List.take_succ_cons, ZerosLast, if_true,
              List.replicate_succ, List.cons.injEq, true_and]
            rw [eq_comm, List.eq_replicate_iff]
            exact ⟨fun h => h.2, fun h => ⟨length, h⟩⟩
          · simp only [strncpy, List.take_succ_cons, ZerosLast, if_neg zero,
              List.cons.injEq, true_and]
            exact ih within'

/-- Only the first `n` bytes of the source matter. -/
theorem strncpy_take (src : List UInt8) (n : ℕ) : strncpy (src.take n) n = strncpy src n := by
  induction n generalizing src with
  | zero => simp
  | succ n ih =>
      cases src with
      | nil => rfl
      | cons b src => simp only [List.take_succ_cons, strncpy, ih]

theorem zerosLast_strncpy (src : List UInt8) (n : ℕ) : ZerosLast (strncpy src n) := by
  have zeros : ∀ k, ZerosLast (List.replicate k 0) := by
    intro k
    cases k <;> simp [ZerosLast, List.replicate_succ]
  induction n generalizing src with
  | zero => simp [ZerosLast]
  | succ n ih =>
      cases src with
      | nil => exact zeros (n + 1)
      | cons b src =>
          by_cases zero : b = 0
          · simpa only [strncpy, if_pos zero] using zeros (n + 1)
          · simpa only [strncpy, if_neg zero, ZerosLast] using ih src

/-- Copying a copy changes nothing. -/
theorem strncpy_strncpy (src : List UInt8) (n : ℕ) :
    strncpy (strncpy src n) n = strncpy src n := by
  have whole : (strncpy src n).take n = strncpy src n :=
    List.take_of_length_le (Nat.le_of_eq (length_strncpy src n))
  have faithful := (strncpy_eq_take_iff (Nat.le_of_eq (length_strncpy src n).symm)).mpr
    (by rw [whole]; exact zerosLast_strncpy src n)
  rw [faithful, whole]

/-! ## Bytes lost on the way -/

/-- The second byte string is the first with some bytes replaced by zero. -/
def Erodes (l m : List UInt8) : Prop := List.Forall₂ (fun a b => b = a ∨ b = 0) l m

namespace Erodes

theorem refl (l : List UInt8) : Erodes l l := by
  induction l with
  | nil => exact .nil
  | cons a l ih => exact .cons (.inl rfl) ih

theorem trans {l m k : List UInt8} (first : Erodes l m) (second : Erodes m k) :
    Erodes l k := by
  induction first generalizing k with
  | nil => exact second
  | cons head _ ih =>
      cases second with
      | cons head' tail' =>
          refine .cons ?_ (ih tail')
          rcases head' with rfl | rfl
          · exact head
          · exact .inr rfl

theorem length_eq {l m : List UInt8} (erodes : Erodes l m) : l.length = m.length :=
  List.Forall₂.length_eq erodes

/-- **Nothing is lost when the end of a chain of copies is its start.** -/
theorem antisymm {l m : List UInt8} (first : Erodes l m) (second : Erodes m l) : l = m := by
  induction first with
  | nil => rfl
  | @cons a b l m head _ ih =>
      cases second with
      | cons head' tail' =>
          have same : a = b := by
            rcases head with rfl | rfl
            · rfl
            · rcases head' with rfl | rfl <;> rfl
          rw [same, ih tail']

theorem append {l m l' m' : List UInt8} (first : Erodes l m) (second : Erodes l' m') :
    Erodes (l ++ l') (m ++ m') :=
  List.rel_append first second

theorem take {l m : List UInt8} (erodes : Erodes l m) (n : ℕ) : Erodes (l.take n) (m.take n) :=
  List.forall₂_take n erodes

theorem drop {l m : List UInt8} (erodes : Erodes l m) (n : ℕ) : Erodes (l.drop n) (m.drop n) :=
  List.forall₂_drop n erodes

end Erodes

theorem erodes_replicate_zero (l : List UInt8) : Erodes l (List.replicate l.length 0) := by
  induction l with
  | nil => exact .nil
  | cons a l ih => exact .cons (.inr rfl) ih

/-- A copy only replaces bytes by zero. -/
theorem erodes_strncpy {src : List UInt8} {n : ℕ} (within : n ≤ src.length) :
    Erodes (src.take n) (strncpy src n) := by
  induction n generalizing src with
  | zero => simpa using Erodes.refl []
  | succ n ih =>
      cases src with
      | nil => simp at within
      | cons b src =>
          have within' : n ≤ src.length := by simpa using within
          by_cases zero : b = 0
          · have length : (src.take n).length = n := List.length_take_of_le within'
            have lost := erodes_replicate_zero (b :: src.take n)
            rw [List.length_cons, length] at lost
            simpa only [strncpy, if_pos zero, List.take_succ_cons] using lost
          · simp only [strncpy, if_neg zero, List.take_succ_cons]
            exact List.Forall₂.cons (.inl rfl) (ih within')

/-- A copy of a whole byte string is faithful exactly when its zeros are last. -/
theorem strncpy_eq_iff (l : List UInt8) : strncpy l l.length = l ↔ ZerosLast l := by
  have whole := strncpy_eq_take_iff (Nat.le_refl l.length)
  rwa [List.take_length] at whole

/-- A copy of what may already have lost bytes is the original exactly when nothing was lost
so far and the original has its zeros last. -/
theorem Erodes.strncpy_eq_iff {l m : List UInt8} (erodes : Erodes l m) :
    strncpy m m.length = l ↔ m = l ∧ ZerosLast l := by
  constructor
  · intro copy
    have lost := erodes_strncpy (Nat.le_refl m.length)
    rw [List.take_length, copy] at lost
    have same := lost.antisymm erodes
    subst same
    exact ⟨rfl, (CString.strncpy_eq_iff m).mp copy⟩
  · rintro ⟨rfl, last⟩
    exact (CString.strncpy_eq_iff m).mpr last

/-! ## Copying in blocks -/

/-- The block number `i` of a byte string cut into blocks of `width` bytes. -/
def block (l : List UInt8) (width i : ℕ) : List UInt8 := (l.drop (width * i)).take width

@[simp] theorem length_block (l : List UInt8) (width i : ℕ) :
    (block l width i).length = min width (l.length - width * i) := by
  rw [block, List.length_take, List.length_drop]

/-- The first `k` blocks, each copied on its own. -/
def copyBlocks (l : List UInt8) (width k : ℕ) : List UInt8 :=
  ((List.range k).map fun i => strncpy (block l width i) (block l width i).length).flatten

theorem copyBlocks_succ (l : List UInt8) (width k : ℕ) :
    copyBlocks l width (k + 1) =
      copyBlocks l width k ++ strncpy (block l width k) (block l width k).length := by
  rw [copyBlocks, copyBlocks, List.range_succ, List.map_append, List.flatten_append,
    List.map_singleton, List.flatten_singleton]

theorem take_succ_block (l : List UInt8) (width k : ℕ) :
    l.take (width * (k + 1)) = l.take (width * k) ++ block l width k := by
  rw [block, Nat.mul_succ, List.take_add]

/-- The copied blocks are the byte string with some bytes lost. -/
theorem erodes_copyBlocks (l : List UInt8) (width k : ℕ) :
    Erodes (l.take (width * k)) (copyBlocks l width k) := by
  induction k with
  | zero => exact .nil
  | succ k ih =>
      have lost := erodes_strncpy (Nat.le_refl (block l width k).length)
      rw [List.take_length] at lost
      rw [take_succ_block, copyBlocks_succ]
      exact ih.append lost

/-- **Copying in blocks is faithful exactly when every block has its zeros last.** -/
theorem copyBlocks_eq_iff (l : List UInt8) (width k : ℕ) :
    copyBlocks l width k = l.take (width * k) ↔ ∀ i < k, ZerosLast (block l width i) := by
  induction k with
  | zero => simp [copyBlocks]
  | succ k ih =>
      have length := (erodes_copyBlocks l width k).length_eq.symm
      rw [take_succ_block, copyBlocks_succ]
      constructor
      · intro same i below
        obtain ⟨earlier, last⟩ := List.append_inj same length
        rcases Nat.lt_succ_iff_lt_or_eq.mp below with before | rfl
        · exact ih.mp earlier i before
        · exact (strncpy_eq_iff _).mp last
      · intro last
        rw [ih.mpr fun i below => last i (Nat.lt_succ_of_lt below),
          (strncpy_eq_iff _).mpr (last k (Nat.lt_succ_self k))]

/-! ## Writing into a block of memory -/

/-- Write bytes at an offset; `none` when the write would pass the end of the block. -/
def writeAt (block : List UInt8) (offset : ℕ) (bytes : List UInt8) : Option (List UInt8) :=
  if offset + bytes.length ≤ block.length then
    some (block.take offset ++ bytes ++ block.drop (offset + bytes.length))
  else
    none

theorem writeAt_isSome_iff {block : List UInt8} {offset : ℕ} {bytes : List UInt8} :
    (writeAt block offset bytes).isSome ↔ offset + bytes.length ≤ block.length := by
  simp only [writeAt]
  split <;> simp_all

theorem length_writeAt {block written : List UInt8} {offset : ℕ} {bytes : List UInt8}
    (success : writeAt block offset bytes = some written) : written.length = block.length := by
  simp only [writeAt] at success
  split at success
  · cases success
    simp only [List.length_append, List.length_take, List.length_drop]
    omega
  · cases success

/-- Up to the end of the written bytes, the block holds what was before the offset and
then the written bytes. -/
theorem take_writeAt {block written : List UInt8} {offset : ℕ} {bytes : List UInt8}
    (success : writeAt block offset bytes = some written) :
    written.take (offset + bytes.length) = block.take offset ++ bytes := by
  simp only [writeAt] at success
  split at success
  · cases success
    have length : (block.take offset ++ bytes).length = offset + bytes.length := by
      simp only [List.length_append, List.length_take]
      omega
    rw [← length, List.take_left]
  · cases success

end CString
