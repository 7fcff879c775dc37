import Mathlib.Data.List.Destutter
import Mathlib.Tactic.Common

/-!
# Lists that repeat their last element

A table is read with repetitions when its first entries come in order, each once or several times
in a row (`Reads`). Without the repetitions the entries come once, if no two that follow each
other are equal (`Reads.collapsed`): a list grows at its end by what differs from its last element
only (`destutter_concat`).

When the entries are all different, no one of them can take up more room than the others leave
(`count_le`).
-/

set_option autoImplicit false

namespace Stutter

variable {α : Type*}

/-- The first `n` entries of the table, each once or several times in a row. -/
inductive Reads (table : ℕ → α) : ℕ → List α → Prop where
  | nil : Reads table 0 []
  | next {n : ℕ} {l : List α} (reads : Reads table n l) : Reads table (n + 1) (l ++ [table n])
  | again {n : ℕ} {l : List α} (reads : Reads table (n + 1) l) :
      Reads table (n + 1) (l ++ [table n])

theorem getLast?_table (table : ℕ → α) (n : ℕ) :
    ((List.range (n + 1)).map table).getLast? = some (table n) := by
  rw [List.range_succ, List.map_append, List.map_singleton, List.getLast?_concat]

section Reads

variable {table : ℕ → α} {n : ℕ} {l : List α}

theorem Reads.getLast? (reads : Reads table n l) :
    l.getLast? = ((List.range n).map table).getLast? := by
  cases reads with
  | nil => rfl
  | next reads => rw [List.getLast?_concat, getLast?_table]
  | again reads => rw [List.getLast?_concat, getLast?_table]

/-- Without the first entry the rest of the table is read. -/
theorem Reads.filter {p : α → Bool} (first : p (table 0) = false)
    (rest : ∀ i, p (table (i + 1)) = true) (reads : Reads table n l) :
    Reads (fun i => table (i + 1)) (n - 1) (l.filter p) := by
  have without (l : List α) : (l ++ [table 0]).filter p = l.filter p := by
    rw [List.filter_append, List.filter_singleton, first, cond_false, List.append_nil]
  have within (i : ℕ) (l : List α) :
      (l ++ [table (i + 1)]).filter p = l.filter p ++ [table (i + 1)] := by
    rw [List.filter_append, List.filter_singleton, rest, cond_true]
  induction reads with
  | nil => exact .nil
  | @next n l reads ih =>
      cases n with
      | zero =>
          rw [without]
          exact ih
      | succ i =>
          rw [within]
          exact ih.next
  | @again n l reads ih =>
      cases n with
      | zero =>
          rw [without]
          exact ih
      | succ i =>
          rw [within]
          exact ih.again

end Reads

/-! ## Without the repetitions -/

variable [DecidableEq α]

/-- What comes at the end of a list is compared with its last element. -/
theorem destutter'_concat (a b : α) (l : List α) :
    (l ++ [b]).destutter' (· ≠ ·) a =
      if (a :: l).getLast? = some b then l.destutter' (· ≠ ·) a
      else l.destutter' (· ≠ ·) a ++ [b] := by
  induction l generalizing a with
  | nil =>
      rw [List.nil_append, List.destutter'_singleton, List.destutter'_nil,
        List.getLast?_singleton]
      by_cases same : a = b
      · rw [if_neg (not_not.mpr same), if_pos (congrArg some same)]
      · rw [if_pos same, if_neg (mt Option.some.inj same)]
        rfl
  | cons c l ih =>
      rw [List.cons_append, List.destutter'_cons, List.destutter'_cons, List.getLast?_cons_cons]
      by_cases same : a = c
      · subst same
        rw [if_neg (not_not.mpr rfl), if_neg (not_not.mpr rfl)]
        exact ih a
      · rw [if_pos same, if_pos same, ih c]
        split <;> rfl

theorem destutter_concat (l : List α) (b : α) :
    (l ++ [b]).destutter (· ≠ ·) =
      if l.getLast? = some b then l.destutter (· ≠ ·) else l.destutter (· ≠ ·) ++ [b] := by
  cases l with
  | nil => rfl
  | cons a l => exact destutter'_concat a b l

/-- **Without the repetitions the entries come once**, if no two that follow each other are
equal. -/
theorem Reads.collapsed {table : ℕ → α} {n : ℕ} {l : List α} (reads : Reads table n l)
    (other : ∀ i, i + 1 < n → table i ≠ table (i + 1)) :
    l.destutter (· ≠ ·) = (List.range n).map table := by
  induction reads with
  | nil => rfl
  | @next n l reads ih =>
      have new : ¬ l.getLast? = some (table n) := by
        rw [reads.getLast?]
        cases n with
        | zero => exact nofun
        | succ i =>
            rw [getLast?_table]
            exact mt Option.some.inj (other i (Nat.lt_succ_self _))
      rw [destutter_concat, if_neg new, ih fun i less => other i (Nat.lt_succ_of_lt less),
        List.range_succ, List.map_append, List.map_singleton]
  | again reads ih =>
      have same := reads.getLast?
      rw [getLast?_table] at same
      rw [destutter_concat, if_pos same]
      exact ih other

/-- Beside some different elements a list has room for the repetitions of one of them only. -/
theorem count_le {β : Type*} [BEq β] [LawfulBEq β] {l different : List β} (sublist : different.Sublist l) (nodup : different.Nodup)
    (a : β) : l.count a + different.length ≤ l.length + 1 := by
  obtain ⟨rest, perm⟩ := sublist.exists_perm_append
  have once := List.nodup_iff_count_le_one.mp nodup a
  have others := List.count_le_length (a := a) (l := rest)
  have length := perm.length_eq
  rw [List.length_append] at length
  rw [perm.count_eq, List.count_append]
  omega

end Stutter
