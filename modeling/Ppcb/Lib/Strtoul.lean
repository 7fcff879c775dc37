import Mathlib.Data.Nat.Digits.Defs
import Mathlib.Data.List.TakeWhile
import Mathlib.Data.UInt
import Mathlib.Tactic.Common

/-!
# Reading a number with `strtoul`

`strtoul` in base ten, on a target where `unsigned long` has 64 bits, in the C locale. It skips
white space, takes one sign, and reads digits as long as there are any. A number with a minus
sign is negated in the unsigned type, and one that does not fit sets `errno`. When there are no
digits nothing is read, and a library may set `errno` or not.

`Numeral` are the texts that are read whole, apart from the empty one (`strtoul_endptr_nil_iff`).
Among them is the decimal notation of every number (`Numeral.ofNat`, `Numeral.value_ofNat`).
-/

set_option autoImplicit false

namespace CString

/-! ## Digits -/

def isspace (c : UInt8) : Bool := c = 32 ∨ 9 ≤ c ∧ c ≤ 13

def isdigit (c : UInt8) : Bool := 48 ≤ c ∧ c ≤ 57

def digitValue (c : UInt8) : ℕ := c.toNat - 48

/-- The number that the digits denote. -/
def digitsValue (digits : List UInt8) : ℕ := Nat.ofDigits 10 (digits.reverse.map digitValue)

/-- The decimal notation of a number. -/
def decimal (n : ℕ) : List UInt8 :=
  if n = 0 then [48] else (Nat.digits 10 n).reverse.map fun d => UInt8.ofNat (48 + d)

theorem toNat_digit {d : ℕ} (small : d < 10) : (UInt8.ofNat (48 + d)).toNat = 48 + d :=
  UInt8.toNat_ofNat_of_lt' (lt_of_lt_of_le (Nat.add_lt_add_left small 48) (by decide))

theorem isdigit_digit {d : ℕ} (small : d < 10) : isdigit (UInt8.ofNat (48 + d)) = true := by
  have value := toNat_digit small
  rw [isdigit, decide_eq_true_eq, UInt8.le_iff_toNat_le, UInt8.le_iff_toNat_le, value]
  exact ⟨Nat.le_add_right 48 d, Nat.add_le_add_left (Nat.le_of_lt_succ small) 48⟩

theorem isspace_of_isdigit {c : UInt8} (digit : isdigit c = true) : isspace c = false := by
  rw [isdigit, decide_eq_true_eq, UInt8.le_iff_toNat_le] at digit
  rw [isspace, decide_eq_false_iff_not]
  rintro (rfl | ⟨-, high⟩)
  · exact absurd digit.1 (by decide)
  · exact absurd (digit.1.trans (UInt8.le_iff_toNat_le.mp high)) (by decide)

theorem ne_sign_of_isdigit {c : UInt8} (digit : isdigit c = true) : c ≠ 45 ∧ c ≠ 43 := by
  constructor
  · rintro rfl
    cases digit
  · rintro rfl
    cases digit

theorem digitValue_digit {d : ℕ} (small : d < 10) : digitValue (UInt8.ofNat (48 + d)) = d := by
  rw [digitValue, toNat_digit small, Nat.add_sub_cancel_left]

theorem decimal_ne_nil (n : ℕ) : decimal n ≠ [] := by
  by_cases zero : n = 0
  · rw [decimal, if_pos zero]
    exact List.cons_ne_nil _ _
  · rw [decimal, if_neg zero, ne_eq, List.map_eq_nil_iff, List.reverse_eq_nil_iff]
    exact Nat.digits_ne_nil_iff_ne_zero.mpr zero

theorem isdigit_decimal (n : ℕ) : ∀ c ∈ decimal n, isdigit c = true := by
  intro c member
  by_cases zero : n = 0
  · rw [decimal, if_pos zero, List.mem_singleton] at member
    rw [member]
    rfl
  · rw [decimal, if_neg zero, List.mem_map] at member
    obtain ⟨d, digit, rfl⟩ := member
    exact isdigit_digit (Nat.digits_lt_base (by decide) (List.mem_reverse.mp digit))

/-- **The decimal notation denotes the number.** -/
theorem digitsValue_decimal (n : ℕ) : digitsValue (decimal n) = n := by
  by_cases zero : n = 0
  · rw [decimal, if_pos zero, zero]
    rfl
  · rw [decimal, if_neg zero, digitsValue, ← List.map_reverse, List.reverse_reverse,
      List.map_map]
    have same : (Nat.digits 10 n).map (digitValue ∘ fun d => UInt8.ofNat (48 + d)) =
        Nat.digits 10 n := by
      refine (List.map_congr_left fun d digit => ?_).trans (List.map_id _)
      exact digitValue_digit (Nat.digits_lt_base (by decide) digit)
    rw [same, Nat.ofDigits_digits]

/-! ## Scanning -/

/-- What `strtoul` returns: the value, what `*endptr` points to, and whether `errno` was set. -/
structure Strtoul where
  value : UInt64
  endptr : List UInt8
  errno : Bool
deriving DecidableEq, Repr

/-- An optional sign: whether it is a minus sign, and what follows it. -/
def takeSign : List UInt8 → Bool × List UInt8
  | [] => (false, [])
  | c :: rest =>
      if c = 45 then (true, rest)
      else if c = 43 then (false, rest)
      else (false, c :: rest)

/-- What is read after the white space and the sign. -/
def convert (einval : Bool) (string : List UInt8) (negative : Bool) (subject : List UInt8) :
    Strtoul :=
  let digits := subject.takeWhile isdigit
  let rest := subject.dropWhile isdigit
  if digits = [] then ⟨0, string, einval⟩
  else if 2 ^ 64 ≤ digitsValue digits then ⟨18446744073709551615, rest, true⟩
  else if negative then ⟨-UInt64.ofNat (digitsValue digits), rest, false⟩
  else ⟨UInt64.ofNat (digitsValue digits), rest, false⟩

/-- `strtoul(string, &endptr, 10)`. `einval` says whether the library sets `errno` when there is
no digit. -/
def strtoul (einval : Bool) (string : List UInt8) : Strtoul :=
  let signed := takeSign (string.dropWhile isspace)
  convert einval string signed.1 signed.2

/-- Libraries differ in `errno` only. -/
theorem strtoul_value (einval einval' : Bool) (string : List UInt8) :
    (strtoul einval string).value = (strtoul einval' string).value := by
  simp only [strtoul, convert]
  split
  · rfl
  · rfl

/-! ## Numerals -/

/-- A sign, if there is one. -/
inductive Sign where
  | none
  | plus
  | minus
deriving DecidableEq, Repr

def Sign.text : Sign → List UInt8
  | none => []
  | plus => [43]
  | minus => [45]

/-- White space, a sign, and digits. -/
structure Numeral where
  spaces : List UInt8
  sign : Sign
  digits : List UInt8
  isspace_spaces : ∀ c ∈ spaces, isspace c = true
  isdigit_digits : ∀ c ∈ digits, isdigit c = true
  digits_ne_nil : digits ≠ []

namespace Numeral

def text (n : Numeral) : List UInt8 := n.spaces ++ (n.sign.text ++ n.digits)

/-- The number without its sign. -/
def value (n : Numeral) : ℕ := digitsValue n.digits

/-- The decimal notation of a number. -/
def ofNat (n : ℕ) : Numeral where
  spaces := []
  sign := .none
  digits := decimal n
  isspace_spaces _ member := absurd member List.not_mem_nil
  isdigit_digits := isdigit_decimal n
  digits_ne_nil := decimal_ne_nil n

theorem value_ofNat (n : ℕ) : (ofNat n).value = n := digitsValue_decimal n

variable (n : Numeral)

theorem dropWhile_text : n.text.dropWhile isspace = n.sign.text ++ n.digits := by
  rw [text, List.dropWhile_append_of_pos n.isspace_spaces]
  cases n.sign with
  | none =>
      cases digits : n.digits with
      | nil => exact absurd digits n.digits_ne_nil
      | cons c rest =>
          have digit := n.isdigit_digits c (digits ▸ List.mem_cons_self)
          exact List.dropWhile_cons_of_neg (Bool.eq_false_iff.mp (isspace_of_isdigit digit))
  | plus => rfl
  | minus => rfl

theorem takeSign_text :
    takeSign (n.sign.text ++ n.digits) = (decide (n.sign = .minus), n.digits) := by
  cases n.sign with
  | none =>
      cases digits : n.digits with
      | nil => exact absurd digits n.digits_ne_nil
      | cons c rest =>
          have digit := n.isdigit_digits c (digits ▸ List.mem_cons_self)
          obtain ⟨not_minus, not_plus⟩ := ne_sign_of_isdigit digit
          exact (if_neg not_minus).trans (if_neg not_plus)
  | plus => rfl
  | minus => rfl

/-- **Reading a numeral.** -/
theorem strtoul_text (einval : Bool) : strtoul einval n.text =
    if 2 ^ 64 ≤ n.value then ⟨18446744073709551615, [], true⟩
    else if n.sign = .minus then ⟨-UInt64.ofNat n.value, [], false⟩
    else ⟨UInt64.ofNat n.value, [], false⟩ := by
  have taken : n.digits.takeWhile isdigit = n.digits :=
    List.takeWhile_eq_self_iff.mpr n.isdigit_digits
  have dropped : n.digits.dropWhile isdigit = [] :=
    List.dropWhile_eq_nil_iff.mpr n.isdigit_digits
  rw [strtoul, dropWhile_text, takeSign_text, convert, taken, dropped, if_neg n.digits_ne_nil]
  by_cases minus : n.sign = .minus
  · rw [if_pos minus, decide_eq_true minus]
    rfl
  · rw [if_neg minus, decide_eq_false minus]
    rfl

end Numeral

/-- The sign that was taken. -/
theorem exists_sign (string : List UInt8) : ∃ sign : Sign,
    sign.text ++ (takeSign string).2 = string := by
  cases string with
  | nil => exact ⟨.none, rfl⟩
  | cons c rest =>
      rw [takeSign]
      split
      · rename_i minus
        exact ⟨.minus, by rw [minus]; rfl⟩
      split
      · rename_i plus
        exact ⟨.plus, by rw [plus]; rfl⟩
      · exact ⟨.none, rfl⟩

/-- What `*endptr` points to: everything when there was no digit, otherwise what follows. -/
theorem strtoul_endptr (einval : Bool) (string : List UInt8) :
    (strtoul einval string).endptr =
      if (takeSign (string.dropWhile isspace)).2.takeWhile isdigit = [] then string
      else (takeSign (string.dropWhile isspace)).2.dropWhile isdigit := by
  rw [strtoul, convert]
  split
  · rfl
  split
  · rfl
  split <;> rfl

theorem takeSign_suffix (string : List UInt8) : (takeSign string).2 <:+ string := by
  obtain ⟨sign, same⟩ := exists_sign string
  exact ⟨sign.text, same⟩

/-- `*endptr` points into the text. -/
theorem strtoul_endptr_suffix (einval : Bool) (string : List UInt8) :
    (strtoul einval string).endptr <:+ string := by
  rw [strtoul_endptr]
  split
  · exact List.suffix_refl _
  · exact (List.dropWhile_suffix _).trans ((takeSign_suffix _).trans (List.dropWhile_suffix _))

/-- **What is read whole** is a numeral, if it is not empty. -/
theorem strtoul_endptr_nil_iff (einval : Bool) (string : List UInt8) :
    (strtoul einval string).endptr = [] ↔ string = [] ∨ ∃ n : Numeral, n.text = string := by
  rw [strtoul_endptr]
  constructor
  · intro whole
    split at whole
    · exact .inl whole
    · rename_i some_digits
      obtain ⟨sign, same⟩ := exists_sign (string.dropWhile isspace)
      have digits := List.dropWhile_eq_nil_iff.mp whole
      refine .inr ⟨⟨string.takeWhile isspace, sign, _, fun c => List.mem_takeWhile_imp, digits,
        ?_⟩, ?_⟩
      · intro none
        rw [none] at some_digits
        exact some_digits rfl
      · rw [Numeral.text, same, List.takeWhile_append_dropWhile]
  · rintro (rfl | ⟨n, rfl⟩)
    · rfl
    · rw [Numeral.dropWhile_text, Numeral.takeSign_text,
        List.takeWhile_eq_self_iff.mpr n.isdigit_digits, if_neg n.digits_ne_nil]
      exact List.dropWhile_eq_nil_iff.mpr n.isdigit_digits

end CString
