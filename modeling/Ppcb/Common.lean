import Ppcb.Lib.Connection
import Ppcb.HelperFunc

/-!
# Reading and writing on a stream socket

`readn` and `writen` of `common.c`, one pass of their loops at a time, and what the calls
`read`, `write`, `accept` and `connect` can come back with. A negative length is `none`.
-/

set_option autoImplicit false

namespace Ppcb

open Reactive

/-- What one call of `read` comes back with. No bytes are the end of the stream. -/
inductive Read where
  | data (bytes : List UInt8)
  | failed (errno : Errno)
deriving DecidableEq, Repr

/-- What one call of `write` comes back with. -/
inductive Write where
  | wrote (n : ℕ)
  | failed (errno : Errno)
deriving DecidableEq, Repr

/-- What one call of `accept` or `connect` comes back with. -/
inductive Connect where
  | connected
  | failed (errno : Errno)
deriving DecidableEq, Repr

/-- A `read` of up to `n` bytes can come back like this. -/
def Read.Answers : Read → Call UInt8 → Prop
  | .data bytes, .read n => bytes.length ≤ n
  | .failed _, .read _ => True
  | _, _ => False

/-- The end of the stream, or a `read` that failed. -/
def Read.Ended : Read → Prop
  | .data bytes => bytes = []
  | .failed _ => True

/-- A `write` of the bytes can come back like this. -/
def Write.Answers : Write → Call UInt8 → Prop
  | .wrote k, .write bytes => k ≤ bytes.length
  | .failed _, .write _ => True
  | _, _ => False

instance : (r : Read) → (call : Call UInt8) → Decidable (r.Answers call)
  | .data bytes, .read n => inferInstanceAs (Decidable (bytes.length ≤ n))
  | .data _, .write _ => inferInstanceAs (Decidable False)
  | .data _, .closed => inferInstanceAs (Decidable False)
  | .failed _, .read _ => inferInstanceAs (Decidable True)
  | .failed _, .write _ => inferInstanceAs (Decidable False)
  | .failed _, .closed => inferInstanceAs (Decidable False)

instance : (r : Write) → (call : Call UInt8) → Decidable (r.Answers call)
  | .wrote k, .write bytes => inferInstanceAs (Decidable (k ≤ bytes.length))
  | .wrote _, .read _ => inferInstanceAs (Decidable False)
  | .wrote _, .closed => inferInstanceAs (Decidable False)
  | .failed _, .write _ => inferInstanceAs (Decidable True)
  | .failed _, .read _ => inferInstanceAs (Decidable False)
  | .failed _, .closed => inferInstanceAs (Decidable False)

theorem Read.answers_data {call : Call UInt8} {n : ℕ} {bytes : List UInt8}
    (blocked : call = .read n) (fits : bytes.length ≤ n) : (Read.data bytes).Answers call := by
  rw [blocked]
  exact fits

theorem Write.answers_wrote {call : Call UInt8} {left : List UInt8} {k : ℕ}
    (blocked : call = .write left) (fits : k ≤ left.length) : (Write.wrote k).Answers call := by
  rw [blocked]
  exact fits

/-! ## `readn` -/

/-- `readn` is blocked in `read`, or has returned. `got` are the bytes read so far. -/
inductive Readn where
  | blocked (got : List UInt8)
  | returned (readLength : Option ℕ) (got : List UInt8)
deriving DecidableEq, Repr

/-- The test of the loop of `readn`. -/
def readnLoop (n : ℕ) (got : List UInt8) : Readn :=
  if got.length < n then .blocked got else .returned (some got.length) got

/-- One pass of the loop of `readn`. -/
def readnPass (n : ℕ) (got : List UInt8) : Read → Readn
  | .failed _ => .returned none got
  | .data bytes =>
      if bytes.length = 0 then .returned (some got.length) got
      else readnLoop n (got ++ bytes)

/-- The memory of a structure after `readn` has put bytes at its beginning. -/
def readOver (structPtr got : List UInt8) : List UInt8 := got ++ structPtr.drop got.length

/-! ## `writen` -/

/-- `writen` is blocked in `write` with some bytes left, or has returned. -/
inductive Writen where
  | blocked (left : List UInt8)
  | returned (writtenLength : Option ℕ)
deriving DecidableEq, Repr

/-- The test of the loop of `writen`. -/
def writenLoop (n : ℕ) (left : List UInt8) : Writen :=
  if 0 < left.length then .blocked left else .returned (some n)

/-- One pass of the loop of `writen`. -/
def writenPass (n : ℕ) (left : List UInt8) : Write → Writen
  | .failed _ => .returned none
  | .wrote k => if k = 0 then .returned (some 0) else writenLoop n (left.drop k)

/-! ## What the loops do with a call that succeeds -/

section Loops

variable {n k : ℕ} {got bytes left : List UInt8}

theorem readnPass_more (some : bytes ≠ []) (less : got.length + bytes.length < n) :
    readnPass n got (.data bytes) = .blocked (got ++ bytes) := by
  have nonempty : ¬ bytes.length = 0 := fun empty => some (List.length_eq_zero_iff.mp empty)
  rw [readnPass, if_neg nonempty, readnLoop, List.length_append, if_pos less]

theorem readnPass_done (some' : bytes ≠ []) (all : got.length + bytes.length = n) :
    readnPass n got (.data bytes) = .returned (some n) (got ++ bytes) := by
  have nonempty : ¬ bytes.length = 0 := fun empty => some' (List.length_eq_zero_iff.mp empty)
  rw [readnPass, if_neg nonempty, readnLoop, List.length_append, if_neg (by omega), all]

/-- `readn` is blocked again only after some bytes. -/
theorem readnPass_blocked {r : Read} {got' : List UInt8} (pass : readnPass n got r = .blocked got') :
    ∃ bytes, r = .data bytes ∧ got' = got ++ bytes := by
  cases r with
  | data bytes =>
      refine ⟨bytes, rfl, ?_⟩
      simp only [readnPass, readnLoop] at pass
      split at pass
      · cases pass
      split at pass
      · exact (Readn.blocked.inj pass).symm
      · cases pass
  | failed errno => cases pass

/-- Without more bytes `readn` does not return a length beyond what it has. -/
theorem readnPass_ended (n : ℕ) (got : List UInt8) {r : Read} (ended : r.Ended) :
    ∃ readLength, readnPass n got r = .returned readLength got ∧
      ∀ k, readLength = some k → k = got.length := by
  cases r with
  | data bytes =>
      obtain rfl : bytes = [] := ended
      exact ⟨some got.length, rfl, fun k equal => (Option.some.inj equal).symm⟩
  | failed errno => exact ⟨none, rfl, nofun⟩

theorem writenPass_more (positive : 0 < k) (less : k < left.length) :
    writenPass n left (.wrote k) = .blocked (left.drop k) := by
  have more : 0 < (left.drop k).length := by
    rw [List.length_drop]
    omega
  rw [writenPass, if_neg (by omega), writenLoop, if_pos more]

theorem writenPass_done (positive : 0 < k) (all : k = left.length) :
    writenPass n left (.wrote k) = .returned (some n) := by
  have none : ¬ 0 < (left.drop k).length := by
    rw [List.length_drop]
    omega
  rw [writenPass, if_neg (by omega), writenLoop, if_neg none]

/-- A write that did not take everything leaves something. -/
theorem drop_ne_nil (less : k < left.length) : left.drop k ≠ [] :=
  mt List.drop_eq_nil_iff.mp (Nat.not_le.mpr less)

/-- A write that took everything leaves nothing. -/
theorem drop_all_append (all : k = left.length) (later : List UInt8) :
    left.drop k ++ later = later := by
  rw [all, List.drop_length, List.nil_append]

theorem readOver_whole {structPtr : List UInt8} (whole : got.length = structPtr.length) :
    readOver structPtr got = got := by
  rw [readOver, whole, List.drop_length, List.append_nil]

end Loops

end Ppcb
