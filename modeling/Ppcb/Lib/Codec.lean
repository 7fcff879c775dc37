import Ppcb.Lib.ByteOrder
import Mathlib.Logic.Function.Basic

/-!
# Fixed-width encodings

An `Encoding` writes every value to the same number of symbols and reads it back from the
beginning of any longer string. It carries its laws, so what is built from encodings
(`pair`) satisfies them too.

A family of encodings with a symbol in front that tells its members apart (`tagged`) is
injective over the whole family (`tagged_injective`).
-/

set_option autoImplicit false

/-- Values written to `width` symbols. Decoding looks at the first `width` symbols. -/
structure Encoding (β α : Type*) where
  width : ℕ
  encode : α → List β
  decode : List β → α
  length_encode : ∀ a, (encode a).length = width
  decode_encode_append : ∀ a rest, decode (encode a ++ rest) = a
  encode_decode : ∀ l, l.length = width → encode (decode l) = l

namespace Encoding

variable {β α γ : Type*}

/-! ## Consequences of the laws -/

section Laws

variable (c : Encoding β α)

@[simp] theorem decode_encode (a : α) : c.decode (c.encode a) = a := by
  simpa using c.decode_encode_append a []

theorem encode_injective : Function.Injective c.encode := by
  intro a b same
  rw [← c.decode_encode a, same, c.decode_encode]

/-- What follows the first `width` symbols is not looked at. -/
theorem decode_append {l : List β} (length : l.length = c.width) (rest : List β) :
    c.decode (l ++ rest) = c.decode l := by
  have written : c.encode (c.decode l) = l := c.encode_decode l length
  calc c.decode (l ++ rest) = c.decode (c.encode (c.decode l) ++ rest) := by rw [written]
    _ = c.decode l := c.decode_encode_append _ rest

end Laws

/-! ## Building encodings -/

/-- One symbol, as itself. -/
def symbol (blank : β) : Encoding β β where
  width := 1
  encode a := [a]
  decode l := l.headD blank
  length_encode _ := rfl
  decode_encode_append _ _ := rfl
  encode_decode l length := by
    obtain ⟨a, rfl⟩ := List.length_eq_one_iff.mp length
    rfl

/-- One value after the other. -/
def pair (c : Encoding β α) (d : Encoding β γ) : Encoding β (α × γ) where
  width := c.width + d.width
  encode a := c.encode a.1 ++ d.encode a.2
  decode l := (c.decode l, d.decode (l.drop c.width))
  length_encode a := by rw [List.length_append, c.length_encode, d.length_encode]
  decode_encode_append a rest := by
    rw [List.append_assoc, c.decode_encode_append, List.drop_left' (c.length_encode a.1),
      d.decode_encode_append]
  encode_decode l length := by
    have front : (l.take c.width).length = c.width := by
      rw [List.length_take]
      omega
    have back : (l.drop c.width).length = d.width := by
      rw [List.length_drop]
      omega
    have head : c.decode l = c.decode (l.take c.width) := by
      rw [← c.decode_append front (l.drop c.width), List.take_append_drop]
    show c.encode (c.decode l) ++ d.encode (d.decode (l.drop c.width)) = l
    rw [head, c.encode_decode _ front, d.encode_decode _ back, List.take_append_drop]

open ByteOrder in
/-- A 32-bit word, most significant byte first. -/
def word32 : Encoding UInt8 UInt32 where
  width := 4
  encode := net32
  decode l := read32 (l.take 4)
  length_encode := length_net32
  decode_encode_append x rest := by rw [List.take_left' (length_net32 x), read32_net32]
  encode_decode l length := by
    rw [List.take_of_length_le (Nat.le_of_eq length), net32_read32 length]

open ByteOrder in
/-- A 64-bit word, most significant byte first. -/
def word64 : Encoding UInt8 UInt64 where
  width := 8
  encode := net64
  decode l := read64 (l.take 8)
  length_encode := length_net64
  decode_encode_append x rest := by rw [List.take_left' (length_net64 x), read64_net64]
  encode_decode l length := by
    rw [List.take_of_length_le (Nat.le_of_eq length), net64_read64 length]

/-! ## Families told apart by their first symbol -/

section Tagged

variable {ι : Type*} {φ : ι → Type*} (tag : ι → β) (c : ∀ i, Encoding β (φ i))

/-- The symbol of the member, then the value. -/
def tagged (a : Σ i, φ i) : List β := tag a.1 :: (c a.1).encode a.2

theorem tagged_injective (distinct : Function.Injective tag) :
    Function.Injective (tagged tag c) := by
  rintro ⟨i, a⟩ ⟨j, b⟩ same
  obtain ⟨tags, values⟩ := List.cons.inj same
  obtain rfl : i = j := distinct tags
  obtain rfl : a = b := (c i).encode_injective values
  rfl

end Tagged

end Encoding
