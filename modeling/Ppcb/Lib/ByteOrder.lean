import Mathlib.Data.Nat.Digits.Lemmas

/-!
# Fixed-width byte strings of numbers

`leBytes w n` are the `w` bytes of `n`, least significant first, and `beBytes w n` the
same bytes most significant first. Reading them back gives `n` modulo `256 ^ w`
(`leNat_leBytes`, `beNat_beBytes`), and every byte string is the encoding of its
reading (`leBytes_leNat`, `beBytes_beNat`).

`swapBytes w` is what a host that stores numbers least significant byte first does to
convert to and from the network order: the bytes in memory of the converted number
are the big-endian bytes of the number (`leBytes_swapBytes`), and converting what was
read from memory gives the big-endian reading (`swapBytes_leNat`).

The second half specialises this to 32-bit and 64-bit words.
-/

set_option autoImplicit false

namespace ByteOrder

/-! ## Numbers and byte strings -/

/-- The `w` low bytes of a number, least significant first. -/
def leBytes : ℕ → ℕ → List UInt8
  | 0, _ => []
  | w + 1, n => UInt8.ofNat n :: leBytes w (n / 256)

/-- The number whose bytes are given, least significant first. -/
def leNat (l : List UInt8) : ℕ := Nat.ofDigits 256 (l.map UInt8.toNat)

/-- The `w` low bytes of a number, most significant first. -/
def beBytes (w n : ℕ) : List UInt8 := (leBytes w n).reverse

/-- The number whose bytes are given, most significant first. -/
def beNat (l : List UInt8) : ℕ := leNat l.reverse

@[simp] theorem length_leBytes (w n : ℕ) : (leBytes w n).length = w := by
  induction w generalizing n with
  | zero => rfl
  | succ w ih => simp [leBytes, ih]

@[simp] theorem length_beBytes (w n : ℕ) : (beBytes w n).length = w := by
  simp [beBytes]

theorem leNat_cons (b : UInt8) (l : List UInt8) :
    leNat (b :: l) = b.toNat + 256 * leNat l := by
  simp [leNat, Nat.ofDigits_cons]

theorem leNat_lt (l : List UInt8) : leNat l < 256 ^ l.length := by
  have small : ∀ d ∈ l.map UInt8.toNat, d < 256 := by
    intro d member
    obtain ⟨b, -, rfl⟩ := List.mem_map.mp member
    exact b.toNat_lt
  simpa [leNat] using Nat.ofDigits_lt_base_pow_length (by decide) small

theorem leNat_leBytes (w n : ℕ) : leNat (leBytes w n) = n % 256 ^ w := by
  induction w generalizing n with
  | zero => simp [leBytes, leNat, Nat.mod_one]
  | succ w ih =>
      rw [leBytes, leNat_cons, ih, Nat.pow_succ', Nat.mod_mul]
      simp

theorem leBytes_leNat (l : List UInt8) : leBytes l.length (leNat l) = l := by
  induction l with
  | nil => rfl
  | cons b l ih =>
      have low : UInt8.ofNat (b.toNat + 256 * leNat l) = b := by
        apply UInt8.toNat_inj.mp
        simp
      have high : (b.toNat + 256 * leNat l) / 256 = leNat l := by
        have := b.toNat_lt
        omega
      rw [List.length_cons, leNat_cons, leBytes, low, high, ih]

theorem beNat_lt (l : List UInt8) : beNat l < 256 ^ l.length := by
  simpa [beNat] using leNat_lt l.reverse

theorem beNat_beBytes (w n : ℕ) : beNat (beBytes w n) = n % 256 ^ w := by
  simp [beNat, beBytes, leNat_leBytes]

theorem beBytes_beNat (l : List UInt8) : beBytes l.length (beNat l) = l := by
  have h := leBytes_leNat l.reverse
  rw [List.length_reverse] at h
  simp [beBytes, beNat, h]

/-! ## Converting between the host and the network order -/

/-- The conversion between a little-endian host and the network order. -/
def swapBytes (w n : ℕ) : ℕ := leNat (beBytes w n)

theorem swapBytes_lt (w n : ℕ) : swapBytes w n < 256 ^ w := by
  simpa [swapBytes] using leNat_lt (beBytes w n)

theorem leBytes_swapBytes (w n : ℕ) : leBytes w (swapBytes w n) = beBytes w n := by
  have h := leBytes_leNat (beBytes w n)
  rwa [length_beBytes] at h

theorem swapBytes_leNat (l : List UInt8) : swapBytes l.length (leNat l) = beNat l := by
  rw [swapBytes, beBytes, leBytes_leNat, beNat]

/-! ## Words -/

/-- The four bytes of a word in the memory of the host. -/
def mem32 (x : UInt32) : List UInt8 := leBytes 4 x.toNat

/-- The eight bytes of a word in the memory of the host. -/
def mem64 (x : UInt64) : List UInt8 := leBytes 8 x.toNat

/-- The word with the given bytes in memory. -/
def load32 (l : List UInt8) : UInt32 := UInt32.ofNat (leNat l)

/-- The word with the given bytes in memory. -/
def load64 (l : List UInt8) : UInt64 := UInt64.ofNat (leNat l)

/-- `htobe32` of a little-endian host. -/
def htobe32 (x : UInt32) : UInt32 := UInt32.ofNat (swapBytes 4 x.toNat)

/-- `htobe64` of a little-endian host. -/
def htobe64 (x : UInt64) : UInt64 := UInt64.ofNat (swapBytes 8 x.toNat)

/-- `be32toh` of a little-endian host. -/
def be32toh (x : UInt32) : UInt32 := UInt32.ofNat (swapBytes 4 x.toNat)

/-- `be64toh` of a little-endian host. -/
def be64toh (x : UInt64) : UInt64 := UInt64.ofNat (swapBytes 8 x.toNat)

/-- The four bytes of a word in the network order. -/
def net32 (x : UInt32) : List UInt8 := beBytes 4 x.toNat

/-- The eight bytes of a word in the network order. -/
def net64 (x : UInt64) : List UInt8 := beBytes 8 x.toNat

/-- The word with the given bytes in the network order. -/
def read32 (l : List UInt8) : UInt32 := UInt32.ofNat (beNat l)

/-- The word with the given bytes in the network order. -/
def read64 (l : List UInt8) : UInt64 := UInt64.ofNat (beNat l)

@[simp] theorem length_mem32 (x : UInt32) : (mem32 x).length = 4 := length_leBytes 4 _
@[simp] theorem length_mem64 (x : UInt64) : (mem64 x).length = 8 := length_leBytes 8 _
@[simp] theorem length_net32 (x : UInt32) : (net32 x).length = 4 := length_beBytes 4 _
@[simp] theorem length_net64 (x : UInt64) : (net64 x).length = 8 := length_beBytes 8 _

@[simp] theorem mem32_htobe32 (x : UInt32) : mem32 (htobe32 x) = net32 x := by
  have bound : swapBytes 4 x.toNat < 2 ^ 32 := swapBytes_lt 4 x.toNat
  rw [mem32, htobe32, UInt32.toNat_ofNat_of_lt' bound, leBytes_swapBytes, net32]

@[simp] theorem mem64_htobe64 (x : UInt64) : mem64 (htobe64 x) = net64 x := by
  have bound : swapBytes 8 x.toNat < 2 ^ 64 := swapBytes_lt 8 x.toNat
  rw [mem64, htobe64, UInt64.toNat_ofNat_of_lt' bound, leBytes_swapBytes, net64]

theorem be32toh_load32 {l : List UInt8} (length : l.length = 4) :
    be32toh (load32 l) = read32 l := by
  have bound : leNat l < 2 ^ 32 := by simpa [length] using leNat_lt l
  have swap := swapBytes_leNat l
  rw [length] at swap
  rw [be32toh, load32, UInt32.toNat_ofNat_of_lt' bound, swap, read32]

theorem be64toh_load64 {l : List UInt8} (length : l.length = 8) :
    be64toh (load64 l) = read64 l := by
  have bound : leNat l < 2 ^ 64 := by simpa [length] using leNat_lt l
  have swap := swapBytes_leNat l
  rw [length] at swap
  rw [be64toh, load64, UInt64.toNat_ofNat_of_lt' bound, swap, read64]

theorem be32toh_htobe32 (x : UInt32) : be32toh (htobe32 x) = x := by
  have loaded : load32 (mem32 (htobe32 x)) = htobe32 x := by
    apply UInt32.toNat_inj.mp
    have bound : leNat (mem32 (htobe32 x)) < 2 ^ 32 := by
      simpa using leNat_lt (mem32 (htobe32 x))
    rw [load32, UInt32.toNat_ofNat_of_lt' bound, mem32, leNat_leBytes]
    exact Nat.mod_eq_of_lt (htobe32 x).toNat_lt
  rw [← loaded, be32toh_load32 (length_mem32 _), mem32_htobe32, read32, net32, beNat_beBytes]
  simp

@[simp] theorem read32_net32 (x : UInt32) : read32 (net32 x) = x := by
  rw [read32, net32, beNat_beBytes]
  simp

@[simp] theorem read64_net64 (x : UInt64) : read64 (net64 x) = x := by
  rw [read64, net64, beNat_beBytes]
  simp

theorem net32_read32 {l : List UInt8} (length : l.length = 4) : net32 (read32 l) = l := by
  have bound : beNat l < 2 ^ 32 := by simpa [length] using beNat_lt l
  have h := beBytes_beNat l
  rw [length] at h
  rw [net32, read32, UInt32.toNat_ofNat_of_lt' bound, h]

theorem net64_read64 {l : List UInt8} (length : l.length = 8) : net64 (read64 l) = l := by
  have bound : beNat l < 2 ^ 64 := by simpa [length] using beNat_lt l
  have h := beBytes_beNat l
  rw [length] at h
  rw [net64, read64, UInt64.toNat_ofNat_of_lt' bound, h]

end ByteOrder
