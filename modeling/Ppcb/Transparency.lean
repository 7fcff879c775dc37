import Ppcb.ClientSpec
import Ppcb.MyVecSpec

/-!
# What arrives of the input

The input is copied four times on its way into the packets: a piece into the vector, the
vector into a bigger one, the vector into the send buffer, and the send buffer into the
packet. Each copy is a `strncpy` and loses what stands behind a zero byte. Besides, the
vector doubles only once for a piece, which is not always enough for a piece that is larger
than the vector.

The packets carry the input exactly when no piece passes the end of the vector and every
copy has its zeros last (`transparent_sending`).
-/

set_option autoImplicit false

namespace Ppcb

open ByteOrder CString

/-! ## Reading the input -/

/-- No byte is lost from here on, when `done` has been read and the vector has this capacity:
the vector grows while the bytes in it have their zeros last, every piece fits and has its
zeros last, and in the end so has every block that goes into a packet. -/
def Transparent (capacity : ℕ) (done : List UInt8) : List (List UInt8) → Prop
  | [] => ∀ i, ZerosLast (block done sendBuffSize i)
  | piece :: pieces =>
      (capacity ≤ done.length + piece.length → ZerosLast done) ∧
        done.length + piece.length ≤ grownCapacity capacity (done.length + piece.length) ∧
        ZerosLast piece ∧
        Transparent (grownCapacity capacity (done.length + piece.length)) (done ++ piece) pieces

/-- Growing and adding a piece loses nothing exactly when nothing was lost before and the
copies are faithful. -/
theorem grownContent_append_iff {capacity : ℕ} {done content piece : List UInt8}
    (erodes : Erodes done content) :
    grownContent capacity (done.length + piece.length) content ++ strncpy piece piece.length =
        done ++ piece ↔
      content = done ∧ (capacity ≤ done.length + piece.length → ZerosLast done) ∧
        ZerosLast piece := by
  have length := erodes.length_eq
  constructor
  · intro same
    obtain ⟨before, last⟩ := List.append_inj same (by rw [length_grownContent, length])
    have faithful := (strncpy_eq_iff piece).mp last
    rw [grownContent] at before
    split at before
    · obtain ⟨kept, zeros⟩ := erodes.strncpy_eq_iff.mp before
      exact ⟨kept, fun _ => zeros, faithful⟩
    · rename_i fits
      exact ⟨before, fun grows => absurd grows fits, faithful⟩
  · rintro ⟨rfl, zeros, last⟩
    rw [(strncpy_eq_iff piece).mpr last, grownContent]
    split
    · rename_i grows
      rw [(strncpy_eq_iff content).mpr (zeros grows)]
    · rfl

/-- The payloads of the packets that a loop builds, in the order of their ids, are the
input: packet `i` is built exactly while `more i`, and `chunk i` is its payload. -/
def Carries (more : ℕ → Prop) (chunk : ℕ → List UInt8) (input : List UInt8) : Prop :=
  ∃ k, (∀ i, more i ↔ i < k) ∧ ((List.range k).map chunk).flatten = input

theorem Carries.congr {more more' : ℕ → Prop} {chunk chunk' : ℕ → List UInt8}
    (continues : ∀ i, more i ↔ more' i) (same : ∀ i, more' i → chunk i = chunk' i)
    (input : List UInt8) : Carries more chunk input ↔ Carries more' chunk' input := by
  have packets (k : ℕ) (counts : ∀ i, more' i ↔ i < k) :
      (List.range k).map chunk = (List.range k).map chunk' := by
    apply List.map_congr_left
    intro i member
    exact same i ((counts i).mpr (List.mem_range.mp member))
  constructor
  · rintro ⟨k, counts, whole⟩
    have counts' := fun i => (continues i).symm.trans (counts i)
    exact ⟨k, counts', packets k counts' ▸ whole⟩
  · rintro ⟨k, counts, whole⟩
    exact ⟨k, fun i => (continues i).trans (counts i), packets k counts ▸ whole⟩

/-- Packets that are copies of the blocks of the content. -/
def BlocksCarry (content : List UInt8) : List UInt8 → Prop :=
  Carries (fun i => sendBuffSize * i < content.length)
    (fun i => strncpy (block content sendBuffSize i) (block content sendBuffSize i).length)

/-- What was copied block by block is the original exactly when nothing was lost before and
every block has its zeros last. -/
theorem blocksCarry_iff {done content : List UInt8} (erodes : Erodes done content) :
    BlocksCarry content done ↔ content = done ∧ ∀ i, ZerosLast (block done sendBuffSize i) := by
  constructor
  · rintro ⟨k, counts, same⟩
    have covers : content.length ≤ sendBuffSize * k :=
      Nat.not_lt.mp fun more => Nat.lt_irrefl k ((counts k).mp more)
    have copied : copyBlocks content sendBuffSize k = done := same
    have lost := erodes_copyBlocks content sendBuffSize k
    rw [List.take_of_length_le covers, copied] at lost
    have kept := lost.antisymm erodes
    subst kept
    refine ⟨rfl, fun i => ?_⟩
    by_cases below : i < k
    · refine (copyBlocks_eq_iff content sendBuffSize k).mp ?_ i below
      rw [copied, List.take_of_length_le covers]
    · have behind := Nat.not_lt.mp (mt (counts i).mp below)
      rw [block, List.drop_of_length_le behind, List.take_nil]
      trivial
  · rintro ⟨rfl, last⟩
    have counts (i : ℕ) : sendBuffSize * i < content.length ↔
        i < (content.length + 63999) / 64000 := by
      simp only [sendBuffSize]
      omega
    refine ⟨(content.length + 63999) / 64000, counts, ?_⟩
    refine ((copyBlocks_eq_iff content sendBuffSize _).mpr fun i _ => last i).trans ?_
    apply List.take_of_length_le
    exact Nat.not_lt.mp fun more => Nat.lt_irrefl _ ((counts _).mp more)

/-- **Reading to the end.** If what goes out of a full vector is its content, copied block by
block, then the whole input goes out exactly when no byte was lost yet and none is from here
on. -/
theorem myVecReadStdin_transparent {Sends : MyVec → List UInt8 → Prop}
    (sends : ∀ vec capacity content input, vec.Holds capacity content →
      content.length < 2 ^ 32 → (Sends vec input ↔ BlocksCarry content input))
    {pieces : List (List UInt8)} {vec : MyVec} {capacity : ℕ} {done content : List UInt8}
    (holds : vec.Holds capacity content) (erodes : Erodes done content)
    (bounded : capacity < 2 ^ 33) (small : done.length + pieces.flatten.length < 2 ^ 32) :
    (∃ full, myVecReadStdin vec pieces = some full ∧ Sends full (done ++ pieces.flatten)) ↔
      content = done ∧ Transparent capacity done pieces := by
  induction pieces generalizing vec capacity done content with
  | nil =>
      have length := erodes.length_eq
      simp only [myVecReadStdin, Option.some.injEq, exists_eq_left', List.flatten_nil,
        List.append_nil, Transparent]
      rw [sends vec capacity content done holds (by omega)]
      exact blocksCarry_iff erodes
  | cons piece pieces ih =>
      have length := erodes.length_eq
      rw [List.flatten_cons, List.length_append] at small
      have push := pushBackStrToVec_holds holds piece (by omega) (fun _ => by omega)
      rw [← length] at push
      rw [myVecReadStdin, Transparent, List.flatten_cons, ← List.append_assoc]
      split at push
      · rename_i fits
        obtain ⟨filled, success, holds'⟩ := push
        have copied := erodes_strncpy (le_refl piece.length)
        rw [List.take_length] at copied
        have erodes' := (erodes_grownContent capacity (done.length + piece.length) erodes).append
          copied
        have bounded' : grownCapacity capacity (done.length + piece.length) < 2 ^ 33 := by
          rw [grownCapacity]
          split <;> omega
        have small' : (done ++ piece).length + pieces.flatten.length < 2 ^ 32 := by
          rw [List.length_append]
          omega
        rw [success, Option.bind_some, ih holds' erodes' bounded' small',
          grownContent_append_iff erodes]
        tauto
      · rename_i tooLong
        rw [push]
        constructor
        · rintro ⟨full, ⟨⟩, -⟩
        · rintro ⟨-, -, fits, -⟩
          exact absurd fits tooLong

/-! ## The packets of a full vector -/

section Packets

variable {args : ClientArgs} {capacity : ℕ} {content : List UInt8}

theorem size32_of_holds (holds : args.vec.Holds capacity content)
    (small : content.length < 2 ^ 32) : size32 args = content.length := by
  rw [size32_eq (by rwa [holds.occupied]), holds.occupied]

/-- The payload built at the right position is a copy of a block of the content. -/
theorem packetPayload_block (holds : args.vec.Holds capacity content) {i : ℕ}
    {startCpyPos : UInt64} {bytesLeft : UInt32}
    (start : startCpyPos.toNat = sendBuffSize * i)
    (left : bytesLeft.toNat = content.length - sendBuffSize * i) :
    packetPayload args.vec startCpyPos bytesLeft =
      strncpy (block content sendBuffSize i) (block content sendBuffSize i).length := by
  have size : (packetSize bytesLeft).toNat = (block content sendBuffSize i).length := by
    rw [toNat_packetSize, left, length_block, Nat.min_comm]
  have same : block content sendBuffSize i =
      (args.vec.buff.drop (sendBuffSize * i)).take (block content sendBuffSize i).length := by
    rw [length_block, ← List.take_take, ← List.drop_take, holds.content, block]
  rw [packetPayload, size, start, ← strncpy_take, ← same]

theorem UDPSend.startCpyPos_atPacket (i : ℕ) (within : sendBuffSize * i < size32 args) :
    (UDPSend.atPacket args i).startCpyPos.toNat = sendBuffSize * i := by
  induction i with
  | zero => rfl
  | succ i ih =>
      have small := size32_lt args
      have left := UDPSend.bytesLeft_atPacket args i
      simp only [sendBuffSize] at within left ih
      have long : ¬ (UDPSend.atPacket args i).bytesLeft < sendBuffSize32 := by
        have limit : sendBuffSize32.toNat = 64000 := rfl
        rw [UInt32.lt_iff_toNat_lt, left, limit]
        omega
      have shift : sendBuffSize32.toUInt64.toNat = 64000 := rfl
      rw [UDPSend.atPacket_succ, UDPSend.moved]
      simp only
      rw [if_neg long, UInt64.toNat_add, ih (by omega), shift]
      simp only [sendBuffSize]
      omega

variable (args) in
theorem udprCarries_iff (holds : args.vec.Holds capacity content)
    (small : content.length < 2 ^ 32) (input : List UInt8) :
    Carries (UDPRSend.HasMore args) (udprChunk args) input ↔ BlocksCarry content input := by
  have size := size32_of_holds holds small
  refine Carries.congr (fun i => ?_) (fun i within => ?_) input
  · rw [UDPRSend.hasMore_iff, size, holds.occupied]
    omega
  · rw [udprChunk_eq]
    refine packetPayload_block holds ?_ ?_
    · rw [UDPRSend.startCpyPos_atPacket, size]
      omega
    · rw [UDPRSend.bytesLeft_atPacket, size]

variable (args) in
theorem udpCarries_iff (holds : args.vec.Holds capacity content)
    (small : content.length < 2 ^ 32) (input : List UInt8) :
    Carries (UDPSend.HasMore args) (udpChunk args) input ↔ BlocksCarry content input := by
  have size := size32_of_holds holds small
  refine Carries.congr (fun i => ?_) (fun i within => ?_) input
  · rw [UDPSend.hasMore_iff, size, holds.occupied]
    omega
  · rw [udpChunk_eq]
    refine packetPayload_block holds ?_ ?_
    · exact UDPSend.startCpyPos_atPacket i (by rwa [size])
    · rw [UDPSend.bytesLeft_atPacket, size]

end Packets

/-! ## From the input to the packets -/

section Sending

variable (serverAddress : SockAddr) (sessionId : UInt64) {pieces : List (List UInt8)}
  (small : pieces.flatten.length < 2 ^ 32)

/-- The input is read, and the packets of the client with retransmission carry it. -/
def UDPRSend.SendsInput (pieces : List (List UInt8)) : Prop :=
  ∃ vec, myVecReadStdin myVecInit pieces = some vec ∧
    Carries (UDPRSend.HasMore ⟨serverAddress, vec, sessionId⟩)
      (udprChunk ⟨serverAddress, vec, sessionId⟩) pieces.flatten

/-- The input is read, and the packets of the client without retransmission carry it. -/
def UDPSend.SendsInput (pieces : List (List UInt8)) : Prop :=
  ∃ vec, myVecReadStdin myVecInit pieces = some vec ∧
    Carries (UDPSend.HasMore ⟨serverAddress, vec, sessionId⟩)
      (udpChunk ⟨serverAddress, vec, sessionId⟩) pieces.flatten

include small

theorem UDPRSend.sendsInput_iff :
    UDPRSend.SendsInput serverAddress sessionId pieces ↔
      Transparent initVecSize.toNat [] pieces := by
  have read := myVecReadStdin_transparent
    (fun vec capacity content input holds small =>
      udprCarries_iff ⟨serverAddress, vec, sessionId⟩ holds small input)
    myVecInit_holds (Erodes.refl []) (by decide) (by simpa using small)
  simpa [SendsInput] using read

theorem UDPSend.sendsInput_iff :
    UDPSend.SendsInput serverAddress sessionId pieces ↔
      Transparent initVecSize.toNat [] pieces := by
  have read := myVecReadStdin_transparent
    (fun vec capacity content input holds small =>
      udpCarries_iff ⟨serverAddress, vec, sessionId⟩ holds small input)
    myVecInit_holds (Erodes.refl []) (by decide) (by simpa using small)
  simpa [SendsInput] using read

end Sending

/-- **The packets of either client carry the input exactly when no copy on the way meets a
byte behind a zero and no piece passes the end of the vector.** -/
theorem transparent_sending (serverAddress : SockAddr) (sessionId : UInt64)
    {pieces : List (List UInt8)} (small : pieces.flatten.length < 2 ^ 32) :
    (UDPRSend.SendsInput serverAddress sessionId pieces ↔
        Transparent initVecSize.toNat [] pieces) ∧
      (UDPSend.SendsInput serverAddress sessionId pieces ↔
        Transparent initVecSize.toNat [] pieces) :=
  ⟨UDPRSend.sendsInput_iff serverAddress sessionId small,
    UDPSend.sendsInput_iff serverAddress sessionId small⟩

/-- Text in one small piece. -/
theorem transparent_sending_text :
    UDPRSend.SendsInput ⟨1, 1⟩ 7 [[65, 66, 67]] ∧ UDPSend.SendsInput ⟨1, 1⟩ 7 [[65, 66, 67]] := by
  have transparent : Transparent initVecSize.toNat [] [[65, 66, 67]] := by
    refine ⟨fun _ => trivial, by decide, by decide, fun i => ?_⟩
    apply zerosLast_of_ne_zero
    intro b member
    have member : b ∈ [65, 66, 67] := List.mem_of_mem_drop (List.mem_of_mem_take member)
    rintro rfl
    revert member
    decide
  have small : ([[65, 66, 67]] : List (List UInt8)).flatten.length < 2 ^ 32 := by decide
  have sends := transparent_sending ⟨1, 1⟩ 7 small
  exact ⟨sends.1.mpr transparent, sends.2.mpr transparent⟩

/-- A byte behind a zero is lost. -/
theorem zero_byte_lost :
    ¬ ∀ serverAddress sessionId (pieces : List (List UInt8)),
      (∀ piece ∈ pieces, 1 ≤ piece.length ∧ piece.length ≤ inputBuffSize) →
        pieces.flatten.length < 2 ^ 32 →
          UDPRSend.SendsInput serverAddress sessionId pieces ∧
            UDPSend.SendsInput serverAddress sessionId pieces := by
  intro sends
  have sent := (sends ⟨1, 1⟩ 7 [[65, 0, 66]] (by decide) (by decide)).1
  obtain ⟨-, -, last, -⟩ := (UDPRSend.sendsInput_iff ⟨1, 1⟩ 7 (by decide)).mp sent
  revert last
  decide

end Ppcb
