import Ppcb.ClientUDP

/-!
# The packets the sending loops build

The two UDP clients build their packets in the same way: the packet takes the bytes left,
at most `SEND_BUFF_SIZE` of them, from the current position. `build` always succeeds
(`UDPRSend.build_eq`, `UDPSend.build_eq`), and what goes to `sendto` is the header followed by
the payload (`dataBytes`).

`atPacket i` are the local variables when packet number `i` is built. The counters have
closed forms: `bytes_left` is what `64000 * i` leaves of the size modulo `2 ^ 32`
(`UDPRSend.bytesLeft_atPacket`). `chunk i` is the payload of packet `i`, and the first
`k` chunks together are the smaller of that size and `64000 * k` bytes long
(`length_chunks`).
-/

set_option autoImplicit false

namespace Ppcb

open ByteOrder CString

/-! ## One packet -/

/-- How many bytes the next packet carries. -/
def packetSize (bytesLeft : UInt32) : UInt32 :=
  if bytesLeft < sendBuffSize32 then bytesLeft else sendBuffSize32

theorem toNat_packetSize (bytesLeft : UInt32) :
    (packetSize bytesLeft).toNat = min bytesLeft.toNat sendBuffSize := by
  have limit : sendBuffSize32.toNat = sendBuffSize := rfl
  simp only [packetSize]
  split
  · rename_i short
    have := UInt32.lt_iff_toNat_lt.mp short
    omega
  · rename_i long
    have := UInt32.le_iff_toNat_le.mp (UInt32.not_lt.mp long)
    omega

theorem packetSize_le (bytesLeft : UInt32) : (packetSize bytesLeft).toNat ≤ sendBuffSize := by
  rw [toNat_packetSize]
  exact Nat.min_le_right _ _

/-- A `DATA` packet on the wire. -/
def dataBytes (sessionId packageId : UInt64) (payload : List UInt8) : List UInt8 :=
  (dataHeader sessionId packageId (UInt32.ofNat payload.length)).store ++ payload

/-- A size that fits is accepted, and the header and the copied bytes are what is sent. -/
theorem initDATA_fits (data : DATA) (sessionId packageId : UInt64) {n : UInt32}
    (bytes : List UInt8) (fits : n.toNat ≤ sendBuffSize) :
    (initDATA data sessionId packageId n bytes).1 = .SUCCESS ∧
      (initDATA data sessionId packageId n bytes).2.sentBytes =
        dataBytes sessionId packageId (strncpy bytes n.toNat) := by
  have accepted : ¬ n.toNat > sendBuffSize := Nat.not_lt.mpr fits
  refine ⟨?_, ?_⟩
  · simp only [initDATA, if_neg accepted]
  · have whole : UInt32.ofNat (strncpy bytes n.toNat).length = n := by simp
    have cut : sizeofDataInfo + n.toNat =
        ((dataHeader sessionId packageId n).store ++ strncpy bytes n.toNat).length := by
      rw [List.length_append, DataInfo.length_store, length_strncpy]
    simp only [initDATA, if_neg accepted, DATA.sentBytes, DATA.store]
    rw [show (dataHeader sessionId packageId n).nbrOfBytesInPacket = htobe32 n from rfl,
      be32toh_htobe32, ← List.append_assoc, cut, List.take_left, dataBytes, whole]

/-- The payload built from the current position. -/
def packetPayload (vec : MyVec) (startCpyPos : UInt64) (bytesLeft : UInt32) : List UInt8 :=
  strncpy (vec.buff.drop startCpyPos.toNat) (packetSize bytesLeft).toNat

@[simp] theorem length_packetPayload (vec : MyVec) (startCpyPos : UInt64)
    (bytesLeft : UInt32) :
    (packetPayload vec startCpyPos bytesLeft).length = (packetSize bytesLeft).toNat :=
  length_strncpy _ _

/-- The two branches of the loops build the same packet, from the size of the packet. -/
theorem initDATA_packet (vec : MyVec) (data : DATA) (sessionId packageId startCpyPos : UInt64)
    (bytesLeft : UInt32) :
    let buff := strncpy (vec.buff.drop startCpyPos.toNat) (packetSize bytesLeft).toNat
    (initDATA data sessionId packageId (packetSize bytesLeft) buff).1 = .SUCCESS ∧
      (initDATA data sessionId packageId (packetSize bytesLeft) buff).2.sentBytes =
        dataBytes sessionId packageId (packetPayload vec startCpyPos bytesLeft) := by
  have built := initDATA_fits data sessionId packageId
    (strncpy (vec.buff.drop startCpyPos.toNat) (packetSize bytesLeft).toNat)
    (packetSize_le bytesLeft)
  rw [strncpy_strncpy] at built
  exact built

namespace UDPRSend

/-- The locals after `shift` has been set for the packet being built. -/
def filled (loc : UDPRSend) : UDPRSend :=
  { loc with shift := (packetSize loc.bytesLeft).toUInt64 }

@[simp] theorem filled_filled (loc : UDPRSend) : loc.filled.filled = loc.filled := rfl
@[simp] theorem filled_currPackageId (loc : UDPRSend) :
    loc.filled.currPackageId = loc.currPackageId := rfl
@[simp] theorem filled_isBeforeFirstAcc (loc : UDPRSend) :
    loc.filled.isBeforeFirstAcc = loc.isBeforeFirstAcc := rfl

@[simp] theorem advance_currPackageId (loc : UDPRSend) :
    loc.advance.currPackageId = loc.currPackageId + 1 := rfl
@[simp] theorem advance_bytesSent (loc : UDPRSend) :
    loc.filled.advance.bytesSent = loc.bytesSent + loc.filled.shift.toUInt32 := rfl
@[simp] theorem advance_bytesLeft (loc : UDPRSend) :
    loc.filled.advance.bytesLeft = loc.bytesLeft - loc.filled.shift.toUInt32 := rfl
@[simp] theorem advance_startCpyPos (loc : UDPRSend) :
    loc.filled.advance.startCpyPos =
      loc.startCpyPos + (packetSize loc.bytesLeft).toUInt64 := rfl

/-- **Building a packet succeeds**, sets `shift`, and sends the header and the payload. -/
theorem build_eq (vec : MyVec) (sessionId : UInt64) (loc : UDPRSend) (data : DATA) :
    ∃ built, loc.build vec sessionId data = (.SUCCESS, loc.filled, built) ∧
      built.sentBytes = dataBytes sessionId loc.currPackageId
        (packetPayload vec loc.startCpyPos loc.bytesLeft) := by
  have packet := initDATA_packet vec data sessionId loc.currPackageId loc.startCpyPos
    loc.bytesLeft
  by_cases short : loc.bytesLeft < sendBuffSize32
  · simp only [packetSize, if_pos short] at packet
    refine ⟨_, ?_, packet.2⟩
    simp only [build, if_pos short, filled, packetSize, packet.1]
  · simp only [packetSize, if_neg short] at packet
    refine ⟨_, ?_, packet.2⟩
    simp only [build, if_neg short, filled, packetSize]
    exact Prod.ext packet.1 rfl

end UDPRSend

namespace UDPSend

/-- The counters after a packet was built. -/
def moved (loc : UDPSend) : UDPSend where
  bytesSent := loc.bytesSent + packetSize loc.bytesLeft
  bytesLeft := loc.bytesLeft - packetSize loc.bytesLeft
  startCpyPos := if loc.bytesLeft < sendBuffSize32 then loc.startCpyPos
    else loc.startCpyPos + sendBuffSize32.toUInt64
  currPackageId := loc.currPackageId + 1

@[simp] theorem moved_currPackageId (loc : UDPSend) :
    loc.moved.currPackageId = loc.currPackageId + 1 := rfl

/-- **Building a packet succeeds**, moves the counters, and sends the header and the
payload. -/
theorem build_eq (vec : MyVec) (sessionId : UInt64) (loc : UDPSend) (data : DATA) :
    ∃ built, loc.build vec sessionId data = (.SUCCESS, loc.moved, built) ∧
      built.sentBytes = dataBytes sessionId loc.currPackageId
        (packetPayload vec loc.startCpyPos loc.bytesLeft) := by
  have packet := initDATA_packet vec data sessionId loc.currPackageId loc.startCpyPos
    loc.bytesLeft
  by_cases short : loc.bytesLeft < sendBuffSize32
  · simp only [packetSize, if_pos short] at packet
    refine ⟨_, ?_, packet.2⟩
    simp only [build, if_pos short, moved, packetSize, packet.1]
  · simp only [packetSize, if_neg short] at packet
    refine ⟨_, ?_, packet.2⟩
    simp only [build, if_neg short, moved, packetSize]
    exact Prod.ext packet.1 rfl

end UDPSend

/-! ## The loop at packet `i` -/

/-- Contents of a `DATA` structure before the first packet; what is sent does not depend
on them. -/
def blankDATA : DATA where
  packageTypeId := 0
  sessionId := 0
  packageId := 0
  nbrOfBytesInPacket := 0
  seqOfBytes := []

/-- The locals of the loop with retransmission when packet `i` is built: after `i`
acknowledged packets. -/
def UDPRSend.atPacket (args : ClientArgs) : ℕ → UDPRSend
  | 0 => .start args.vec
  | i + 1 => ((atPacket args i).build args.vec args.sessionId blankDATA).2.1.advance

/-- The locals of the loop without retransmission when packet `i` is built. -/
def UDPSend.atPacket (args : ClientArgs) : ℕ → UDPSend
  | 0 => .start args.vec
  | i + 1 => ((atPacket args i).build args.vec args.sessionId blankDATA).2.1

/-- The payload the loop with retransmission builds for package id `i`. -/
def udprChunk (args : ClientArgs) (i : ℕ) : List UInt8 :=
  ((UDPRSend.atPacket args i).build args.vec args.sessionId blankDATA).2.2.sentBytes.drop
    sizeofDataInfo

/-- The payload the loop without retransmission builds for package id `i`. -/
def udpChunk (args : ClientArgs) (i : ℕ) : List UInt8 :=
  ((UDPSend.atPacket args i).build args.vec args.sessionId blankDATA).2.2.sentBytes.drop
    sizeofDataInfo

/-- The size of the vector as the 32-bit counters see it. -/
def size32 (args : ClientArgs) : ℕ := args.vec.occupiedSize.toUInt32.toNat

theorem size32_lt (args : ClientArgs) : size32 args < 2 ^ 32 := UInt32.toNat_lt _

theorem size32_le (args : ClientArgs) : size32 args ≤ args.vec.occupiedSize.toNat := by
  rw [size32, UInt64.toNat_toUInt32]
  exact Nat.mod_le _ _

theorem size32_eq {args : ClientArgs} (small : args.vec.occupiedSize.toNat < 2 ^ 32) :
    size32 args = args.vec.occupiedSize.toNat := by
  rw [size32, UInt64.toNat_toUInt32, Nat.mod_eq_of_lt small]

theorem drop_dataBytes (s p : UInt64) (payload : List UInt8) :
    (dataBytes s p payload).drop sizeofDataInfo = payload := by
  rw [dataBytes, List.drop_left' (DataInfo.length_store _)]

theorem sub_packetSize (n : ℕ) (i : ℕ) (bytesLeft : UInt32)
    (left : bytesLeft.toNat = n - sendBuffSize * i) :
    (bytesLeft - packetSize bytesLeft).toNat = n - sendBuffSize * (i + 1) := by
  have size := toNat_packetSize bytesLeft
  have le : packetSize bytesLeft ≤ bytesLeft := by
    rw [UInt32.le_iff_toNat_le, size]
    exact Nat.min_le_left _ _
  rw [UInt32.toNat_sub_of_le _ _ le, size, left]
  simp only [sendBuffSize]
  omega

theorem add_packetSize (n : ℕ) (i : ℕ) (bytesLeft bytesSent : UInt32) (small : n < 2 ^ 32)
    (left : bytesLeft.toNat = n - sendBuffSize * i)
    (sent : bytesSent.toNat = min n (sendBuffSize * i)) :
    (bytesSent + packetSize bytesLeft).toNat = min n (sendBuffSize * (i + 1)) := by
  rw [UInt32.toNat_add, toNat_packetSize, left, sent]
  simp only [sendBuffSize]
  omega

section UDPR

variable (args : ClientArgs)

theorem UDPRSend.atPacket_succ (i : ℕ) :
    UDPRSend.atPacket args (i + 1) = (UDPRSend.atPacket args i).filled.advance := by
  obtain ⟨built, equal, -⟩ := UDPRSend.build_eq args.vec args.sessionId
    (UDPRSend.atPacket args i) blankDATA
  rw [UDPRSend.atPacket, equal]

/-- The shift of a built packet, added to or subtracted from a 32-bit counter. -/
theorem UDPRSend.shift_filled (loc : UDPRSend) :
    loc.filled.shift.toUInt32 = packetSize loc.bytesLeft := by
  simp [UDPRSend.filled]

theorem udprChunk_eq (i : ℕ) :
    udprChunk args i = packetPayload args.vec (UDPRSend.atPacket args i).startCpyPos
      (UDPRSend.atPacket args i).bytesLeft := by
  obtain ⟨built, equal, sent⟩ := UDPRSend.build_eq args.vec args.sessionId
    (UDPRSend.atPacket args i) blankDATA
  rw [udprChunk, equal, sent, drop_dataBytes]

/-- What is sent for packet `i`, whatever the `DATA` structure held before. -/
theorem UDPRSend.build_atPacket (i : ℕ) (data : DATA) :
    ∃ built, (UDPRSend.atPacket args i).build args.vec args.sessionId data =
        (.SUCCESS, (UDPRSend.atPacket args i).filled, built) ∧
      built.sentBytes = dataBytes args.sessionId (UDPRSend.atPacket args i).currPackageId
        (udprChunk args i) := by
  rw [udprChunk_eq]
  exact UDPRSend.build_eq _ _ _ _

theorem UDPRSend.currPackageId_atPacket (i : ℕ) :
    (UDPRSend.atPacket args i).currPackageId = UInt64.ofNat i := by
  induction i with
  | zero => rfl
  | succ i ih =>
      rw [UDPRSend.atPacket_succ, UDPRSend.advance_currPackageId,
        UDPRSend.filled_currPackageId, ih]
      simp

theorem UDPRSend.isBeforeFirstAcc_atPacket (i : ℕ) :
    (UDPRSend.atPacket args i).isBeforeFirstAcc = decide (i = 0) := by
  cases i with
  | zero => rfl
  | succ i =>
      rw [UDPRSend.atPacket_succ]
      rfl

theorem UDPRSend.bytesLeft_atPacket (i : ℕ) :
    (UDPRSend.atPacket args i).bytesLeft.toNat = size32 args - sendBuffSize * i := by
  induction i with
  | zero => rfl
  | succ i ih =>
      rw [UDPRSend.atPacket_succ, UDPRSend.advance_bytesLeft, UDPRSend.shift_filled,
        sub_packetSize _ i _ ih]

theorem UDPRSend.bytesSent_atPacket (i : ℕ) :
    (UDPRSend.atPacket args i).bytesSent.toNat = min (size32 args) (sendBuffSize * i) := by
  induction i with
  | zero => simp [UDPRSend.atPacket, UDPRSend.start]
  | succ i ih =>
      rw [UDPRSend.atPacket_succ, UDPRSend.advance_bytesSent, UDPRSend.shift_filled,
        add_packetSize _ i _ _ (size32_lt args) (UDPRSend.bytesLeft_atPacket args i) ih]

theorem UDPRSend.startCpyPos_atPacket (i : ℕ) :
    (UDPRSend.atPacket args i).startCpyPos.toNat = min (size32 args) (sendBuffSize * i) := by
  induction i with
  | zero => simp [UDPRSend.atPacket, UDPRSend.start]
  | succ i ih =>
      have small := size32_lt args
      have left := UDPRSend.bytesLeft_atPacket args i
      rw [UDPRSend.atPacket_succ, UDPRSend.advance_startCpyPos, UInt64.toNat_add,
        UInt32.toNat_toUInt64, toNat_packetSize, ih, left]
      simp only [sendBuffSize]
      omega

theorem length_udprChunk (i : ℕ) :
    (udprChunk args i).length = min (size32 args - sendBuffSize * i) sendBuffSize := by
  rw [udprChunk_eq, length_packetPayload, toNat_packetSize, UDPRSend.bytesLeft_atPacket]

end UDPR

section UDP

variable (args : ClientArgs)

theorem UDPSend.atPacket_succ (i : ℕ) :
    UDPSend.atPacket args (i + 1) = (UDPSend.atPacket args i).moved := by
  obtain ⟨built, equal, -⟩ := UDPSend.build_eq args.vec args.sessionId
    (UDPSend.atPacket args i) blankDATA
  rw [UDPSend.atPacket, equal]

theorem udpChunk_eq (i : ℕ) :
    udpChunk args i = packetPayload args.vec (UDPSend.atPacket args i).startCpyPos
      (UDPSend.atPacket args i).bytesLeft := by
  obtain ⟨built, equal, sent⟩ := UDPSend.build_eq args.vec args.sessionId
    (UDPSend.atPacket args i) blankDATA
  rw [udpChunk, equal, sent, drop_dataBytes]

/-- What is sent for packet `i`, whatever the `DATA` structure held before. -/
theorem UDPSend.build_atPacket (i : ℕ) (data : DATA) :
    ∃ built, (UDPSend.atPacket args i).build args.vec args.sessionId data =
        (.SUCCESS, UDPSend.atPacket args (i + 1), built) ∧
      built.sentBytes = dataBytes args.sessionId (UDPSend.atPacket args i).currPackageId
        (udpChunk args i) := by
  rw [udpChunk_eq, UDPSend.atPacket_succ]
  exact UDPSend.build_eq _ _ _ _

theorem UDPSend.currPackageId_atPacket (i : ℕ) :
    (UDPSend.atPacket args i).currPackageId = UInt64.ofNat i := by
  induction i with
  | zero => rfl
  | succ i ih =>
      rw [UDPSend.atPacket_succ, UDPSend.moved_currPackageId, ih]
      simp

theorem UDPSend.bytesLeft_atPacket (i : ℕ) :
    (UDPSend.atPacket args i).bytesLeft.toNat = size32 args - sendBuffSize * i := by
  induction i with
  | zero => rfl
  | succ i ih =>
      rw [UDPSend.atPacket_succ]
      exact sub_packetSize _ i _ ih

theorem UDPSend.bytesSent_atPacket (i : ℕ) :
    (UDPSend.atPacket args i).bytesSent.toNat = min (size32 args) (sendBuffSize * i) := by
  induction i with
  | zero => simp [UDPSend.atPacket, UDPSend.start]
  | succ i ih =>
      rw [UDPSend.atPacket_succ]
      exact add_packetSize _ i _ _ (size32_lt args) (UDPSend.bytesLeft_atPacket args i) ih

theorem length_udpChunk (i : ℕ) :
    (udpChunk args i).length = min (size32 args - sendBuffSize * i) sendBuffSize := by
  rw [udpChunk_eq, length_packetPayload, toNat_packetSize, UDPSend.bytesLeft_atPacket]

end UDP

/-! ## The first chunks together -/

/-- Payloads of the sizes the loops choose: the first `k` hold the smaller of the size and
`64000 * k` bytes. -/
theorem length_chunks {size : ℕ} {table : ℕ → List UInt8}
    (sizes : ∀ i, (table i).length = min (size - sendBuffSize * i) sendBuffSize) (k : ℕ) :
    ((List.range k).map table).flatten.length = min size (sendBuffSize * k) := by
  induction k with
  | zero => simp
  | succ k ih =>
      rw [List.range_succ, List.map_append, List.flatten_append, List.length_append, ih]
      simp only [List.map_cons, List.map_nil, List.flatten_cons, List.flatten_nil,
        List.append_nil, sizes k, sendBuffSize]
      omega

/-- A vector of one byte, sent under session 7. -/
def oneByte : ClientArgs where
  serverAddress := ⟨1, 1⟩
  vec := ⟨65 :: List.replicate 16383 0, initVecSize, 1, 1⟩
  sessionId := 7

end Ppcb
