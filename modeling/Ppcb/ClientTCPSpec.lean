import Ppcb.ClientTCP
import Ppcb.ClientSpec
import Ppcb.SessionGrammar

/-!
# What the TCP client writes

The client writes its `CONN`, then the `DATA` structures one after the other, whole
(`dataStream`). Every packet but the last is full, so up to the end of the last payload this
is a session in the grammar; behind it stands what is left of the structure
(`dataStream_eq`).

When the client finds `CONACC` and `RCVD` to read it keeps to this, and comes to its last line
(`tcpClient_sends`).
-/

set_option autoImplicit false

namespace Ppcb

open ByteOrder CString Reactive

/-! ## How many packets there are -/

/-- The number of packets for `n` bytes. -/
def packetCount (n : ℕ) : ℕ := (n + (sendBuffSize - 1)) / sendBuffSize

theorem lt_packetCount_iff {n k : ℕ} : k < packetCount n ↔ sendBuffSize * k < n := by
  simp only [packetCount, sendBuffSize]
  omega

theorem le_packetCount (n : ℕ) : n ≤ sendBuffSize * packetCount n := by
  by_contra more
  exact Nat.lt_irrefl _ (lt_packetCount_iff.mpr (Nat.not_le.mp more))

section Chunks

variable {args : ClientArgs}

/-- **The loop ends after the last packet**, when the counters can hold the size. -/
theorem UDPSend.hasMore_iff_lt (small : args.vec.occupiedSize.toNat < 2 ^ 32) (k : ℕ) :
    UDPSend.HasMore args k ↔ k < packetCount args.vec.occupiedSize.toNat := by
  rw [UDPSend.hasMore_iff, size32_eq small, lt_packetCount_iff]
  omega

/-- The payloads the loop builds. -/
def udpChunks (args : ClientArgs) : List (List UInt8) :=
  (List.range (packetCount args.vec.occupiedSize.toNat)).map (udpChunk args)

theorem length_udpChunk_small (small : args.vec.occupiedSize.toNat < 2 ^ 32) (i : ℕ) :
    (udpChunk args i).length =
      min (args.vec.occupiedSize.toNat - sendBuffSize * i) sendBuffSize := by
  rw [length_udpChunk, size32_eq small]

/-- Every packet but the last is full. -/
theorem length_udpChunk_full (small : args.vec.occupiedSize.toNat < 2 ^ 32) {i : ℕ}
    (more : i + 1 < packetCount args.vec.occupiedSize.toNat) :
    (udpChunk args i).length = sendBuffSize := by
  have beyond := lt_packetCount_iff.mp more
  rw [length_udpChunk_small small]
  simp only [sendBuffSize] at beyond ⊢
  omega

/-- **The payloads complete the announced size**, and no shorter number of them does. -/
theorem completes_udpChunks (small : args.vec.occupiedSize.toNat < 2 ^ 32) :
    Completes args.vec.occupiedSize.toNat (udpChunks args) := by
  have first : ∀ k, ((List.range k).map (udpChunk args)).flatten.length =
      min args.vec.occupiedSize.toNat (sendBuffSize * k) :=
    length_chunks (length_udpChunk_small small)
  refine ⟨?_, ?_, ?_⟩
  · intro payload member
    obtain ⟨i, -, rfl⟩ := List.mem_map.mp member
    rw [length_udpChunk_small small]
    exact Nat.min_le_right _ _
  · rw [udpChunks, first]
    exact Nat.min_eq_left (le_packetCount _)
  · intro k below
    rw [udpChunks, List.length_map, List.length_range] at below
    have less := lt_packetCount_iff.mp below
    rw [udpChunks, ← List.map_take, List.take_range, Nat.min_eq_left (Nat.le_of_lt below), first]
    omega

end Chunks

/-! ## One packet in memory -/

/-- What the `DATA` structure holds after a packet was built in it: header, payload, and what
was there before. -/
theorem UDPSend.build_data (vec : MyVec) (sessionId : UInt64) (loc : UDPSend) (data : DATA) :
    (loc.build vec sessionId data).2.2 =
      { toDataInfo := dataHeader sessionId loc.currPackageId (packetSize loc.bytesLeft)
        seqOfBytes := packetPayload vec loc.startCpyPos loc.bytesLeft ++
          data.seqOfBytes.drop (packetSize loc.bytesLeft).toNat } := by
  have fits := Nat.not_lt.mpr (packetSize_le loc.bytesLeft)
  have packet : (initDATA data sessionId loc.currPackageId (packetSize loc.bytesLeft)
      (packetPayload vec loc.startCpyPos loc.bytesLeft)).2 =
        { toDataInfo := dataHeader sessionId loc.currPackageId (packetSize loc.bytesLeft)
          seqOfBytes := packetPayload vec loc.startCpyPos loc.bytesLeft ++
            data.seqOfBytes.drop (packetSize loc.bytesLeft).toNat } := by
    simp only [initDATA, if_neg fits, packetPayload, strncpy_strncpy]
  by_cases short : loc.bytesLeft < sendBuffSize32
  · simp only [packetPayload, packetSize, if_pos short] at packet ⊢
    simp only [build, if_pos short, packet]
  · simp only [packetPayload, packetSize, if_neg short] at packet ⊢
    simp only [build, if_neg short]
    exact packet

section Stream

variable (args : ClientArgs)

/-- Packet `i`, built over what the structure held. -/
def builtDATA (i : ℕ) (data : DATA) : DATA :=
  ((UDPSend.atPacket args i).build args.vec args.sessionId data).2.2

/-- `k` packets from packet `i` on, each built over the one before. -/
def builtPackets : ℕ → ℕ → DATA → List DATA
  | _, 0, _ => []
  | i, k + 1, data => builtDATA args i data :: builtPackets (i + 1) k (builtDATA args i data)

/-- What goes out for them. -/
def dataStream (i k : ℕ) (data : DATA) : List UInt8 :=
  ((builtPackets args i k data).map DATA.store).flatten

variable {args} {data : DATA}

@[simp] theorem dataStream_zero (i : ℕ) : dataStream args i 0 data = [] := rfl

theorem dataStream_succ (i k : ℕ) :
    dataStream args i (k + 1) data =
      (builtDATA args i data).store ++ dataStream args (i + 1) k (builtDATA args i data) := rfl

variable (args) in
/-- A built packet is its bytes on the wire, followed by the rest of the structure. -/
theorem builtDATA_store (i : ℕ) (whole : data.seqOfBytes.length = sendBuffSize) :
    (builtDATA args i data).seqOfBytes.length = sendBuffSize ∧
      ∃ pad, (builtDATA args i data).store =
        dataBytes args.sessionId (UInt64.ofNat i) (udpChunk args i) ++ pad ∧
          (udpChunk args i).length + pad.length = sendBuffSize := by
  have size := packetSize_le (UDPSend.atPacket args i).bytesLeft
  have chunk : (udpChunk args i).length =
      (packetSize (UDPSend.atPacket args i).bytesLeft).toNat := by
    rw [udpChunk_eq, length_packetPayload]
  have rest : (data.seqOfBytes.drop (udpChunk args i).length).length =
      sendBuffSize - (udpChunk args i).length := by
    rw [List.length_drop, whole]
  rw [← chunk] at size
  rw [builtDATA, UDPSend.build_data, UDPSend.currPackageId_atPacket, ← udpChunk_eq, ← chunk]
  refine ⟨?_, data.seqOfBytes.drop (udpChunk args i).length, ?_, ?_⟩
  · rw [List.length_append, rest]
    omega
  · rw [DATA.store, dataBytes, chunk, UInt32.ofNat_toNat, List.append_assoc]
  · rw [rest]
    omega

/-- **Every packet but the last is full**, so the stream is the packets in the grammar and
what is left behind the last one. -/
theorem dataStream_eq (small : args.vec.occupiedSize.toNat < 2 ^ 32) {i k : ℕ}
    (last : i + k = packetCount args.vec.occupiedSize.toNat)
    (whole : data.seqOfBytes.length = sendBuffSize) :
    ∃ pad, dataStream args i k data =
        packetsFrom args.sessionId i ((List.range' i k).map (udpChunk args)) ++ pad ∧
      ((List.range' i k).map (udpChunk args)).flatten.length + pad.length =
        sendBuffSize * k := by
  induction k generalizing i data with
  | zero => exact ⟨[], rfl, rfl⟩
  | succ k ih =>
      obtain ⟨whole', rest, store, size⟩ := builtDATA_store args i whole
      obtain ⟨pad, stream, sizes⟩ := ih (i := i + 1) (by omega) whole'
      rw [dataStream_succ, store, stream, List.range'_succ, List.map_cons, packetsFrom, List.flatten_cons,
        List.length_append]
      cases k with
      | zero =>
          obtain rfl : pad = [] := List.eq_nil_of_length_eq_zero (by simpa using sizes)
          refine ⟨rest, ?_, ?_⟩
          · simp only [List.range'_zero, List.map_nil, packetsFrom, List.append_nil]
          · simpa using size
      | succ k =>
          have full := length_udpChunk_full small (i := i) (by omega)
          obtain rfl : rest = [] := List.eq_nil_of_length_eq_zero (by omega)
          refine ⟨pad, ?_, ?_⟩
          · rw [List.append_nil, List.append_assoc]
          · rw [full]
            simp only [sendBuffSize] at sizes ⊢
            omega

variable (args) in
/-- All that the client writes on a connection. -/
def clientStream (uninit : TCPClientUninit) : List UInt8 :=
  (initCONN args.sessionId tcpProtocol args.vec.occupiedSize).store ++
    dataStream args 0 (packetCount args.vec.occupiedSize.toNat) uninit.data

/-- **The client writes a session in the grammar**, and what is left behind its last payload. -/
theorem clientStream_eq (small : args.vec.occupiedSize.toNat < 2 ^ 32)
    (uninit : TCPClientUninit) :
    ∃ pad, clientStream args uninit =
        sessionBytes args.sessionId args.vec.occupiedSize (udpChunks args) ++ pad ∧
      args.vec.occupiedSize.toNat + pad.length =
        sendBuffSize * packetCount args.vec.occupiedSize.toNat := by
  obtain ⟨pad, stream, sizes⟩ := dataStream_eq small (Nat.zero_add _) uninit.whole
  have chunks : (List.range' 0 (packetCount args.vec.occupiedSize.toNat)).map (udpChunk args) =
      udpChunks args := by
    rw [udpChunks, List.range_eq_range']
  rw [chunks] at stream sizes
  rw [(completes_udpChunks small).complete] at sizes
  refine ⟨pad, ?_, sizes⟩
  rw [clientStream, stream, sessionBytes, List.append_assoc]

/-- What the packets carry does not depend on the memory they are built in. -/
theorem payloads_builtPackets (i k : ℕ) (data : DATA) :
    (builtPackets args i k data).map (fun packet => packet.sentBytes.drop sizeofDataInfo) =
      (List.range' i k).map (udpChunk args) := by
  induction k generalizing i data with
  | zero => rfl
  | succ k ih =>
      obtain ⟨built, equal, sent⟩ := UDPSend.build_atPacket args i data
      rw [builtPackets, List.map_cons, ih, List.range'_succ, List.map_cons, builtDATA, equal, sent,
        drop_dataBytes]

end Stream

/-! ## The functions of the client -/

/-- A session packet that was read whole. -/
theorem ntohSession_load_whole (uninit : SessionPacket) (typeId : UInt8) (sessionId : UInt64) :
    ntohSession (.load (readOver uninit.store (initSession typeId sessionId).store)) =
      ⟨typeId, sessionId⟩ := by
  have whole : (net64 sessionId).take 8 = net64 sessionId :=
    List.take_of_length_le (Nat.le_of_eq (length_net64 _))
  rw [readOver_whole (by rw [SessionPacket.length_store, SessionPacket.length_store]),
    store_initSession]
  show SessionPacket.mk typeId (be64toh (load64 ((net64 sessionId).take 8))) = _
  rw [whole, be64toh_load64 (length_net64 _), read64_net64]

theorem checkSession_own (typeId : UInt8) (sessionId : UInt64) :
    checkSession typeId sessionId ⟨typeId, sessionId⟩ = .SUCCESS := by
  simp only [checkSession, ne_eq, not_true_eq_false, if_false]

namespace TCPClient

variable {args : ClientArgs} {s : TCPClient}

theorem next_read {r : Read} (answers : r.Answers s.call) :
    (tcpClientHandler args).next s (.read r) = s.onRead args r := by
  show (if r.Answers s.call then (s.onRead args r, []) else (s, [])).1 = _
  rw [if_pos answers]

theorem next_write {r : Write} (answers : r.Answers s.call) :
    (tcpClientHandler args).next s (.write r) = s.onWrite args r := by
  show (if r.Answers s.call then (s.onWrite args r, s.writtenBytes r) else (s, [])).1 = _
  rw [if_pos answers]

/-- The `CONACC` of the session starts the sending loop. -/
theorem conaccRead_own :
    s.conaccRead args (some sizeofCONACC) (initCONACC args.sessionId).store =
      s.sendDATA args (.atPacket args 0) s.uninit.data := by
  have length : readnErrorHandler (some sizeofCONACC) sizeofCONACC = .SUCCESS := by decide
  have conacc := ntohSession_load_whole s.uninit.conacc conaccId args.sessionId
  simp only [conaccRead, length, initCONACC, ntohCONACC, conacc, checkCONACC, checkSession_own,
    ne_eq, not_true_eq_false, if_false]
  rfl

/-- The `RCVD` of the session ends the handler at its last line. -/
theorem rcvdRead_own :
    s.rcvdRead args (some sizeofRCVD) (initRCVD args.sessionId).store =
      { s with phase := .ended .SUCCESS } := by
  have length : readnErrorHandler (some sizeofRCVD) sizeofRCVD = .SUCCESS := by decide
  have rcvd := ntohSession_load_whole s.uninit.rcvd rcvdId args.sessionId
  simp only [rcvdRead, length, initRCVD, ntohRCVD, rcvd, checkRCVD, checkSession_own, ne_eq,
    not_true_eq_false, if_false]

variable (args) in
/-- At packet `k` the loop sends it, or is over. -/
theorem sendDATA_cases (k : ℕ) (data : DATA) :
    (UDPSend.HasMore args k ∧ s.sendDATA args (.atPacket args k) data =
        { s with phase := .writeDATA (.atPacket args (k + 1)) (builtDATA args k data)
                   (builtDATA args k data).store }) ∨
      (¬ UDPSend.HasMore args k ∧
        s.sendDATA args (.atPacket args k) data = { s with phase := .readRCVD [] }) := by
  obtain ⟨built, equal, -⟩ := UDPSend.build_atPacket args k data
  by_cases more : UDPSend.HasMore args k
  · refine .inl ⟨more, ?_⟩
    rw [sendDATA, builtDATA, equal]
    exact if_pos more
  · exact .inr ⟨more, if_neg more⟩

/-! ## The promise of the client -/

/-- The client writes `puts` when `takes` is what it reads, and comes to its last line. -/
def Heads (args : ClientArgs) (s : TCPClient) (puts takes : List UInt8) : Prop :=
  let packets := packetCount args.vec.occupiedSize.toNat
  let conacc := (initCONACC args.sessionId).store
  let rcvd := (initRCVD args.sessionId).store
  match s.phase with
  | .connect => False
  | .writeCONN left =>
      left ≠ [] ∧ puts = left ++ dataStream args 0 packets s.uninit.data ∧ takes = conacc ++ rcvd
  | .readCONACC got =>
      got.length < sizeofCONACC ∧ puts = dataStream args 0 packets s.uninit.data ∧
        got ++ takes = conacc ++ rcvd
  | .writeDATA loc data left => ∃ i < packets, loc = .atPacket args (i + 1) ∧ left ≠ [] ∧
      data.seqOfBytes.length = sendBuffSize ∧
      puts = left ++ dataStream args (i + 1) (packets - (i + 1)) data ∧ takes = rcvd
  | .readRCVD got => got.length < sizeofRCVD ∧ puts = [] ∧ got ++ takes = rcvd
  | .ended ret => ret = .SUCCESS ∧ puts = [] ∧ takes = []

/-- The loop keeps the promise. -/
theorem heads_sendDATA (small : args.vec.occupiedSize.toNat < 2 ^ 32) {i : ℕ} {data : DATA}
    (within : i ≤ packetCount args.vec.occupiedSize.toNat)
    (whole : data.seqOfBytes.length = sendBuffSize) :
    Heads args (s.sendDATA args (.atPacket args i) data)
      (dataStream args i (packetCount args.vec.occupiedSize.toNat - i) data)
      (initRCVD args.sessionId).store := by
  rcases sendDATA_cases args (s := s) i data with ⟨more, equal⟩ | ⟨done, equal⟩ <;> rw [equal]
  · have less := (UDPSend.hasMore_iff_lt small i).mp more
    obtain ⟨whole', pad, store, -⟩ := builtDATA_store args i whole
    refine ⟨i, less, rfl, ?_, whole', ?_, rfl⟩
    · rw [store, dataBytes_eq]
      exact List.cons_ne_nil _ _
    · rw [show packetCount args.vec.occupiedSize.toNat - i =
        packetCount args.vec.occupiedSize.toNat - (i + 1) + 1 by omega, dataStream_succ]
  · have last : i = packetCount args.vec.occupiedSize.toNat := by
      have beyond := mt (UDPSend.hasMore_iff_lt small i).mpr done
      omega
    refine ⟨by decide, ?_, rfl⟩
    rw [last, Nat.sub_self, dataStream_zero]

/-! ## Calls keep the promise -/

/-- The phases in which the client is blocked in a `read`. -/
theorem call_read {n : ℕ} (blocked : s.call = .read n) :
    (∃ got, s.phase = .readCONACC got ∧ n = sizeofCONACC - got.length) ∨
      ∃ got, s.phase = .readRCVD got ∧ n = sizeofRCVD - got.length := by
  rw [call] at blocked
  split at blocked
  · cases blocked
  · cases blocked
  · exact .inl ⟨_, ‹_›, (Call.read.inj blocked).symm⟩
  · cases blocked
  · exact .inr ⟨_, ‹_›, (Call.read.inj blocked).symm⟩
  · cases blocked

/-- The phases in which the client is blocked in a `write`. -/
theorem call_write {left : List UInt8} (blocked : s.call = .write left) :
    s.phase = .writeCONN left ∨ ∃ loc data, s.phase = .writeDATA loc data left := by
  rw [call] at blocked
  split at blocked
  · cases blocked
  · cases blocked
    exact .inl ‹_›
  · cases blocked
  · cases blocked
    exact .inr ⟨_, _, ‹_›⟩
  · cases blocked
  · cases blocked

theorem call_closed (closed : s.call = .closed) :
    s.phase = .connect ∨ ∃ ret, s.phase = .ended ret := by
  rw [call] at closed
  split at closed
  · exact .inl ‹_›
  · cases closed
  · cases closed
  · cases closed
  · cases closed
  · exact .inr ⟨_, ‹_›⟩

/-- What has been read of a packet and what has not split where the packet ends. -/
theorem split_packet {got bytes rest packet later : List UInt8}
    (equal : got ++ (bytes ++ rest) = packet ++ later)
    (all : got.length + bytes.length = packet.length) : got ++ bytes = packet ∧ rest = later := by
  rw [← List.append_assoc] at equal
  exact List.append_inj equal (by rw [List.length_append, all])

variable {puts takes : List UInt8} {bytes rest : List UInt8} {n : ℕ}

/-- The client never waits for bytes that do not come. -/
theorem Heads.takes_ne_nil (heads : Heads args s puts takes) (blocked : s.call = .read n) :
    takes ≠ [] := by
  rintro rfl
  rcases call_read blocked with ⟨got, phase, -⟩ | ⟨got, phase, -⟩
  · simp only [Heads, phase, List.append_nil] at heads
    obtain ⟨short, -, rfl⟩ := heads
    rw [List.length_append, SessionPacket.length_store] at short
    omega
  · simp only [Heads, phase, List.append_nil] at heads
    obtain ⟨short, -, rfl⟩ := heads
    rw [SessionPacket.length_store] at short
    exact absurd short (by decide)

/-- **A read keeps the promise.** -/
theorem read_keeps (small : args.vec.occupiedSize.toNat < 2 ^ 32)
    (heads : Heads args s puts takes) (blocked : s.call = .read n) :
    0 < n ∧ ∀ bytes rest, takes = bytes ++ rest → bytes ≠ [] → bytes.length ≤ n →
      Heads args (s.onRead args (.data bytes)) puts rest := by
  rcases call_read blocked with ⟨got, phase, rfl⟩ | ⟨got, phase, rfl⟩
  · simp only [Heads, phase] at heads
    obtain ⟨short, output, input⟩ := heads
    refine ⟨Nat.sub_pos_of_lt short, fun bytes rest split some' fits => ?_⟩
    subst split
    rcases Nat.lt_or_ge (got.length + bytes.length) sizeofCONACC with less | enough
    · simp only [onRead, phase, readnPass_more some' less]
      refine ⟨by rw [List.length_append]; exact less, output, ?_⟩
      rw [List.append_assoc, input]
    · have all : got.length + bytes.length = sizeofCONACC := by omega
      obtain ⟨conacc, rcvd⟩ :=
        split_packet input (all.trans (SessionPacket.length_store _).symm)
      simp only [onRead, phase, readnPass_done some' all, conacc, conaccRead_own, rcvd, output]
      exact heads_sendDATA small (Nat.zero_le _) s.uninit.whole
  · simp only [Heads, phase] at heads
    obtain ⟨short, output, input⟩ := heads
    refine ⟨Nat.sub_pos_of_lt short, fun bytes rest split some' fits => ?_⟩
    subst split
    rcases Nat.lt_or_ge (got.length + bytes.length) sizeofRCVD with less | enough
    · simp only [onRead, phase, readnPass_more some' less]
      refine ⟨by rw [List.length_append]; exact less, output, ?_⟩
      rw [List.append_assoc, input]
    · have all : got.length + bytes.length = sizeofRCVD := by omega
      obtain ⟨rcvd, empty⟩ := split_packet (input.trans (List.append_nil _).symm)
        (all.trans (SessionPacket.length_store _).symm)
      simp only [onRead, phase, readnPass_done some' all, rcvd, rcvdRead_own]
      exact ⟨rfl, output, empty⟩

/-- **A write takes its bytes off what was promised.** -/
theorem write_keeps (small : args.vec.occupiedSize.toNat < 2 ^ 32) {left : List UInt8}
    (heads : Heads args s puts takes) (blocked : s.call = .write left) :
    left ≠ [] ∧ ∃ later, puts = left ++ later ∧ ∀ k, 0 < k → k ≤ left.length →
      Heads args (s.onWrite args (.wrote k)) (left.drop k ++ later) takes := by
  rcases call_write blocked with phase | ⟨loc, data, phase⟩
  · simp only [Heads, phase] at heads
    obtain ⟨some', output, input⟩ := heads
    refine ⟨some', _, output, fun k positive fits => ?_⟩
    rcases Nat.lt_or_eq_of_le fits with less | all
    · simp only [onWrite, phase, writenPass_more positive less]
      exact ⟨drop_ne_nil less, rfl, input⟩
    · have sent : tcpClientSendCONN (some sizeofCONN) = .SUCCESS := by decide
      simp only [onWrite, phase, writenPass_done positive all, connWritten, sent, ne_eq,
        not_true_eq_false, if_false]
      refine ⟨by decide, drop_all_append all _, ?_⟩
      rw [List.nil_append, input]
  · simp only [Heads, phase] at heads
    obtain ⟨i, within, rfl, some', whole, output, input⟩ := heads
    refine ⟨some', _, output, fun k positive fits => ?_⟩
    rcases Nat.lt_or_eq_of_le fits with less | all
    · simp only [onWrite, phase, writenPass_more positive less]
      exact ⟨i, within, rfl, drop_ne_nil less, whole, rfl, input⟩
    · have sent : sendDataWrapper (some sizeofDATA) = .SUCCESS := by decide
      simp only [onWrite, phase, writenPass_done positive all, dataWritten, sent, ne_eq,
        not_true_eq_false, if_false]
      rw [drop_all_append all, input]
      exact heads_sendDATA small within whole

/-! ## The uninitialised memory is given once and for all -/

section Uninit

variable (args) (s)

theorem uninit_sendDATA (loc : TCPSend) (data : DATA) :
    (s.sendDATA args loc data).uninit = s.uninit := by
  rw [sendDATA]
  split
  · split <;> rfl
  · rfl

theorem uninit_onRead (r : Read) : (s.onRead args r).uninit = s.uninit := by
  rw [onRead]
  split
  · split
    · rfl
    · rw [conaccRead]
      split
      · rfl
      · simp only
        split
        · rfl
        · exact uninit_sendDATA args s _ _
  · split
    · rfl
    · rw [rcvdRead]
      split <;> rfl
  · rfl

theorem uninit_onWrite (r : Write) : (s.onWrite args r).uninit = s.uninit := by
  rw [onWrite]
  split
  · split
    · rfl
    · rw [connWritten]
      split <;> rfl
  · split
    · rfl
    · rw [dataWritten]
      split
      · rfl
      · exact uninit_sendDATA args s _ _
  · rfl

end Uninit

/-- The promise of a client with this uninitialised memory. -/
def Sends (args : ClientArgs) (uninit : TCPClientUninit) (s : TCPClient)
    (puts takes : List UInt8) : Prop :=
  Heads args s puts takes ∧ s.uninit = uninit

/-- A client that has connected promises its whole stream. -/
theorem sends_connected (args : ClientArgs) (uninit : TCPClientUninit) :
    Sends args uninit ((tcpClientHandler args).next (.start uninit) (.connect .connected))
      (clientStream args uninit)
      ((initCONACC args.sessionId).store ++ (initRCVD args.sessionId).store) := by
  have connected : (tcpClientHandler args).next (.start uninit) (.connect .connected) =
      { phase := .writeCONN (initCONN args.sessionId tcpProtocol args.vec.occupiedSize).store
        uninit := uninit } := rfl
  rw [connected]
  refine ⟨?_, rfl⟩
  simp only [Heads, clientStream, and_true]
  rw [store_initCONN]
  exact List.cons_ne_nil _ _

end TCPClient

/-- **The client keeps to its stream**, when the size fits its counters. -/
theorem tcpClient_sends {args : ClientArgs} (small : args.vec.occupiedSize.toNat < 2 ^ 32)
    (uninit : TCPClientUninit) :
    (tcpClientProcess args).Promises (TCPClient.Sends args uninit) where
  reads := by
    intro s puts takes n sends blocked
    obtain ⟨heads, memory⟩ := sends
    obtain ⟨positive, kept⟩ := TCPClient.read_keeps small heads blocked
    refine ⟨positive, fun bytes rest split some' fits => ?_⟩
    have answers : (Read.data bytes).Answers s.call := Read.answers_data blocked fits
    show TCPClient.Sends args uninit ((tcpClientHandler args).next s (.read (.data bytes))) _ _
    rw [TCPClient.next_read answers]
    exact ⟨kept bytes rest split some' fits, (TCPClient.uninit_onRead args s _).trans memory⟩
  writes := by
    intro s puts takes left sends blocked
    obtain ⟨heads, memory⟩ := sends
    obtain ⟨some', later, output, kept⟩ := TCPClient.write_keeps small heads blocked
    refine ⟨some', later, output, fun k positive fits => ?_⟩
    have answers : (Write.wrote k).Answers s.call := Write.answers_wrote blocked fits
    show TCPClient.Sends args uninit ((tcpClientHandler args).next s (.write (.wrote k))) _ _
    rw [TCPClient.next_write answers]
    exact ⟨kept k positive fits, (TCPClient.uninit_onWrite args s _).trans memory⟩
  closed := by
    intro s puts takes sends closed
    obtain ⟨heads, -⟩ := sends
    rcases TCPClient.call_closed closed with phase | ⟨ret, phase⟩
    · simp only [TCPClient.Heads, phase] at heads
    · simp only [TCPClient.Heads, phase] at heads
      exact heads.2.1

end Ppcb
