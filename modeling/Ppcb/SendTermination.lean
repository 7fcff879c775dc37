import Ppcb.ReceiversAgree
import Ppcb.LosslessRun
import Ppcb.Transparency

/-!
# What the sending loops send

The payloads that belong to an announced size are described without the loops
(`Declared`). Each of the three loops sends them, numbered from 0, and ends, when its 32-bit
counters can hold the size. Otherwise `bytes_sent` never comes to the size, and the loop goes
on with empty packets for ever (`send_loops_terminate_iff`).
-/

set_option autoImplicit false

namespace Ppcb

open ByteOrder CString Reactive

/-! ## The payloads that were announced -/

/-- The payloads for the size of the vector, which is what `CONN` announces. -/
structure Declared (vec : MyVec) (payloads : List (List UInt8)) : Prop where
  count : payloads.length = packetCount vec.occupiedSize.toNat
  sizes : ∀ p ∈ payloads, 1 ≤ p.length ∧ p.length ≤ sendBuffSize
  full : ∀ i (more : i + 1 < payloads.length), payloads[i].length = sendBuffSize
  taken : ∀ i (within : i < payloads.length),
    payloads[i] = strncpy (vec.buff.drop (sendBuffSize * i)) payloads[i].length
  total : payloads.flatten.length = vec.occupiedSize.toNat

/-- The `DATA` packets with these payloads, numbered from 0. -/
def numbered (sessionId : UInt64) (payloads : List (List UInt8)) : List (List UInt8) :=
  payloads.mapIdx fun i p => dataBytes sessionId (UInt64.ofNat i) p

theorem numbered_map (sessionId : UInt64) (table : ℕ → List UInt8) (k : ℕ) :
    numbered sessionId ((List.range k).map table) =
      (List.range k).map fun i => dataBytes sessionId (UInt64.ofNat i) (table i) := by
  refine List.ext_getElem ?_ ?_
  · rw [numbered, List.length_mapIdx, List.length_map, List.length_map]
  · intro i within within'
    simp only [numbered, List.getElem_mapIdx, List.getElem_map, List.getElem_range]

/-- A table of payloads that are cut off the vector at multiples of the block size. -/
theorem declared_map {vec : MyVec} {table : ℕ → List UInt8}
    (sizes : ∀ i, (table i).length =
      min (vec.occupiedSize.toNat - sendBuffSize * i) sendBuffSize)
    (taken : ∀ i < packetCount vec.occupiedSize.toNat,
      table i = strncpy (vec.buff.drop (sendBuffSize * i)) (table i).length) :
    Declared vec ((List.range (packetCount vec.occupiedSize.toNat)).map table) := by
  have length : ((List.range (packetCount vec.occupiedSize.toNat)).map table).length =
      packetCount vec.occupiedSize.toNat := by rw [List.length_map, List.length_range]
  refine ⟨length, ?_, ?_, ?_, ?_⟩
  · intro p member
    obtain ⟨i, within, rfl⟩ := List.mem_map.mp member
    have more := lt_packetCount_iff.mp (List.mem_range.mp within)
    rw [sizes]
    simp only [sendBuffSize] at more ⊢
    omega
  · intro i more
    rw [length] at more
    have beyond := lt_packetCount_iff.mp more
    rw [List.getElem_map, List.getElem_range, sizes]
    simp only [sendBuffSize] at beyond ⊢
    omega
  · intro i within
    rw [length] at within
    rw [List.getElem_map, List.getElem_range]
    exact taken i within
  · rw [length_chunks sizes]
    exact Nat.min_eq_left (le_packetCount _)

section Loops

variable {args : ClientArgs}

/-- With a size that the counters cannot hold there is always another packet. -/
theorem size32_lt_size (large : 2 ^ 32 ≤ args.vec.occupiedSize.toNat) :
    size32 args < args.vec.occupiedSize.toNat :=
  lt_of_lt_of_le (size32_lt args) large

theorem UDPSend.hasMore_large (large : 2 ^ 32 ≤ args.vec.occupiedSize.toNat) (k : ℕ) :
    UDPSend.HasMore args k := by
  have less := size32_lt_size large
  rw [hasMore_iff]
  omega

theorem UDPRSend.hasMore_large (large : 2 ^ 32 ≤ args.vec.occupiedSize.toNat) (k : ℕ) :
    UDPRSend.HasMore args k := by
  have less := size32_lt_size large
  rw [hasMore_iff]
  omega

theorem UDPRSend.hasMore_iff_lt (small : args.vec.occupiedSize.toNat < 2 ^ 32) (k : ℕ) :
    UDPRSend.HasMore args k ↔ k < packetCount args.vec.occupiedSize.toNat := by
  rw [hasMore_iff, size32_eq small, lt_packetCount_iff]
  omega

/-- The payloads of the loop with retransmission. -/
def udprChunks (args : ClientArgs) : List (List UInt8) :=
  (List.range (packetCount args.vec.occupiedSize.toNat)).map (udprChunk args)

theorem declared_udpChunks (small : args.vec.occupiedSize.toNat < 2 ^ 32) :
    Declared args.vec (udpChunks args) := by
  refine declared_map (length_udpChunk_small small) ?_
  intro i within
  have start : (UDPSend.atPacket args i).startCpyPos.toNat = sendBuffSize * i :=
    UDPSend.startCpyPos_atPacket i (by rw [size32_eq small]; exact lt_packetCount_iff.mp within)
  rw [udpChunk_eq, length_packetPayload, packetPayload, start]

theorem declared_udprChunks (small : args.vec.occupiedSize.toNat < 2 ^ 32) :
    Declared args.vec (udprChunks args) := by
  refine declared_map ?_ ?_
  · intro i
    rw [length_udprChunk, size32_eq small]
  · intro i within
    have start : (UDPRSend.atPacket args i).startCpyPos.toNat = sendBuffSize * i := by
      have more := lt_packetCount_iff.mp within
      rw [UDPRSend.startCpyPos_atPacket, size32_eq small]
      exact Nat.min_eq_right (Nat.le_of_lt more)
    rw [udprChunk_eq, length_packetPayload, packetPayload, start]

end Loops

/-! ## Without retransmission -/

namespace UDPClient

variable {args : ClientArgs}

/-- **Sends that succeed** take the loop from packet `i` to packet `i + k`. -/
theorem sends (s : UDPClient) {i k : ℕ} (more : ∀ j < i + k, UDPSend.HasMore args j)
    (data : DATA) : ∃ s' data',
      (udpClientHandler args).after (s.sendDATA args (.atPacket args i) data)
          (List.replicate k (.sendto .sent)) =
        sendDATA args s' (.atPacket args (i + k)) data' ∧
      (udpClientHandler args).outputs (s.sendDATA args (.atPacket args i) data)
          (List.replicate k (.sendto .sent)) =
        (List.range' i k).map fun j =>
          ⟨args.serverAddress, dataBytes args.sessionId (UInt64.ofNat j) (udpChunk args j)⟩ := by
  induction k generalizing s i data with
  | zero => exact ⟨s, data, rfl, rfl⟩
  | succ k ih =>
      rcases s.sendDATA_cases args i data with ⟨-, built, equal, bytes⟩ | ⟨done, -⟩
      swap
      · exact absurd (more i (by omega)) done
      have next : (udpClientHandler args).next (s.sendDATA args (.atPacket args i) data)
          (.sendto .sent) =
            sendDATA args
              { s with phase := .sendDATA (.atPacket args (i + 1)) built, built := s.built + 1 }
              (.atPacket args (i + 1)) built := by
        rw [equal]
        rfl
      have sent : (udpClientHandler args).emit (s.sendDATA args (.atPacket args i) data)
          (.sendto .sent) = [⟨args.serverAddress,
            dataBytes args.sessionId (UInt64.ofNat i) (udpChunk args i)⟩] := by
        rw [equal, ← bytes]
        rfl
      have shift : i + (k + 1) = i + 1 + k := by omega
      rw [shift] at more ⊢
      obtain ⟨s', data', after, outputs⟩ := ih _ more built
      refine ⟨s', data', ?_, ?_⟩
      · rw [List.replicate_succ, Machine.after_cons, next, after]
      · rw [List.replicate_succ, Machine.outputs_cons, next, outputs, sent, List.range'_succ]
        rfl

/-- The loop sends the payloads that were announced and ends, when every `sendto` succeeds. -/
def SendsDeclared (args : ClientArgs) (s : UDPClient) (data : DATA) : Prop :=
  ∃ payloads, Declared args.vec payloads ∧
    ((udpClientHandler args).after (s.sendDATA args (.start args.vec) data)
      (List.replicate payloads.length (.sendto .sent))).phase = .waitRCVD ∧
    (udpClientHandler args).outputs (s.sendDATA args (.start args.vec) data)
        (List.replicate payloads.length (.sendto .sent)) =
      (numbered args.sessionId payloads).map (Datagram.mk args.serverAddress)

theorem sendsDeclared_small (small : args.vec.occupiedSize.toNat < 2 ^ 32) (s : UDPClient)
    (data : DATA) : s.SendsDeclared args data := by
  have declared := declared_udpChunks small
  refine ⟨udpChunks args, declared, ?_⟩
  rw [declared.count]
  have more : ∀ j < 0 + packetCount args.vec.occupiedSize.toNat, UDPSend.HasMore args j := by
    intro j below
    rw [Nat.zero_add] at below
    exact (UDPSend.hasMore_iff_lt small j).mpr below
  obtain ⟨s', data', after, outputs⟩ := s.sends more data
  rw [Nat.zero_add] at after
  have start : UDPSend.atPacket args 0 = .start args.vec := rfl
  rw [start] at after outputs
  refine ⟨?_, ?_⟩
  · rw [after]
    rcases s'.sendDATA_cases args (packetCount args.vec.occupiedSize.toNat) data' with
      ⟨more', -⟩ | ⟨-, equal⟩
    · exact absurd ((UDPSend.hasMore_iff_lt small _).mp more') (Nat.lt_irrefl _)
    · rw [equal]
  · rw [outputs, udpChunks, numbered_map, List.map_map, List.range_eq_range']
    rfl

theorem not_sendsDeclared_large (large : 2 ^ 32 ≤ args.vec.occupiedSize.toNat) (s : UDPClient)
    (data : DATA) : ¬ s.SendsDeclared args data := by
  rintro ⟨payloads, -, ended, -⟩
  have more : ∀ j < 0 + payloads.length, UDPSend.HasMore args j :=
    fun j _ => UDPSend.hasMore_large large j
  obtain ⟨s', data', after, -⟩ := s.sends more data
  have start : UDPSend.atPacket args 0 = .start args.vec := rfl
  rw [start] at after
  rw [after] at ended
  rcases s'.sendDATA_cases args (0 + payloads.length) data' with ⟨-, _, equal, -⟩ | ⟨done, -⟩
  · rw [equal] at ended
    cases ended
  · exact done (UDPSend.hasMore_large large _)

end UDPClient

/-! ## With retransmission -/

namespace UDPRClient

variable {args : ClientArgs}

/-- The calls of `k` passes from packet `i` on whose packets are acknowledged. -/
def acknowledgedPasses (args : ClientArgs) (server : SockAddr) (uninit : ℕ → ClientUninit)
    (i k : ℕ) : List ClientEvent :=
  (List.range' i k).flatMap fun j =>
    [.sendto .sent,
      .recvfrom (.datagram server (initACC args.sessionId (UInt64.ofNat j)).store) (uninit j)]

theorem acknowledgedPasses_succ (server : SockAddr) (uninit : ℕ → ClientUninit) (i k : ℕ) :
    acknowledgedPasses args server uninit i (k + 1) =
      .sendto .sent ::
        .recvfrom (.datagram server (initACC args.sessionId (UInt64.ofNat i)).store) (uninit i) ::
          acknowledgedPasses args server uninit (i + 1) k := by
  rw [acknowledgedPasses, List.range'_succ]
  rfl

/-- **Packets that are acknowledged** take the loop from packet `i` to packet `i + k`. -/
theorem sends {server : SockAddr} (port : server.sinPort = args.serverAddress.sinPort)
    (uninit : ℕ → ClientUninit) {i k : ℕ} (more : ∀ j < i + k, UDPRSend.HasMore args j)
    {w : WaitState} (knows : w.Knows server) (nbr acked : ℕ) {loc : UDPRSend}
    (same : loc.filled = (UDPRSend.atPacket args i).filled) (data : DATA) :
    ∃ w' acked' loc' data', loc'.filled = (UDPRSend.atPacket args (i + k)).filled ∧
      (udprClientHandler args).after ⟨w, nbr, udprClientSendDATA args loc data, acked⟩
          (acknowledgedPasses args server uninit i k) =
        ⟨w', nbr, udprClientSendDATA args loc' data', acked'⟩ ∧
      (udprClientHandler args).outputs ⟨w, nbr, udprClientSendDATA args loc data, acked⟩
          (acknowledgedPasses args server uninit i k) =
        (List.range' i k).map fun j =>
          ⟨args.serverAddress, dataBytes args.sessionId (UInt64.ofNat j) (udprChunk args j)⟩ := by
  induction k generalizing i w acked loc data with
  | zero => exact ⟨w, acked, loc, data, same, rfl, rfl⟩
  | succ k ih =>
      rcases udprClientSendDATA_cases data same with ⟨-, built, equal, bytes⟩ | ⟨done, -⟩
      swap
      · exact absurd (more i (by omega)) done
      have next : (udprClientHandler args).next
          ⟨w, nbr, udprClientSendDATA args loc data, acked⟩ (.sendto .sent) =
            ⟨w, nbr, .waitACC (UDPRSend.atPacket args i).filled built, acked⟩ := by
        rw [equal]
        rfl
      have sent : (udprClientHandler args).emit
          ⟨w, nbr, udprClientSendDATA args loc data, acked⟩ (.sendto .sent) =
            [⟨args.serverAddress,
              dataBytes args.sessionId (UInt64.ofNat i) (udprChunk args i)⟩] := by
        rw [equal, ← bytes]
        rfl
      have acknowledged := onRecvfrom_acc port knows nbr acked
        (UDPRSend.atPacket args i).filled built (uninit i)
      rw [UDPRSend.filled_currPackageId, UDPRSend.currPackageId_atPacket] at acknowledged
      have shift : i + (k + 1) = i + 1 + k := by omega
      rw [shift] at more ⊢
      have knows' : (w.learn server).Knows server := .inr (WaitState.learn_server knows)
      have same' : (UDPRSend.atPacket args i).filled.advance.filled =
          (UDPRSend.atPacket args (i + 1)).filled := by rw [UDPRSend.atPacket_succ]
      obtain ⟨w', acked', loc', data', there, after, outputs⟩ :=
        ih more knows' (acked + 1) same' built
      refine ⟨w', acked', loc', data', there, ?_, ?_⟩
      · rw [acknowledgedPasses_succ, Machine.after_cons, next, Machine.after_cons, next_recvfrom,
          acknowledged, after]
      · rw [acknowledgedPasses_succ, Machine.outputs_cons, sent, next, Machine.outputs_cons,
          emit_recvfrom, next_recvfrom, acknowledged, outputs, List.range'_succ]
        rfl

/-- The loop sends the payloads that were announced and ends, when every `sendto` succeeds and
every packet is acknowledged by the server. -/
def SendsDeclared (args : ClientArgs) (s : UDPRClient) (data : DATA) : Prop :=
  ∃ payloads, Declared args.vec payloads ∧
    ∀ server : SockAddr, server.sinPort = args.serverAddress.sinPort → s.wait.Knows server →
      ∀ uninit : ℕ → ClientUninit,
        let entry := { s with phase := udprClientSendDATA args (.start args.vec) data }
        let passes := acknowledgedPasses args server uninit 0 payloads.length
        ((udprClientHandler args).after entry passes).phase = .waitRCVD ∧
        (udprClientHandler args).outputs entry passes =
          (numbered args.sessionId payloads).map (Datagram.mk args.serverAddress)

theorem sendsDeclared_small (small : args.vec.occupiedSize.toNat < 2 ^ 32) (s : UDPRClient)
    (data : DATA) : s.SendsDeclared args data := by
  have declared := declared_udprChunks small
  refine ⟨udprChunks args, declared, ?_⟩
  intro server port knows uninit entry passes
  have more : ∀ j < 0 + packetCount args.vec.occupiedSize.toNat, UDPRSend.HasMore args j := by
    intro j below
    rw [Nat.zero_add] at below
    exact (UDPRSend.hasMore_iff_lt small j).mpr below
  have start : (UDPRSend.start args.vec).filled = (UDPRSend.atPacket args 0).filled := rfl
  obtain ⟨w', acked', loc', data', there, after, outputs⟩ :=
    sends port uninit more knows s.nbrOfRetransmits s.acked start data
  rw [← declared.count] at after outputs
  refine ⟨?_, ?_⟩
  · rw [after]
    rcases udprClientSendDATA_cases data' there with ⟨more', -⟩ | ⟨-, equal⟩
    · rw [Nat.zero_add] at more'
      exact absurd ((UDPRSend.hasMore_iff_lt small _).mp more') (Nat.lt_irrefl _)
    · exact equal
  · rw [outputs, declared.count, udprChunks, numbered_map, List.map_map, List.range_eq_range']
    rfl

theorem not_sendsDeclared_large (large : 2 ^ 32 ≤ args.vec.occupiedSize.toNat) (s : UDPRClient)
    (data : DATA) : ¬ s.SendsDeclared args data := by
  rintro ⟨payloads, -, sends'⟩
  obtain ⟨server, port, knows⟩ : ∃ server : SockAddr,
      server.sinPort = args.serverAddress.sinPort ∧ s.wait.Knows server :=
    ⟨⟨s.wait.realServerSAddr, args.serverAddress.sinPort⟩, rfl, .inr rfl⟩
  obtain ⟨ended, -⟩ := sends' server port knows fun _ => .zero
  have more : ∀ j < 0 + payloads.length, UDPRSend.HasMore args j :=
    fun j _ => UDPRSend.hasMore_large large j
  have start : (UDPRSend.start args.vec).filled = (UDPRSend.atPacket args 0).filled := rfl
  obtain ⟨w', acked', loc', data', there, after, -⟩ :=
    sends port (fun _ => .zero) more knows s.nbrOfRetransmits s.acked start data
  rw [after] at ended
  rcases udprClientSendDATA_cases data' there with ⟨-, _, equal, -⟩ | ⟨done, -⟩
  · rw [equal] at ended
    cases ended
  · exact done (UDPRSend.hasMore_large large _)

end UDPRClient

/-! ## Over TCP -/

namespace TCPClient

variable {args : ClientArgs} {s : TCPClient}

/-- The client at the start of its sending loop, with nothing to read and nothing written. -/
def loopStart (args : ClientArgs) (s : TCPClient) : Fed TCPClient UInt8 where
  state := s.sendDATA args (.start args.vec) s.uninit.data
  unread := []
  written := []

/-- No `read` comes back. -/
def NothingComes (_ _ : TCPClient) : Prop := False

/-- The loop sends the payloads that were announced and ends, however many bytes a `write`
takes. What is sent for a packet is the structure it was built in. -/
def SendsDeclared (args : ClientArgs) (s : TCPClient) : Prop :=
  ∃ payloads, Declared args.vec payloads ∧
    Inevitable (Fed.Step (tcpClientProcess args) NothingComes)
      (fun c => c.state.phase = .readRCVD []) (s.loopStart args) ∧
    ∀ c, Fed.Reachable (tcpClientProcess args) NothingComes (s.loopStart args) c →
      c.state.phase = .readRCVD [] → ∃ packets : List DATA,
        packets.map DATA.sentBytes = numbered args.sessionId payloads ∧
        c.written = (packets.map DATA.store).flatten

theorem sentBytes_builtPackets (i k : ℕ) (data : DATA) :
    (builtPackets args i k data).map DATA.sentBytes =
      (List.range' i k).map fun j =>
        dataBytes args.sessionId (UInt64.ofNat j) (udpChunk args j) := by
  induction k generalizing i data with
  | zero => rfl
  | succ k ih =>
      obtain ⟨built, equal, sent⟩ := UDPSend.build_atPacket args i data
      rw [UDPSend.currPackageId_atPacket] at sent
      rw [builtPackets, List.map_cons, ih, List.range'_succ, List.map_cons, builtDATA, equal, sent]

/-- The start of the loop promises the packets. -/
theorem sends_loopStart (small : args.vec.occupiedSize.toNat < 2 ^ 32) (s : TCPClient) :
    Sends args s.uninit (s.loopStart args).state
      (dataStream args 0 (packetCount args.vec.occupiedSize.toNat) s.uninit.data)
      ((s.loopStart args).unread ++ (initRCVD args.sessionId).store) :=
  ⟨heads_sendDATA small (Nat.zero_le _) s.uninit.whole, uninit_sendDATA args s _ _⟩

/-- A client that waits with nothing to read has sent its packets. -/
theorem settled_readRCVD {c : Fed TCPClient UInt8} {puts : List UInt8}
    (heads : Heads args c.state puts (c.unread ++ (initRCVD args.sessionId).store))
    (settled : c.Settled (tcpClientProcess args)) : c.state.phase = .readRCVD [] := by
  have some : (initRCVD args.sessionId).store ≠ [] := (fits_initSession rcvdId _).2
  rcases settled with closed | ⟨⟨n, blocked⟩, empty⟩
  · rcases call_closed closed with phase | ⟨ret, phase⟩
    · simp only [Heads, phase] at heads
    · simp only [Heads, phase] at heads
      exact absurd (List.append_eq_nil_iff.mp heads.2.2).2 some
  · rw [empty, List.nil_append] at heads
    rcases call_read blocked with ⟨got, phase, -⟩ | ⟨got, phase, -⟩
    · simp only [Heads, phase] at heads
      obtain ⟨short, -, input⟩ := heads
      rw [List.append_cancel_right input, SessionPacket.length_store] at short
      exact absurd short (Nat.lt_irrefl _)
    · simp only [Heads, phase] at heads
      rw [phase, List.append_left_eq_self.mp heads.2.2]

theorem sendsDeclared_small (small : args.vec.occupiedSize.toNat < 2 ^ 32) (s : TCPClient) :
    s.SendsDeclared args := by
  have promises := tcpClient_sends small s.uninit
  have start := sends_loopStart small s
  refine ⟨udpChunks args, declared_udpChunks small, ?_, ?_⟩
  · exact Fed.settles promises (fun _ _ impossible => impossible.elim)
      (fun c puts sends settled => .inl (settled_readRCVD sends.1 settled)) start
  · intro c run waits
    obtain ⟨later, written, ⟨heads, -⟩⟩ :=
      Fed.promised promises (fun _ _ impossible => impossible.elim) start run
    simp only [Heads, waits] at heads
    obtain ⟨-, rfl, -⟩ := heads
    refine ⟨builtPackets args 0 (packetCount args.vec.occupiedSize.toNat) s.uninit.data, ?_, ?_⟩
    · rw [sentBytes_builtPackets, udpChunks, numbered_map, List.range_eq_range']
    · have nothing : (s.loopStart args).written = [] := rfl
      rw [nothing, List.nil_append, List.append_nil] at written
      rw [← written, dataStream]

/-- The client is sending a packet. -/
def Sending (args : ClientArgs) (c : Fed TCPClient UInt8) : Prop :=
  ∃ k data left, c.state.phase = .writeDATA (.atPacket args k) data left

theorem sending_sendDATA (large : 2 ^ 32 ≤ args.vec.occupiedSize.toNat) (k : ℕ) (data : DATA) :
    ∃ k' data' left, (s.sendDATA args (.atPacket args k) data).phase =
      .writeDATA (.atPacket args k') data' left := by
  rcases sendDATA_cases args (s := s) k data with ⟨-, equal⟩ | ⟨done, -⟩
  · exact ⟨k + 1, _, _, by rw [equal]⟩
  · exact absurd (UDPSend.hasMore_large large k) done

theorem sending_onWrite (large : 2 ^ 32 ≤ args.vec.occupiedSize.toNat) {i k : ℕ} {data : DATA}
    {left : List UInt8} (phase : s.phase = .writeDATA (.atPacket args i) data left)
    (positive : 0 < k) : ∃ i' data' left', (s.onWrite args (.wrote k)).phase =
      .writeDATA (.atPacket args i') data' left' := by
  have moved : ¬ k = 0 := Nat.pos_iff_ne_zero.mp positive
  have sent : sendDataWrapper (some sizeofDATA) = .SUCCESS := by decide
  simp only [onWrite, phase, writenPass, if_neg moved, writenLoop]
  by_cases more : 0 < (left.drop k).length
  · simp only [if_pos more]
    exact ⟨i, data, _, rfl⟩
  · simp only [if_neg more, dataWritten, sent, ne_eq, not_true_eq_false, if_false]
    exact sending_sendDATA large i data

/-- **With a size that the counters cannot hold, the client goes on sending.** -/
theorem sending_next (large : 2 ^ 32 ≤ args.vec.occupiedSize.toNat) {c c' : Fed TCPClient UInt8}
    (sending : Sending args c) (step : Fed.Step (tcpClientProcess args) NothingComes c c') :
    Sending args c' := by
  obtain ⟨i, data, left, phase⟩ := sending
  cases step with
  | ended blocked impossible => exact impossible.elim
  | @move state _ _ _ _ _ move =>
      have writes : (tcpClientProcess args).call state = .write left := by
        show state.call = _
        rw [TCPClient.call, phase]
      cases move with
      | reads blocked =>
          rw [writes] at blocked
          cases blocked
      | @writes _ bytes k blocked positive fits =>
          rw [writes] at blocked
          cases blocked
          have answers : (Write.wrote k).Answers state.call := Write.answers_wrote writes fits
          show ∃ i' data' left', ((tcpClientHandler args).next state (.write (.wrote k))).phase = _
          rw [next_write answers]
          exact sending_onWrite large phase positive

theorem not_sendsDeclared_large (large : 2 ^ 32 ≤ args.vec.occupiedSize.toNat) (s : TCPClient) :
    ¬ s.SendsDeclared args := by
  rintro ⟨payloads, -, ends, -⟩
  obtain ⟨c, run, waits⟩ := ends.reaches
  have start : Sending args (s.loopStart args) := sending_sendDATA large 0 s.uninit.data
  obtain ⟨i, data, left, phase⟩ := invariant_run (fun _ _ sending step => sending_next large sending step) run start
  rw [phase] at waits
  cases waits

end TCPClient

/-! ## The three loops -/

/-- **The loops send what was announced and end**, exactly when the size is below `2 ^ 32`. -/
theorem send_loops_terminate_iff (args : ClientArgs) (udp : UDPClient) (udpr : UDPRClient)
    (tcp : TCPClient) (data : DATA) :
    (udp.SendsDeclared args data ↔ args.vec.occupiedSize.toNat < 2 ^ 32) ∧
      (udpr.SendsDeclared args data ↔ args.vec.occupiedSize.toNat < 2 ^ 32) ∧
      (tcp.SendsDeclared args ↔ args.vec.occupiedSize.toNat < 2 ^ 32) := by
  rcases Nat.lt_or_ge args.vec.occupiedSize.toNat (2 ^ 32) with small | large
  · exact ⟨iff_of_true (udp.sendsDeclared_small small data) small,
      iff_of_true (udpr.sendsDeclared_small small data) small,
      iff_of_true (tcp.sendsDeclared_small small) small⟩
  · have beyond := Nat.not_lt.mpr large
    exact ⟨iff_of_false (udp.not_sendsDeclared_large large data) beyond,
      iff_of_false (udpr.not_sendsDeclared_large large data) beyond,
      iff_of_false (tcp.not_sendsDeclared_large large) beyond⟩

/-- An input of 4 GiB. -/
def fourGiB : ClientArgs where
  serverAddress := ⟨1, 1⟩
  vec := ⟨List.replicate (2 ^ 33) 65, 8589934592, 4294967296, 4294967296⟩
  sessionId := 7

/-- Its size is zero for the counters, and the loops do not end. -/
theorem send_loops_do_not_terminate :
    ¬ (UDPClient.start .EAGAIN).SendsDeclared fourGiB blankDATA ∧
      ¬ (UDPRClient.start .EAGAIN).SendsDeclared fourGiB blankDATA ∧
      ¬ (TCPClient.start .zero).SendsDeclared fourGiB := by
  have large : 2 ^ 32 ≤ fourGiB.vec.occupiedSize.toNat := Nat.le_refl _
  exact ⟨UDPClient.not_sendsDeclared_large large _ _,
    UDPRClient.not_sendsDeclared_large large _ _, TCPClient.not_sendsDeclared_large large _⟩

end Ppcb
