import Ppcb.Lib.Stutter
import Ppcb.SendTermination

/-!
# One sequence of packets

The three sending loops build the same packets, for every size of the vector, also for one that
their counters cannot hold. Two of them move their counters before they send, and on a short
packet leave `start_cpy_pos` where it was; the third moves them after the acknowledgement. The
positions differ only where nothing is left to copy (`udpChunk_eq_udprChunk`).

So the client with retransmission sends, however the server and the network behave, a beginning
of the sequence the other two loops build, each packet once or several times in a row
(`send_loops_agree`).
-/

set_option autoImplicit false

namespace Ppcb

open ByteOrder CString Reactive Stutter

variable {args : ClientArgs}

/-! ## The payloads -/

/-- Nothing left is an empty payload, wherever the position is. -/
theorem packetPayload_nothing (vec : MyVec) (startCpyPos : UInt64) {bytesLeft : UInt32}
    (nothing : bytesLeft.toNat = 0) : packetPayload vec startCpyPos bytesLeft = [] := by
  apply List.eq_nil_of_length_eq_zero
  rw [length_packetPayload, toNat_packetSize, nothing, Nat.zero_min]

/-- **The loops cut the vector at the same places**, as far as there is something to cut. -/
theorem udpChunk_eq_udprChunk (args : ClientArgs) (i : ℕ) : udpChunk args i = udprChunk args i := by
  have left : (UDPSend.atPacket args i).bytesLeft = (UDPRSend.atPacket args i).bytesLeft := by
    rw [← UInt32.toNat_inj, UDPSend.bytesLeft_atPacket, UDPRSend.bytesLeft_atPacket]
  rw [udpChunk_eq, udprChunk_eq, ← left]
  rcases Nat.lt_or_ge (sendBuffSize * i) (size32 args) with within | beyond
  · have start : (UDPSend.atPacket args i).startCpyPos =
        (UDPRSend.atPacket args i).startCpyPos := by
      rw [← UInt64.toNat_inj, UDPSend.startCpyPos_atPacket i within,
        UDPRSend.startCpyPos_atPacket, Nat.min_eq_right (Nat.le_of_lt within)]
    rw [start]
  · have nothing : (UDPSend.atPacket args i).bytesLeft.toNat = 0 := by
      rw [UDPSend.bytesLeft_atPacket]
      exact Nat.sub_eq_zero_of_le beyond
    rw [packetPayload_nothing _ _ nothing, packetPayload_nothing _ _ nothing]

/-- The loops end at the same packet, if they end. -/
theorem hasMore_udp_iff_udpr (k : ℕ) : UDPSend.HasMore args k ↔ UDPRSend.HasMore args k := by
  have small := size32_le args
  rw [UDPSend.hasMore_iff, UDPRSend.hasMore_iff]
  omega

/-- A loop that builds a packet has built those before it. -/
theorem UDPRSend.HasMore.earlier {k i : ℕ} (more : UDPRSend.HasMore args k) (before : i ≤ k) :
    UDPRSend.HasMore args i := by
  have small := size32_le args
  rw [hasMore_iff] at more ⊢
  simp only [sendBuffSize] at more ⊢
  omega

/-- Packet `i` on the wire. -/
def packetBytes (args : ClientArgs) (i : ℕ) : List UInt8 :=
  dataBytes args.sessionId (UInt64.ofNat i) (udpChunk args i)

/-- Packets that follow each other differ in their ids. -/
theorem packetBytes_succ_ne (i : ℕ) : packetBytes args i ≠ packetBytes args (i + 1) := by
  intro same
  have ids := congrArg packageOf same
  rw [packetBytes, packetBytes, packageOf_dataBytes, packageOf_dataBytes, UInt64.ofNat_add] at ids
  have zero : UInt64.ofNat 1 = 0 := UInt64.add_eq_left.mp ids.symm
  cases zero

/-! ## The loops that move before they send -/

/-- The first `DATA` packets that `TCP_client_send_DATA` builds from here on, if they are
sent. -/
def TCPClient.packets (args : ClientArgs) : ℕ → TCPClient → List DATA
  | 0, _ => []
  | n + 1, s =>
      match s.phase with
      | .writeDATA loc data _ => data :: packets args n (s.dataWritten args loc data (some sizeofDATA))
      | _ => []

/-- The first `DATA` packets that `UDP_client_send_DATA` builds from here on, if they are
sent. -/
def UDPClient.packets (args : ClientArgs) : ℕ → UDPClient → List DATA
  | 0, _ => []
  | n + 1, s =>
      match s.phase with
      | .sendDATA loc data => data :: packets args n (s.sendDATA args loc data)
      | _ => []

/-- The packets with these numbers, as long as there are some. -/
def remaining (args : ClientArgs) : ℕ → ℕ → List (List UInt8)
  | _, 0 => []
  | i, n + 1 =>
      if (UDPSend.atPacket args i).bytesSent.toUInt64 ≠ args.vec.occupiedSize then
        packetBytes args i :: remaining args (i + 1) n
      else []

theorem remaining_more {i : ℕ} (more : UDPSend.HasMore args i) (n : ℕ) :
    remaining args i (n + 1) = packetBytes args i :: remaining args (i + 1) n := if_pos more

theorem remaining_done {i : ℕ} (done : ¬ UDPSend.HasMore args i) (n : ℕ) :
    remaining args i (n + 1) = [] := if_neg done

/-- Where there are enough packets, these are the first of them. -/
theorem remaining_eq_map {i n : ℕ} (more : ∀ j < n, UDPSend.HasMore args (i + j)) :
    remaining args i n = (List.range' i n).map (packetBytes args) := by
  induction n generalizing i with
  | zero => rfl
  | succ n ih =>
      have first : UDPSend.HasMore args i := more 0 (Nat.succ_pos n)
      rw [remaining_more first, List.range'_succ, List.map_cons, ih]
      intro j less
      rw [Nat.add_assoc, Nat.add_comm 1 j]
      exact more (j + 1) (Nat.succ_lt_succ less)

variable (args) in
theorem UDPClient.packets_atPacket (s : UDPClient) (i n : ℕ) (data : DATA) :
    (packets args n (s.sendDATA args (.atPacket args i) data)).map DATA.sentBytes =
      remaining args i n := by
  induction n generalizing s i data with
  | zero => rfl
  | succ n ih =>
      rcases s.sendDATA_cases args i data with ⟨more, built, equal, bytes⟩ | ⟨done, equal⟩
      · rw [remaining_more more, equal]
        simp only [packets, List.map_cons]
        rw [bytes, ih]
        rfl
      · rw [remaining_done done, equal]
        rfl

theorem sentBytes_builtDATA (i : ℕ) (data : DATA) :
    (builtDATA args i data).sentBytes = packetBytes args i := by
  obtain ⟨built, equal, bytes⟩ := UDPSend.build_atPacket args i data
  rw [builtDATA, equal, bytes, UDPSend.currPackageId_atPacket]
  rfl

variable (args) in
theorem TCPClient.packets_atPacket (s : TCPClient) (i n : ℕ) (data : DATA) :
    (packets args n (s.sendDATA args (.atPacket args i) data)).map DATA.sentBytes =
      remaining args i n := by
  induction n generalizing s i data with
  | zero => rfl
  | succ n ih =>
      have sent : sendDataWrapper (some sizeofDATA) = .SUCCESS := by
        rw [sendDataWrapper, tcpClientWritten, if_neg (not_not.mpr rfl)]
      rcases s.sendDATA_cases args i data with ⟨more, equal⟩ | ⟨done, equal⟩
      · rw [remaining_more more, equal]
        simp only [packets, List.map_cons, dataWritten, sent, ne_eq, not_true_eq_false, if_false]
        rw [sentBytes_builtDATA, ih]
      · rw [remaining_done done, equal]
        rfl

/-! ## The loop that sends again -/

/-- What the client with retransmission has to send: its `CONN`, and the packets. -/
def script (args : ClientArgs) : ℕ → List UInt8
  | 0 => (initCONN args.sessionId udprProtocol args.vec.occupiedSize).store
  | i + 1 => packetBytes args i

theorem typeOf_script_zero : typeOf (script args 0) = connId := by
  rw [script, store_initCONN, typeOf_cons]

theorem typeOf_script_succ (i : ℕ) : typeOf (script args (i + 1)) = dataId :=
  typeOf_dataBytes _ _ _

/-- The `CONN` is no packet. -/
theorem script_zero_ne (i : ℕ) : script args 0 ≠ script args (i + 1) := by
  intro same
  have types := congrArg typeOf same
  rw [typeOf_script_zero, typeOf_script_succ] at types
  cases types

theorem script_succ_ne (i : ℕ) : script args i ≠ script args (i + 1) := by
  cases i with
  | zero => exact script_zero_ne 0
  | succ i => exact packetBytes_succ_ne i

/-- The phase of a client that has sent `n` different datagrams and has acknowledgements for
`k` packets. -/
def UDPRPhase.Sent (k n : ℕ) : UDPRPhase → Prop
  | .sendCONN => n = 0 ∨ n = 1
  | .waitCONACC => n = 1
  | .sendDATA _ _ => n = k + 1 ∨ n = k + 2
  | .waitACC _ _ => n = k + 2
  | .waitRCVD => n = k + 1
  | .ended _ => True

/-- What a client with `k` acknowledgements has sent. -/
structure UDPRPhase.Follows (args : ClientArgs) (k : ℕ) (phase : UDPRPhase)
    (out : List Datagram) : Prop where
  here : phase.At args k
  reads : ∃ n, phase.Sent k n ∧ Reads (script args) n (out.map Datagram.bytes) ∧
    ∀ i, i + 1 < n → UDPRSend.HasMore args i

/-- At its test the loop has the packets behind it sent, and perhaps also the one it is at. -/
theorem sent_udprClientSendDATA {k n : ℕ} {loc : UDPRSend} (data : DATA)
    (same : loc.filled = (UDPRSend.atPacket args k).filled)
    (sent : n = k + 1 ∨ n = k + 2 ∧ UDPRSend.HasMore args k) :
    (udprClientSendDATA args loc data).Sent k n := by
  rcases udprClientSendDATA_cases data same with ⟨-, built, phase, -⟩ | ⟨done, phase⟩
  · rw [phase]
    exact sent.imp_right And.left
  · rw [phase]
    exact sent.resolve_right fun again => done again.2

/-- **A transition sends what the client is at, for the first time or again.** -/
theorem UDPRMove.follows {buff : List UInt8} {p p' : UDPRPhase} {m k : ℕ} {out more : List Datagram}
    (move : UDPRMove args buff p p' m more) (follows : p.Follows args k out) :
    p'.Follows args (k + m) (out ++ more) := by
  have here' := move.at follows.here
  obtain ⟨here, n, phase, reads, earlier⟩ := follows
  refine ⟨here', ?_⟩
  rw [List.map_append]
  cases move with
  | stay =>
      rw [List.map_nil, List.append_nil]
      exact ⟨n, phase, reads, earlier⟩
  | fail ret running failure =>
      rw [List.map_nil, List.append_nil]
      exact ⟨n, trivial, reads, earlier⟩
  | connect =>
      refine ⟨1, rfl, ?_, fun i less => absurd less (by omega)⟩
      rcases phase with rfl | rfl
      · exact reads.next
      · exact reads.again
  | connectAgain =>
      rw [List.map_nil, List.append_nil]
      exact ⟨n, .inr phase, reads, earlier⟩
  | connected data conacc =>
      have first : k = 0 := here
      subst first
      rw [List.map_nil, List.append_nil]
      exact ⟨n, sent_udprClientSendDATA data rfl (.inl phase), reads, earlier⟩
  | send loc data =>
      obtain ⟨-, bytes, has⟩ := here
      have entry : data.sentBytes = script args (k + 1) := by
        rw [bytes, ← udpChunk_eq_udprChunk]
        rfl
      rw [List.map_singleton, entry]
      refine ⟨k + 2, rfl, ?_, fun i less => has.earlier (by omega)⟩
      rcases phase with rfl | rfl
      · exact reads.next
      · exact reads.again
  | sendAgain loc data =>
      obtain ⟨rfl, -, has⟩ := here
      rw [List.map_nil, List.append_nil]
      exact ⟨n, sent_udprClientSendDATA data rfl (.inr ⟨phase, has⟩), reads, earlier⟩
  | acknowledged loc data acc =>
      obtain ⟨rfl, -, -⟩ := here
      have same : (UDPRSend.atPacket args k).filled.advance.filled =
          (UDPRSend.atPacket args (k + 1)).filled := by rw [UDPRSend.atPacket_succ]
      rw [List.map_nil, List.append_nil]
      exact ⟨n, sent_udprClientSendDATA data same (.inl phase), reads, earlier⟩
  | confirmed rcvd =>
      rw [List.map_nil, List.append_nil]
      exact ⟨n, trivial, reads, earlier⟩

variable (args) in
/-- **A run sends the beginning of what there is to send**, each datagram once or several times
in a row. -/
theorem UDPRClient.follows_after (errno : Errno) (es : List ClientEvent) :
    ((udprClientHandler args).after (.start errno) es).phase.Follows args
      ((udprClientHandler args).after (.start errno) es).acked
      ((udprClientHandler args).outputs (.start errno) es) := by
  have fresh : (UDPRClient.start errno).phase.Follows args (UDPRClient.start errno).acked [] :=
    ⟨rfl, 0, .inl rfl, .nil, nofun⟩
  refine Machine.history_after (P := fun (s : UDPRClient) out =>
    s.phase.Follows args s.acked out) ?_ fresh es
  intro s out e follows
  obtain ⟨m, acked, move⟩ := s.step_move args e
  rw [acked]
  exact move.follows follows

/-- The `DATA` packets among the datagrams. -/
def dataSent (out : List Datagram) : List (List UInt8) :=
  (out.map Datagram.bytes).filter fun bytes => typeOf bytes = dataId

/-- The packets of a run are the first of the sequence, if packets that follow each other and are
equal count once. -/
theorem UDPRPhase.Follows.packets {k : ℕ} {phase : UDPRPhase} {out : List Datagram}
    (follows : phase.Follows args k out) :
    ∃ n, (dataSent out).destutter (· ≠ ·) = (List.range n).map (packetBytes args) ∧
      ∀ i < n, UDPSend.HasMore args i := by
  obtain ⟨-, n, -, reads, earlier⟩ := follows
  have conn : decide (typeOf (script args 0) = dataId) = false := by
    rw [typeOf_script_zero]
    rfl
  have data (i : ℕ) : decide (typeOf (script args (i + 1)) = dataId) = true := by
    rw [typeOf_script_succ]
    rfl
  refine ⟨n - 1, (reads.filter conn data).collapsed fun i _ => packetBytes_succ_ne i, ?_⟩
  intro i less
  rw [hasMore_udp_iff_udpr]
  exact earlier i (by omega)

/-- **The three sending loops build one sequence of packets.** The first two build it, and the
third sends a beginning of it, if packets that follow each other and are equal count once. -/
theorem send_loops_agree (args : ClientArgs) :
    (∀ (n : ℕ) (s : TCPClient) (t : UDPClient) (data data' : DATA),
      (TCPClient.packets args n (s.sendDATA args (.start args.vec) data)).map DATA.sentBytes =
        (UDPClient.packets args n (t.sendDATA args (.start args.vec) data')).map
          DATA.sentBytes) ∧
    ∀ (errno : Errno) (es : List ClientEvent), ∃ n : ℕ,
      ∀ (t : UDPClient) (data' : DATA),
        (dataSent ((udprClientHandler args).outputs (.start errno) es)).destutter (· ≠ ·) =
          (UDPClient.packets args n (t.sendDATA args (.start args.vec) data')).map
            DATA.sentBytes := by
  refine ⟨fun n s t data data' => ?_, fun errno es => ?_⟩
  · have tcp := s.packets_atPacket args 0 n data
    have udp := t.packets_atPacket args 0 n data'
    exact tcp.trans udp.symm
  · obtain ⟨n, collapsed, more⟩ := (UDPRClient.follows_after args errno es).packets
    refine ⟨n, fun t data' => ?_⟩
    have udp := t.packets_atPacket args 0 n data'
    rw [remaining_eq_map fun j less => ?_] at udp
    · rw [collapsed, List.range_eq_range']
      exact udp.symm
    · rw [Nat.zero_add]
      exact more j less

end Ppcb
