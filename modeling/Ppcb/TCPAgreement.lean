import Ppcb.ConnectionSoundness

/-!
# Agreement on a connection that may break

The TCP client and the TCP server on one connection. What one writes reaches the other in order,
or not at all; any `read` may find the end of the stream or time out before it has what it
waits for, and any `write` may take a part of its bytes or fail.

What the client has written is the beginning of its stream (`tcp_client_discipline`), and what
the server has delivered was read whole behind the `CONN` (`tcp_server_soundness`). Packets can
be read off a stream in one way only (`Begins.prefix_of`), so the server has delivered the
first payloads of the client. It confirms only all of them, and the client ends in success only
when the server has confirmed (`tcp_agreement`).
-/

set_option autoImplicit false

namespace Ppcb

open ByteOrder CString Reactive Relation

/-! ## Packets are read off in one way -/

section Unique

variable {sessionId : UInt64} {total : ℕ}

/-- Parts of equal length at the beginning are equal, and the rest goes on. -/
theorem prefix_split {front back : List UInt8} {rest later : List UInt8}
    (length : front.length = back.length) (part : front ++ rest <+: back ++ later) :
    front = back ∧ rest <+: later := by
  obtain ⟨more, equal⟩ := part
  rw [List.append_assoc] at equal
  obtain ⟨same, rest'⟩ := List.append_inj equal length
  exact ⟨same, more, rest'⟩

theorem begins_cons {payload : List UInt8} {payloads : List (List UInt8)}
    (begins : Begins total (payload :: payloads)) :
    payload.length ≤ maxAllowedPacketSize ∧ Begins (total - payload.length) payloads := by
  have within := begins.within
  rw [List.flatten_cons, List.length_append] at within
  refine ⟨begins.sizes _ List.mem_cons_self, fun p member =>
    begins.sizes p (List.mem_cons_of_mem _ member), by omega, fun k below => ?_⟩
  have less := begins.shorter (k + 1) (Nat.succ_lt_succ below)
  rw [List.take_succ_cons, List.flatten_cons, List.length_append] at less
  omega

/-- Packets with the same id that begin the same bytes are the same. -/
theorem dataBytes_split {packageId : UInt64} {payload chunk rest later : List UInt8}
    (small : payload.length ≤ maxAllowedPacketSize) (small' : chunk.length ≤ maxAllowedPacketSize)
    (part : dataBytes sessionId packageId payload ++ rest <+:
      dataBytes sessionId packageId chunk ++ later) : payload = chunk ∧ rest <+: later := by
  simp only [dataBytes, List.append_assoc] at part
  obtain ⟨header, part⟩ := prefix_split
    (by rw [DataInfo.length_store, DataInfo.length_store]) part
  have sizes := congrArg lengthOf header
  have read : ∀ n, lengthOf (dataHeader sessionId packageId n).store = n := fun n => by
    rw [store_dataHeader]
    simpa using lengthOf_cons dataId sessionId packageId n []
  rw [read, read] at sizes
  have length : payload.length = chunk.length := by
    rw [← toNat_payload small, ← toNat_payload small', sizes]
  exact prefix_split length part

/-- **Packets that begin the packets of a complete session are the first of them.** -/
theorem Begins.prefix_of {payloads chunks : List (List UInt8)} {id : ℕ} {later : List UInt8}
    (begins : Begins total payloads) (completes : Completes total chunks)
    (part : packetsFrom sessionId id payloads <+: packetsFrom sessionId id chunks ++ later) :
    payloads <+: chunks := by
  induction payloads generalizing chunks id total with
  | nil => exact List.nil_prefix
  | cons payload payloads ih =>
      cases chunks with
      | nil =>
          have positive := begins.shorter 0 (Nat.succ_pos _)
          rw [completes_nil_iff.mp completes] at positive
          exact absurd positive (Nat.not_lt_zero _)
      | cons chunk chunks =>
          obtain ⟨-, small', -, completes⟩ := completes_cons_iff.mp completes
          obtain ⟨small, begins⟩ := begins_cons begins
          simp only [packetsFrom, List.append_assoc] at part
          obtain ⟨same, rest⟩ := dataBytes_split small small' part
          subst same
          exact List.cons_prefix_cons.mpr ⟨rfl, ih begins completes rest⟩

/-- A `CONN` says what session it is of. -/
theorem initCONN_inj {session session' total total' : UInt64}
    (equal : (initCONN session tcpProtocol total).store =
      (initCONN session' tcpProtocol total').store) : session = session' ∧ total = total' := by
  rw [store_initCONN, store_initCONN] at equal
  have sessions := congrArg sessionOf equal
  have totals := congrArg totalOf equal
  rw [sessionOf_cons, sessionOf_cons] at sessions
  rw [totalOf_cons, totalOf_cons] at totals
  exact ⟨sessions, totals⟩

end Unique

/-! ## The client's stream -/

section Stream

variable {args : ClientArgs} {uninit : TCPClientUninit}

theorem dataStream_begins (i k n : ℕ) (data : DATA) :
    dataStream args i k data <+: dataStream args i (k + n) data := by
  induction n with
  | zero => exact List.prefix_rfl
  | succ n ih =>
      rw [← Nat.add_assoc, dataStream_snoc]
      exact ih.trans (List.prefix_append _ _)

/-- What the client has written begins its stream. -/
theorem WritesStream.clientStream (small : args.vec.occupiedSize.toNat < 2 ^ 32)
    {written : List UInt8} (stream : TCPClient.WritesStream args uninit written) :
    written <+: clientStream args uninit := by
  obtain ⟨k, earlier, part⟩ := stream
  have within : k ≤ packetCount args.vec.occupiedSize.toNat := by
    by_contra beyond
    have more := earlier _ (Nat.not_le.mp beyond)
    exact Nat.lt_irrefl _ ((UDPSend.hasMore_iff_lt small _).mp more)
  obtain ⟨n, count⟩ := Nat.exists_eq_add_of_le within
  refine part.trans ?_
  rw [streamUpTo, Ppcb.clientStream, count]
  exact List.prefix_append_right_inj _ |>.mpr (dataStream_begins 0 k n uninit.data)

theorem length_packetsFrom (sessionId : UInt64) (id : ℕ) (payloads : List (List UInt8)) :
    (packetsFrom sessionId id payloads).length =
      sizeofDataInfo * payloads.length + payloads.flatten.length := by
  induction payloads generalizing id with
  | nil => rfl
  | cons payload payloads ih =>
      rw [packetsFrom, List.length_append, ih, length_dataBytes, List.flatten_cons,
        List.length_append, List.length_cons]
      simp only [sizeofDataInfo]
      omega

/-- The stream is not long. -/
theorem length_clientStream (small : args.vec.occupiedSize.toNat < 2 ^ 32)
    (uninit : TCPClientUninit) : (clientStream args uninit).length < 2 ^ 63 := by
  obtain ⟨pad, stream, sizes⟩ := clientStream_eq small uninit
  have complete := (completes_udpChunks small).complete
  have count : (udpChunks args).length = packetCount args.vec.occupiedSize.toNat := by
    rw [udpChunks, List.length_map, List.length_range]
  rw [stream, sessionBytes, List.length_append, List.length_append, CONN.length_store,
    length_packetsFrom, complete, count]
  simp only [packetCount, sendBuffSize, sizeofDataInfo, sizeofCONN] at sizes ⊢
  omega

end Stream

/-! ## The client and the server -/

/-- The client and the server at the two ends of a connection. -/
abbrev TCPConnection (args : ClientArgs) (uninit : TCPClientUninit)
    (history : List TCPServerEvent) : Joined TCPClient TCPServer UInt8 UInt8 → Prop :=
  Joined.Reachable (tcpClientHandler args) tcpServerHandler tcpClientPort tcpServerPort
    (.start (.start uninit) (acceptedServer history))

section Agreement

variable {args : ClientArgs} {uninit : TCPClientUninit} {history : List TCPServerEvent}
variable {c : Joined TCPClient TCPServer UInt8 UInt8}

/-- What the server has read begins the client's stream. -/
theorem TCPConnection.arrived (small : args.vec.occupiedSize.toNat < 2 ^ 32)
    (run : TCPConnection args uninit history c) : c.atRight <+: clientStream args uninit :=
  run.inOrder.2.trans (WritesStream.clientStream small (TCPClient.writesStream_run run.leftRun))

/-- What was read behind the `CONN` of the client are the first of its packets. -/
theorem delivered_begins {session total : UInt64} {payloads : List (List UInt8)}
    (small : args.vec.occupiedSize.toNat < 2 ^ 32) (begins : Begins total.toNat payloads)
    (part : sessionBytes session total payloads <+: clientStream args uninit) :
    session = args.sessionId ∧ total = args.vec.occupiedSize ∧ payloads <+: udpChunks args := by
  obtain ⟨pad, stream, -⟩ := clientStream_eq small uninit
  rw [stream, sessionBytes, sessionBytes, List.append_assoc] at part
  obtain ⟨conn, packets⟩ := prefix_split (by rw [CONN.length_store, CONN.length_store]) part
  obtain ⟨rfl, rfl⟩ := initCONN_inj conn
  exact ⟨rfl, rfl, begins.prefix_of (completes_udpChunks small) packets⟩

/-- Complete sessions of which one begins the other are equal. -/
theorem completes_eq {total : ℕ} {payloads chunks : List (List UInt8)}
    (completes : Completes total payloads) (whole : Completes total chunks)
    (part : payloads <+: chunks) : payloads = chunks := by
  obtain ⟨rest, rfl⟩ := part
  cases rest with
  | nil => exact (List.append_nil _).symm
  | cons first rest =>
      have less := whole.shorter payloads.length (by
        rw [List.length_append, List.length_cons]
        omega)
      rw [List.take_left, completes.complete] at less
      exact absurd less (Nat.lt_irrefl _)

/-- `RJT` is not read where `RCVD` was expected. -/
theorem confirmations_not_rejecting {session session' id : UInt64}
    (part : confirmations session <+:
      (initCONACC session').store ++ (initRJT session' id).store) : False := by
  obtain ⟨-, rcvd⟩ := prefix_split
    (by rw [SessionPacket.length_store, SessionPacket.length_store]) part
  rw [initRCVD, initRJT, store_initSession, store_initNumbered] at rcvd
  have types := (List.cons_prefix_cons.mp rcvd).1
  cases types

/-- **The server delivers the first payloads of the client**, and confirms only all of them. -/
theorem TCPServer.Conducts.delivers {s : TCPServer} {read written : List UInt8}
    (small : args.vec.occupiedSize.toNat < 2 ^ 32) (conducts : s.Conducts read written)
    (arrived : read <+: clientStream args uninit) :
    s.delivered <+: udpChunks args ∧
      (s.received = true → s.delivered = udpChunks args ∧
        s.delivered.flatten.length = args.vec.occupiedSize.toNat) := by
  rcases conducts.closed with ⟨received, ⟨completes, rfl⟩, -⟩ | ⟨fresh, partly, -⟩
  · have begins : Begins s.conn.nbrOfBytesToBeSent.toNat s.delivered :=
      ⟨completes.sizes, Nat.le_of_eq completes.complete, completes.shorter⟩
    obtain ⟨-, total, first⟩ := delivered_begins small begins arrived
    rw [total] at completes
    exact ⟨first, fun _ => ⟨completes_eq completes (completes_udpChunks small) first,
      completes.complete⟩⟩
  · refine ⟨?_, fun received => ?_⟩
    · by_cases empty : s.delivered = []
      · rw [empty]
        exact List.nil_prefix
      · obtain ⟨begins, read⟩ := partly empty
        exact (delivered_begins small begins (read.trans arrived)).2.2
    · rw [fresh] at received
      cases received

/-- What the server has read and written on the connection. -/
theorem TCPConnection.conducts (small : args.vec.occupiedSize.toNat < 2 ^ 32)
    (listening : (tcpServerHandler.after .start history).phase = .accept)
    (run : TCPConnection args uninit history c) : c.right.Conducts c.atRight c.fromRight :=
  TCPServer.conducts_run listening run.rightRun
    (Nat.lt_of_le_of_lt (TCPConnection.arrived small run).length_le
      (length_clientStream small uninit))

/-- A client in success has a server that has confirmed. -/
theorem TCPConnection.confirmed (small : args.vec.occupiedSize.toNat < 2 ^ 32)
    (listening : (tcpServerHandler.after .start history).phase = .accept)
    (run : TCPConnection args uninit history c) (success : c.left.phase = .ended .SUCCESS) :
    c.right.received = true := by
  rcases (TCPConnection.conducts small listening run).closed with
    ⟨received, -⟩ | ⟨-, -, id, part⟩
  · exact received
  · -- A server that has not confirmed writes `RJT` where the client would read `RCVD`.
    obtain ⟨read, -⟩ := (TCPClient.keeps_run run.leftRun).succeeded success
    have answered := run.inOrder.1
    rw [read] at answered
    exact (confirmations_not_rejecting (answered.trans part)).elim

/-- **The client and the server agree**, wherever their connection breaks. -/
theorem tcp_agreement (small : args.vec.occupiedSize.toNat < 2 ^ 32)
    (listening : (tcpServerHandler.after .start history).phase = .accept)
    (run : TCPConnection args uninit history c) :
    c.right.delivered <+: udpChunks args ∧
    (c.right.received = true → c.right.delivered = udpChunks args ∧
      c.right.delivered.flatten.length = args.vec.occupiedSize.toNat) ∧
    (c.left.phase = .ended .SUCCESS → c.right.received = true) := by
  obtain ⟨first, all⟩ := (TCPConnection.conducts small listening run).delivers small
    (TCPConnection.arrived small run)
  exact ⟨first, all, TCPConnection.confirmed small listening run⟩

end Agreement

/-! ## Connections that do not break -/

/-- The server takes the calls of its process. -/
def tcpServerCarries : tcpServerPort.Carries tcpServerHandler tcpServerProcess where
  onRead bytes := .read (.data bytes)
  onWrite k := .write (.wrote k)
  reads := by
    intro s n bytes blocked fits
    have answers : (Read.data bytes).Answers s.call := Read.answers_data blocked fits
    have step : tcpServerHandler.step s (.read (.data bytes)) = s.onRead (.data bytes) :=
      if_pos answers
    refine ⟨answers, rfl, rfl, ?_⟩
    rw [Machine.emit, step]
    exact TCPServer.bytes_onRead s _
  writes := by
    intro s left k blocked fits
    have answers : (Write.wrote k).Answers s.call := Write.answers_wrote blocked fits
    have step : tcpServerHandler.step s (.write (.wrote k)) = s.onWrite (.wrote k) :=
      if_pos answers
    refine ⟨answers, rfl, rfl, ?_⟩
    rw [Machine.emit, step]
    exact TCPServer.bytes_onWrite blocked _

/-- **A connection that does not break is a case of one that may.** -/
theorem connection_joined {args : ClientArgs} {uninit : TCPClientUninit}
    {history : List TCPServerEvent} {d : Connected TCPClient TCPServer UInt8}
    (run : ReflTransGen (TransferStep args) (connection args uninit history) d) :
    ∃ atLeft atRight, TCPConnection args uninit history (Joined.reading d atLeft atRight) ∧
      Joined.Divides d atLeft atRight := by
  have connects : Joined.Step (tcpClientHandler args) tcpServerHandler tcpClientPort tcpServerPort
      (.start (.start uninit) (acceptedServer history)) _ :=
    .left _ (TCPClientEvent.connect .connected) rfl List.nil_prefix
  have divides : Joined.Divides (connection args uninit history) [] [] := ⟨rfl, rfl⟩
  obtain ⟨atLeft, atRight, joined, divides'⟩ :=
    Joined.of_connected (tcpClientCarries args) tcpServerCarries divides run
  exact ⟨atLeft, atRight, .head connects joined, divides'⟩

/-- One byte on a connection that does not break. -/
theorem tcp_agreement_oneByte :
    ∃ c, TCPConnection oneByte .zero [] c ∧ c.left.phase = .ended .SUCCESS ∧
      c.right.delivered = udpChunks oneByte ∧ c.right.delivered.flatten.length = 1 := by
  have small : oneByte.vec.occupiedSize.toNat < 2 ^ 32 := by decide
  have listening : (tcpServerHandler.after .start []).phase = .accept := rfl
  have ends : Inevitable (TransferStep oneByte) TransferOver (connection oneByte .zero []) :=
    transfer_over small listening
  obtain ⟨d, run, over'⟩ := ends.reaches
  obtain ⟨success, -⟩ := agreed_over small (transfer_agreed small listening run) over'
  obtain ⟨atLeft, atRight, joined, -⟩ := connection_joined run
  obtain ⟨-, received, confirmed⟩ := tcp_agreement small listening joined
  exact ⟨_, joined, success, received (confirmed success)⟩

end Ppcb
