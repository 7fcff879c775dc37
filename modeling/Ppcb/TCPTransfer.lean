import Ppcb.ClientTCPSpec

/-!
# A transfer over TCP

The client and the server over one connection, each reading what the other writes, in
pieces of any size. Each keeps to its promise as long as the other does, so together they
come to the end of the transfer (`tcp_transfer_completes`).

The client sends whole `DATA` structures, the server reads payloads. So what is left behind
the last payload is never read, and the connection is used up exactly when the size of the
input is a multiple of `SEND_BUFF_SIZE` (`tcp_stream_exact_iff`).
-/

set_option autoImplicit false

namespace Ppcb

open ByteOrder CString Reactive Relation

/-! ## The server waits only for what the client still writes -/

namespace TCPServer

variable {s : TCPServer} {got bytes input : List UInt8}

/-- The server reads on in its `CONN` only where it was reading it. -/
theorem onRead_readCONN {n : ℕ} (blocked : s.call = .read n)
    (phase : (s.onRead (.data bytes)).1.phase = .readCONN got) :
    ∃ before, s.phase = .readCONN before ∧ got = before ++ bytes := by
  rcases call_read blocked with ⟨before, phase', -⟩ | ⟨loc, before, phase', -⟩ |
    ⟨loc, before, phase', -⟩
  · refine ⟨before, phase', ?_⟩
    simp only [onRead, phase'] at phase
    split at phase
    · rename_i got' pass
      obtain ⟨_, equal, longer⟩ := readnPass_blocked pass
      cases equal
      cases phase
      exact longer
    · rcases phase_connRead s _ _ with closed | ⟨left, conacc⟩
      · exact absurd (closed.symm.trans phase) TCPServerPhase.noConfusion
      · exact absurd (conacc.symm.trans phase) TCPServerPhase.noConfusion
  · simp only [onRead, phase'] at phase
    split at phase
    · cases phase
    · exact absurd phase ((serving_dataInfoRead s loc _ _).ne_readCONN got)
  · simp only [onRead, phase'] at phase
    split at phase
    · cases phase
    · exact absurd phase ((serving_dataRead s loc _ _).ne_readCONN got)

theorem onWrite_readCONN {left : List UInt8} (blocked : s.call = .write left) (r : Write) :
    (s.onWrite r).1.phase ≠ .readCONN got := by
  intro phase
  rcases call_write blocked with phase' | phase' | phase'
  · simp only [onWrite, phase'] at phase
    split at phase
    · cases phase
    · rcases phase_conaccWritten s _ with closed | serving
      · exact absurd (closed.symm.trans phase) TCPServerPhase.noConfusion
      · exact absurd phase (serving.ne_readCONN got)
  · simp only [onWrite, phase'] at phase
    split at phase <;> cases phase
  · simp only [onWrite, phase'] at phase
    split at phase <;> cases phase

/-- The server keeps to an outcome, and while it reads its `CONN` the whole stream is there. -/
def Serves (stream : List UInt8) (s : TCPServer) (puts takes : List UInt8) : Prop :=
  Heads (connectionOutcome stream) s puts takes ∧
    ∀ got, s.phase = .readCONN got → got ++ takes = stream

/-- A server that still reads at the end of the input closes the connection, with an `RJT` if
it has read its `CONN`. -/
theorem outcome_starved {n : ℕ} (proper : s.Proper) (blocked : s.call = .read n) :
    (∃ got, s.phase = .readCONN got ∧ s.outcome [] = ⟨[], s.delivered, false, []⟩) ∨
      ∃ id, s.outcome [] = rejectedOutcome s.conn.sessionId id s.delivered [] := by
  rcases call_read blocked with ⟨got, phase, -⟩ | ⟨loc, got, phase, -⟩ | ⟨loc, got, phase, -⟩
  · refine .inl ⟨got, phase, ?_⟩
    rw [outcome_readCONN phase, List.append_nil]
    simp only [Proper, phase] at proper
    rw [if_pos proper.1]
  · refine .inr ⟨loc.currPacketId, ?_⟩
    rw [outcome_readDataInfo phase, List.append_nil]
    simp only [Proper, phase] at proper
    exact restOfPackets_short proper.1
  · refine .inr ⟨loc.currPacketId, ?_⟩
    rw [outcome_readData phase, List.append_nil]
    simp only [Proper, phase] at proper
    rw [restOfPayload, if_pos proper.1]

/-- A server that waits for a packet still has an `RCVD` or an `RJT` to write, and no more. -/
theorem outcome_decided {n : ℕ} (blocked : s.call = .read n) (input : List UInt8) :
    (∃ got, s.phase = .readCONN got) ∨ (s.outcome input).Decided s.conn.sessionId := by
  rcases call_read blocked with ⟨got, phase, -⟩ | ⟨loc, got, phase, -⟩ | ⟨loc, got, phase, -⟩
  · exact .inl ⟨got, phase⟩
  · refine .inr ?_
    rw [outcome_readDataInfo phase]
    exact decided_restOfPackets loc s.delivered _
  · refine .inr ?_
    rw [outcome_readData phase, restOfPayload]
    split
    · exact .inr ⟨rfl, _, rfl⟩
    · exact decided_restOfLoop loc _ _

/-- A server that is to send `RCVD` never waits for bytes that do not come. -/
theorem Serves.takes_ne_nil {stream puts takes : List UInt8} {n : ℕ}
    (serves : Serves stream s puts takes)
    (received : (connectionOutcome stream).received = true) (blocked : s.call = .read n) :
    takes ≠ [] := by
  rintro rfl
  obtain ⟨⟨proper, same⟩, -⟩ := serves
  have rejected : (s.outcome []).received = false := by
    rcases outcome_starved proper blocked with ⟨got, -, outcome⟩ | ⟨id, outcome⟩ <;> rw [outcome]
    rfl
  rw [same, received] at rejected
  cases rejected

end TCPServer

theorem tcpServer_serves (stream : List UInt8) :
    tcpServerProcess.Promises (TCPServer.Serves stream) where
  reads := by
    intro s puts takes n serves blocked
    obtain ⟨heads, whole⟩ := serves
    obtain ⟨positive, kept⟩ := (tcpServer_promises _).reads heads blocked
    refine ⟨positive, fun bytes rest split some' fits => ⟨kept bytes rest split some' fits, ?_⟩⟩
    intro got phase
    have answers : (Read.data bytes).Answers s.call := Read.answers_data blocked fits
    have phase' : (s.onRead (.data bytes)).1.phase = .readCONN got := by
      rw [← TCPServer.next_read answers]
      exact phase
    obtain ⟨before, reading, rfl⟩ := TCPServer.onRead_readCONN blocked phase'
    rw [List.append_assoc, ← split, whole before reading]
  writes := by
    intro s puts takes left serves blocked
    obtain ⟨heads, -⟩ := serves
    obtain ⟨some', later, output, kept⟩ := (tcpServer_promises _).writes heads blocked
    refine ⟨some', later, output, fun k positive fits => ⟨kept k positive fits, ?_⟩⟩
    intro got phase
    have answers : (Write.wrote k).Answers s.call := Write.answers_wrote blocked fits
    have phase' : (s.onWrite (.wrote k)).1.phase = .readCONN got := by
      rw [← TCPServer.next_write answers]
      exact phase
    exact absurd phase' (TCPServer.onWrite_readCONN blocked _)
  closed := fun serves closed => (tcpServer_promises _).closed serves.1 closed

/-- A connection that is accepted after some earlier run is served. -/
theorem accepted_serves {history : List TCPServerEvent}
    (listening : (tcpServerHandler.after .start history).phase = .accept)
    (stream : List UInt8) :
    TCPServer.Serves stream
      (tcpServerHandler.next (tcpServerHandler.after .start history) (.accept .connected))
      (connectionOutcome stream).answer stream := by
  have heads := acceptedConnection_heads stream listening
  rw [List.append_nil] at heads
  refine ⟨heads, ?_⟩
  intro got phase
  have accepted : (tcpServerHandler.next (tcpServerHandler.after .start history)
      (.accept .connected)).phase = .readCONN [] := by
    show (TCPServer.onAccept _ _).phase = _
    simp only [TCPServer.onAccept, listening]
  rw [accepted] at phase
  obtain rfl := TCPServerPhase.readCONN.inj phase
  exact List.nil_append _

/-! ## The connection -/

/-- A client has connected, after some earlier run of the server. -/
def connection (args : ClientArgs) (uninit : TCPClientUninit) (history : List TCPServerEvent) :
    Connected TCPClient TCPServer UInt8 where
  left := (tcpClientHandler args).next (.start uninit) (.connect .connected)
  right := tcpServerHandler.next (tcpServerHandler.after .start history) (.accept .connected)
  fromLeft := []
  fromRight := []
  toRight := []
  toLeft := []

/-- The steps of the client and the server on their connection. -/
abbrev TransferStep (args : ClientArgs) :=
  Connected.Step (tcpClientProcess args) tcpServerProcess

/-- Both have closed the connection. -/
def TransferOver (c : Connected TCPClient TCPServer UInt8) : Prop :=
  c.left.call = .closed ∧ c.right.call = .closed

/-- What the server writes when all goes well. -/
def confirmations (sessionId : UInt64) : List UInt8 :=
  (initCONACC sessionId).store ++ (initRCVD sessionId).store

section Transfer

variable {args : ClientArgs} {uninit : TCPClientUninit} {history : List TCPServerEvent}

variable (uninit) in
/-- The server's outcome on the stream of the client. -/
theorem connectionOutcome_clientStream (small : args.vec.occupiedSize.toNat < 2 ^ 32) :
    ∃ pad, connectionOutcome (clientStream args uninit) =
        ⟨confirmations args.sessionId, udpChunks args, true, pad⟩ ∧
      clientStream args uninit =
        sessionBytes args.sessionId args.vec.occupiedSize (udpChunks args) ++ pad ∧
      args.vec.occupiedSize.toNat + pad.length =
        sendBuffSize * packetCount args.vec.occupiedSize.toNat := by
  obtain ⟨pad, stream, sizes⟩ := clientStream_eq small uninit
  refine ⟨pad, ?_, stream, sizes⟩
  rw [stream, connectionOutcome_session _ _ (completes_udpChunks small)]
  rfl

/-- **They do not wait for each other.** -/
theorem no_deadlock (small : args.vec.occupiedSize.toNat < 2 ^ 32) {s : TCPClient}
    {r : TCPServer} {putsLeft putsRight : List UInt8} {n k : ℕ}
    (sends : TCPClient.Sends args uninit s putsLeft putsRight)
    (serves : TCPServer.Serves (clientStream args uninit) r putsRight putsLeft)
    (reading : (tcpClientProcess args).call s = .read n) :
    tcpServerProcess.call r ≠ .read k := by
  intro blocked
  obtain ⟨pad, outcome, -, -⟩ := connectionOutcome_clientStream uninit small
  have some' := serves.takes_ne_nil (by rw [outcome]) blocked
  obtain ⟨⟨proper, same⟩, whole⟩ := serves
  obtain ⟨heads, rfl⟩ := sends
  rcases TCPClient.call_read reading with ⟨got, phase, -⟩ | ⟨got, phase, -⟩
  · simp only [TCPClient.Heads, phase] at heads
    obtain ⟨short, rfl, input⟩ := heads
    -- The client has written its `CONN` and has not seen the whole `CONACC`. A server that
    -- reads has either not read the whole `CONN`, or has `RCVD` left to write and no more.
    rcases TCPServer.outcome_decided blocked (dataStream args 0
        (packetCount args.vec.occupiedSize.toNat) s.uninit.data) with ⟨header, phase'⟩ | decided
    · have conn := List.append_cancel_right (whole header phase')
      simp only [TCPServer.Proper, phase'] at proper
      rw [conn, CONN.length_store] at proper
      exact absurd proper.1 (Nat.lt_irrefl _)
    · rw [same, outcome] at decided
      rcases decided with ⟨-, answer⟩ | ⟨rejected, -⟩
      · have answer : putsRight = _ := answer
        have length := congrArg List.length input
        rw [answer] at length
        simp only [List.length_append, SessionPacket.length_store] at length
        omega
      · cases rejected
  · simp only [TCPClient.Heads, phase] at heads
    exact some' heads.2.1

variable (uninit) in
/-- At the start each reads what the other will write. -/
theorem connection_agreed (small : args.vec.occupiedSize.toNat < 2 ^ 32)
    (listening : (tcpServerHandler.after .start history).phase = .accept) :
    Connected.Agreed (TCPClient.Sends args uninit) (TCPServer.Serves (clientStream args uninit))
      (clientStream args uninit) (confirmations args.sessionId)
      (connection args uninit history) := by
  obtain ⟨pad, outcome, -, -⟩ := connectionOutcome_clientStream uninit small
  have serves := accepted_serves listening (clientStream args uninit)
  have left : (connection args uninit history).toLeft = [] := rfl
  have right : (connection args uninit history).toRight = [] := rfl
  rw [outcome] at serves
  refine ⟨clientStream args uninit, confirmations args.sessionId, ?_, ?_, ?_, ?_⟩
  · rw [left, List.nil_append]
    exact TCPClient.sends_connected args uninit
  · rw [right, List.nil_append]
    exact serves
  · exact List.nil_append _
  · exact List.nil_append _

/-- **The agreement holds in every state of a run.** -/
theorem transfer_agreed (small : args.vec.occupiedSize.toNat < 2 ^ 32)
    (listening : (tcpServerHandler.after .start history).phase = .accept)
    {c : Connected TCPClient TCPServer UInt8}
    (run : ReflTransGen (TransferStep args) (connection args uninit history) c) :
    Connected.Agreed (TCPClient.Sends args uninit) (TCPServer.Serves (clientStream args uninit))
      (clientStream args uninit) (confirmations args.sessionId) c := by
  obtain ⟨pad, outcome, -, -⟩ := connectionOutcome_clientStream uninit small
  exact Connected.Reachable.agreed (tcpClient_sends small uninit) (tcpServer_serves _)
    (fun sends blocked => sends.1.takes_ne_nil blocked)
    (fun serves blocked => serves.takes_ne_nil (by rw [outcome]) blocked) run
    (connection_agreed uninit small listening)

/-- **The transfer comes to its end.** -/
theorem transfer_over (small : args.vec.occupiedSize.toNat < 2 ^ 32)
    (listening : (tcpServerHandler.after .start history).phase = .accept) :
    Inevitable (TransferStep args) TransferOver (connection args uninit history) := by
  obtain ⟨pad, outcome, -, -⟩ := connectionOutcome_clientStream uninit small
  exact Connected.completes (tcpClient_sends small uninit) (tcpServer_serves _)
    (fun sends blocked => sends.1.takes_ne_nil blocked)
    (fun serves blocked => serves.takes_ne_nil (by rw [outcome]) blocked)
    (fun sends serves reading => no_deadlock small sends serves reading)
    (connection_agreed uninit small listening)

/-! ## What a transfer comes to -/

/-- While the agreement holds, the server is on the way to `RCVD`. -/
theorem agreed_confirms (small : args.vec.occupiedSize.toNat < 2 ^ 32)
    {c : Connected TCPClient TCPServer UInt8}
    (agreed : Connected.Agreed (TCPClient.Sends args uninit)
      (TCPServer.Serves (clientStream args uninit)) (clientStream args uninit)
      (confirmations args.sessionId) c) :
    (∀ left, c.right.phase ≠ .writeRJT left) ∧
      c.fromRight <+: confirmations args.sessionId := by
  obtain ⟨pad, outcome, -, -⟩ := connectionOutcome_clientStream uninit small
  obtain ⟨putsLeft, putsRight, -, ⟨⟨-, same⟩, -⟩, -, written⟩ := agreed
  refine ⟨?_, putsRight, written⟩
  intro left phase
  have rejected : (c.right.outcome (c.toRight ++ putsLeft)).received = false := by
    simp only [TCPServer.outcome, phase]
  rw [same, outcome] at rejected
  cases rejected

/-- **When the server has closed the connection** it has confirmed the payloads and delivered
them. What stands behind them fills the last packet, and is written or still to be written. -/
theorem agreed_closed (small : args.vec.occupiedSize.toNat < 2 ^ 32)
    {c : Connected TCPClient TCPServer UInt8}
    (agreed : Connected.Agreed (TCPClient.Sends args uninit)
      (TCPServer.Serves (clientStream args uninit)) (clientStream args uninit)
      (confirmations args.sessionId) c) (closed : c.right.call = .closed) :
    c.right.phase = .accept ∧ c.right.received = true ∧ c.right.delivered = udpChunks args ∧
      c.fromRight = confirmations args.sessionId ∧
      ∃ later, TCPClient.Sends args uninit c.left later c.toLeft ∧
        c.fromLeft ++ later =
          sessionBytes args.sessionId args.vec.occupiedSize (udpChunks args) ++
            (c.toRight ++ later) ∧
        args.vec.occupiedSize.toNat + (c.toRight ++ later).length =
          sendBuffSize * packetCount args.vec.occupiedSize.toNat := by
  obtain ⟨pad, outcome, stream, sizes⟩ := connectionOutcome_clientStream uninit small
  obtain ⟨putsLeft, putsRight, sends, ⟨⟨proper, same⟩, -⟩, writtenLeft, writtenRight⟩ := agreed
  have served : c.right.phase = .accept := by
    rcases TCPServer.call_closed closed with phase | phase
    · exact phase
    · simp only [TCPServer.Proper, phase] at proper
  rw [TCPServer.outcome_closed closed, outcome, Outcome.mk.injEq] at same
  obtain ⟨rfl, delivered, received, rfl⟩ := same
  rw [List.append_nil] at writtenRight sends
  exact ⟨served, received, delivered, writtenRight, putsLeft, sends, writtenLeft.trans stream,
    sizes⟩

/-- **When both are done** the client is at its last line, all that was promised has been
written, and the server has delivered the payloads and left what stands behind them. -/
theorem agreed_over (small : args.vec.occupiedSize.toNat < 2 ^ 32)
    {c : Connected TCPClient TCPServer UInt8}
    (agreed : Connected.Agreed (TCPClient.Sends args uninit)
      (TCPServer.Serves (clientStream args uninit)) (clientStream args uninit)
      (confirmations args.sessionId) c) (over' : TransferOver c) :
    c.left.phase = .ended .SUCCESS ∧ c.right.phase = .accept ∧
      c.fromRight = confirmations args.sessionId ∧ c.right.delivered = udpChunks args ∧
      c.fromLeft = sessionBytes args.sessionId args.vec.occupiedSize (udpChunks args) ++
        c.toRight ∧
      args.vec.occupiedSize.toNat + c.toRight.length =
        sendBuffSize * packetCount args.vec.occupiedSize.toNat := by
  obtain ⟨closedLeft, closedRight⟩ := over'
  obtain ⟨served, -, delivered, answer, later, ⟨heads, -⟩, stream, sizes⟩ :=
    agreed_closed small agreed closedRight
  have success : c.left.phase = .ended .SUCCESS ∧ later = [] := by
    rcases TCPClient.call_closed closedLeft with phase | ⟨ret, phase⟩
    · simp only [TCPClient.Heads, phase] at heads
    · simp only [TCPClient.Heads, phase] at heads
      obtain ⟨rfl, nothing, -⟩ := heads
      exact ⟨phase, nothing⟩
  obtain ⟨phase, rfl⟩ := success
  rw [List.append_nil] at stream sizes
  rw [List.append_nil] at stream
  exact ⟨phase, served, answer, delivered, stream, sizes⟩

end Transfer

/-- **Every transfer completes.** -/
theorem tcp_transfer_completes {args : ClientArgs} {history : List TCPServerEvent}
    (uninit : TCPClientUninit) (small : args.vec.occupiedSize.toNat < 2 ^ 32)
    (listening : (tcpServerHandler.after .start history).phase = .accept) :
    Inevitable (TransferStep args) TransferOver (connection args uninit history) ∧
    ∀ c, ReflTransGen (TransferStep args) (connection args uninit history) c →
      (∀ left, c.right.phase ≠ .writeRJT left) ∧
      c.fromRight <+: confirmations args.sessionId ∧
      (TransferOver c →
        c.left.phase = .ended .SUCCESS ∧ c.right.phase = .accept ∧
        c.fromRight = confirmations args.sessionId ∧
        c.right.delivered =
          (builtPackets args 0 (packetCount args.vec.occupiedSize.toNat) uninit.data).map
            (fun packet => packet.sentBytes.drop sizeofDataInfo) ∧
        c.right.delivered.flatten.length = args.vec.occupiedSize.toNat) := by
  refine ⟨transfer_over small listening, fun c run => ?_⟩
  have agreed := transfer_agreed small listening run
  obtain ⟨accepted, confirmed⟩ := agreed_confirms small agreed
  refine ⟨accepted, confirmed, fun over' => ?_⟩
  obtain ⟨success, served, answer, delivered, -, -⟩ := agreed_over small agreed over'
  refine ⟨success, served, answer, ?_, ?_⟩
  · rw [delivered, payloads_builtPackets, udpChunks, List.range_eq_range']
  · rw [delivered, (completes_udpChunks small).complete]

/-- Uninitialised memory that happens to be zero. -/
def TCPClientUninit.zero : TCPClientUninit where
  conacc := ⟨0, 0⟩
  rcvd := ⟨0, 0⟩
  data := { blankDATA with seqOfBytes := List.replicate sendBuffSize 0 }
  whole := List.length_replicate

/-- One byte is transferred. -/
theorem tcp_transfer_completes_oneByte :
    ∃ c, ReflTransGen (TransferStep oneByte) (connection oneByte .zero []) c ∧
      c.left.phase = .ended .SUCCESS ∧ c.right.delivered.flatten.length = 1 := by
  have small : oneByte.vec.occupiedSize.toNat < 2 ^ 32 := by decide
  have listening : (tcpServerHandler.after .start []).phase = .accept := rfl
  obtain ⟨ends, transfers⟩ := tcp_transfer_completes .zero small listening
  obtain ⟨c, run, over'⟩ := ends.reaches
  obtain ⟨-, -, done⟩ := transfers c run
  exact ⟨c, run, (done over').1, (done over').2.2.2.2⟩

/-- **The wire format is exact when the last packet is full**, and then only: otherwise the
client writes more than its packets, and the server closes the connection without having
read the rest. -/
theorem tcp_stream_exact_iff {args : ClientArgs} {history : List TCPServerEvent}
    (uninit : TCPClientUninit) (small : args.vec.occupiedSize.toNat < 2 ^ 32)
    (listening : (tcpServerHandler.after .start history).phase = .accept) :
    Inevitable (TransferStep args) TransferOver (connection args uninit history) ∧
    ∀ c, ReflTransGen (TransferStep args) (connection args uninit history) c →
      TransferOver c →
      (c.fromLeft = sessionBytes args.sessionId args.vec.occupiedSize (udpChunks args) ∧
          c.toRight = [] ↔
        sendBuffSize ∣ args.vec.occupiedSize.toNat) := by
  refine ⟨transfer_over small listening, fun c run over' => ?_⟩
  obtain ⟨-, -, -, -, stream, sizes⟩ :=
    agreed_over small (transfer_agreed small listening run) over'
  have full : c.toRight = [] ↔ sendBuffSize ∣ args.vec.occupiedSize.toNat := by
    rw [← List.length_eq_zero_iff]
    simp only [packetCount, sendBuffSize] at sizes ⊢
    omega
  constructor
  · rintro ⟨-, used⟩
    exact full.mp used
  · intro multiple
    refine ⟨?_, full.mpr multiple⟩
    rw [stream, full.mpr multiple, List.append_nil]

/-- A vector of one packet that is full. -/
def fullPacket : ClientArgs where
  serverAddress := ⟨1, 1⟩
  vec := ⟨List.replicate 64000 65 ++ List.replicate 1536 0, 65536, 64000, 64000⟩
  sessionId := 7

/-- A full packet is sent exactly. -/
theorem tcp_stream_exact_fullPacket :
    ∃ c, ReflTransGen (TransferStep fullPacket) (connection fullPacket .zero []) c ∧
      TransferOver c ∧ c.fromLeft = sessionBytes fullPacket.sessionId
        fullPacket.vec.occupiedSize (udpChunks fullPacket) ∧ c.toRight = [] := by
  have size : fullPacket.vec.occupiedSize.toNat = 64000 := rfl
  have small : fullPacket.vec.occupiedSize.toNat < 2 ^ 32 := by
    rw [size]
    decide
  have multiple : sendBuffSize ∣ fullPacket.vec.occupiedSize.toNat := by
    rw [size]
    exact Nat.dvd_refl sendBuffSize
  have listening : (tcpServerHandler.after .start []).phase = .accept := rfl
  obtain ⟨ends, exact'⟩ := tcp_stream_exact_iff .zero small listening
  obtain ⟨c, run, over'⟩ := ends.reaches
  exact ⟨c, run, over', (exact' c run over').mpr multiple⟩

/-- With one byte to send, the server leaves all but one byte of the structure unread. -/
theorem tcp_stream_surplus :
    ∃ c, ReflTransGen (TransferStep oneByte) (connection oneByte .zero []) c ∧
      TransferOver c ∧ c.right.phase = .accept ∧ c.fromRight = confirmations oneByte.sessionId ∧
      c.fromLeft ≠ sessionBytes oneByte.sessionId oneByte.vec.occupiedSize (udpChunks oneByte) ∧
      c.toRight.length = 63999 := by
  have small : oneByte.vec.occupiedSize.toNat < 2 ^ 32 := by decide
  have ends : Inevitable (TransferStep oneByte) TransferOver (connection oneByte .zero []) :=
    transfer_over small rfl
  obtain ⟨c, run, over'⟩ := ends.reaches
  obtain ⟨-, served, answer, -, stream, sizes⟩ :=
    agreed_over small (transfer_agreed small rfl run) over'
  have surplus : c.toRight.length = 63999 := by
    have one : oneByte.vec.occupiedSize.toNat = 1 := rfl
    rw [one] at sizes
    simp only [packetCount, sendBuffSize] at sizes
    omega
  refine ⟨c, run, over', served, answer, ?_, surplus⟩
  rw [stream]
  intro equal
  rw [List.append_right_eq_self] at equal
  rw [equal] at surplus
  cases surplus

end Ppcb
