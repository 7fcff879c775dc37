import Ppcb.Agreement

/-!
# Agreement without retransmission

The client without retransmission is a `Sender` (`udpSender`), so together with the
server it refines the transfer, and the transfer is all or nothing (`udp_agreement`).

The bound on the number of datagrams cannot be left out. A vector of `2 ^ 32` bytes or
more is never sent to the end: the loop goes on with empty packets, and after `2 ^ 64` of
them the ids start again from zero (`udp_wraps`).
-/

set_option autoImplicit false

namespace Ppcb

open ByteOrder CString Reactive Relation

/-- The packets of the client without retransmission. -/
def udpCut (args : ClientArgs) : Cut where
  sessionId := args.sessionId
  total := args.vec.occupiedSize
  chunk := udpChunk args
  short i := by
    rw [length_udpChunk]
    exact Nat.min_le_right _ _
  within := chunks_within (length_udpChunk args)

theorem UDPMove.confirms {args : ClientArgs} {buff : List UInt8} {s s' : UDPClient}
    {out : List Datagram} (move : UDPMove args buff s s' out) :
    Confirms (udpCut args) buff 0 s.phase.succeeded 0 s'.phase.succeeded := by
  cases move with
  | stay => exact .none _ _
  | fail w ret running failure =>
      have still : s.phase.succeeded = false := by
        rw [Bool.eq_false_iff, ne_eq, UDPPhase.succeeded_iff]
        exact running _
      have ended : (UDPPhase.ended ret).succeeded = false := by
        rw [Bool.eq_false_iff, ne_eq, UDPPhase.succeeded_iff]
        exact fun same => failure (UDPPhase.ended.inj same)
      rw [still, show ({ s with wait := w, phase := .ended ret } : UDPClient).phase.succeeded =
        false from ended]
      exact .none _ _
  | connect w phase =>
      rw [phase]
      exact .none _ _
  | connected w data phase =>
      rw [UDPClient.sendDATA_succeeded, phase]
      exact .none _ _
  | send w loc data phase =>
      rw [UDPClient.sendDATA_succeeded, phase]
      exact .none _ _
  | confirmed w phase rcvd => exact .rcvd _ _ rcvd

/-- Without acknowledgements, no packet counts as confirmed. -/
def udpSender (args : ClientArgs) :
    Sender (udpClientHandler args) (udpCut args) args.serverAddress where
  Ok s := s.phase.At args s.built
  confirmed _ := 0
  finished s := s.phase.succeeded
  traffic s := s.phase.traffic s.built
  protocol := udpProtocol
  ok_next _ e ok := UDPClient.at_next e ok
  traffic_next s e ok := (s.step_move args e).traffic ok
  sent s e ok d member := by
    obtain ⟨dest, conn | ⟨i, count, data⟩⟩ := (s.step_move args e).sent ok d member
    · exact ⟨dest, .inl conn⟩
    · exact ⟨dest, .inr ⟨i, Nat.le_of_eq count.symm, data⟩⟩
  confirms s e _ _ := (s.step_move args e).confirms

/-! ## Agreement -/

/-- One step of the client without retransmission and the server. -/
abbrev UDPStep (args : ClientArgs) (clientAddress : SockAddr) :
    Duplex UDPClient UDPServer Datagram Reply → Duplex UDPClient UDPServer Datagram Reply → Prop :=
  Duplex.Step (udpClientHandler args) udpServerHandler (network args.serverAddress clientAddress)

/-- A run of the client without retransmission and the server. -/
abbrev UDPRun (args : ClientArgs) (clientAddress : SockAddr) :
    Duplex UDPClient UDPServer Datagram Reply → Duplex UDPClient UDPServer Datagram Reply → Prop :=
  Duplex.Reachable (udpClientHandler args) udpServerHandler
    (network args.serverAddress clientAddress)

/-- **Without retransmission the transfer is all or nothing**, in every run in which the
client sends fewer than `2 ^ 64` datagrams. -/
theorem udp_agreement (args : ClientArgs) (clientAddress : SockAddr) (errno : Errno)
    {s : Duplex UDPClient UDPServer Datagram Reply}
    (run : UDPRun args clientAddress ⟨.start errno, .start, [], []⟩ s)
    (fewer : s.fromLeft.length < 2 ^ 64) :
    (∀ session ∈ s.right.sessions, session.conn.sessionId = args.sessionId →
      ∃ k, session.delivered = (List.range k).map (udpChunk args)) ∧
    (s.left.phase = .ended .SUCCESS → ∃ session ∈ s.right.sessions,
      session.conn.sessionId = args.sessionId ∧
        session.delivered.flatten.length = args.vec.occupiedSize.toNat) := by
  have joint := (udpSender args).joint_run
    (show (udpSender args).Ok (.start errno) from rfl) ⟨rfl, rfl, rfl⟩ run fewer
  refine ⟨fun session member _ => ⟨_, joint.delivered session member⟩, ?_⟩
  intro success
  exact joint.completed ((UDPPhase.succeeded_iff _).mpr success)

/-- One byte, with every datagram delivered once. -/
def oneByteUDP : Duplex UDPClient UDPServer Datagram Reply :=
  (Duplex.play (udpClientHandler oneByte) udpServerHandler
    (network oneByte.serverAddress oneByteClient) ⟨.start (.other 0), .start, [], []⟩
    [clientSends, toServer (initCONN 7 udpProtocol 1).store, toClient (initCONACC 7).store,
      clientSends, toServer (dataBytes 7 0 [65]),
      toClient (initRCVD 7).store]).get (by decide +kernel)

/-- The byte arrives, and the client knows it. -/
theorem udp_agreement_oneByte : oneByteUDP.left.phase = .ended .SUCCESS ∧
    ∃ session ∈ oneByteUDP.right.sessions, session.conn.sessionId = 7 ∧
      session.delivered.flatten.length = 1 := by
  have success : oneByteUDP.left.phase = .ended .SUCCESS := by decide +kernel
  exact ⟨success, (udp_agreement oneByte oneByteClient (.other 0)
    (Duplex.get_play_reachable _) (by decide +kernel)).2 success⟩

/-! ## Ids that start again -/

section Wrap

variable {args : ClientArgs} {client : SockAddr} {errno : Errno}

theorem short_udpChunk (args : ClientArgs) (i : ℕ) : (udpChunk args i).length ≤ maxAllowedPacketSize :=
  (udpCut args).short i

/-- A session that has accepted the first `n` packets. Its counter of packets is `n`
modulo `2 ^ 64`. -/
structure UDPSession.Streams (args : ClientArgs) (client : SockAddr) (n : ℕ)
    (session : UDPSession) : Prop where
  client : session.currClientAddr = client
  conn : session.conn = ⟨connId, args.sessionId, udpProtocol, args.vec.occupiedSize⟩
  current : session.currPackageId = UInt64.ofNat n
  delivered : session.delivered = (List.range n).map (udpChunk args)
  bytesRecvd : session.bytesRecvd.toNat = session.delivered.flatten.length

/-- An accepted packet, whatever the size of the vector. -/
theorem UDPSession.Streams.pass {n : ℕ} {session : UDPSession}
    (streams : session.Streams args client n) {i : ℕ}
    (current : UInt64.ofNat i = UInt64.ofNat n) (clientAddress : SockAddr)
    (uninit : ServerUninit) :
    udpDataReceivePass session clientAddress (.datagram client
      (dataBytes args.sessionId (UInt64.ofNat i) (udpChunk args i))) uninit =
        udpDataReceiveLoop (session.accept (udpChunk args i)) client := by
  have accepted := udpDataReceiveBody_accept session session.currClientAddr uninit
    (short_udpChunk args i)
  rw [streams.conn, streams.current, ← current] at accepted
  rw [← streams.client, udpDataReceivePass_client _ _ _ (fits_dataBytes _ _ (short_udpChunk args i))
    (dataBytes_ne_nil _ _ _), accepted]

/-- The next packet of a vector whose size does not fit in 32 bits: the session takes it and
waits for more. -/
theorem UDPSession.Streams.next {n : ℕ} {session : UDPSession}
    (streams : session.Streams args client n)
    (truncated : size32 args < args.vec.occupiedSize.toNat) :
    (session.accept (udpChunk args n)).Streams args client (n + 1) ∧
      udpDataReceiveLoop (session.accept (udpChunk args n)) client =
        (⟨.waiting (session.accept (udpChunk args n)), client⟩, []) := by
  have delivered : session.delivered ++ [udpChunk args n] =
      (List.range (n + 1)).map (udpChunk args) := by
    rw [streams.delivered, List.range_succ, List.map_append, List.map_singleton]
  have total : (session.delivered ++ [udpChunk args n]).flatten.length ≤ size32 args := by
    rw [delivered, length_chunks (length_udpChunk args)]
    exact Nat.min_le_left _ _
  have bytesRecvd : (session.accept (udpChunk args n)).bytesRecvd.toNat =
      (session.delivered ++ [udpChunk args n]).flatten.length := by
    have small := size32_lt args
    rw [length_flatten_append] at total ⊢
    rw [UDPSession.accept_bytesRecvd, UInt64.toNat_add, UInt32.toNat_toUInt64,
      toNat_payload (short_udpChunk args n), streams.bytesRecvd]
    exact Nat.mod_eq_of_lt (by omega)
  constructor
  · constructor
    · rw [UDPSession.accept_currClientAddr, streams.client]
    · rw [UDPSession.accept_conn, streams.conn]
    · rw [UDPSession.accept_currPackageId, streams.current]
      simp
    · rw [UDPSession.accept_delivered, delivered]
    · rw [bytesRecvd, UDPSession.accept_delivered]
  · have more : (session.accept (udpChunk args n)).bytesRecvd <
        (session.accept (udpChunk args n)).conn.nbrOfBytesToBeSent := by
      rw [UInt64.lt_iff_toNat_lt, bytesRecvd, UDPSession.accept_conn, streams.conn]
      exact lt_of_le_of_lt total truncated
    rw [udpDataReceiveLoop, if_pos more]

/-- The client is about to send packet `n`, the packets before it are accepted, and packet 0
is still in the network. -/
structure Streaming (args : ClientArgs) (client : SockAddr) (n : ℕ)
    (s : Duplex UDPClient UDPServer Datagram Reply) : Prop where
  phase : ∃ data, s.left.phase = .sendDATA (UDPSend.atPacket args (n + 1)) data ∧
    data.sentBytes = dataBytes args.sessionId (UInt64.ofNat n) (udpChunk args n)
  session : ∃ session : UDPSession, s.right.mode = .udp session ∧ session.Streams args client n
  first : 0 < n → ⟨args.serverAddress,
    dataBytes args.sessionId (UInt64.ofNat 0) (udpChunk args 0)⟩ ∈ s.fromLeft

/-- The loop of a client that always has another packet. -/
theorem UDPClient.sendDATA_more (s : UDPClient) {k : ℕ} (more : UDPSend.HasMore args k)
    (data : DATA) : ∃ built,
      (s.sendDATA args (UDPSend.atPacket args k) data).phase =
        .sendDATA (UDPSend.atPacket args (k + 1)) built ∧
      built.sentBytes = dataBytes args.sessionId (UInt64.ofNat k) (udpChunk args k) := by
  rcases s.sendDATA_cases args k data with ⟨-, built, equal, bytes⟩ | ⟨done, -⟩
  · exact ⟨built, by rw [equal], bytes⟩
  · exact absurd more done

theorem Streaming.next {n : ℕ} {s : Duplex UDPClient UDPServer Datagram Reply}
    (streaming : Streaming args client n s)
    (truncated : size32 args < args.vec.occupiedSize.toNat) :
    ∃ s', UDPRun args client s s' ∧ Streaming args client (n + 1) s' := by
  obtain ⟨⟨wait, phase, count⟩, ⟨mode, udpAddress, udprAddress, finish, ended⟩, sent, replies⟩ := s
  obtain ⟨⟨data, rfl, bytes⟩, ⟨session, rfl, streams⟩, first⟩ := streaming
  have more : UDPSend.HasMore args (n + 1) := by
    rw [UDPSend.hasMore_iff]
    omega
  obtain ⟨streams', waits⟩ := streams.next truncated
  obtain ⟨built, phase', bytes'⟩ := UDPClient.sendDATA_more
    ⟨wait, .sendDATA (UDPSend.atPacket args (n + 1)) data, count⟩ more data
  have pass := streams.pass rfl udpAddress .zero
  have offered : (⟨args.serverAddress, dataBytes args.sessionId (UInt64.ofNat n)
      (udpChunk args n)⟩ : Datagram) ∈ sent ++ [⟨args.serverAddress, data.sentBytes⟩] := by
    rw [← bytes]
    exact List.mem_append_right _ (List.mem_singleton_self _)
  have sends : UDPStep args client _ _ := .left
    ⟨⟨wait, .sendDATA (UDPSend.atPacket args (n + 1)) data, count⟩,
      ⟨.udp session, udpAddress, udprAddress, finish, ended⟩, sent, replies⟩
    (ClientEvent.sendto .sent) trivial
  have arrives : UDPStep args client (Duplex.leftStep (udpClientHandler args)
      ⟨⟨wait, .sendDATA (UDPSend.atPacket args (n + 1)) data, count⟩,
        ⟨.udp session, udpAddress, udprAddress, finish, ended⟩, sent, replies⟩
      (ClientEvent.sendto .sent)) _ := .right _
    (ServerEvent.recvfrom (.datagram client
      (dataBytes args.sessionId (UInt64.ofNat n) (udpChunk args n))) .zero .sent) ⟨rfl, offered⟩
  refine ⟨_, .tail (.single sends) arrives, ⟨⟨built, phase', bytes'⟩, ⟨_, ?_, streams'⟩, ?_⟩⟩
  · show (UDPServer.afterUDP _ (udpDataReceivePass session udpAddress (.datagram client
      (dataBytes args.sessionId (UInt64.ofNat n) (udpChunk args n))) .zero).1).mode = _
    rw [pass, waits]
    rfl
  · intro _
    cases n with
    | zero => exact offered
    | succ n => exact List.mem_append_left _ (first (Nat.succ_pos n))

/-- The `CONN` of the client as the server reads it. -/
def streamConn (args : ClientArgs) : CONN :=
  ⟨connId, args.sessionId, udpProtocol, args.vec.occupiedSize⟩

/-- An idle server takes the `CONN` of a vector that is not empty and waits for packets. -/
theorem onIdle_stream (args : ClientArgs) (client : SockAddr) (positive : 0 < args.vec.occupiedSize) :
    UDPServer.start.onIdle (.datagram client
        (initCONN args.sessionId udpProtocol args.vec.occupiedSize).store) .zero .sent =
      ({ UDPServer.start with mode := .udp (.start (streamConn args) client) },
        [sendCONACC .serverHandler client args.sessionId]) := by
  have waits : udpDataReceiveLoop (.start (streamConn args) client) ⟨0, 0⟩ =
      (⟨.waiting (.start (streamConn args) client), ⟨0, 0⟩⟩, []) := if_pos positive
  rw [UDPServer.onIdle_conn _ _ _ _ _ (.inl rfl)]
  simp only [UDPServer.openSession, if_true]
  rw [show UDPServer.start.udpClientAddress = ⟨0, 0⟩ from rfl, ← streamConn, waits]
  rfl

/-- The first `CONACC` starts the sending loop. -/
theorem onRecvfrom_conacc (errno : Errno) :
    UDPClient.onRecvfrom args ⟨.start errno, .waitCONACC, 0⟩
        (.datagram args.serverAddress (initCONACC args.sessionId).store) .zero =
      UDPClient.sendDATA args ⟨(WaitState.start errno).learn args.serverAddress, .waitCONACC, 0⟩
        (.start args.vec) blankDATA := by
  have connected : udpClientCONACCHandler args.sessionId ClientUninit.zero.conacc
      (initCONACC args.sessionId).store = .SUCCESS :=
    (udpClientCONACCHandler_success_iff _).mpr rfl
  obtain ⟨fits, nonempty⟩ := fits_initCONACC args.sessionId
  have knows : (WaitState.start errno).Knows args.serverAddress := .inl rfl
  have response := waitForServerResponse_server knows fits nonempty
  simp only [UDPClient.onRecvfrom, UDPClient.waiting, if_true, response, UDPClient.onResponse,
    connected, ne_eq, not_true_eq_false, if_false]
  rfl

theorem Streaming.start (client : SockAddr) (errno : Errno)
    (truncated : size32 args < args.vec.occupiedSize.toNat) :
    ∃ s, UDPRun args client ⟨.start errno, .start, [], []⟩ s ∧ Streaming args client 0 s := by
  have more : UDPSend.HasMore args 0 := by
    rw [UDPSend.hasMore_iff]
    omega
  have opened := onIdle_stream args client
    (UInt64.lt_iff_toNat_lt.mpr (lt_of_le_of_lt (Nat.zero_le _) truncated))
  obtain ⟨built, phase, bytes⟩ := UDPClient.sendDATA_more
    ⟨(WaitState.start errno).learn args.serverAddress, .waitCONACC, 0⟩ more blankDATA
  have sends : UDPStep args client ⟨.start errno, .start, [], []⟩ _ :=
    .left _ (ClientEvent.sendto .sent) trivial
  have arrives : UDPStep args client (Duplex.leftStep (udpClientHandler args)
      ⟨.start errno, .start, [], []⟩ (ClientEvent.sendto .sent)) _ :=
    .right _ (ServerEvent.recvfrom (.datagram client
      (initCONN args.sessionId udpProtocol args.vec.occupiedSize).store) .zero .sent)
      ⟨rfl, List.mem_singleton_self _⟩
  have returns : UDPStep args client ((Duplex.leftStep (udpClientHandler args)
      ⟨.start errno, .start, [], []⟩ (ClientEvent.sendto .sent)).rightStep udpServerHandler
      (ServerEvent.recvfrom (.datagram client
        (initCONN args.sessionId udpProtocol args.vec.occupiedSize).store) .zero .sent)) _ :=
    .left _ (ClientEvent.recvfrom (.datagram args.serverAddress
      (initCONACC args.sessionId).store) .zero)
      ⟨rfl, sendCONACC .serverHandler client args.sessionId, by
        show _ ∈ [] ++ (UDPServer.start.onIdle _ _ _).2
        rw [opened]
        exact List.mem_singleton_self _, rfl, rfl⟩
  refine ⟨_, .tail (.tail (.single sends) arrives) returns,
    ⟨⟨built, ?_, bytes⟩, ⟨.start (streamConn args) client, ?_, ?_⟩, nofun⟩⟩
  · rw [← phase]
    exact congrArg UDPClient.phase (onRecvfrom_conacc errno)
  · exact congrArg (fun r => r.1.mode) opened
  · exact ⟨rfl, rfl, rfl, rfl, rfl⟩

/-- A vector whose size does not fit in 32 bits is streamed for ever. -/
theorem streaming_all (args : ClientArgs) (client : SockAddr) (errno : Errno)
    (truncated : size32 args < args.vec.occupiedSize.toNat) (n : ℕ) :
    ∃ s, UDPRun args client ⟨.start errno, .start, [], []⟩ s ∧ Streaming args client n s := by
  induction n with
  | zero => exact Streaming.start client errno truncated
  | succ n ih =>
      obtain ⟨s, run, streaming⟩ := ih
      obtain ⟨s', more, streaming'⟩ := streaming.next truncated
      exact ⟨s', run.trans more, streaming'⟩

/-- **The ids wrap**: after `2 ^ 64` packets of such a vector, packet 0 is accepted again, and
the session no longer holds the first packets of the sequence. -/
theorem udp_wraps (client : SockAddr) (errno : Errno)
    (truncated : size32 args < args.vec.occupiedSize.toNat) (nonempty : 0 < size32 args) :
    ∃ s, UDPRun args client ⟨.start errno, .start, [], []⟩ s ∧
      ∃ session ∈ s.right.sessions, session.conn.sessionId = args.sessionId ∧
        ¬ ∃ k, session.delivered = (List.range k).map (udpChunk args) := by
  obtain ⟨s, run, -, ⟨session, mode, streams⟩, first⟩ :=
    streaming_all args client errno truncated (2 ^ 64)
  have again : UDPStep args client s _ := .right s (ServerEvent.recvfrom (.datagram client
    (dataBytes args.sessionId (UInt64.ofNat 0) (udpChunk args 0))) .zero .sent)
    ⟨rfl, first (by norm_num)⟩
  have pass := streams.pass (i := 0) rfl s.right.udpClientAddress .zero
  refine ⟨_, run.tail again, session.accept (udpChunk args 0), ?_, ?_, ?_⟩
  · have sessions : (udpServerHandler.next s.right (.recvfrom (.datagram client
        (dataBytes args.sessionId (UInt64.ofNat 0) (udpChunk args 0))) .zero .sent)).sessions =
        s.right.ended ++ [session.accept (udpChunk args 0)] := by
      show (UDPServer.step s.right _).1.sessions = _
      simp only [UDPServer.step, mode]
      rw [UDPServer.sessions_afterUDP, pass, (udpDataReceiveLoop_cases _ _).1]
    show _ ∈ (udpServerHandler.next s.right _).sessions
    rw [sessions]
    exact List.mem_append_right _ (List.mem_singleton_self _)
  · show session.conn.sessionId = _
    rw [streams.conn]
  · rintro ⟨k, delivered⟩
    have all : (List.range (2 ^ 64)).map (udpChunk args) ++ [udpChunk args 0] =
        (List.range k).map (udpChunk args) := by
      rw [← delivered, ← streams.delivered]
      rfl
    have count : 2 ^ 64 + 1 = k := by
      have length := congrArg List.length all
      simpa only [List.length_append, List.length_map, List.length_range,
        List.length_singleton] using length
    rw [← count, List.range_succ, List.map_append, List.append_cancel_left_eq,
      List.map_singleton, List.singleton_inj] at all
    have lengths := congrArg List.length all
    rw [length_udpChunk, length_udpChunk] at lengths
    have small := size32_lt args
    simp only [sendBuffSize] at lengths
    omega

end Wrap

/-- A vector of `2 ^ 32 + 1` bytes. -/
def longVec : ClientArgs where
  serverAddress := ⟨1, 1⟩
  vec := ⟨List.replicate (2 ^ 33) 65, 8589934592, 4294967297, 4294967297⟩
  sessionId := 7

/-- Without the bound, the transfer of this vector is not all or nothing. -/
theorem udp_agreement_unbounded :
    ¬ ∀ s, UDPRun longVec oneByteClient ⟨.start (.other 0), .start, [], []⟩ s →
      (∀ session ∈ s.right.sessions, session.conn.sessionId = longVec.sessionId →
        ∃ k, session.delivered = (List.range k).map (udpChunk longVec)) ∧
      (s.left.phase = .ended .SUCCESS → ∃ session ∈ s.right.sessions,
        session.conn.sessionId = longVec.sessionId ∧
          session.delivered.flatten.length = longVec.vec.occupiedSize.toNat) := by
  intro unbounded
  have size : size32 longVec = 1 := rfl
  have truncated : size32 longVec < longVec.vec.occupiedSize.toNat := by
    rw [size]
    decide +kernel
  obtain ⟨s, run, session, member, sessionId, wrapped⟩ :=
    udp_wraps oneByteClient (.other 0) truncated (by rw [size]; exact Nat.one_pos)
  exact wrapped ((unbounded s run).1 session member sessionId)

end Ppcb
