import Ppcb.AgreementUDPR

/-!
# A run that loses nothing

When every datagram is delivered once and in order, the client with retransmission gets
through its whole vector: for every `n` up to the number of packets there is a run after
which `n` packets are acknowledged and their `ACC` are all still in the network
(`lossless_run`).
-/

set_option autoImplicit false

namespace Ppcb

open ByteOrder CString Reactive Relation

variable {args : ClientArgs} {client : SockAddr} {errno : Errno}

/-- `n` packets are acknowledged, and both sides are ready for packet `n` if there is one. -/
structure Lossless (args : ClientArgs) (client : SockAddr) (n : ℕ)
    (s : Duplex UDPRClient UDPServer Datagram Reply) : Prop where
  phase : ∃ loc data, s.left.phase = udprClientSendDATA args loc data ∧
    loc.filled = (UDPRSend.atPacket args n).filled
  acked : s.left.acked = n
  knows : s.left.wait.Knows args.serverAddress
  session : UDPRSend.HasMore args n → ∃ session : UDPRSession, s.right.mode = .udpr session ∧
    session.currClientAddr = client ∧ session.toUDPSession.Agrees (udprCut args) ∧
    session.currPackageId = UInt64.ofNat n
  acks : ∀ i < n, sendACC .dataReceive client args.sessionId (UInt64.ofNat i) ∈ s.fromRight

/-- The `CONN` of the client as the server reads it. -/
def udprConn (args : ClientArgs) : CONN :=
  ⟨connId, args.sessionId, udprProtocol, args.vec.occupiedSize⟩

/-- An idle server takes the `CONN` and calls `UDPR_data_receive`. -/
theorem onIdle_udprConn (args : ClientArgs) (client : SockAddr) :
    UDPServer.start.onIdle (.datagram client
        (initCONN args.sessionId udprProtocol args.vec.occupiedSize).store) .zero .sent =
      (UDPServer.start.afterUDPR
          (udprDataReceiveLoop (.start (udprConn args) client) ⟨0, 0⟩).1,
        sendCONACC .serverHandler client args.sessionId ::
          (udprDataReceiveLoop (.start (udprConn args) client) ⟨0, 0⟩).2) := by
  rw [UDPServer.onIdle_conn _ _ _ _ _ (.inr rfl)]
  rfl

/-- The `CONACC` starts the sending loop. -/
theorem UDPRClient.onRecvfrom_conacc {w : WaitState} (knows : w.Knows args.serverAddress)
    (nbr acked : ℕ) (uninit : ClientUninit) :
    UDPRClient.onRecvfrom args ⟨w, nbr, .waitCONACC, acked⟩
        (.datagram args.serverAddress (initCONACC args.sessionId).store) uninit =
      ⟨w.learn args.serverAddress, nbr,
        udprClientSendDATA args (.start args.vec) uninit.data, acked⟩ := by
  obtain ⟨fits, nonempty⟩ := fits_initCONACC args.sessionId
  have connected : udprClientInitConnection args.sessionId uninit.conacc
      (initCONACC args.sessionId).store = .SUCCESS :=
    (udprClientInitConnection_success_iff _).mpr rfl
  rw [UDPRClient.onRecvfrom_server knows rfl fits nonempty]
  simp only [UDPRClient.onResponse, connected, ne_eq, not_true_eq_false, if_false]

/-- The `ACC` of the current packet makes the client go on to the next one. -/
theorem UDPRClient.onRecvfrom_acc {w : WaitState} {server : SockAddr}
    (port : server.sinPort = args.serverAddress.sinPort) (knows : w.Knows server)
    (nbr acked : ℕ) (loc : UDPRSend) (data : DATA) (uninit : ClientUninit) :
    UDPRClient.onRecvfrom args ⟨w, nbr, .waitACC loc data, acked⟩
        (.datagram server (initACC args.sessionId loc.currPackageId).store) uninit =
      ⟨w.learn server, nbr, udprClientSendDATA args loc.advance data, acked + 1⟩ := by
  obtain ⟨fits, nonempty⟩ := fits_initACC args.sessionId loc.currPackageId
  have accepted : udprClientHandleACC uninit.acc nbr loc.currPackageId args.sessionId
      loc.isBeforeFirstAcc (.SUCCESS, (initACC args.sessionId loc.currPackageId).store) =
        some (.SUCCESS, nbr) := (udprClientHandleACC_success_iff _ _ _ _).mpr ⟨rfl, rfl⟩
  rw [UDPRClient.onRecvfrom_learnt port knows rfl fits nonempty]
  simp only [UDPRClient.onResponse, accepted]

theorem UDPRSend.hasMore_zero : UDPRSend.HasMore args 0 ↔ 0 < args.vec.occupiedSize := by
  rw [hasMore_iff, UInt64.lt_iff_toNat_lt]
  simp

/-- A session that has accepted the first `n` packets waits as long as the client has
more. -/
theorem UDPSession.Agrees.waits_of_hasMore {session : UDPSession} {n : ℕ} (small : n < 2 ^ 64)
    (agrees : session.Agrees (udprCut args)) (current : session.currPackageId = UInt64.ofNat n)
    (more : UDPRSend.HasMore args n) : session.Waits := by
  have sizes := length_chunks (length_udprChunk args) n
  have index : session.currPackageId.toNat = n := by
    rw [current, UInt64.toNat_ofNat_of_lt' small]
  rw [UDPRSend.hasMore_iff] at more
  rw [UDPSession.Waits, UInt64.lt_iff_toNat_lt, agrees.bytesRecvd, agrees.total, agrees.delivered,
    index]
  exact lt_of_eq_of_lt sizes more

/-- The client sends, its datagram arrives, and a reply of the server comes back. -/
theorem roundTrip {s sent : Duplex UDPRClient UDPServer Datagram Reply} {bytes : List UInt8}
    (reply : Reply) (sends : sent = s.leftStep (udprClientHandler args) (.sendto .sent))
    (offered : (⟨args.serverAddress, bytes⟩ : Datagram) ∈ sent.fromLeft)
    (answered : reply ∈ (sent.rightStep udpServerHandler
      (.recvfrom (.datagram client bytes) .zero .sent)).fromRight) (own : reply.dest = client) :
    UDPRRun args client s ((sent.rightStep udpServerHandler
      (.recvfrom (.datagram client bytes) .zero .sent)).leftStep (udprClientHandler args)
        (.recvfrom (.datagram args.serverAddress reply.bytes) .zero)) := by
  have first : UDPRStep args client s sent := by
    rw [sends]
    exact .left s (ClientEvent.sendto .sent) trivial
  have arrives : UDPRStep args client sent _ :=
    .right sent (ServerEvent.recvfrom (.datagram client bytes) .zero .sent) ⟨rfl, offered⟩
  have returns : UDPRStep args client (sent.rightStep udpServerHandler
      (.recvfrom (.datagram client bytes) .zero .sent)) _ :=
    .left _ (ClientEvent.recvfrom (.datagram args.serverAddress reply.bytes) .zero)
      ⟨rfl, reply, answered, own, rfl⟩
  exact .tail (.tail (.single first) arrives) returns

theorem Lossless.start (args : ClientArgs) (client : SockAddr) (errno : Errno) :
    ∃ s, UDPRRun args client ⟨.start errno, .start, [], []⟩ s ∧ Lossless args client 0 s := by
  have opened := onIdle_udprConn args client
  have answered : sendCONACC .serverHandler client args.sessionId ∈
      ([] : List Reply) ++ (UDPServer.start.onIdle (.datagram client
        (initCONN args.sessionId udprProtocol args.vec.occupiedSize).store) .zero .sent).2 := by
    rw [opened]
    exact List.mem_cons_self
  have run : UDPRRun args client ⟨.start errno, .start, [], []⟩ _ :=
    roundTrip (sendCONACC .serverHandler client args.sessionId) rfl
      (List.mem_singleton_self _) answered rfl
  have knows : (WaitState.start errno).Knows args.serverAddress := .inl rfl
  have connected := UDPRClient.onRecvfrom_conacc knows 0 0 .zero
  refine ⟨_, run, ⟨⟨.start args.vec, blankDATA, ?_, rfl⟩, ?_, ?_, ?_, nofun⟩⟩
  · exact congrArg UDPRClient.phase connected
  · exact congrArg UDPRClient.acked connected
  · exact .inr ((congrArg (·.wait.realServerSAddr) connected).trans (WaitState.learn_server knows))
  · intro more
    refine ⟨.start (udprConn args) client, ?_, rfl, UDPSession.agrees_start client rfl rfl, rfl⟩
    refine (congrArg (·.1.mode) opened).trans ?_
    rw [udprDataReceiveLoop_waits _ (UDPRSend.hasMore_zero.mp more)]
    rfl

/-- The server takes packet `n`, acknowledges it, and waits if there is another one. -/
theorem udprDataReceivePass_next {session : UDPRSession} {n : ℕ} (small : n + 1 < 2 ^ 64)
    (address : session.currClientAddr = client)
    (agrees : session.toUDPSession.Agrees (udprCut args))
    (current : session.currPackageId = UInt64.ofNat n) (clientAddress : SockAddr)
    (uninit : ServerUninit) :
    ∃ final, udprDataReceivePass session clientAddress (.datagram client
        (dataBytes args.sessionId (UInt64.ofNat n) (udprChunk args n))) uninit =
      ((udprDataReceiveLoop (session.accept (udprChunk args n)) client).1,
        sendACC .dataReceive client args.sessionId (UInt64.ofNat n) :: final) ∧
      (UDPRSend.HasMore args (n + 1) →
        (udprDataReceiveLoop (session.accept (udprChunk args n)) client).1 =
          ⟨.waiting (session.accept (udprChunk args n)), client⟩) := by
  have short : (udprChunk args n).length ≤ maxAllowedPacketSize := (udprCut args).short n
  have accepted := udprDataReceiveBody_accept session session.currClientAddr uninit short
  have sessionId : session.conn.sessionId = args.sessionId := agrees.sessionId
  rw [sessionId, current, address] at accepted
  refine ⟨(udprDataReceiveLoop (session.accept (udprChunk args n)) client).2, ?_, ?_⟩
  · have pass := udprDataReceivePass_client session clientAddress uninit
      (fits_dataBytes args.sessionId (UInt64.ofNat n) short) (dataBytes_ne_nil _ _ _)
    rw [address] at pass
    rw [pass, accepted]
  · intro more
    obtain ⟨agrees', -⟩ := agrees.accept small current
    have next : (session.toUDPSession.accept (udprChunk args n)).currPackageId =
        UInt64.ofNat (n + 1) := by
      rw [UDPSession.accept_currPackageId, current]
      simp
    have waits : (session.accept (udprChunk args n)).toUDPSession.Waits := by
      rw [UDPRSession.accept_toUDPSession]
      exact agrees'.waits_of_hasMore small next more
    rw [udprDataReceiveLoop_waits _ waits]

theorem Lossless.next {n : ℕ} {s : Duplex UDPRClient UDPServer Datagram Reply}
    (lossless : Lossless args client n s) (more : UDPRSend.HasMore args n)
    (small : n + 1 < 2 ^ 64) :
    ∃ s', UDPRRun args client s s' ∧ Lossless args client (n + 1) s' := by
  obtain ⟨⟨wait, nbr, phase, acked⟩, ⟨mode, udpAddress, udprAddress, finish, ended⟩, sent, replies⟩ :=
    s
  obtain ⟨⟨loc, data, equal, same⟩, rfl, knows, active, acks⟩ := lossless
  obtain ⟨session, rfl, address, agrees, current⟩ := active more
  obtain ⟨built, bytes, rfl⟩ : ∃ built, built.sentBytes =
      dataBytes args.sessionId (UInt64.ofNat acked) (udprChunk args acked) ∧
        phase = .sendDATA (UDPRSend.atPacket args acked).filled built := by
    rcases udprClientSendDATA_cases data same with ⟨-, built, phase', bytes⟩ | ⟨done, -⟩
    · exact ⟨built, bytes, equal.trans phase'⟩
    · exact absurd more done
  obtain ⟨final, pass, waits⟩ := udprDataReceivePass_next small address agrees current
    udprAddress .zero
  have offered : (⟨args.serverAddress, dataBytes args.sessionId (UInt64.ofNat acked)
      (udprChunk args acked)⟩ : Datagram) ∈ sent ++ [⟨args.serverAddress, built.sentBytes⟩] := by
    rw [← bytes]
    exact List.mem_append_right _ (List.mem_singleton_self _)
  have package : (UDPRSend.atPacket args acked).filled.currPackageId = UInt64.ofNat acked :=
    UDPRSend.currPackageId_atPacket args acked
  have response := UDPRClient.onRecvfrom_acc rfl knows nbr acked
    (UDPRSend.atPacket args acked).filled built .zero
  rw [package] at response
  have acknowledged : sendACC .dataReceive client args.sessionId (UInt64.ofNat acked) ∈
      replies ++ (udprDataReceivePass session udprAddress (.datagram client
        (dataBytes args.sessionId (UInt64.ofNat acked) (udprChunk args acked))) .zero).2 := by
    rw [pass]
    exact List.mem_append_right _ List.mem_cons_self
  have run : UDPRRun args client
      ⟨⟨wait, nbr, .sendDATA (UDPRSend.atPacket args acked).filled built, acked⟩,
        ⟨.udpr session, udpAddress, udprAddress, finish, ended⟩, sent, replies⟩ _ :=
    roundTrip (sendACC .dataReceive client args.sessionId (UInt64.ofNat acked)) rfl
      offered acknowledged rfl
  refine ⟨_, run,
    ⟨⟨(UDPRSend.atPacket args acked).filled.advance, built, ?_, ?_⟩, ?_, ?_, ?_, ?_⟩⟩
  · exact congrArg UDPRClient.phase response
  · rw [UDPRSend.atPacket_succ]
  · exact congrArg UDPRClient.acked response
  · exact .inr ((congrArg (·.wait.realServerSAddr) response).trans (WaitState.learn_server knows))
  · intro another
    obtain ⟨agrees', -⟩ := agrees.accept small current
    refine ⟨session.accept (udprChunk args acked), ?_, ?_, ?_, ?_⟩
    · show (UDPServer.afterUDPR _ (udprDataReceivePass session udprAddress _ _).1).mode = _
      rw [pass, waits another]
      rfl
    · rw [UDPRSession.accept_toUDPSession, UDPSession.accept_currClientAddr, address]
    · rw [UDPRSession.accept_toUDPSession]
      exact agrees'
    · rw [UDPRSession.accept_toUDPSession, UDPSession.accept_currPackageId, current]
      simp
  · intro i below
    rcases Nat.lt_succ_iff_lt_or_eq.mp below with below | rfl
    · exact List.mem_append_left _ (acks i below)
    · exact acknowledged

/-- **Without losses the client gets through its packets**, as long as their ids do not
wrap. -/
theorem lossless_run (args : ClientArgs) (client : SockAddr) (errno : Errno) {n : ℕ}
    (small : n < 2 ^ 64) (more : ∀ i < n, UDPRSend.HasMore args i) :
    ∃ s, UDPRRun args client ⟨.start errno, .start, [], []⟩ s ∧ Lossless args client n s := by
  induction n with
  | zero => exact Lossless.start args client errno
  | succ n ih =>
      obtain ⟨s, run, lossless⟩ :=
        ih (Nat.lt_of_succ_lt small) fun i below => more i (Nat.lt_succ_of_lt below)
      obtain ⟨s', again, lossless'⟩ := lossless.next (more n (Nat.lt_succ_self n)) small
      exact ⟨s', run.trans again, lossless'⟩

end Ppcb
