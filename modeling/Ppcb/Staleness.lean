import Ppcb.LosslessRun

/-!
# Packets that arrive again

What becomes of a packet that the network delivers once more. The server ignores every
old `DATA` packet. The client ignores an old `ACC` while it waits for a later one, but
when it waits for `RCVD` it compares the id with a `last_package_idx` that still is zero
(`stale_data_phase`). Both sides ignore the packets of the handshake only up to the first
`DATA` packet and its `ACC` (`stale_handshake`).
-/

set_option autoImplicit false

namespace Ppcb

open ByteOrder CString Reactive Relation

variable {args : ClientArgs} {client : SockAddr} {errno : Errno}

/-- The client takes the datagram from the server and goes on waiting as before. -/
def UDPRClient.Ignores (args : ClientArgs) (s : UDPRClient) (bytes : List UInt8) : Prop :=
  ∀ uninit, (udprClientHandler args).step s
      (.recvfrom (.datagram args.serverAddress bytes) uninit) =
    ({ s with wait := s.wait.learn args.serverAddress }, [])

/-- The server takes the datagram from the client and goes on with the session as
before. -/
def UDPServer.Ignores (s : UDPServer) (client : SockAddr) (bytes : List UInt8) : Prop :=
  ∀ uninit conacc, udpServerHandler.step s (.recvfrom (.datagram client bytes) uninit conacc) =
    ({ s with udprClientAddress := client }, [])

/-- The client waits for the confirmation of a packet or of the session. -/
def UDPRPhase.Awaits : UDPRPhase → Prop
  | .waitACC _ _ | .waitRCVD => True
  | _ => False

/-- The id is below the one that the waiting client compares it with. -/
def UDPRPhase.Behind (id : UInt64) : UDPRPhase → Prop
  | .waitACC loc _ => id < loc.currPackageId
  | .waitRCVD => id = 0
  | _ => False

section Client

variable {bytes : List UInt8} {w : WaitState} {nbr acked : ℕ}

theorem udprClientSendDATA_ne_waitACC (loc loc' : UDPRSend) (data data' : DATA) :
    udprClientSendDATA args loc data ≠ .waitACC loc' data' := by
  obtain ⟨built, equal, -⟩ := loc.build_eq args.vec args.sessionId data
  rw [udprClientSendDATA, equal]
  split <;> simp

/-- A client that waits for an `ACC` ignores exactly what its handler continues on. -/
theorem UDPRClient.ignores_waitACC_iff {loc : UDPRSend} {data : DATA}
    (knows : w.Knows args.serverAddress) (fits : bytes.length ≤ responseBuffSize)
    (nonempty : bytes ≠ []) :
    UDPRClient.Ignores args ⟨w, nbr, .waitACC loc data, acked⟩ bytes ↔
      ∀ uninit : ClientUninit, udprClientHandleACC uninit.acc nbr loc.currPackageId args.sessionId
        loc.isBeforeFirstAcc (.SUCCESS, bytes) = none := by
  refine forall_congr' fun uninit => ?_
  show (UDPRClient.onRecvfrom args _ _ uninit, ([] : List Datagram)) = _ ↔ _
  rw [UDPRClient.onRecvfrom_server knows rfl fits nonempty, Prod.mk.injEq, and_iff_left rfl]
  simp only [UDPRClient.onResponse]
  split
  · simp [*]
  · simp [*]
  · simp [*, udprClientSendDATA_ne_waitACC]
  · simp [*]

/-- A client that waits for `RCVD` ignores exactly what its handler continues on. -/
theorem UDPRClient.ignores_waitRCVD_iff (knows : w.Knows args.serverAddress)
    (fits : bytes.length ≤ responseBuffSize) (nonempty : bytes ≠ []) :
    UDPRClient.Ignores args ⟨w, nbr, .waitRCVD, acked⟩ bytes ↔
      ∀ uninit, udprClientHandleRCVD uninit 0 args.sessionId (.SUCCESS, bytes) = none := by
  refine forall_congr' fun uninit => ?_
  show (UDPRClient.onRecvfrom args _ _ uninit, ([] : List Datagram)) = _ ↔ _
  rw [UDPRClient.onRecvfrom_server knows rfl fits nonempty, Prod.mk.injEq, and_iff_left rfl]
  simp only [UDPRClient.onResponse]
  split <;> simp [*]

/-- A waiting client ignores exactly the `ACC` with an id below the one it compares with. -/
theorem UDPRClient.ignores_acc_iff {s : UDPRClient} (knows : s.wait.Knows args.serverAddress)
    (awaits : s.phase.Awaits) (id : UInt64) :
    s.Ignores args (initACC args.sessionId id).store ↔ s.phase.Behind id := by
  obtain ⟨w, nbr, phase, acked⟩ := s
  obtain ⟨fits, nonempty⟩ := fits_initACC args.sessionId id
  cases phase with
  | waitACC loc data =>
      rw [ignores_waitACC_iff knows fits nonempty, UDPRPhase.Behind]
      simp only [udprClientHandleACC_acc]
      constructor
      · intro continues
        by_contra behind
        have continued := continues .zero
        rw [if_neg behind] at continued
        split at continued <;> cases continued
      · intro behind _
        exact if_pos behind
  | waitRCVD =>
      rw [ignores_waitRCVD_iff knows fits nonempty, UDPRPhase.Behind]
      simp only [udprClientHandleRCVD_acc, ite_eq_right_iff, reduceCtorEq, imp_false]
      constructor
      · intro continues
        exact UInt64.le_zero_iff.mp (UInt64.not_lt.mp (continues .zero))
      · rintro rfl _
        exact UInt64.lt_irrefl 0
  | _ => exact awaits.elim

/-- A waiting client ignores a `CONACC` only before its first `ACC`. -/
theorem UDPRClient.ignores_conacc_iff {s : UDPRClient} (knows : s.wait.Knows args.serverAddress)
    (behind : s.phase.At args s.acked) (awaits : s.phase.Awaits) :
    s.Ignores args (initCONACC args.sessionId).store ↔
      s.phase ≠ .waitRCVD ∧ s.acked = 0 := by
  obtain ⟨w, nbr, phase, acked⟩ := s
  obtain ⟨fits, nonempty⟩ := fits_initCONACC args.sessionId
  cases phase with
  | waitACC loc data =>
      have same : loc = (UDPRSend.atPacket args acked).filled := behind.1
      subst same
      rw [ignores_waitACC_iff knows fits nonempty]
      simp only [udprClientHandleACC_conacc, UDPRSend.filled_isBeforeFirstAcc,
        UDPRSend.isBeforeFirstAcc_atPacket]
      by_cases first : acked = 0 <;> simp [first]
  | waitRCVD =>
      rw [ignores_waitRCVD_iff knows fits nonempty]
      simp only [udprClientHandleRCVD_conacc]
      simp
  | _ => exact awaits.elim

end Client

section Server

variable {s : UDPServer}

/-- A session with retransmission that is served by its client's datagram. -/
theorem UDPServer.step_client {session : UDPRSession} (mode : s.mode = .udpr session)
    {bytes : List UInt8} (fits : bytes.length ≤ receiveBufforSize) (nonempty : bytes ≠ [])
    (uninit : ServerUninit) (conacc : SendTo) :
    udpServerHandler.step s (.recvfrom (.datagram session.currClientAddr bytes) uninit conacc) =
      (s.afterUDPR (udprDataReceiveBody session session.currClientAddr uninit bytes).1,
        (udprDataReceiveBody session session.currClientAddr uninit bytes).2) := by
  show UDPServer.step s (.recvfrom (.datagram session.currClientAddr bytes) uninit conacc) = _
  simp only [UDPServer.step, mode]
  rw [udprDataReceivePass_client session _ uninit fits nonempty]

/-- A session that waits on is the session it was. -/
theorem UDPServer.afterUDPR_waiting {session : UDPRSession} (mode : s.mode = .udpr session)
    (client : SockAddr) :
    s.afterUDPR ⟨.waiting session, client⟩ = { s with udprClientAddress := client } := by
  obtain ⟨_, _, _, _, _⟩ := s
  cases mode
  rfl

/-- **The server ignores every old packet of the session.** -/
theorem UDPServer.ignores_data {session : UDPRSession} (mode : s.mode = .udpr session)
    {id : UInt64} (stale : id < session.currPackageId) {payload : List UInt8}
    (short : payload.length ≤ maxAllowedPacketSize) (uninit : ServerUninit) (conacc : SendTo) :
    udpServerHandler.step s (.recvfrom (.datagram session.currClientAddr
        (dataBytes session.conn.sessionId id payload)) uninit conacc) =
      ({ s with udprClientAddress := session.currClientAddr }, []) := by
  rw [UDPServer.step_client mode (fits_dataBytes _ _ short) (dataBytes_ne_nil _ _ _),
    udprDataReceiveBody_stale session _ uninit stale short, UDPServer.afterUDPR_waiting mode]

/-- The server ignores a `CONN` exactly as long as its flag is set. -/
theorem UDPServer.ignores_conn_iff {session : UDPRSession} (mode : s.mode = .udpr session)
    (sessionId total : UInt64) (protocol : UInt8) (uninit : ServerUninit) (conacc : SendTo) :
    udpServerHandler.step s (.recvfrom (.datagram session.currClientAddr
        (initCONN sessionId protocol total).store) uninit conacc) =
      ({ s with udprClientAddress := session.currClientAddr }, []) ↔
      session.isFirstDATAPacket = true := by
  have fits : (initCONN sessionId protocol total).store.length ≤ receiveBufforSize := by
    rw [CONN.length_store]
    decide
  rw [UDPServer.step_client mode fits (by simp), udprDataReceiveBody_conn]
  by_cases first : session.isFirstDATAPacket = true
  · rw [if_pos first, UDPServer.afterUDPR_waiting mode]
    exact iff_of_true rfl first
  · rw [if_neg first]
    refine iff_of_false ?_ first
    intro same
    have idle := congrArg (·.1.mode) same
    rw [show (s.afterUDPR _).mode = .idle from rfl] at idle
    exact nomatch idle.trans mode

/-- The flag of the loop with retransmission is set until a packet is accepted. -/
def UDPRSession.FirstFlag (session : UDPRSession) : Prop :=
  session.isFirstDATAPacket = true ↔ session.delivered = []

def ServerMode.FirstFlag : ServerMode → Prop
  | .udpr session => session.FirstFlag
  | _ => True

theorem udprDataReceivePass_firstFlag {session : UDPRSession} (flag : session.FirstFlag)
    (clientAddress : SockAddr) (r : RecvFrom) (uninit : ServerUninit) :
    (udprDataReceivePass session clientAddress r uninit).1.flow.session.FirstFlag := by
  rcases udprDataReceivePass_cases session clientAddress r uninit with
    ⟨src, payload, -, -, accepted⟩ | ⟨⟨nbr, same⟩, -⟩
  · rw [accepted, (udprDataReceiveLoop_cases _ _).1]
    refine iff_of_false Bool.false_ne_true ?_
    exact List.append_ne_nil_of_right_ne_nil _ (List.cons_ne_nil _ _)
  · rw [same]
    exact flag

theorem UDPServer.firstFlag_afterUDPR (s : UDPServer) {receiving : Receiving UDPRSession}
    (flag : receiving.flow.session.FirstFlag) : (s.afterUDPR receiving).mode.FirstFlag := by
  obtain ⟨flow, clientAddress⟩ := receiving
  cases flow with
  | waiting session => exact flag
  | returned session => trivial

theorem UDPServer.firstFlag_afterUDP (s : UDPServer) (receiving : Receiving UDPSession) :
    (s.afterUDP receiving).mode.FirstFlag := by
  obtain ⟨flow, clientAddress⟩ := receiving
  cases flow <;> trivial

theorem UDPServer.firstFlag_openSession (flag : s.mode.FirstFlag) (conn : CONN)
    (client : SockAddr) : (s.openSession conn client).1.mode.FirstFlag := by
  simp only [UDPServer.openSession]
  split
  · exact UDPServer.firstFlag_afterUDP _ _
  split
  · refine UDPServer.firstFlag_afterUDPR _ ?_
    rw [(udprDataReceiveLoop_cases _ _).1]
    exact iff_of_true rfl rfl
  · exact flag

theorem UDPServer.firstFlag_next (flag : s.mode.FirstFlag) (e : ServerEvent) :
    (udpServerHandler.next s e).mode.FirstFlag := by
  obtain ⟨mode, udpClientAddress, udprClientAddress, finish, ended⟩ := s
  cases e with
  | catchInt => exact flag
  | recvfrom r uninit conacc =>
      cases mode with
      | idle =>
          show (UDPServer.onIdle _ r uninit conacc).1.mode.FirstFlag
          simp only [UDPServer.onIdle]
          split
          · split
            · exact flag
            split
            · exact flag
            · exact UDPServer.firstFlag_openSession flag _ _
          · split
            · trivial
            · exact flag
          · exact flag
      | udp session => exact UDPServer.firstFlag_afterUDP _ _
      | udpr session =>
          exact UDPServer.firstFlag_afterUDPR _ (udprDataReceivePass_firstFlag flag _ _ _)
      | finished => trivial

end Server

theorem udpr_run_firstFlag {s : Duplex UDPRClient UDPServer Datagram Reply}
    (run : UDPRRun args client ⟨.start errno, .start, [], []⟩ s) : s.right.mode.FirstFlag := by
  refine Duplex.Reachable.invariant (I := fun s => s.right.mode.FirstFlag) run trivial ?_ ?_
  · intro s e before _
    exact before
  · intro s e before _
    exact UDPServer.firstFlag_next before e

/-! ## Old packets of the data phase -/

/-- **Which old packets of the data phase are harmless.** In every run, the server ignores
an old `DATA` packet of its session. The client ignores an `ACC` it already had exactly
when the id is below its current one, or, once it waits for `RCVD`, zero. -/
theorem stale_data_phase (args : ClientArgs) (client : SockAddr) (errno : Errno)
    {s : Duplex UDPRClient UDPServer Datagram Reply}
    (run : UDPRRun args client ⟨.start errno, .start, [], []⟩ s) :
    (∀ session, s.right.mode = .udpr session → ∀ id payload, id < session.currPackageId →
      payload.length ≤ maxAllowedPacketSize → ∀ uninit conacc,
        udpServerHandler.step s.right (.recvfrom (.datagram session.currClientAddr
            (dataBytes session.conn.sessionId id payload)) uninit conacc) =
          ({ s.right with udprClientAddress := session.currClientAddr }, [])) ∧
    (s.left.phase.Awaits → ∀ id : UInt64, id.toNat < s.left.acked →
      (s.left.Ignores args (initACC args.sessionId id).store ↔ s.left.phase.Behind id)) := by
  refine ⟨?_, ?_⟩
  · intro session mode id payload stale short uninit conacc
    exact UDPServer.ignores_data mode stale short uninit conacc
  · intro awaits id _
    exact UDPRClient.ignores_acc_iff (udpr_run_client run).2 awaits id

/-- A vector of two packets, the second with one byte. -/
def twoPackets : ClientArgs where
  serverAddress := ⟨1, 1⟩
  vec := ⟨List.replicate 64001 65 ++ List.replicate 1535 0, 65536, 64001, 64001⟩
  sessionId := 7

/-- Both packets are acknowledged, and the client waits for `RCVD`. -/
theorem twoPackets_run : ∃ s, UDPRRun twoPackets oneByteClient ⟨.start (.other 0), .start, [], []⟩ s ∧
    s.left.phase = .waitRCVD ∧ s.left.acked = 2 := by
  have size : size32 twoPackets = 64001 := rfl
  have total : twoPackets.vec.occupiedSize.toNat = 64001 := rfl
  have more : ∀ i < 2, UDPRSend.HasMore twoPackets i := by
    intro i below
    rw [UDPRSend.hasMore_iff, size, total, sendBuffSize]
    omega
  have done : ¬ UDPRSend.HasMore twoPackets 2 := by
    rw [UDPRSend.hasMore_iff, size, total, sendBuffSize]
    omega
  obtain ⟨s, run, lossless⟩ := lossless_run twoPackets oneByteClient (.other 0) (by decide) more
  obtain ⟨loc, data, phase, same⟩ := lossless.phase
  refine ⟨s, run, ?_, lossless.acked⟩
  rcases udprClientSendDATA_cases data same with ⟨another, -⟩ | ⟨-, ended⟩
  · exact absurd another done
  · rw [phase, ended]

/-- The first `ACC` of two is ignored when it comes again at the end. -/
theorem stale_data_phase_twoPackets : ∃ s, UDPRRun twoPackets oneByteClient
      ⟨.start (.other 0), .start, [], []⟩ s ∧ s.left.phase = .waitRCVD ∧
    s.left.Ignores twoPackets (initACC 7 0).store := by
  obtain ⟨s, run, phase, acked⟩ := twoPackets_run
  refine ⟨s, run, phase, ((stale_data_phase twoPackets oneByteClient (.other 0) run).2 ?_ 0
    (by rw [acked]; decide)).mpr ?_⟩
  · rw [phase]
    trivial
  · rw [phase]
    rfl

/-- The second one is not. -/
theorem stale_acc_ends_session : ¬ ∀ s, UDPRRun twoPackets oneByteClient
      ⟨.start (.other 0), .start, [], []⟩ s →
    (∀ session, s.right.mode = .udpr session → ∀ id payload, id < session.currPackageId →
      payload.length ≤ maxAllowedPacketSize → ∀ uninit conacc,
        udpServerHandler.step s.right (.recvfrom (.datagram session.currClientAddr
            (dataBytes session.conn.sessionId id payload)) uninit conacc) =
          ({ s.right with udprClientAddress := session.currClientAddr }, [])) ∧
    (s.left.phase.Awaits → ∀ id : UInt64, id.toNat < s.left.acked →
      s.left.Ignores twoPackets (initACC twoPackets.sessionId id).store) := by
  intro harmless
  obtain ⟨s, run, phase, acked⟩ := twoPackets_run
  have awaits : s.left.phase.Awaits := by
    rw [phase]
    trivial
  have ignored := (harmless s run).2 awaits 1 (by rw [acked]; decide)
  rw [UDPRClient.ignores_acc_iff (udpr_run_client run).2 awaits, phase] at ignored
  exact absurd (show (1 : UInt64) = 0 from ignored) (by decide)

/-! ## Old packets of the handshake -/

/-- **Until when old packets of the handshake are harmless.** In every run, the server
ignores the `CONN` of its session exactly until it has accepted a packet, and the client
its `CONACC` exactly while it waits for its first `ACC`. -/
theorem stale_handshake (args : ClientArgs) (client : SockAddr) (errno : Errno)
    {s : Duplex UDPRClient UDPServer Datagram Reply}
    (run : UDPRRun args client ⟨.start errno, .start, [], []⟩ s) :
    (∀ session, s.right.mode = .udpr session → ∀ uninit conacc,
      (udpServerHandler.step s.right (.recvfrom (.datagram session.currClientAddr
          (initCONN session.conn.sessionId session.conn.protocolId
            session.conn.nbrOfBytesToBeSent).store) uninit conacc) =
        ({ s.right with udprClientAddress := session.currClientAddr }, []) ↔
      session.delivered = [])) ∧
    (s.left.phase.Awaits →
      (s.left.Ignores args (initCONACC args.sessionId).store ↔
        s.left.phase ≠ .waitRCVD ∧ s.left.acked = 0)) := by
  refine ⟨?_, ?_⟩
  · intro session mode uninit conacc
    have flag := udpr_run_firstFlag run
    rw [mode] at flag
    rw [UDPServer.ignores_conn_iff mode]
    exact flag
  · intro awaits
    obtain ⟨behind, knows⟩ := udpr_run_client run
    exact UDPRClient.ignores_conacc_iff knows behind awaits

/-- One byte, up to its only packet: the client waits for the `ACC`. -/
def oneByteSent : Duplex UDPRClient UDPServer Datagram Reply :=
  (Duplex.play (udprClientHandler oneByte) udpServerHandler
    (network oneByte.serverAddress oneByteClient) ⟨.start (.other 0), .start, [], []⟩
    [clientSends, toServer (initCONN 7 udprProtocol 1).store, toClient (initCONACC 7).store,
      clientSends]).get (by decide +kernel)

/-- There a second `CONACC` is ignored. -/
theorem stale_handshake_oneByte :
    oneByteSent.left.Ignores oneByte (initCONACC oneByte.sessionId).store := by
  have awaits : oneByteSent.left.phase.Awaits := by
    have waits : oneByteSent.left.phase = .waitACC (UDPRSend.atPacket oneByte 0).filled
        ⟨dataHeader 7 0 1, [65]⟩ := by decide +kernel
    rw [waits]
    trivial
  exact ((stale_handshake oneByte oneByteClient (.other 0)
    (Duplex.get_play_reachable _)).2 awaits).mpr (by decide +kernel)

/-- One byte, up to its only `ACC`: the client waits for `RCVD`. -/
def oneByteAcked : Duplex UDPRClient UDPServer Datagram Reply :=
  (Duplex.play (udprClientHandler oneByte) udpServerHandler
    (network oneByte.serverAddress oneByteClient) ⟨.start (.other 0), .start, [], []⟩
    [clientSends, toServer (initCONN 7 udprProtocol 1).store, toClient (initCONACC 7).store,
      clientSends, toServer (dataBytes 7 0 [65]), toClient (initACC 7 0).store]).get
    (by decide +kernel)

/-- There a second `CONACC` ends the session. -/
theorem stale_conacc_ends_session :
    ¬ ∀ s, UDPRRun oneByte oneByteClient ⟨.start (.other 0), .start, [], []⟩ s →
      (∀ session, s.right.mode = .udpr session → ∀ uninit conacc,
        udpServerHandler.step s.right (.recvfrom (.datagram session.currClientAddr
            (initCONN session.conn.sessionId session.conn.protocolId
              session.conn.nbrOfBytesToBeSent).store) uninit conacc) =
          ({ s.right with udprClientAddress := session.currClientAddr }, [])) ∧
      (s.left.phase.Awaits → s.left.Ignores oneByte (initCONACC oneByte.sessionId).store) := by
  intro harmless
  have run : UDPRRun oneByte oneByteClient ⟨.start (.other 0), .start, [], []⟩ oneByteAcked :=
    Duplex.get_play_reachable _
  have phase : oneByteAcked.left.phase = .waitRCVD := by decide +kernel
  have awaits : oneByteAcked.left.phase.Awaits := by
    rw [phase]
    trivial
  obtain ⟨behind, knows⟩ := udpr_run_client run
  exact ((UDPRClient.ignores_conacc_iff knows behind awaits).mp
    ((harmless _ run).2 awaits)).1 phase

end Ppcb
