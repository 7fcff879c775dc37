import Ppcb.Agreement

/-!
# Agreement with retransmission

The client with retransmission is a `Sender` (`udprSender`), so together with the server
it refines the transfer. `udpr_agreement` says what that means for the variables of
the two programs.
-/

set_option autoImplicit false

namespace Ppcb

open ByteOrder CString Reactive Relation

/-- The packets of the client with retransmission. -/
def udprCut (args : ClientArgs) : Cut where
  sessionId := args.sessionId
  total := args.vec.occupiedSize
  chunk := udprChunk args
  short i := by
    rw [length_udprChunk]
    exact Nat.min_le_right _ _
  within := chunks_within (length_udprChunk args)

theorem UDPRMove.confirms {args : ClientArgs} {buff : List UInt8} {p p' : UDPRPhase} {n k : ℕ}
    {out : List Datagram} (move : UDPRMove args buff p p' n out) (before : p.At args k)
    (small : p.traffic k < 2 ^ 64) :
    Confirms (udprCut args) buff k p.succeeded (k + n) p'.succeeded := by
  cases move with
  | stay => exact .none _ _
  | fail _ ret running failure =>
      have still : p.succeeded = false := by
        rw [Bool.eq_false_iff, ne_eq, UDPRPhase.succeeded_iff]
        exact running _
      have ended : (UDPRPhase.ended ret).succeeded = false := by
        rw [Bool.eq_false_iff, ne_eq, UDPRPhase.succeeded_iff]
        exact fun same => failure (UDPRPhase.ended.inj same)
      rw [still, ended]
      exact .none _ _
  | connect => exact .none _ _
  | connectAgain => exact .none _ _
  | connected data =>
      rw [udprClientSendDATA_succeeded]
      exact .none _ _
  | send => exact .none _ _
  | sendAgain loc data =>
      rw [udprClientSendDATA_succeeded]
      exact .none _ _
  | acknowledged loc data acc =>
      obtain ⟨rfl, -, -⟩ := before
      rw [udprClientSendDATA_succeeded]
      refine .acc _ _ (lt_trans (Nat.lt_add_of_pos_right Nat.two_pos) small) ?_
      rwa [UDPRSend.filled_currPackageId, UDPRSend.currPackageId_atPacket] at acc
  | confirmed rcvd => exact .rcvd _ _ rcvd

def udprSender (args : ClientArgs) :
    Sender (udprClientHandler args) (udprCut args) args.serverAddress where
  Ok s := s.phase.At args s.acked
  confirmed s := s.acked
  finished s := s.phase.succeeded
  traffic s := s.phase.traffic s.acked
  protocol := udprProtocol
  ok_next _ e ok := UDPRClient.at_next e ok
  traffic_next s e ok := by
    obtain ⟨n, acked, move⟩ := s.step_move args e
    rw [acked]
    exact move.traffic ok
  sent s e ok d member := by
    obtain ⟨n, acked, move⟩ := s.step_move args e
    obtain ⟨dest, conn | ⟨count, data⟩⟩ := move.sent ok d member
    · exact ⟨dest, .inl conn⟩
    · exact ⟨dest, .inr ⟨_, Nat.le_of_eq count.symm, data⟩⟩
  confirms s e ok small := by
    obtain ⟨n, acked, move⟩ := s.step_move args e
    rw [acked]
    exact move.confirms ok small

/-! ## Agreement -/

/-- One step of the client with retransmission and the server. -/
abbrev UDPRStep (args : ClientArgs) (clientAddress : SockAddr) :
    Duplex UDPRClient UDPServer Datagram Reply → Duplex UDPRClient UDPServer Datagram Reply →
      Prop :=
  Duplex.Step (udprClientHandler args) udpServerHandler
    (network args.serverAddress clientAddress)

/-- A run of the client with retransmission and the server. -/
abbrev UDPRRun (args : ClientArgs) (clientAddress : SockAddr) :
    Duplex UDPRClient UDPServer Datagram Reply → Duplex UDPRClient UDPServer Datagram Reply →
      Prop :=
  Duplex.Reachable (udprClientHandler args) udpServerHandler
    (network args.serverAddress clientAddress)

/-- **The client with retransmission and the server agree.** In every run in which the
client sends fewer than `2 ^ 64` datagrams, each session holds the first packets in order,
the client is past a packet only when a session has accepted it, and a client that ended
in success has a session with all the bytes it announced. -/
theorem udpr_agreement (args : ClientArgs) (clientAddress : SockAddr) (errno : Errno)
    {s : Duplex UDPRClient UDPServer Datagram Reply}
    (run : UDPRRun args clientAddress ⟨.start errno, .start, [], []⟩ s)
    (fewer : s.fromLeft.length < 2 ^ 64) :
    (∀ session ∈ s.right.sessions, session.conn.sessionId = args.sessionId →
      session.delivered = (List.range session.currPackageId.toNat).map (udprChunk args)) ∧
    (∀ loc data, s.left.phase = .sendDATA loc data ∨ s.left.phase = .waitACC loc data →
      loc.currPackageId.toNat = s.left.acked) ∧
    (∀ i < s.left.acked, ∃ session ∈ s.right.sessions,
      session.conn.sessionId = args.sessionId ∧
        session.delivered[i]? = some (udprChunk args i)) ∧
    (s.left.phase = .ended .SUCCESS → ∃ session ∈ s.right.sessions,
      session.conn.sessionId = args.sessionId ∧
        session.delivered.flatten.length = args.vec.occupiedSize.toNat) := by
  have joint := (udprSender args).joint_run
    (show (udprSender args).Ok (.start errno) from rfl) ⟨rfl, rfl, rfl⟩ run fewer
  refine ⟨fun session member _ => joint.delivered session member, ?_, joint.confirmed, ?_⟩
  · intro loc data phase
    have at_packet : s.left.phase.At args s.left.acked := joint.client
    have small := lt_of_le_of_lt joint.traffic fewer
    have below : s.left.acked < 2 ^ 64 ∧ loc = (UDPRSend.atPacket args s.left.acked).filled := by
      rcases phase with phase | phase <;>
        simp only [udprSender, phase, UDPRPhase.traffic, UDPRPhase.At] at small at_packet <;>
        exact ⟨by omega, at_packet.1⟩
    rw [below.2, UDPRSend.filled_currPackageId, UDPRSend.currPackageId_atPacket,
      UInt64.toNat_ofNat_of_lt' below.1]
  · intro success
    exact joint.completed ((UDPRPhase.succeeded_iff _).mpr success)

/-- In every run the client is where its acknowledged packets put it, and takes no stranger
for the server. -/
theorem udpr_run_client {args : ClientArgs} {clientAddress : SockAddr} {errno : Errno}
    {s : Duplex UDPRClient UDPServer Datagram Reply}
    (run : UDPRRun args clientAddress ⟨.start errno, .start, [], []⟩ s) :
    s.left.phase.At args s.left.acked ∧ s.left.wait.Knows args.serverAddress := by
  refine Duplex.Reachable.invariant
    (I := fun s => s.left.phase.At args s.left.acked ∧ s.left.wait.Knows args.serverAddress)
    run ⟨rfl, .inl rfl⟩ ?_ ?_
  · intro s e before possible
    exact ⟨UDPRClient.at_next e before.1,
      UDPRClient.knows_next before.2 (network_fromServer possible)⟩
  · intro s e before _
    exact before

/-- One byte, with every datagram delivered once. -/
def oneByteUDPR : Duplex UDPRClient UDPServer Datagram Reply :=
  (Duplex.play (udprClientHandler oneByte) udpServerHandler
    (network oneByte.serverAddress oneByteClient) ⟨.start (.other 0), .start, [], []⟩
    [clientSends, toServer (initCONN 7 udprProtocol 1).store, toClient (initCONACC 7).store,
      clientSends, toServer (dataBytes 7 0 [65]), toClient (initACC 7 0).store,
      toClient (initRCVD 7).store]).get (by decide +kernel)

/-- The byte arrives, and the client knows it. -/
theorem udpr_agreement_oneByte : oneByteUDPR.left.phase = .ended .SUCCESS ∧
    ∃ session ∈ oneByteUDPR.right.sessions, session.conn.sessionId = 7 ∧
      session.delivered.flatten.length = 1 := by
  have success : oneByteUDPR.left.phase = .ended .SUCCESS := by decide +kernel
  exact ⟨success, (udpr_agreement oneByte oneByteClient (.other 0)
    (Duplex.get_play_reachable _) (by decide +kernel)).2.2.2 success⟩

end Ppcb
