import Ppcb.Sessions
import Ppcb.ReplyDestination

/-!
# `DATA` that belongs to no session

A `DATA` packet from a stranger is answered with an `RJT` of its own ids while a session is
active. An idle server answers it with `CONRJT`, and the receive loops answer a packet of
their client that carries another session id with an `RJT` of the ids of the session
(`stray_data_answered_iff`).
-/

set_option autoImplicit false

namespace Ppcb

open ByteOrder CString Reactive

section Stray

variable {sessionId packageId : UInt64} {payload : List UInt8}

theorem initRJT_inj {sessionId' packageId' : UInt64}
    (same : (initRJT sessionId packageId).store = (initRJT sessionId' packageId').store) :
    sessionId = sessionId' := by
  have ids := congrArg sessionOf same
  simpa only [initRJT, store_initNumbered, sessionOf_cons] using ids

/-- A `DATA` packet of a stranger is rejected with its own ids. -/
theorem answerForeign_data (src : SockAddr) (uninit : ServerUninit) :
    answerForeign src uninit (dataBytes sessionId packageId payload) =
      [sendRJT .readDataToBuffer src sessionId packageId] := by
  have typeId : (uninit.conn.receive (dataBytes sessionId packageId payload)).packageTypeId =
      dataId := by
    have header : 1 ≤ (dataBytes sessionId packageId payload).length :=
      List.length_pos_of_ne_nil (dataBytes_ne_nil _ _ _)
    rw [CONN.receive_packageTypeId _ header, typeOf_dataBytes]
  rw [answerForeign, typeId, if_neg (by decide), if_pos rfl, DataInfo.receive_dataBytes]

variable (sessionId packageId) in
/-- An idle server takes a `DATA` packet for a `CONN` that is not correct. -/
theorem UDPServer.onIdle_data (s : UDPServer) (src : SockAddr) (uninit : ServerUninit)
    (conacc : SendTo) (fits : payload.length ≤ maxAllowedPacketSize) :
    ∃ id, s.onIdle (.datagram src (dataBytes sessionId packageId payload)) uninit conacc =
      (s, [sendCONRJT .serverHandler src id]) := by
  have length : (dataBytes sessionId packageId payload).length ≠ sizeofCONN := by
    rw [length_dataBytes]
    simp only [sizeofDataInfo, sizeofCONN]
    omega
  have own : (none : Option SockAddr).getD src = src := rfl
  refine ⟨(uninit.conn.receive (dataBytes sessionId packageId payload)).sessionId, ?_⟩
  simp only [onIdle, readDataToBuffer_client _ _ _ (fits_dataBytes _ _ fits)
    (dataBytes_ne_nil _ _ _) own, checkIfCorrectCONN, if_pos length]
  rfl

/-- A packet of the client with another session id is rejected with the ids of the session. -/
theorem udpDataReceiveBody_stray (s : UDPSession) (clientAddress : SockAddr)
    (uninit : ServerUninit) (other : sessionId ≠ s.conn.sessionId) :
    udpDataReceiveBody s clientAddress uninit (dataBytes sessionId packageId payload) =
      (⟨.returned s, clientAddress⟩,
        [sendRJT .dataReceive clientAddress s.conn.sessionId packageId]) := by
  simp only [udpDataReceiveBody, checkIfCorrectDATAPacket, DataInfo.receive_dataBytes, ne_eq,
    not_true_eq_false, if_false, other, not_false_eq_true, if_true, reduceCtorEq]

theorem udprDataReceiveBody_stray (s : UDPRSession) (clientAddress : SockAddr)
    (uninit : ServerUninit) (other : sessionId ≠ s.conn.sessionId) :
    udprDataReceiveBody s clientAddress uninit (dataBytes sessionId packageId payload) =
      (⟨.returned s, clientAddress⟩,
        [sendRJT .dataReceive clientAddress s.conn.sessionId s.currPackageId]) := by
  simp only [udprDataReceiveBody, checkIfCorrectDATAPacket, DataInfo.receive_dataBytes, ne_eq,
    not_true_eq_false, if_false, other, not_false_eq_true, if_true, handleRetVal]

end Stray

/-! ## The answer in every mode -/

namespace UDPServer

/-- A `DATA` packet from this address, with this session id, belongs to no session that is
active. -/
def Stray (s : UDPServer) (src : SockAddr) (sessionId : UInt64) : Prop :=
  s.mode ≠ .finished ∧ ∀ session ∈ s.mode.current,
    src ≠ session.currClientAddr ∨ sessionId ≠ session.conn.sessionId

/-- One `RJT` with these ids is sent to this address, and nothing else. -/
def RejectsOnce (src : SockAddr) (sessionId packageId : UInt64) (replies : List Reply) : Prop :=
  replies.map (fun reply => (reply.dest, reply.bytes)) =
    [(src, (initRJT sessionId packageId).store)]

/-- If the event is a `DATA` packet that belongs to no session, it is rejected with its own
ids. -/
def AnswersStray (s : UDPServer) (e : ServerEvent) : Prop :=
  ∀ src sessionId packageId payload uninit conacc, payload.length ≤ maxAllowedPacketSize →
    e = .recvfrom (.datagram src (dataBytes sessionId packageId payload)) uninit conacc →
    s.Stray src sessionId → RejectsOnce src sessionId packageId (udpServerHandler.emit s e)

/-- If the event is a `DATA` packet that belongs to no session, a session is active, and the
packet comes from another address than that of its client. -/
def StrayIsForeign (s : UDPServer) (e : ServerEvent) : Prop :=
  ∀ src sessionId packageId payload uninit conacc, payload.length ≤ maxAllowedPacketSize →
    e = .recvfrom (.datagram src (dataBytes sessionId packageId payload)) uninit conacc →
    s.Stray src sessionId → ∃ session ∈ s.mode.current, src ≠ session.currClientAddr

variable {s : UDPServer} {src : SockAddr} {sessionId packageId : UInt64} {payload : List UInt8}

/-- One reply is the one that is asked for, or it is not. -/
theorem rejectsOnce_singleton (reply : Reply) :
    RejectsOnce src sessionId packageId [reply] ↔
      reply.dest = src ∧ reply.bytes = (initRJT sessionId packageId).store := by
  rw [RejectsOnce, List.map_singleton, List.cons.injEq, Prod.mk.injEq, and_iff_left rfl]

/-- `read_data_to_buffer` rejects what a stranger sends. -/
theorem readDataToBuffer_stranger {client : SockAddr} (clientAddress : SockAddr)
    (uninit : ServerUninit) (fits : payload.length ≤ maxAllowedPacketSize)
    (foreign : src ≠ client) :
    readDataToBuffer clientAddress (some client) uninit
        (.datagram src (dataBytes sessionId packageId payload)) =
      ⟨src, [sendRJT .readDataToBuffer src sessionId packageId], none⟩ := by
  rw [readDataToBuffer_foreign _ _ _ foreign, List.take_of_length_le (fits_dataBytes _ _ fits),
    answerForeign_data]

/-- An `RJT` with the ids of the session is no answer to a stray packet. -/
theorem not_rejectsOnce {origin : Origin} {dest : SockAddr} {sessionId' packageId' : UInt64}
    (other : sessionId ≠ sessionId') :
    ¬ RejectsOnce src sessionId packageId [sendRJT origin dest sessionId' packageId'] := by
  rw [rejectsOnce_singleton]
  rintro ⟨-, same⟩
  exact other (initRJT_inj same).symm

/-- **Who sent it decides**: a stray packet is rejected with its own ids when it comes from
another address than that of the client. -/
theorem rejectsOnce_iff (uninit : ServerUninit) (conacc : SendTo)
    (fits : payload.length ≤ maxAllowedPacketSize) (stray : s.Stray src sessionId) :
    RejectsOnce src sessionId packageId (udpServerHandler.emit s
        (.recvfrom (.datagram src (dataBytes sessionId packageId payload)) uninit conacc)) ↔
      ∃ session ∈ s.mode.current, src ≠ session.currClientAddr := by
  obtain ⟨running, strange⟩ := stray
  cases mode : s.mode with
  | finished => exact absurd mode running
  | idle =>
      obtain ⟨id, answer⟩ := s.onIdle_data sessionId packageId src uninit conacc fits
      simp only [Machine.emit, udpServerHandler, step, mode, answer]
      refine iff_of_false ?_ ?_
      · rw [rejectsOnce_singleton]
        rintro ⟨-, same⟩
        have length := congrArg List.length same
        rw [NumberedPacket.length_store] at length
        exact absurd (length.symm.trans (SessionPacket.length_store _)) (by decide)
      · rintro ⟨session, active, -⟩
        cases active
  | udp session =>
      have stray := strange session (by rw [mode]; exact List.mem_singleton_self _)
      simp only [Machine.emit, udpServerHandler, step, mode, ServerMode.current,
        List.mem_singleton, exists_eq_left]
      by_cases own : src = session.currClientAddr
      · have other := stray.resolve_left (not_not.mpr own)
        rw [own, udpDataReceivePass_client _ _ _ (fits_dataBytes _ _ fits)
          (dataBytes_ne_nil _ _ _), udpDataReceiveBody_stray _ _ _ other]
        exact iff_of_false (not_rejectsOnce other) fun foreign => foreign rfl
      · rw [udpDataReceivePass, readDataToBuffer_stranger _ _ fits own]
        exact iff_of_true ((rejectsOnce_singleton _).mpr ⟨rfl, rfl⟩) own
  | udpr session =>
      have stray := strange session.toUDPSession (by rw [mode]; exact List.mem_singleton_self _)
      simp only [Machine.emit, udpServerHandler, step, mode, ServerMode.current,
        List.mem_singleton, exists_eq_left]
      by_cases own : src = session.currClientAddr
      · have other := stray.resolve_left (not_not.mpr own)
        rw [own, udprDataReceivePass_client _ _ _ (fits_dataBytes _ _ fits)
          (dataBytes_ne_nil _ _ _), udprDataReceiveBody_stray _ _ _ other]
        exact iff_of_false (not_rejectsOnce other) fun foreign => foreign rfl
      · rw [udprDataReceivePass, readDataToBuffer_stranger _ _ fits own]
        exact iff_of_true ((rejectsOnce_singleton _).mpr ⟨rfl, rfl⟩) own

end UDPServer

/-- **Stray `DATA` is answered as such** while a session is active, when it comes from another
address than that of the client, and otherwise not. -/
theorem stray_data_answered_iff (events : List ServerEvent) :
    udpServerHandler.Along UDPServer.AnswersStray .start events ↔
      udpServerHandler.Along UDPServer.StrayIsForeign .start events := by
  refine Machine.along_congr (I := fun _ => True) (fun _ _ _ => trivial) ?_ trivial events
  intro s e _
  constructor
  · intro answers src sessionId packageId payload uninit conacc fits equal stray
    have rejected := answers src sessionId packageId payload uninit conacc fits equal stray
    rw [equal] at rejected
    exact (UDPServer.rejectsOnce_iff uninit conacc fits stray).mp rejected
  · intro foreign src sessionId packageId payload uninit conacc fits equal stray
    have active := foreign src sessionId packageId payload uninit conacc fits equal stray
    rw [equal]
    exact (UDPServer.rejectsOnce_iff uninit conacc fits stray).mpr active

/-- A client that sends its last packet again after the server went idle is answered with
`CONRJT`, and a packet of the client with another session id is rejected with the id of the
session. -/
theorem stray_data_not_answered :
    ¬ udpServerHandler.Along UDPServer.AnswersStray .start
        [correctCONN ⟨2, 2⟩ 7 udpProtocol 1 .zero,
          .recvfrom (.datagram ⟨2, 2⟩ (dataBytes 7 0 [65])) .zero .sent,
          .recvfrom (.datagram ⟨2, 2⟩ (dataBytes 7 0 [65])) .zero .sent] ∧
      ¬ udpServerHandler.Along UDPServer.AnswersStray .start
        [correctCONN ⟨2, 2⟩ 7 udpProtocol 1 .zero,
          .recvfrom (.datagram ⟨2, 2⟩ (dataBytes 8 0 [65])) .zero .sent] ∧
      ¬ udpServerHandler.Along UDPServer.AnswersStray .start
        [correctCONN ⟨2, 2⟩ 7 udprProtocol 1 .zero,
          .recvfrom (.datagram ⟨2, 2⟩ (dataBytes 8 0 [65])) .zero .sent] := by
  refine ⟨?_, ?_, ?_⟩
  · rintro ⟨-, -, answers, -⟩
    have rejected := answers ⟨2, 2⟩ 7 0 [65] .zero .sent (by decide) rfl ⟨by decide, by decide⟩
    rw [UDPServer.RejectsOnce] at rejected
    exact absurd rejected (by decide)
  · rintro ⟨-, answers, -⟩
    have rejected := answers ⟨2, 2⟩ 8 0 [65] .zero .sent (by decide) rfl ⟨by decide, by decide⟩
    rw [UDPServer.RejectsOnce] at rejected
    exact absurd rejected (by decide)
  · rintro ⟨-, answers, -⟩
    have rejected := answers ⟨2, 2⟩ 8 0 [65] .zero .sent (by decide) rfl ⟨by decide, by decide⟩
    rw [UDPServer.RejectsOnce] at rejected
    exact absurd rejected (by decide)

end Ppcb
