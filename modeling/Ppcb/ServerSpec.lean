import Ppcb.ServerUDP
import Ppcb.SendLoops

/-!
# What the server accepts, and what a pass of a receive loop does

A packet is accepted in exactly one form: the header of the session with the id the loop
is at, and a payload of the announced size (`checkIfCorrectDATAPacket_success_iff`). One
pass of a receive loop over an answer of `recvfrom` either accepts such a packet or leaves
the session as it was, and then nothing it sends confirms anything new
(`udpDataReceivePass_cases`, `udprDataReceivePass_cases`).
-/

set_option autoImplicit false

namespace Ppcb

open ByteOrder CString Reactive

/-! ## The packet that is accepted -/

theorem dataBytes_eq (s p : UInt64) (payload : List UInt8) :
    dataBytes s p payload = dataId :: (net64 s ++ (net64 p ++
      (net32 (UInt32.ofNat payload.length) ++ payload))) := by
  simp [dataBytes]

@[simp] theorem length_dataBytes (s p : UInt64) (payload : List UInt8) :
    (dataBytes s p payload).length = sizeofDataInfo + payload.length := by
  rw [dataBytes, List.length_append, DataInfo.length_store]

@[simp] theorem typeOf_dataBytes (s p : UInt64) (payload : List UInt8) :
    typeOf (dataBytes s p payload) = dataId := by
  rw [dataBytes_eq, typeOf_cons]

@[simp] theorem packageOf_dataBytes (s p : UInt64) (payload : List UInt8) :
    packageOf (dataBytes s p payload) = p := by
  rw [dataBytes_eq, packageOf_cons]

theorem DataInfo.receive_dataBytes (uninit : DataInfo) (s p : UInt64) (payload : List UInt8) :
    uninit.receive (dataBytes s p payload) =
      ⟨dataId, s, p, UInt32.ofNat payload.length⟩ := by
  rw [dataBytes_eq, DataInfo.receive_wire]

theorem toNat_payload {payload : List UInt8} (short : payload.length ≤ maxAllowedPacketSize) :
    (UInt32.ofNat payload.length).toNat = payload.length :=
  UInt32.toNat_ofNat_of_lt' (lt_of_le_of_lt short (by decide))

theorem fits_dataBytes (s p : UInt64) {payload : List UInt8}
    (short : payload.length ≤ maxAllowedPacketSize) :
    (dataBytes s p payload).length ≤ receiveBufforSize := by
  rw [length_dataBytes]
  simp only [sizeofDataInfo, receiveBufforSize, maxAllowedPacketSize] at short ⊢
  omega

theorem dataBytes_ne_nil (s p : UInt64) (payload : List UInt8) : dataBytes s p payload ≠ [] := by
  rw [dataBytes_eq]
  exact List.cons_ne_nil _ _

section Accepted

variable {conn : CONN} {currPackageId : UInt64}

theorem checkIfCorrectDATAPacket_dataBytes (uninit : DataInfo) {payload : List UInt8}
    (short : payload.length ≤ maxAllowedPacketSize) :
    checkIfCorrectDATAPacket (dataBytes conn.sessionId currPackageId payload) conn uninit
        currPackageId =
      (.SUCCESS, ⟨dataId, conn.sessionId, currPackageId, UInt32.ofNat payload.length⟩) := by
  rw [checkIfCorrectDATAPacket, DataInfo.receive_dataBytes]
  simp [toNat_payload short, short]

/-- **Only the packet the loop is at, of the announced size, is accepted.** -/
theorem checkIfCorrectDATAPacket_success_iff (uninit : DataInfo) (buff : List UInt8) :
    (checkIfCorrectDATAPacket buff conn uninit currPackageId).1 = .SUCCESS ↔
      ∃ payload, payload.length ≤ maxAllowedPacketSize ∧
        buff = dataBytes conn.sessionId currPackageId payload := by
  constructor
  · intro success
    simp only [checkIfCorrectDATAPacket] at success
    split at success
    · cases success
    rename_i typeId
    split at success
    · cases success
    rename_i session
    split at success
    · cases success
    rename_i package
    split at success
    · cases success
    rename_i short
    split at success
    · cases success
    rename_i size
    rw [not_not] at typeId session package size
    have header : 21 ≤ buff.length := by
      rw [size]
      exact Nat.le_add_right _ _
    rw [uninit.receive_packageTypeId (by omega)] at typeId
    rw [uninit.receive_sessionId (by omega)] at session
    rw [uninit.receive_packageId (by omega)] at package
    rw [uninit.receive_nbrOfBytesInPacket header] at size short
    have payload : (buff.drop 21).length = (lengthOf buff).toNat := by
      rw [List.length_drop, size, sizeofDataInfo, Nat.add_sub_cancel_left]
    refine ⟨buff.drop 21, by rw [payload]; exact Nat.not_lt.mp short, ?_⟩
    rw [dataBytes_eq, payload, UInt32.ofNat_toNat, ← typeId, ← session, ← package]
    exact eq_data_of_le_length header
  · rintro ⟨payload, short, rfl⟩
    rw [checkIfCorrectDATAPacket_dataBytes uninit short]

end Accepted

theorem checkIfCorrectCONN_initCONN (uninit : CONN) (sessionId total : UInt64) {protocol : UInt8}
    (known : protocol = udpProtocol ∨ protocol = udprProtocol) :
    checkIfCorrectCONN (initCONN sessionId protocol total).store uninit =
      (.SUCCESS, ⟨connId, sessionId, protocol, total⟩) := by
  rw [checkIfCorrectCONN, CONN.length_store, store_initCONN, CONN.receive_wire]
  rcases known with rfl | rfl <;> simp [udpProtocol, udprProtocol]

/-- **Only a `CONN` for one of the two protocols opens a session.** -/
theorem checkIfCorrectCONN_success_iff (uninit : CONN) (buff : List UInt8) :
    (checkIfCorrectCONN buff uninit).1 = .SUCCESS ↔
      ∃ sessionId protocol total, (protocol = udpProtocol ∨ protocol = udprProtocol) ∧
        buff = (initCONN sessionId protocol total).store := by
  constructor
  · intro success
    simp only [checkIfCorrectCONN] at success
    split at success
    · cases success
    rename_i length
    split at success
    · cases success
    rename_i typeId
    split at success
    · cases success
    rename_i protocol
    have length : buff.length = 18 := not_not.mp length
    rw [uninit.receive_eq (by omega), not_not] at typeId
    rw [uninit.receive_eq (by omega)] at protocol
    refine ⟨sessionOf buff, protocolOf buff, totalOf buff, ?_, ?_⟩
    · by_contra unknown
      exact protocol (not_or.mp unknown)
    · rw [store_initCONN, ← typeId]
      exact eq_conn_of_length length
  · rintro ⟨sessionId, protocol, total, known, rfl⟩
    rw [checkIfCorrectCONN_initCONN uninit sessionId total known]

/-! ## Accepting a packet -/

/-- The locals of a session after a packet with this payload was accepted. -/
def UDPSession.accept (s : UDPSession) (payload : List UInt8) : UDPSession :=
  { s with
    currPackageId := s.currPackageId + 1
    bytesRecvd := s.bytesRecvd + (UInt32.ofNat payload.length).toUInt64
    delivered := s.delivered ++ [payload] }

def UDPRSession.accept (s : UDPRSession) (payload : List UInt8) : UDPRSession :=
  { s with toUDPSession := s.toUDPSession.accept payload, isFirstDATAPacket := false }

section Accept

variable (s : UDPSession) (payload : List UInt8)

@[simp] theorem UDPSession.accept_conn : (s.accept payload).conn = s.conn := rfl

@[simp] theorem UDPSession.accept_currClientAddr :
    (s.accept payload).currClientAddr = s.currClientAddr := rfl

@[simp] theorem UDPSession.accept_currPackageId :
    (s.accept payload).currPackageId = s.currPackageId + 1 := rfl

@[simp] theorem UDPSession.accept_bytesRecvd :
    (s.accept payload).bytesRecvd =
      s.bytesRecvd + (UInt32.ofNat payload.length).toUInt64 := rfl

@[simp] theorem UDPSession.accept_delivered :
    (s.accept payload).delivered = s.delivered ++ [payload] := rfl

@[simp] theorem UDPRSession.accept_toUDPSession (s : UDPRSession) :
    (s.accept payload).toUDPSession = s.toUDPSession.accept payload := rfl

end Accept

theorem payloadOf_dataBytes (s p : UInt64) {payload : List UInt8}
    (short : payload.length ≤ maxAllowedPacketSize) (t : UInt8) :
    payloadOf (dataBytes s p payload) ⟨t, s, p, UInt32.ofNat payload.length⟩ = payload := by
  rw [payloadOf, drop_dataBytes, toNat_payload short, List.take_length]

theorem udpDataReceiveBody_accept (s : UDPSession) (clientAddress : SockAddr)
    (uninit : ServerUninit) {payload : List UInt8}
    (short : payload.length ≤ maxAllowedPacketSize) :
    udpDataReceiveBody s clientAddress uninit
        (dataBytes s.conn.sessionId s.currPackageId payload) =
      udpDataReceiveLoop (s.accept payload) clientAddress := by
  simp only [udpDataReceiveBody, checkIfCorrectDATAPacket_dataBytes uninit.dataInfo short,
    payloadOf_dataBytes _ _ short, ne_eq, not_true_eq_false, if_false]
  rfl

theorem udprDataReceiveBody_accept (s : UDPRSession) (clientAddress : SockAddr)
    (uninit : ServerUninit) {payload : List UInt8}
    (short : payload.length ≤ maxAllowedPacketSize) :
    udprDataReceiveBody s clientAddress uninit
        (dataBytes s.conn.sessionId s.currPackageId payload) =
      ((udprDataReceiveLoop (s.accept payload) clientAddress).1,
        sendACC .dataReceive clientAddress s.conn.sessionId s.currPackageId ::
          (udprDataReceiveLoop (s.accept payload) clientAddress).2) := by
  simp only [udprDataReceiveBody, checkIfCorrectDATAPacket_dataBytes uninit.dataInfo short,
    payloadOf_dataBytes _ _ short, handleRetVal]
  rfl

/-! ## Packets that came too late -/

/-- A packet with an id that is already behind the loop is ignored. -/
theorem udprDataReceiveBody_stale (s : UDPRSession) (clientAddress : SockAddr)
    (uninit : ServerUninit) {id : UInt64} {payload : List UInt8} (stale : id < s.currPackageId)
    (short : payload.length ≤ maxAllowedPacketSize) :
    udprDataReceiveBody s clientAddress uninit (dataBytes s.conn.sessionId id payload) =
      (⟨.waiting s, clientAddress⟩, []) := by
  have other : id ≠ s.currPackageId := UInt64.ne_of_lt stale
  have checked : checkIfCorrectDATAPacket (dataBytes s.conn.sessionId id payload) s.conn
      uninit.dataInfo s.currPackageId =
        (.WRONG_PACKAGE_ID, ⟨dataId, s.conn.sessionId, id, UInt32.ofNat payload.length⟩) := by
    rw [checkIfCorrectDATAPacket, DataInfo.receive_dataBytes]
    simp [other]
  simp only [udprDataReceiveBody, checked, handleRetVal, stale, if_true, length_dataBytes,
    toNat_payload short, ne_eq, not_true_eq_false, if_false]

/-- A `CONN` is ignored before the first packet and ends the session after it. -/
theorem udprDataReceiveBody_conn (s : UDPRSession) (clientAddress : SockAddr)
    (uninit : ServerUninit) (sessionId total : UInt64) (protocol : UInt8) :
    udprDataReceiveBody s clientAddress uninit (initCONN sessionId protocol total).store =
      if s.isFirstDATAPacket = true then (⟨.waiting s, clientAddress⟩, [])
      else (⟨.returned s, clientAddress⟩, []) := by
  have typeId : (uninit.dataInfo.receive (initCONN sessionId protocol total).store).packageTypeId =
      connId := by
    rw [uninit.dataInfo.receive_packageTypeId (by simp), store_initCONN, typeOf_cons]
  have other : connId ≠ dataId := by decide
  have checked : checkIfCorrectDATAPacket (initCONN sessionId protocol total).store s.conn
      uninit.dataInfo s.currPackageId = (.WRONG_PACKAGE_TYPE_ID,
        uninit.dataInfo.receive (initCONN sessionId protocol total).store) := by
    rw [checkIfCorrectDATAPacket]
    simp only [typeId, ne_eq, other, not_false_eq_true, if_true]
  simp only [udprDataReceiveBody, checked, handleRetVal, typeId, if_true, CONN.length_store,
    ne_eq, not_true_eq_false, if_false]
  cases s.isFirstDATAPacket <;> rfl

/-! ## One pass over an answer of `recvfrom` -/

/-- The bytes the server finds in its buffer. -/
def RecvFrom.buff : RecvFrom → List UInt8
  | .datagram _ bytes => bytes.take receiveBufforSize
  | .failed _ => []

/-- The locals of a loop that waits or has returned. -/
def Flow.session {σ : Type} : Flow σ → σ
  | .waiting s => s
  | .returned s => s

/-- A reply that is neither an `ACC` nor a `RCVD`. -/
def Reply.ConfirmsNothing (reply : Reply) : Prop :=
  typeOf reply.bytes ≠ accId ∧ typeOf reply.bytes ≠ rcvdId

/-- A `CONRJT` or an `RJT`. -/
def Reply.Rejects (reply : Reply) : Prop :=
  typeOf reply.bytes = conrjtId ∨ typeOf reply.bytes = rjtId

theorem Reply.Rejects.confirmsNothing {reply : Reply} (rejects : reply.Rejects) :
    reply.ConfirmsNothing := by
  rcases rejects with conrjt | rjt
  · rw [Reply.ConfirmsNothing, conrjt]
    decide
  · rw [Reply.ConfirmsNothing, rjt]
    decide

section ConfirmsNothing

variable (origin : Origin) (clientAddress : SockAddr) (sessionId packageId : UInt64)

theorem sendCONRJT_rejects : (sendCONRJT origin clientAddress sessionId).Rejects := by
  refine .inl ?_
  rw [sendCONRJT, initCONRJT, store_initSession, typeOf_cons]

theorem sendRJT_rejects : (sendRJT origin clientAddress sessionId packageId).Rejects := by
  refine .inr ?_
  rw [sendRJT, initRJT, store_initNumbered, typeOf_cons]

theorem sendCONACC_confirmsNothing :
    (sendCONACC origin clientAddress sessionId).ConfirmsNothing := by
  simp [Reply.ConfirmsNothing, sendCONACC, initCONACC, conaccId, accId, rcvdId]

end ConfirmsNothing

theorem rejects_answerForeign (src : SockAddr) (uninit : ServerUninit)
    (buff : List UInt8) : ∀ reply ∈ answerForeign src uninit buff, reply.Rejects := by
  intro reply member
  simp only [answerForeign] at member
  split at member
  · split at member
    · cases member
    · cases List.mem_singleton.mp member
      exact sendCONRJT_rejects _ _ _
  split at member
  · cases List.mem_singleton.mp member
    exact sendRJT_rejects _ _ _ _
  · cases member

/-- What `read_data_to_buffer` can return, and what it has sent by then. -/
theorem readDataToBuffer_cases (clientAddress : SockAddr) (correctAddr : Option SockAddr)
    (uninit : ServerUninit) (r : RecvFrom) :
    (∀ reply ∈ (readDataToBuffer clientAddress correctAddr uninit r).replies,
        reply.Rejects) ∧
      ∀ ret buff, (readDataToBuffer clientAddress correctAddr uninit r).ret = some (ret, buff) →
        ret = .SUCCESS ∧ buff = r.buff ∨ ret = .TIMEOUT_ERROR ∨ ret = .ERROR := by
  cases r with
  | failed errno =>
      refine ⟨(fun _ member => nomatch member), ?_⟩
      rintro ret buff returned
      simp only [readDataToBuffer, Option.some.injEq, Prod.mk.injEq] at returned
      obtain ⟨rfl, -⟩ := returned
      split
      · exact .inr (.inl rfl)
      · exact .inr (.inr rfl)
  | datagram src bytes =>
      simp only [readDataToBuffer]
      split
      · exact ⟨rejects_answerForeign _ _ _, fun _ _ returned => nomatch returned⟩
      split
      · refine ⟨(fun _ member => nomatch member), ?_⟩
        rintro ret buff ⟨⟩
        exact .inr (.inr rfl)
      · refine ⟨(fun _ member => nomatch member), ?_⟩
        rintro ret buff ⟨⟩
        exact .inl ⟨rfl, rfl⟩

theorem udpDataReceiveBody_cases (s : UDPSession) (clientAddress : SockAddr)
    (uninit : ServerUninit) (buff : List UInt8) :
    (∃ payload, payload.length ≤ maxAllowedPacketSize ∧
        buff = dataBytes s.conn.sessionId s.currPackageId payload ∧
        udpDataReceiveBody s clientAddress uninit buff =
          udpDataReceiveLoop (s.accept payload) clientAddress) ∨
      ((udpDataReceiveBody s clientAddress uninit buff).1.flow = .returned s ∧
        ∀ reply ∈ (udpDataReceiveBody s clientAddress uninit buff).2,
          reply.ConfirmsNothing) := by
  by_cases success :
      (checkIfCorrectDATAPacket buff s.conn uninit.dataInfo s.currPackageId).1 = .SUCCESS
  · obtain ⟨payload, short, rfl⟩ := (checkIfCorrectDATAPacket_success_iff _ _).mp success
    exact .inl ⟨payload, short, rfl, udpDataReceiveBody_accept s clientAddress uninit short⟩
  · right
    simp only [udpDataReceiveBody]
    rw [if_pos success]
    refine ⟨rfl, ?_⟩
    intro reply member
    cases List.mem_singleton.mp member
    exact (sendRJT_rejects _ _ _ _).confirmsNothing

/-- **A pass of the loop without retransmission accepts the packet it is at, or leaves the
session as it was and confirms nothing.** -/
theorem udpDataReceivePass_cases (s : UDPSession) (clientAddress : SockAddr) (r : RecvFrom)
    (uninit : ServerUninit) :
    (∃ src payload, payload.length ≤ maxAllowedPacketSize ∧
        r.buff = dataBytes s.conn.sessionId s.currPackageId payload ∧
        udpDataReceivePass s clientAddress r uninit =
          udpDataReceiveLoop (s.accept payload) src) ∨
      ((udpDataReceivePass s clientAddress r uninit).1.flow.session = s ∧
        ∀ reply ∈ (udpDataReceivePass s clientAddress r uninit).2,
          reply.ConfirmsNothing) := by
  obtain ⟨replies, returned⟩ :=
    readDataToBuffer_cases clientAddress (some s.currClientAddr) uninit r
  simp only [udpDataReceivePass]
  split
  · exact .inr ⟨rfl, fun reply member => (replies reply member).confirmsNothing⟩
  · rename_i buff success
    rcases returned _ _ success with ⟨-, rfl⟩ | impossible | impossible
    · rcases udpDataReceiveBody_cases s _ uninit r.buff with
        ⟨payload, short, equal, accepted⟩ | ⟨flow, silent⟩
      · exact .inl ⟨_, payload, short, equal, accepted⟩
      · exact .inr ⟨by rw [flow]; rfl, silent⟩
    · cases impossible
    · cases impossible
  · exact .inr ⟨rfl, fun reply member => (replies reply member).confirmsNothing⟩

/-- What the loop with retransmission does with a packet that is not the one it is at. -/
theorem handleRetVal_cases {ret : RetVal} (clientAddress : SockAddr) (readBytes : ℕ)
    (currPackageId : UInt64) (dataInfo : DataInfo) (sessionId : UInt64) (isFirst : Bool)
    (failure : ret ≠ .SUCCESS) :
    ((handleRetVal ret clientAddress readBytes currPackageId dataInfo sessionId isFirst).1 =
          .ERROR ∨
        (handleRetVal ret clientAddress readBytes currPackageId dataInfo sessionId isFirst).1 =
          .CONTINUE) ∧
      ∀ reply ∈
          (handleRetVal ret clientAddress readBytes currPackageId dataInfo sessionId isFirst).2,
        reply.Rejects := by
  have rejected : ∀ packageId, ∀ reply ∈
      [sendRJT .dataReceive clientAddress sessionId packageId], reply.Rejects := by
    intro packageId reply member
    cases List.mem_singleton.mp member
    exact sendRJT_rejects _ _ _ _
  cases ret with
  | SUCCESS => exact absurd rfl failure
  | WRONG_PACKAGE_TYPE_ID =>
      simp only [handleRetVal]
      repeat' split
      all_goals simp
  | WRONG_PACKAGE_ID =>
      simp only [handleRetVal]
      split
      · split <;> simp
      · exact ⟨.inl rfl, rejected _⟩
  | WRONG_SESSION_ID => exact ⟨.inl rfl, rejected _⟩
  | ERROR => exact ⟨.inl rfl, rejected _⟩
  | WRONG_PACKAGE_SIZE => exact ⟨.inl rfl, rejected _⟩
  | TIMEOUT_ERROR => exact ⟨.inl rfl, rejected _⟩
  | RETRANSMISSION => exact ⟨.inl rfl, rejected _⟩
  | CONRJT_ERROR => exact ⟨.inl rfl, rejected _⟩
  | CONTINUE => exact ⟨.inl rfl, rejected _⟩

theorem udprDataReceiveBody_cases (s : UDPRSession) (clientAddress : SockAddr)
    (uninit : ServerUninit) (buff : List UInt8) :
    (∃ payload, payload.length ≤ maxAllowedPacketSize ∧
        buff = dataBytes s.conn.sessionId s.currPackageId payload ∧
        udprDataReceiveBody s clientAddress uninit buff =
          ((udprDataReceiveLoop (s.accept payload) clientAddress).1,
            sendACC .dataReceive clientAddress s.conn.sessionId s.currPackageId ::
              (udprDataReceiveLoop (s.accept payload) clientAddress).2)) ∨
      ((udprDataReceiveBody s clientAddress uninit buff).1.flow.session = s ∧
        ∀ reply ∈ (udprDataReceiveBody s clientAddress uninit buff).2,
          reply.Rejects) := by
  by_cases success :
      (checkIfCorrectDATAPacket buff s.conn uninit.dataInfo s.currPackageId).1 = .SUCCESS
  · obtain ⟨payload, short, rfl⟩ := (checkIfCorrectDATAPacket_success_iff _ _).mp success
    exact .inl ⟨payload, short, rfl, udprDataReceiveBody_accept s clientAddress uninit short⟩
  · right
    obtain ⟨handled, silent⟩ := handleRetVal_cases clientAddress buff.length s.currPackageId
      (checkIfCorrectDATAPacket buff s.conn uninit.dataInfo s.currPackageId).2
      s.conn.sessionId s.isFirstDATAPacket success
    simp only [udprDataReceiveBody]
    rcases handled with handled | handled <;> rw [handled] <;> exact ⟨rfl, silent⟩

/-- What is sent while the session stays as it was: answers to packets that are not the next
one, or, after a timeout, the last confirmation again. -/
def UDPRSession.Repeats (s : UDPRSession) (replies : List Reply) : Prop :=
  (∀ reply ∈ replies, reply.Rejects) ∨
    (s.isFirstDATAPacket = true ∧
      replies = [sendCONACC .dataReceive s.currClientAddr s.conn.sessionId]) ∨
    s.isFirstDATAPacket = false ∧
      replies = [sendACC .dataReceive s.currClientAddr s.conn.sessionId (s.currPackageId - 1)]

/-- **A pass of the loop with retransmission accepts the packet it is at, or leaves the
session as it was up to the counter of retransmissions**, and then repeats itself at most. -/
theorem udprDataReceivePass_repeats (s : UDPRSession) (clientAddress : SockAddr) (r : RecvFrom)
    (uninit : ServerUninit) :
    (∃ src payload, payload.length ≤ maxAllowedPacketSize ∧
        r.buff = dataBytes s.conn.sessionId s.currPackageId payload ∧
        udprDataReceivePass s clientAddress r uninit =
          ((udprDataReceiveLoop (s.accept payload) src).1,
            sendACC .dataReceive src s.conn.sessionId s.currPackageId ::
              (udprDataReceiveLoop (s.accept payload) src).2)) ∨
      (∃ nbr, (udprDataReceivePass s clientAddress r uninit).1.flow.session =
          { s with nbrOfRetransmits := nbr }) ∧
        s.Repeats (udprDataReceivePass s clientAddress r uninit).2 := by
  obtain ⟨replies, returned⟩ :=
    readDataToBuffer_cases clientAddress (some s.currClientAddr) uninit r
  simp only [udprDataReceivePass]
  split
  · exact .inr ⟨⟨_, rfl⟩, .inl replies⟩
  · rename_i buff success
    rcases returned _ _ success with ⟨-, rfl⟩ | impossible | impossible
    · rcases udprDataReceiveBody_cases s _ uninit r.buff with
        ⟨payload, short, equal, accepted⟩ | ⟨flow, silent⟩
      · exact .inl ⟨_, payload, short, equal, accepted⟩
      · exact .inr ⟨⟨_, flow⟩, .inl silent⟩
    · cases impossible
    · cases impossible
  · right
    simp only [doRetransmission]
    split
    · exact ⟨⟨_, rfl⟩, .inl fun _ member => nomatch member⟩
    split
    · rename_i first
      exact ⟨⟨_, rfl⟩, .inr (.inl ⟨first, rfl⟩)⟩
    · rename_i notFirst
      exact ⟨⟨_, rfl⟩, .inr (.inr ⟨Bool.eq_false_iff.mpr notFirst, rfl⟩)⟩
  · exact .inr ⟨⟨_, rfl⟩, .inl replies⟩

/-- While the session stays as it was the only confirmation that is sent is the last one
again. -/
theorem udprDataReceivePass_cases (s : UDPRSession) (clientAddress : SockAddr) (r : RecvFrom)
    (uninit : ServerUninit) :
    (∃ src payload, payload.length ≤ maxAllowedPacketSize ∧
        r.buff = dataBytes s.conn.sessionId s.currPackageId payload ∧
        udprDataReceivePass s clientAddress r uninit =
          ((udprDataReceiveLoop (s.accept payload) src).1,
            sendACC .dataReceive src s.conn.sessionId s.currPackageId ::
              (udprDataReceiveLoop (s.accept payload) src).2)) ∨
      ((∃ nbr, (udprDataReceivePass s clientAddress r uninit).1.flow.session =
          { s with nbrOfRetransmits := nbr }) ∧
        ∀ reply ∈ (udprDataReceivePass s clientAddress r uninit).2,
          reply.ConfirmsNothing ∨ s.isFirstDATAPacket = false ∧
            reply.bytes = (initACC s.conn.sessionId (s.currPackageId - 1)).store) := by
  refine (udprDataReceivePass_repeats s clientAddress r uninit).imp_right ?_
  rintro ⟨session, rejects | ⟨-, conacc⟩ | ⟨later, acc⟩⟩
  · exact ⟨session, fun reply member => .inl (rejects reply member).confirmsNothing⟩
  · refine ⟨session, ?_⟩
    rw [conacc]
    intro reply member
    cases List.mem_singleton.mp member
    exact .inl (sendCONACC_confirmsNothing _ _ _)
  · refine ⟨session, ?_⟩
    rw [acc]
    intro reply member
    cases List.mem_singleton.mp member
    exact .inr ⟨later, rfl⟩

/-! ## The test of the loops -/

theorem udpDataReceiveLoop_waits {s : UDPSession} (clientAddress : SockAddr)
    (waits : s.bytesRecvd < s.conn.nbrOfBytesToBeSent) :
    udpDataReceiveLoop s clientAddress = (⟨.waiting s, clientAddress⟩, []) := if_pos waits

theorem udprDataReceiveLoop_waits {s : UDPRSession} (clientAddress : SockAddr)
    (waits : s.bytesRecvd < s.conn.nbrOfBytesToBeSent) :
    udprDataReceiveLoop s clientAddress = (⟨.waiting s, clientAddress⟩, []) := if_pos waits

theorem udpDataReceiveLoop_cases (s : UDPSession) (clientAddress : SockAddr) :
    (udpDataReceiveLoop s clientAddress).1.flow.session = s ∧
      (∀ s', (udpDataReceiveLoop s clientAddress).1.flow = .waiting s' →
        s.bytesRecvd < s.conn.nbrOfBytesToBeSent) ∧
      ∀ reply ∈ (udpDataReceiveLoop s clientAddress).2,
        reply.bytes = (initRCVD s.conn.sessionId).store ∧
          s.bytesRecvd = s.conn.nbrOfBytesToBeSent := by
  simp only [udpDataReceiveLoop]
  split
  · exact ⟨rfl, fun _ _ => ‹_›, fun _ member => nomatch member⟩
  split
  · refine ⟨rfl, (fun _ waiting => nomatch waiting), ?_⟩
    intro reply member
    cases List.mem_singleton.mp member
    exact ⟨rfl, ‹_›⟩
  · exact ⟨rfl, (fun _ waiting => nomatch waiting), fun _ member => nomatch member⟩

theorem udprDataReceiveLoop_cases (s : UDPRSession) (clientAddress : SockAddr) :
    (udprDataReceiveLoop s clientAddress).1.flow.session = s ∧
      (∀ s', (udprDataReceiveLoop s clientAddress).1.flow = .waiting s' →
        s.bytesRecvd < s.conn.nbrOfBytesToBeSent) ∧
      ∀ reply ∈ (udprDataReceiveLoop s clientAddress).2,
        reply.ConfirmsNothing ∨ reply.bytes = (initRCVD s.conn.sessionId).store ∧
          s.bytesRecvd = s.conn.nbrOfBytesToBeSent := by
  simp only [udprDataReceiveLoop]
  split
  · exact ⟨rfl, fun _ _ => ‹_›, fun _ member => nomatch member⟩
  split
  · refine ⟨rfl, (fun _ waiting => nomatch waiting), ?_⟩
    intro reply member
    cases List.mem_singleton.mp member
    exact .inr ⟨rfl, ‹_›⟩
  · refine ⟨rfl, (fun _ waiting => nomatch waiting), ?_⟩
    intro reply member
    cases List.mem_singleton.mp member
    exact .inl (sendRJT_rejects _ _ _ _).confirmsNothing

/-! ## Datagrams of the client -/

section Client

variable {bytes : List UInt8}

theorem readDataToBuffer_client (clientAddress src : SockAddr) {correctAddr : Option SockAddr}
    (uninit : ServerUninit) (fits : bytes.length ≤ receiveBufforSize) (nonempty : bytes ≠ [])
    (correct : correctAddr.getD src = src) :
    readDataToBuffer clientAddress correctAddr uninit (.datagram src bytes) =
      ⟨src, [], some (.SUCCESS, bytes)⟩ := by
  have length : ¬ bytes.length = 0 := fun empty => nonempty (List.length_eq_zero_iff.mp empty)
  simp only [readDataToBuffer, correct, ne_eq, not_true_eq_false, or_self, if_false,
    List.take_of_length_le fits, length]

theorem udpDataReceivePass_client (s : UDPSession) (clientAddress : SockAddr)
    (uninit : ServerUninit) (fits : bytes.length ≤ receiveBufforSize) (nonempty : bytes ≠ []) :
    udpDataReceivePass s clientAddress (.datagram s.currClientAddr bytes) uninit =
      udpDataReceiveBody s s.currClientAddr uninit bytes := by
  rw [udpDataReceivePass, readDataToBuffer_client _ _ _ fits nonempty rfl]

theorem udprDataReceivePass_client (s : UDPRSession) (clientAddress : SockAddr)
    (uninit : ServerUninit) (fits : bytes.length ≤ receiveBufforSize) (nonempty : bytes ≠ []) :
    udprDataReceivePass s clientAddress (.datagram s.currClientAddr bytes) uninit =
      udprDataReceiveBody s s.currClientAddr uninit bytes := by
  rw [udprDataReceivePass, readDataToBuffer_client _ _ _ fits nonempty rfl]

/-- A `CONN` that finds the server idle opens a session. -/
theorem UDPServer.onIdle_conn (s : UDPServer) (client : SockAddr) (uninit : ServerUninit)
    (sessionId total : UInt64) {protocol : UInt8}
    (known : protocol = udpProtocol ∨ protocol = udprProtocol) :
    s.onIdle (.datagram client (initCONN sessionId protocol total).store) uninit .sent =
      ((s.openSession ⟨connId, sessionId, protocol, total⟩ client).1,
        sendCONACC .serverHandler client sessionId ::
          (s.openSession ⟨connId, sessionId, protocol, total⟩ client).2) := by
  have length : (initCONN sessionId protocol total).store.length ≤ receiveBufforSize := by
    rw [CONN.length_store]
    decide
  have nonempty : (initCONN sessionId protocol total).store ≠ [] := by simp
  simp only [UDPServer.onIdle, readDataToBuffer_client _ _ _ length nonempty
    (show (none : Option SockAddr).getD client = client from rfl),
    checkIfCorrectCONN_initCONN _ _ _ known]
  rfl

end Client

/-- Uninitialised memory that happens to be zero. -/
def ServerUninit.zero : ServerUninit := ⟨⟨0, 0, 0, 0⟩, ⟨0, 0, 0, 0⟩, ⟨0, 0, 0, 0⟩⟩

end Ppcb
