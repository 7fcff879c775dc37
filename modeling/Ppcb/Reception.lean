import Ppcb.Judgement
import Ppcb.SessionGrammar

/-!
# The two receive loops over UDP

`UDP_data_receive` and `UDPR_data_receive` accept the same packets in the same way and differ
in what they send for them (`Reception`). Both do with packets that need not be rejected what
the judgement says (`Reception.agrees_pending`, `Reception.agrees_received`).

Without retransmission a packet that exceeds the total is accepted (`udp_tooMuch`).
-/

set_option autoImplicit false

namespace Ppcb

open ByteOrder CString Reactive

/-! ## What the loops have in common -/

/-- A datagram that is read whole into the buffer as a packet is that packet. -/
theorem eq_of_take_eq_dataBytes {bytes payload : List UInt8} {sessionId id : UInt64}
    (fits : payload.length ≤ maxAllowedPacketSize)
    (equal : bytes.take receiveBufforSize = dataBytes sessionId id payload) :
    bytes = dataBytes sessionId id payload := by
  have length := congrArg List.length equal
  rw [List.length_take, length_dataBytes] at length
  simp only [receiveBufforSize, sizeofDataInfo, maxAllowedPacketSize] at length fits
  rw [← equal, List.take_of_length_le]
  simp only [receiveBufforSize]
  omega

/-- Only a datagram of the client is handed to the receive loop. -/
theorem readDataToBuffer_success {clientAddress client : SockAddr} {uninit : ServerUninit}
    {r : RecvFrom} {buff : List UInt8}
    (returned : (readDataToBuffer clientAddress (some client) uninit r).ret =
      some (.SUCCESS, buff)) :
    ∃ bytes, r = .datagram client bytes ∧ buff = bytes.take receiveBufforSize := by
  cases r with
  | failed errno =>
      simp only [readDataToBuffer, Option.some.injEq, Prod.mk.injEq] at returned
      obtain ⟨failure, -⟩ := returned
      split at failure <;> cases failure
  | datagram src bytes =>
      simp only [readDataToBuffer, Option.getD_some, ← SockAddr.ne_iff] at returned
      split at returned
      · cases returned
      rename_i same
      rw [not_not] at same
      split at returned
      · cases returned
      · cases returned
        exact ⟨bytes, by rw [same], rfl⟩

/-- The packet the loop is at, sent by the client. -/
def UDPSession.next (s : UDPSession) (payload : List UInt8) : RecvFrom :=
  .datagram s.currClientAddr (dataBytes s.conn.sessionId s.currPackageId payload)

/-- Anything else leaves the session as it was. -/
theorem udpDataReceivePass_other {s : UDPSession} {r : RecvFrom}
    (other : ∀ payload, payload.length ≤ maxAllowedPacketSize → r ≠ s.next payload)
    (clientAddress : SockAddr) (uninit : ServerUninit) :
    (udpDataReceivePass s clientAddress r uninit).1.flow.session = s := by
  simp only [udpDataReceivePass]
  split
  · rfl
  · rename_i buff success
    obtain ⟨bytes, rfl, rfl⟩ := readDataToBuffer_success success
    rcases udpDataReceiveBody_cases s _ uninit (bytes.take receiveBufforSize) with
      ⟨payload, fits, equal, -⟩ | ⟨flow, -⟩
    · refine absurd ?_ (other payload fits)
      rw [UDPSession.next, eq_of_take_eq_dataBytes fits equal]
    · rw [flow]
      rfl
  · rfl

theorem udprDataReceivePass_other {s : UDPRSession} {r : RecvFrom}
    (other : ∀ payload, payload.length ≤ maxAllowedPacketSize →
      r ≠ s.toUDPSession.next payload)
    (clientAddress : SockAddr) (uninit : ServerUninit) :
    (udprDataReceivePass s clientAddress r uninit).1.flow.session.toUDPSession =
      s.toUDPSession := by
  simp only [udprDataReceivePass]
  split
  · rfl
  · rename_i buff success
    obtain ⟨bytes, rfl, rfl⟩ := readDataToBuffer_success success
    rcases udprDataReceiveBody_cases s _ uninit (bytes.take receiveBufforSize) with
      ⟨payload, fits, equal, -⟩ | ⟨flow, -⟩
    · refine absurd ?_ (other payload fits)
      rw [UDPSession.next, eq_of_take_eq_dataBytes fits equal]
    · rw [flow]
  · split <;> rfl
  · rfl

/-- What the two receive loops over UDP have in common: `acks` is what is sent for an accepted
packet. -/
structure Reception (σ : Type) where
  protocol : UInt8
  start : CONN → SockAddr → σ
  session : σ → UDPSession
  loop : σ → SockAddr → Receiving σ × List Reply
  pass : σ → SockAddr → RecvFrom → ServerUninit → Receiving σ × List Reply
  accept : σ → List UInt8 → σ
  acks : UInt64 → UInt64 → List (List UInt8)
  session_start : ∀ conn client, session (start conn client) = .start conn client
  session_accept : ∀ s payload, session (accept s payload) = (session s).accept payload
  waits : ∀ s address, (session s).bytesRecvd < (session s).conn.nbrOfBytesToBeSent →
    loop s address = (⟨.waiting s, address⟩, [])
  done : ∀ s address, (session s).bytesRecvd = (session s).conn.nbrOfBytesToBeSent →
    loop s address =
      (⟨.returned s, address⟩, [sendRCVD .dataReceive address (session s).conn.sessionId])
  loops : ∀ s address, (loop s address).1.flow.session = s ∧
    ∀ s', (loop s address).1.flow = .waiting s' →
      (session s).bytesRecvd < (session s).conn.nbrOfBytesToBeSent
  passes : ∀ s address uninit payload, payload.length ≤ maxAllowedPacketSize →
    ∃ replies : List Reply, replies.map Reply.bytes =
        acks (session s).conn.sessionId (session s).currPackageId ∧
      pass s address ((session s).next payload) uninit =
        ((loop (accept s payload) (session s).currClientAddr).1,
          replies ++ (loop (accept s payload) (session s).currClientAddr).2)
  others : ∀ s address uninit r,
    (∀ payload, payload.length ≤ maxAllowedPacketSize → r ≠ (session s).next payload) →
      session (pass s address r uninit).1.flow.session = session s

theorem toNat_bytesRecvd_ne {s : UDPSession}
    (done : s.bytesRecvd = s.conn.nbrOfBytesToBeSent) :
    ¬ s.bytesRecvd < s.conn.nbrOfBytesToBeSent := by
  rw [done]
  exact UInt64.lt_irrefl _

/-- `UDP_data_receive`. -/
def udpReception : Reception UDPSession where
  protocol := udpProtocol
  start := .start
  session s := s
  loop := udpDataReceiveLoop
  pass := udpDataReceivePass
  accept := UDPSession.accept
  acks _ _ := []
  session_start _ _ := rfl
  session_accept _ _ := rfl
  waits _ address more := udpDataReceiveLoop_waits address more
  done s address full := by
    rw [udpDataReceiveLoop, if_neg (toNat_bytesRecvd_ne full), if_pos full]
  loops s address :=
    ⟨(udpDataReceiveLoop_cases s address).1, (udpDataReceiveLoop_cases s address).2.1⟩
  passes s address uninit payload fits := by
    refine ⟨[], rfl, ?_⟩
    rw [UDPSession.next, udpDataReceivePass_client _ _ _ (fits_dataBytes _ _ fits)
      (dataBytes_ne_nil _ _ _), udpDataReceiveBody_accept _ _ _ fits]
    rfl
  others _ address uninit _ other := udpDataReceivePass_other other address uninit

/-- `UDPR_data_receive`. -/
def udprReception : Reception UDPRSession where
  protocol := udprProtocol
  start := .start
  session := UDPRSession.toUDPSession
  loop := udprDataReceiveLoop
  pass := udprDataReceivePass
  accept := UDPRSession.accept
  acks sessionId id := [(initACC sessionId id).store]
  session_start _ _ := rfl
  session_accept _ _ := rfl
  waits _ address more := udprDataReceiveLoop_waits address more
  done s address full := by
    rw [udprDataReceiveLoop, if_neg (toNat_bytesRecvd_ne full), if_pos full]
  loops s address :=
    ⟨(udprDataReceiveLoop_cases s address).1, (udprDataReceiveLoop_cases s address).2.1⟩
  passes s address uninit payload fits := by
    refine ⟨[sendACC .dataReceive s.currClientAddr s.conn.sessionId s.currPackageId], rfl, ?_⟩
    rw [UDPSession.next, udprDataReceivePass_client _ _ _ (fits_dataBytes _ _ fits)
      (dataBytes_ne_nil _ _ _), udprDataReceiveBody_accept _ _ _ fits]
    rfl
  others _ address uninit _ other := udprDataReceivePass_other other address uninit

namespace Reception

variable {σ : Type} (R : Reception σ)

/-- A run of the loop from its first test on. -/
def run (s : σ) (address : SockAddr) (events : List (RecvFrom × ServerUninit)) :
    Receiving σ × List Reply :=
  ((receiver R.pass).after (R.loop s address).1 events,
    (R.loop s address).2 ++ (receiver R.pass).outputs (R.loop s address).1 events)

/-- The packets as they arrive, with the contents of the uninitialised structures. -/
def arrivals (client : SockAddr) (sessionId : UInt64) (packets : List (DataPacket × ServerUninit)) :
    List (RecvFrom × ServerUninit) :=
  packets.map fun p => (.datagram client (p.1.bytes sessionId), p.2)

theorem arrivals_cons (client : SockAddr) (sessionId : UInt64) (q : DataPacket × ServerUninit)
    (packets : List (DataPacket × ServerUninit)) :
    arrivals client sessionId (q :: packets) =
      (.datagram client (q.1.bytes sessionId), q.2) :: arrivals client sessionId packets := rfl

/-- The acknowledgements of `k` packets. -/
def acknowledged (sessionId first : UInt64) (k : ℕ) : List (List UInt8) :=
  (List.range k).flatMap fun i => R.acks sessionId (first + UInt64.ofNat i)

/-- The locals of the loop are where the packets have brought them. -/
structure At (sessionId total : UInt64) (client : SockAddr) (e : Expected)
    (delivered : List (List UInt8)) (s : σ) : Prop where
  sessionId : (R.session s).conn.sessionId = sessionId
  total : (R.session s).conn.nbrOfBytesToBeSent = total
  client : (R.session s).currClientAddr = client
  id : (R.session s).currPackageId = e.id
  received : (R.session s).bytesRecvd.toNat = e.received
  delivered : (R.session s).delivered = delivered

variable {R} {sessionId total : UInt64} {client : SockAddr} {e : Expected}
variable {delivered : List (List UInt8)} {s : σ} {p : DataPacket}

theorem acknowledged_succ (first : UInt64) (k : ℕ) :
    R.acknowledged sessionId first (k + 1) =
      R.acks sessionId first ++ R.acknowledged sessionId (first + 1) k := by
  have shift : ∀ i, first + UInt64.ofNat (i + 1) = first + 1 + UInt64.ofNat i := by
    intro i
    rw [UInt64.ofNat_add, UInt64.add_comm (UInt64.ofNat i), ← UInt64.add_assoc]
    rfl
  rw [acknowledged, List.range_succ_eq_map, List.flatMap_cons, List.flatMap_map]
  simp only [shift]
  rw [show first + UInt64.ofNat 0 = first from UInt64.add_zero _]
  rfl

theorem At.accept (at' : R.At sessionId total client e delivered s)
    (bound : e.received + p.payload.length < 2 ^ 64) :
    R.At sessionId total client (e.accept p) (delivered ++ [p.payload]) (R.accept s p.payload) := by
  have session := R.session_accept s p.payload
  refine ⟨?_, ?_, ?_, ?_, ?_, ?_⟩ <;> rw [session]
  · exact at'.sessionId
  · exact at'.total
  · exact at'.client
  · rw [UDPSession.accept_currPackageId, at'.id]
    rfl
  · have received := at'.received
    rw [UDPSession.accept_bytesRecvd, UInt64.toNat_add, toNat_toUInt64_ofNat p.fits, received]
    exact Nat.mod_eq_of_lt bound
  · rw [UDPSession.accept_delivered, at'.delivered]

theorem At.waits (at' : R.At sessionId total client e delivered s)
    (more : e.received < total.toNat) (address : SockAddr) :
    R.loop s address = (⟨.waiting s, address⟩, []) := by
  apply R.waits
  rw [UInt64.lt_iff_toNat_lt, at'.received, at'.total]
  exact more

/-- **The next packet is accepted and acknowledged**, whether or not it exceeds the total. -/
theorem At.run_cons (at' : R.At sessionId total client e delivered s)
    (more : e.received < total.toNat) (next : p.id = e.id) (address : SockAddr)
    (uninit : ServerUninit) :
    ∃ replies : List Reply, replies.map Reply.bytes = R.acks sessionId e.id ∧
      ∀ rest, R.run s address ((.datagram client (p.bytes sessionId), uninit) :: rest) =
        ((R.run (R.accept s p.payload) client rest).1,
          replies ++ (R.run (R.accept s p.payload) client rest).2) := by
  obtain ⟨replies, bytes, passes⟩ := R.passes s address uninit p.payload p.fits
  rw [at'.sessionId, at'.id] at bytes
  rw [UDPSession.next, at'.sessionId, at'.id, at'.client] at passes
  have step : (receiver R.pass).step ⟨.waiting s, address⟩
      (.datagram client (p.bytes sessionId), uninit) =
        ((R.loop (R.accept s p.payload) client).1,
          replies ++ (R.loop (R.accept s p.payload) client).2) := by
    rw [DataPacket.bytes, next, ← passes]
    rfl
  refine ⟨replies, bytes, fun rest => ?_⟩
  rw [run, at'.waits more, Machine.after_cons, Machine.outputs_cons, Machine.next, Machine.emit,
    step, run, List.nil_append, List.append_assoc]

/-- Packets that advance are accepted and acknowledged. -/
theorem At.run_advances {before : List (DataPacket × ServerUninit)}
    (at' : R.At sessionId total client e delivered s) (more : e.received < total.toNat)
    (advances : Advances total.toNat e (before.map Prod.fst)) (address : SockAddr) :
    ∃ (s' : σ) (address' : SockAddr) (replies : List Reply),
      R.At sessionId total client (e.afterAll (before.map Prod.fst))
        (delivered ++ payloads (before.map Prod.fst)) s' ∧
      replies.map Reply.bytes = R.acknowledged sessionId e.id before.length ∧
      ∀ rest, R.run s address (arrivals client sessionId before ++ rest) =
        ((R.run s' address' rest).1, replies ++ (R.run s' address' rest).2) := by
  induction before generalizing e delivered s address with
  | nil =>
      refine ⟨s, address, [], ?_, rfl, fun rest => rfl⟩
      rw [List.map_nil, payloads, List.map_nil, List.append_nil]
      exact at'
  | cons q before ih =>
      obtain ⟨next, less, later⟩ := advances
      have bound := total.toNat_lt
      obtain ⟨first, bytes, head⟩ := at'.run_cons more next address q.2
      obtain ⟨s', address', replies, there, bytes', tail⟩ :=
        ih (at'.accept (by omega)) less later client
      refine ⟨s', address', first ++ replies, ?_, ?_, ?_⟩
      · rw [List.append_assoc] at there
        exact there
      · rw [List.map_append, bytes, bytes', List.length_cons, acknowledged_succ]
        rfl
      · intro rest
        have whole := head (arrivals client sessionId before ++ rest)
        rw [tail] at whole
        rw [List.append_assoc]
        exact whole

/-- A loop that has returned takes no more packets. -/
theorem after_returned (address : SockAddr) (events : List (RecvFrom × ServerUninit)) :
    (receiver R.pass).after ⟨.returned s, address⟩ events = ⟨.returned s, address⟩ ∧
      (receiver R.pass).outputs ⟨.returned s, address⟩ events = [] := by
  induction events with
  | nil => exact ⟨rfl, rfl⟩
  | cons event events ih => exact ⟨ih.1, ih.2⟩

/-- At the total `RCVD` is sent. -/
theorem At.run_full (at' : R.At sessionId total client e delivered s)
    (full : e.received = total.toNat) (address : SockAddr)
    (events : List (RecvFrom × ServerUninit)) :
    R.run s address events =
      (⟨.returned s, address⟩, [sendRCVD .dataReceive address sessionId]) := by
  have reached : (R.session s).bytesRecvd = (R.session s).conn.nbrOfBytesToBeSent := by
    rw [← UInt64.toNat_inj, at'.received, at'.total, full]
  obtain ⟨still, silent⟩ := after_returned (R := R) (s := s) address events
  rw [run, R.done s address reached, still, silent, List.append_nil, at'.sessionId]

end Reception

/-- What has been delivered stays delivered. -/
theorem delivered_grows (receiving : Receiving UDPSession)
    (events : List (RecvFrom × ServerUninit)) :
    receiving.flow.session.delivered <+:
      ((receiver udpDataReceivePass).after receiving events).flow.session.delivered := by
  induction events generalizing receiving with
  | nil => exact List.prefix_rfl
  | cons event events ih =>
      refine List.IsPrefix.trans ?_ (ih _)
      obtain ⟨flow, address⟩ := receiving
      cases flow with
      | waiting session =>
          show session.delivered <+:
            (udpDataReceivePass session address event.1 event.2).1.flow.session.delivered
          rcases udpDataReceivePass_cases session address event.1 event.2 with
            ⟨src, payload, -, -, accepted⟩ | ⟨same, -⟩
          · rw [accepted, (udpDataReceiveLoop_cases _ _).1]
            exact List.prefix_append _ _
          · rw [same]
      | returned session => exact List.prefix_rfl

/-! ## Agreement -/

namespace Reception

variable {σ : Type} (R : Reception σ)

/-- The loop accepts and acknowledges the packets that are to be accepted, and answers with
the verdict. -/
def Agrees (sessionId total : UInt64) (client address : SockAddr)
    (packets : List (DataPacket × ServerUninit)) : Prop :=
  let judgement := judge total.toNat .start (packets.map Prod.fst)
  let result := R.run (R.start ⟨connId, sessionId, R.protocol, total⟩ client) address
    (arrivals client sessionId packets)
  (R.session result.1.flow.session).delivered = judgement.accepted ∧
    result.2.map Reply.bytes =
      R.acknowledged sessionId 0 judgement.accepted.length ++ judgement.verdict.answer sessionId

variable {sessionId total : UInt64} {client address : SockAddr}
variable {packets before after : List (DataPacket × ServerUninit)} {q : DataPacket × ServerUninit}

variable (sessionId total client) in
theorem at_start :
    R.At sessionId total client .start []
      (R.start ⟨connId, sessionId, R.protocol, total⟩ client) := by
  refine ⟨?_, ?_, ?_, ?_, ?_, ?_⟩ <;> rw [R.session_start] <;> rfl

/-- Nothing is expected when nothing is announced. -/
theorem agrees_empty (nothing : total.toNat = 0) :
    R.Agrees sessionId total client address packets := by
  have run := (R.at_start sessionId total client).run_full nothing.symm address
    (arrivals client sessionId packets)
  have verdict : judge total.toNat .start (packets.map Prod.fst) = ⟨[], .received⟩ := by
    rw [nothing]
    cases packets.map Prod.fst <;> rfl
  rw [Agrees, verdict, run]
  exact ⟨(R.at_start sessionId total client).delivered, rfl⟩

variable (sessionId) in
theorem acknowledged_add (first : UInt64) (k m : ℕ) :
    R.acknowledged sessionId first (k + m) =
      R.acknowledged sessionId first k ++
        R.acknowledged sessionId (first + UInt64.ofNat k) m := by
  simp only [acknowledged, List.range_add, List.flatMap_append, List.flatMap_map,
    UInt64.ofNat_add, UInt64.add_assoc]

/-- A run does what the judgement says, after `k` packets with these payloads. -/
def Follows (sessionId : UInt64) (delivered : List (List UInt8)) (k : ℕ) (j : Judgement)
    (result : Receiving σ × List Reply) : Prop :=
  (R.session result.1.flow.session).delivered = delivered ++ j.accepted ∧
    result.2.map Reply.bytes =
      R.acknowledged sessionId (UInt64.ofNat k) j.accepted.length ++ j.verdict.answer sessionId

variable {R}

variable (sessionId client address) in
/-- After packets that advance, it is up to the rest. -/
theorem agrees_append (more : 0 < total.toNat)
    (advances : Advances total.toNat .start (before.map Prod.fst)) :
    ∃ (s' : σ) (address' : SockAddr), R.At sessionId total client
        (Expected.start.afterAll (before.map Prod.fst)) (payloads (before.map Prod.fst)) s' ∧
      ∀ rest, R.Agrees sessionId total client address (before ++ rest) ↔
        R.Follows sessionId (payloads (before.map Prod.fst)) before.length
          (judge total.toNat (Expected.start.afterAll (before.map Prod.fst)) (rest.map Prod.fst))
          (R.run s' address' (arrivals client sessionId rest)) := by
  obtain ⟨s', address', replies, there, bytes, run⟩ :=
    (R.at_start sessionId total client).run_advances more advances address
  refine ⟨s', address', there, fun rest => ?_⟩
  have input : arrivals client sessionId (before ++ rest) =
      arrivals client sessionId before ++ arrivals client sessionId rest := List.map_append
  have split := R.acknowledged_add sessionId 0 before.length
    (judge total.toNat (Expected.start.afterAll (before.map Prod.fst))
      (rest.map Prod.fst)).accepted.length
  rw [UInt64.zero_add] at split
  have length : (payloads (before.map Prod.fst)).length = before.length := by
    rw [payloads, List.length_map, List.length_map]
  have first : replies.map Reply.bytes = R.acknowledged sessionId 0 before.length := bytes
  simp only [Agrees, Follows, input, run, List.map_append, advances.judge more, Judgement.after,
    List.length_append, length, first, split, List.append_assoc, List.append_cancel_left_eq]

theorem agrees_pending (more : 0 < total.toNat)
    (advances : Advances total.toNat .start (packets.map Prod.fst)) :
    R.Agrees sessionId total client address packets := by
  obtain ⟨s', address', there, agrees⟩ :=
    agrees_append (R := R) sessionId client address more advances
  rw [← List.append_nil packets, agrees]
  have received := advances.received_lt more
  have waits := there.waits received address'
  have run : R.run s' address' (arrivals client sessionId []) =
      (⟨.waiting s', address'⟩, []) := by
    show (((R.loop s' address').1, (R.loop s' address').2 ++ []) : _ × _) = _
    rw [waits, List.append_nil]
  rw [run, List.map_nil, judge, if_pos received]
  exact ⟨there.delivered.trans (List.append_nil _).symm, rfl⟩

/-- The id that comes after some packets. -/
theorem id_afterAll (e : Expected) (packets : List DataPacket) :
    (e.afterAll packets).id = e.id + UInt64.ofNat packets.length := by
  induction packets generalizing e with
  | nil => exact (UInt64.add_zero _).symm
  | cons p packets ih =>
      have tail : (e.afterAll (p :: packets)).id = ((e.accept p).afterAll packets).id := rfl
      rw [tail, ih, List.length_cons, UInt64.ofNat_add, UInt64.add_comm (UInt64.ofNat _),
        ← UInt64.add_assoc]
      rfl

theorem agrees_received (more : 0 < total.toNat)
    (advances : Advances total.toNat .start (before.map Prod.fst))
    (next : q.1.id = (Expected.start.afterAll (before.map Prod.fst)).id)
    (full : (Expected.start.afterAll (before.map Prod.fst)).received + q.1.payload.length =
      total.toNat) :
    R.Agrees sessionId total client address (before ++ q :: after) := by
  obtain ⟨s', address', there, agrees⟩ :=
    agrees_append (R := R) sessionId client address more advances
  rw [agrees]
  have received := advances.received_lt more
  have bound := total.toNat_lt
  obtain ⟨replies, bytes, run⟩ := there.run_cons received next address' q.2
  have there' := there.accept (p := q.1) (by omega)
  have rest := there'.run_full full client (arrivals client sessionId after)
  rw [List.map_cons, judge_full received next full, arrivals_cons, run, rest]
  refine ⟨there'.delivered, ?_⟩
  have ack : R.acknowledged sessionId (UInt64.ofNat before.length) 1 =
      R.acks sessionId (Expected.start.afterAll (before.map Prod.fst)).id := by
    rw [acknowledged_succ, id_afterAll, List.length_map]
    show R.acks sessionId _ ++ [] = R.acks sessionId (0 + _)
    rw [List.append_nil, UInt64.zero_add]
  rw [List.map_append, bytes]
  show _ = R.acknowledged sessionId (UInt64.ofNat before.length) 1 ++ _
  rw [ack]
  rfl

end Reception

/-- **A packet that exceeds the total is accepted.** -/
theorem udp_tooMuch {sessionId total : UInt64} {client address : SockAddr}
    {before after : List (DataPacket × ServerUninit)} {q : DataPacket × ServerUninit}
    (more : 0 < total.toNat) (advances : Advances total.toNat .start (before.map Prod.fst))
    (next : q.1.id = (Expected.start.afterAll (before.map Prod.fst)).id)
    (much : total.toNat <
      (Expected.start.afterAll (before.map Prod.fst)).received + q.1.payload.length) :
    ¬ udpReception.Agrees sessionId total client address (before ++ q :: after) := by
  intro agree
  obtain ⟨s', address', there, agrees⟩ := Reception.agrees_append (R := udpReception)
    sessionId client address more advances
  obtain ⟨delivered, -⟩ := (agrees _).mp agree
  have received := advances.received_lt more
  obtain ⟨replies, -, run⟩ := there.run_cons received next address' q.2
  have wrong : ¬ (q.1.id = (Expected.start.afterAll (before.map Prod.fst)).id ∧
      (Expected.start.afterAll (before.map Prod.fst)).received + q.1.payload.length ≤
        total.toNat) := fun right => Nat.not_le.mpr much right.2
  rw [List.map_cons, judge_rejected received wrong, Reception.arrivals_cons, run,
    List.append_nil] at delivered
  have grown := delivered_grows (udpDataReceiveLoop (s'.accept q.1.payload) client).1
    (Reception.arrivals client sessionId after)
  have delivered' : ((receiver udpDataReceivePass).after
      (udpDataReceiveLoop (s'.accept q.1.payload) client).1
      (Reception.arrivals client sessionId after)).flow.session.delivered =
        payloads (before.map Prod.fst) := delivered
  have before' : s'.delivered = payloads (before.map Prod.fst) := there.delivered
  rw [(udpDataReceiveLoop_cases _ _).1, delivered', UDPSession.accept, before'] at grown
  have length := grown.length_le
  rw [List.length_append, List.length_singleton] at length
  omega

end Ppcb
