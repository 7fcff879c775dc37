import Ppcb.ServerTCPSpec

/-!
# The grammar of a TCP session

A session on the wire is a `CONN`, followed by `DATA` packets with consecutive ids whose
payloads complete the announced total and no shorter number of them does
(`sessionBytes`, `Completes`).

The server answers a connection with `CONACC` and `RCVD` exactly when the bytes it is sent
begin with such a session, however the bytes arrive and whatever was served before
(`tcp_server_grammar`).
-/

set_option autoImplicit false

namespace Ppcb

open ByteOrder CString Reactive Relation

/-! ## The grammar -/

/-- `DATA` packets with consecutive ids. -/
def packetsFrom (sessionId : UInt64) : ℕ → List (List UInt8) → List UInt8
  | _, [] => []
  | id, payload :: payloads =>
      dataBytes sessionId (UInt64.ofNat id) payload ++ packetsFrom sessionId (id + 1) payloads

/-- The payloads fit into packets and complete the total, which no shorter number of them
does. -/
structure Completes (total : ℕ) (payloads : List (List UInt8)) : Prop where
  sizes : ∀ payload ∈ payloads, payload.length ≤ maxAllowedPacketSize
  complete : payloads.flatten.length = total
  shorter : ∀ k < payloads.length, (payloads.take k).flatten.length < total

/-- A whole session on the wire. -/
def sessionBytes (sessionId total : UInt64) (payloads : List (List UInt8)) : List UInt8 :=
  (initCONN sessionId tcpProtocol total).store ++ packetsFrom sessionId 0 payloads

theorem completes_nil_iff {total : ℕ} : Completes total [] ↔ total = 0 := by
  constructor
  · intro completes
    exact completes.complete.symm
  · rintro rfl
    refine ⟨?_, rfl, ?_⟩
    · intro payload member
      cases member
    · intro k below
      cases below

theorem completes_cons_iff {total : ℕ} {payload : List UInt8} {payloads : List (List UInt8)} :
    Completes total (payload :: payloads) ↔
      0 < total ∧ payload.length ≤ maxAllowedPacketSize ∧ payload.length ≤ total ∧
        Completes (total - payload.length) payloads := by
  constructor
  · intro completes
    have complete := completes.complete
    rw [List.flatten_cons, List.length_append] at complete
    have positive := completes.shorter 0 (Nat.succ_pos _)
    refine ⟨positive, completes.sizes _ List.mem_cons_self, by omega,
      fun p member => completes.sizes p (List.mem_cons_of_mem _ member), by omega, ?_⟩
    intro k below
    have longer := completes.shorter (k + 1) (Nat.succ_lt_succ below)
    rw [List.take_succ_cons, List.flatten_cons, List.length_append] at longer
    omega
  · rintro ⟨positive, small, within, sizes, complete, shorter⟩
    refine ⟨?_, ?_, ?_⟩
    · intro p member
      rcases List.mem_cons.mp member with rfl | member
      · exact small
      · exact sizes p member
    · rw [List.flatten_cons, List.length_append]
      omega
    · intro k below
      cases k with
      | zero => exact positive
      | succ k =>
          have longer := shorter k (Nat.lt_of_succ_lt_succ below)
          rw [List.take_succ_cons, List.flatten_cons, List.length_append]
          omega

/-! ## Headers -/

section Header

variable {sessionId : UInt64} {loc : TCPSession} {id : ℕ} {payload : List UInt8}

/-- The locals after a packet of `n` bytes was accepted. -/
def TCPSession.accept (loc : TCPSession) (n : UInt32) : TCPSession :=
  { loc with
    nbrOfBytesReceived := loc.nbrOfBytesReceived + n.toUInt64
    currPacketId := loc.currPacketId + 1
    accepted := loc.accepted ++ [n] }

@[simp] theorem TCPSession.accept_totalNbrOfBytesToBeSent (loc : TCPSession) (n : UInt32) :
    (loc.accept n).totalNbrOfBytesToBeSent = loc.totalNbrOfBytesToBeSent := rfl

@[simp] theorem TCPSession.accept_nbrOfBytesReceived (loc : TCPSession) (n : UInt32) :
    (loc.accept n).nbrOfBytesReceived = loc.nbrOfBytesReceived + n.toUInt64 := rfl

@[simp] theorem TCPSession.accept_currPacketId (loc : TCPSession) (n : UInt32) :
    (loc.accept n).currPacketId = loc.currPacketId + 1 := rfl

/-- **A header is accepted exactly when it is the next one** and its payload fits. -/
theorem header_eq_some_iff {got : List UInt8} (whole : got.length = sizeofDataInfo)
    {loc' : TCPSession} :
    loc.header sessionId got = some loc' ↔
      ∃ n : UInt32, n.toNat ≤ maxAllowedPacketSize ∧
        loc.nbrOfBytesReceived + n.toUInt64 ≤ loc.totalNbrOfBytesToBeSent ∧
        got = (dataHeader sessionId loc.currPacketId n).store ∧ loc' = loc.accept n := by
  have split := eq_data_of_le_length (Nat.le_of_eq whole.symm)
  have none : got.drop 21 = [] := List.drop_of_length_le (Nat.le_of_eq whole)
  rw [none, List.append_nil] at split
  simp only [TCPSession.header]
  constructor
  · intro accepted
    split at accepted
    · rename_i correct
      obtain ⟨typeId, session, package, small, within⟩ := correct
      refine ⟨lengthOf got, small, within, ?_, (Option.some.inj accepted).symm⟩
      rw [store_dataHeader, ← typeId, ← session, ← package]
      exact split
    · cases accepted
  · rintro ⟨n, small, within, rfl, rfl⟩
    have size : lengthOf (dataHeader sessionId loc.currPacketId n).store = n := by
      rw [store_dataHeader]
      simpa using lengthOf_cons dataId sessionId loc.currPacketId n []
    rw [size]
    simp only [store_dataHeader, typeOf_cons, sessionOf_cons, packageOf_cons, small, within,
      and_self, if_true]
    rfl

theorem toNat_toUInt64_ofNat (small : payload.length ≤ maxAllowedPacketSize) :
    (UInt32.ofNat payload.length).toUInt64.toNat = payload.length := by
  rw [UInt32.toNat_toUInt64, toNat_payload small]

end Header

/-! ## The receive loop reads the grammar -/

section Loop

variable {sessionId : UInt64}

/-- At the total the loop is over. -/
theorem restOfLoop_full {loc : TCPSession}
    (full : loc.totalNbrOfBytesToBeSent.toNat ≤ loc.nbrOfBytesReceived.toNat)
    (delivered : List (List UInt8)) (input : List UInt8) :
    restOfLoop sessionId loc delivered input = receivedOutcome sessionId delivered input := by
  have reached : ¬ loc.nbrOfBytesReceived < loc.totalNbrOfBytesToBeSent := by
    rw [UInt64.lt_iff_toNat_lt]
    exact Nat.not_lt.mpr full
  rw [restOfLoop, if_neg reached]

/-- **The next packet is taken off the input.** -/
theorem restOfLoop_accept {loc : TCPSession} {payload : List UInt8}
    (more : loc.nbrOfBytesReceived < loc.totalNbrOfBytesToBeSent)
    (small : payload.length ≤ maxAllowedPacketSize)
    (within : loc.nbrOfBytesReceived.toNat + payload.length ≤
      loc.totalNbrOfBytesToBeSent.toNat)
    (delivered : List (List UInt8)) (rest : List UInt8) :
    restOfLoop sessionId loc delivered (dataBytes sessionId loc.currPacketId payload ++ rest) =
      restOfLoop sessionId (loc.accept (UInt32.ofNat payload.length)) (delivered ++ [payload])
        rest := by
  have bound := loc.totalNbrOfBytesToBeSent.toNat_lt
  have accepted : loc.header sessionId
      (dataHeader sessionId loc.currPacketId (UInt32.ofNat payload.length)).store =
        some (loc.accept (UInt32.ofNat payload.length)) := by
    refine (header_eq_some_iff (DataInfo.length_store _)).mpr
      ⟨_, by rwa [toNat_payload small], ?_, rfl, rfl⟩
    rw [UInt64.le_iff_toNat_le, UInt64.toNat_add, toNat_toUInt64_ofNat small,
      Nat.mod_eq_of_lt (by omega)]
    exact within
  have size : lengthOf (dataHeader sessionId loc.currPacketId
      (UInt32.ofNat payload.length)).store = UInt32.ofNat payload.length := by
    rw [store_dataHeader]
    simpa using lengthOf_cons dataId sessionId loc.currPacketId _ []
  have long : ¬ (payload ++ rest).length < payload.length := by
    rw [List.length_append]
    omega
  rw [restOfLoop, if_pos more, dataBytes, List.append_assoc,
    restOfPackets_append (DataInfo.length_store _), accepted]
  simp only [size, toNat_payload small, restOfPayload]
  rw [if_neg long, List.take_left, List.drop_left]

theorem TCPSession.received_accept {loc : TCPSession} {payload : List UInt8}
    (small : payload.length ≤ maxAllowedPacketSize)
    (bound : loc.nbrOfBytesReceived.toNat + payload.length < 2 ^ 64) :
    (loc.accept (UInt32.ofNat payload.length)).nbrOfBytesReceived.toNat =
      loc.nbrOfBytesReceived.toNat + payload.length := by
  rw [TCPSession.accept_nbrOfBytesReceived, UInt64.toNat_add, toNat_toUInt64_ofNat small]
  exact Nat.mod_eq_of_lt bound

/-- **A session that is complete is received**, and what follows it is left unread. -/
theorem restOfLoop_complete {payloads : List (List UInt8)} (rest : List UInt8)
    {loc : TCPSession} {id left : ℕ} (delivered : List (List UInt8))
    (current : loc.currPacketId = UInt64.ofNat id)
    (total : loc.nbrOfBytesReceived.toNat + left = loc.totalNbrOfBytesToBeSent.toNat)
    (completes : Completes left payloads) :
    restOfLoop sessionId loc delivered (packetsFrom sessionId id payloads ++ rest) =
      receivedOutcome sessionId (delivered ++ payloads) rest := by
  induction payloads generalizing loc id left delivered with
  | nil =>
      obtain rfl := completes_nil_iff.mp completes
      rw [restOfLoop_full (by omega), packetsFrom, List.nil_append, List.append_nil]
  | cons payload payloads ih =>
      obtain ⟨positive, small, within, completes⟩ := completes_cons_iff.mp completes
      have bound := loc.totalNbrOfBytesToBeSent.toNat_lt
      have more : loc.nbrOfBytesReceived < loc.totalNbrOfBytesToBeSent := by
        rw [UInt64.lt_iff_toNat_lt]
        omega
      have next : (loc.accept (UInt32.ofNat payload.length)).currPacketId =
          UInt64.ofNat (id + 1) := by
        rw [TCPSession.accept_currPacketId, current]
        simp
      have remains : (loc.accept (UInt32.ofNat payload.length)).nbrOfBytesReceived.toNat +
          (left - payload.length) =
            (loc.accept (UInt32.ofNat payload.length)).totalNbrOfBytesToBeSent.toNat := by
        rw [TCPSession.received_accept small (by omega),
          TCPSession.accept_totalNbrOfBytesToBeSent]
        omega
      rw [packetsFrom, ← current, List.append_assoc,
        restOfLoop_accept more small (by omega) delivered,
        ih (delivered ++ [payload]) next remains completes, List.append_assoc]
      rfl

/-- **A loop that will receive everything takes a packet off the input**, unless it is over. The
bound keeps the counter of bytes from running over. -/
theorem restOfLoop_received {input : List UInt8} {loc : TCPSession}
    {delivered : List (List UInt8)} (more : loc.nbrOfBytesReceived < loc.totalNbrOfBytesToBeSent)
    (bound : loc.nbrOfBytesReceived.toNat + input.length < 2 ^ 64)
    (received : (restOfLoop sessionId loc delivered input).received = true) :
    ∃ payload rest, input = dataBytes sessionId loc.currPacketId payload ++ rest ∧
      payload.length ≤ maxAllowedPacketSize ∧
      loc.nbrOfBytesReceived.toNat + payload.length ≤ loc.totalNbrOfBytesToBeSent.toNat ∧
      (restOfLoop sessionId (loc.accept (UInt32.ofNat payload.length)) (delivered ++ [payload])
        rest).received = true := by
  rw [restOfLoop, if_pos more] at received
  rcases Nat.lt_or_ge input.length sizeofDataInfo with short | long
  · rw [restOfPackets_short short] at received
    cases received
  have whole : (input.take sizeofDataInfo).length = sizeofDataInfo := List.length_take_of_le long
  rw [← List.take_append_drop sizeofDataInfo input, restOfPackets_append whole] at received
  cases header : loc.header sessionId (input.take sizeofDataInfo) with
  | none =>
      rw [header] at received
      cases received
  | some loc' =>
      obtain ⟨size, small, fits, bytes, rfl⟩ := (header_eq_some_iff whole).mp header
      have announced : lengthOf (input.take sizeofDataInfo) = size := by
        rw [bytes, store_dataHeader]
        simpa using lengthOf_cons dataId sessionId loc.currPacketId size []
      rw [header] at received
      simp only [announced, restOfPayload] at received
      split at received
      · cases received
      rename_i enough
      have taken : ((input.drop sizeofDataInfo).take size.toNat).length = size.toNat :=
        List.length_take_of_le (Nat.not_lt.mp enough)
      rw [List.length_drop] at enough
      have sum : (loc.nbrOfBytesReceived + size.toUInt64).toNat =
          loc.nbrOfBytesReceived.toNat + size.toNat := by
        rw [UInt64.toNat_add, UInt32.toNat_toUInt64]
        exact Nat.mod_eq_of_lt (by omega)
      refine ⟨(input.drop sizeofDataInfo).take size.toNat,
        (input.drop sizeofDataInfo).drop size.toNat, ?_, ?_, ?_, ?_⟩
      · rw [dataBytes, taken, UInt32.ofNat_toNat, ← bytes, List.append_assoc,
          List.take_append_drop, List.take_append_drop]
      · rwa [taken]
      · rwa [taken, ← sum, ← UInt64.le_iff_toNat_le]
      · rwa [taken, UInt32.ofNat_toNat]

/-- **What is received is a complete session.** -/
theorem restOfLoop_sound {input : List UInt8} {loc : TCPSession} {id : ℕ}
    {delivered : List (List UInt8)} (current : loc.currPacketId = UInt64.ofNat id)
    (within : loc.nbrOfBytesReceived ≤ loc.totalNbrOfBytesToBeSent)
    (bound : loc.nbrOfBytesReceived.toNat + input.length < 2 ^ 64)
    (received : (restOfLoop sessionId loc delivered input).received = true) :
    ∃ payloads rest, input = packetsFrom sessionId id payloads ++ rest ∧
      Completes (loc.totalNbrOfBytesToBeSent.toNat - loc.nbrOfBytesReceived.toNat) payloads := by
  induction length : input.length using Nat.strongRecOn
      generalizing input loc id delivered with
  | ind n ih =>
      by_cases more : loc.nbrOfBytesReceived < loc.totalNbrOfBytesToBeSent
      · obtain ⟨payload, rest, rfl, small, fits, received⟩ :=
          restOfLoop_received more bound received
        rw [List.length_append, length_dataBytes] at length bound
        have header : 0 < sizeofDataInfo := Nat.succ_pos _
        have next : (loc.accept (UInt32.ofNat payload.length)).currPacketId =
            UInt64.ofNat (id + 1) := by
          rw [TCPSession.accept_currPacketId, current]
          simp
        have counted : (loc.accept (UInt32.ofNat payload.length)).nbrOfBytesReceived.toNat =
            loc.nbrOfBytesReceived.toNat + payload.length :=
          TCPSession.received_accept small (by omega)
        have within' : (loc.accept (UInt32.ofNat payload.length)).nbrOfBytesReceived ≤
            (loc.accept (UInt32.ofNat payload.length)).totalNbrOfBytesToBeSent := by
          rw [UInt64.le_iff_toNat_le, counted]
          exact fits
        obtain ⟨payloads, unread, rfl, completes⟩ :=
          ih rest.length (by omega) next within' (by omega) received rfl
        rw [counted, TCPSession.accept_totalNbrOfBytesToBeSent, Nat.sub_add_eq] at completes
        rw [UInt64.lt_iff_toNat_lt] at more
        refine ⟨payload :: payloads, unread, ?_,
          completes_cons_iff.mpr ⟨by omega, small, by omega, completes⟩⟩
        rw [packetsFrom, ← current, List.append_assoc]
      · rw [UInt64.lt_iff_toNat_lt] at more
        exact ⟨[], input, rfl, completes_nil_iff.mpr (by omega)⟩

/-- The loop ends with `RCVD` or with an `RJT`. -/
def Outcome.Decided (sessionId : UInt64) (o : Outcome) : Prop :=
  o.received = true ∧ o.answer = (initRCVD sessionId).store ∨
    o.received = false ∧ ∃ id, o.answer = (initRJT sessionId id).store

theorem decided_restOfPackets (loc : TCPSession) (delivered : List (List UInt8))
    (input : List UInt8) : (restOfPackets sessionId loc delivered input).Decided sessionId := by
  fun_induction restOfPackets sessionId loc delivered input with
  | case1 => exact .inr ⟨rfl, _, rfl⟩
  | case2 => exact .inr ⟨rfl, _, rfl⟩
  | case3 => exact .inr ⟨rfl, _, rfl⟩
  | case4 _ _ _ _ _ _ _ _ _ _ ih => exact ih
  | case5 => exact .inl ⟨rfl, rfl⟩

theorem decided_restOfLoop (loc : TCPSession) (delivered : List (List UInt8))
    (input : List UInt8) : (restOfLoop sessionId loc delivered input).Decided sessionId := by
  rw [restOfLoop]
  split
  · exact decided_restOfPackets loc delivered input
  · exact .inl ⟨rfl, rfl⟩

/-- `RCVD` is not an `RJT`. -/
theorem Outcome.Decided.received_iff {o : Outcome} (decided : o.Decided sessionId) :
    o.answer = (initRCVD sessionId).store ↔ o.received = true := by
  rcases decided with ⟨received, answer⟩ | ⟨rejected, id, answer⟩
  · exact iff_of_true answer received
  · refine iff_of_false ?_ (by rw [rejected]; exact Bool.false_ne_true)
    rw [answer]
    intro equal
    have length := congrArg List.length equal
    rw [NumberedPacket.length_store, SessionPacket.length_store] at length
    cases length

end Loop

/-! ## A connection and its bytes -/

/-- What becomes of a connection on which these are all the bytes. -/
def connectionOutcome (stream : List UInt8) : Outcome :=
  if stream.length < sizeofCONN then ⟨[], [], false, []⟩
  else if typeOf stream = connId ∧ protocolOf stream = tcpProtocol then
    (restOfLoop (sessionOf stream) (.fresh (totalOf stream)) [] (stream.drop sizeofCONN)).after
      (initCONACC (sessionOf stream)).store
  else ⟨[], [], false, stream.drop sizeofCONN⟩

/-- After a `CONN` it is up to the receive loop. -/
theorem connectionOutcome_conn (sessionId total : UInt64) (input : List UInt8) :
    connectionOutcome ((initCONN sessionId tcpProtocol total).store ++ input) =
      (restOfLoop sessionId (.fresh total) [] input).after (initCONACC sessionId).store := by
  have whole : (initCONN sessionId tcpProtocol total).store.length = sizeofCONN :=
    CONN.length_store _
  obtain ⟨type, session, protocol, announced⟩ := conn_append whole input
  have long : ¬ ((initCONN sessionId tcpProtocol total).store ++ input).length < sizeofCONN := by
    rw [List.length_append, whole]
    omega
  rw [store_initCONN] at type session protocol announced
  rw [typeOf_cons] at type
  rw [sessionOf_cons] at session
  rw [protocolOf_cons] at protocol
  rw [totalOf_cons] at announced
  rw [← store_initCONN] at type session protocol announced
  rw [connectionOutcome, if_neg long, if_pos ⟨type, protocol⟩, session, announced,
    List.drop_left' whole]

/-- **A session in the grammar is received.** -/
theorem connectionOutcome_session (sessionId total : UInt64) {payloads : List (List UInt8)}
    (completes : Completes total.toNat payloads) (rest : List UInt8) :
    connectionOutcome (sessionBytes sessionId total payloads ++ rest) =
      (receivedOutcome sessionId payloads rest).after (initCONACC sessionId).store := by
  have received : restOfLoop sessionId (.fresh total) []
        (packetsFrom sessionId 0 payloads ++ rest) =
      receivedOutcome sessionId ([] ++ payloads) rest :=
    restOfLoop_complete rest [] rfl (Nat.zero_add _) completes
  rw [sessionBytes, List.append_assoc, connectionOutcome_conn, received, List.nil_append]

/-- **What is answered with `CONACC` and `RCVD` begins with a session in the grammar.** -/
theorem connectionOutcome_sound {stream : List UInt8} (small : stream.length < 2 ^ 63)
    {sessionId : UInt64} (answer : (connectionOutcome stream).answer =
      (initCONACC sessionId).store ++ (initRCVD sessionId).store) :
    ∃ total payloads, Completes total.toNat payloads ∧
      sessionBytes sessionId total payloads <+: stream := by
  have nonempty : [] ≠ (initCONACC sessionId).store ++ (initRCVD sessionId).store := by
    rw [initCONACC, store_initSession]
    exact (List.cons_ne_nil _ _).symm
  rw [connectionOutcome] at answer
  split at answer
  · exact absurd answer nonempty
  rename_i long
  split at answer
  swap
  · exact absurd answer nonempty
  rename_i correct
  obtain ⟨type, protocol⟩ := correct
  obtain ⟨conacc, rcvd⟩ := List.append_inj answer (by
    rw [SessionPacket.length_store, SessionPacket.length_store])
  have session : sessionOf stream = sessionId := by
    have equal := congrArg sessionOf conacc
    rwa [initCONACC, initCONACC, store_initSession, store_initSession, sessionOf_cons_nil,
      sessionOf_cons_nil] at equal
  have received := (decided_restOfLoop _ _ _).received_iff.mp (session ▸ rcvd)
  have whole : (stream.take sizeofCONN).length = 18 :=
    List.length_take_of_le (Nat.not_lt.mp long)
  obtain ⟨type', session', protocol', total'⟩ :=
    conn_append whole (stream.drop sizeofCONN)
  rw [List.take_append_drop] at type' session' protocol' total'
  have conn := eq_conn_of_length whole
  rw [← type', ← session', ← protocol', ← total', type, protocol, session] at conn
  have first : (TCPSession.fresh (totalOf stream)).currPacketId = UInt64.ofNat 0 := rfl
  obtain ⟨payloads, rest, input, completes⟩ := restOfLoop_sound first
    (UInt64.zero_le) (by
      show 0 + _ < _
      rw [List.length_drop]
      omega) received
  refine ⟨totalOf stream, payloads, completes, rest, ?_⟩
  rw [sessionBytes, store_initCONN, ← conn, List.append_assoc, ← input, List.take_append_drop]

/-! ## The server on a connection -/

/-- The server has accepted a connection after an earlier run, and nothing has been read. -/
def acceptedConnection (history : List TCPServerEvent) (stream : List UInt8) :
    Fed TCPServer UInt8 where
  state := tcpServerHandler.next (tcpServerHandler.after .start history) (.accept .connected)
  unread := stream
  written := []

/-- After the last byte the server finds the end of the stream, or its `read` times out. -/
def ReadEnds (s t : TCPServer) : Prop :=
  ∃ r : Read, r.Ended ∧ t = tcpServerHandler.next s (.read r)

/-- The server is back in `accept`. -/
def ConnectionServed (c : Fed TCPServer UInt8) : Prop := c.state.phase = .accept

/-- The end of the stream keeps the outcome, and the server does not read again. -/
theorem readEnds_heads {o : Outcome} {s t : TCPServer} {puts : List UInt8} {n : ℕ}
    (heads : TCPServer.Heads o s puts []) (blocked : tcpServerProcess.call s = .read n)
    (ends : ReadEnds s t) : TCPServer.Heads o t puts [] ∧ tcpServerProcess.Busy t := by
  obtain ⟨proper, same⟩ := heads
  obtain ⟨r, ended, rfl⟩ := ends
  have answers : r.Answers s.call := by
    rw [show s.call = .read n from blocked]
    cases r with
    | data bytes =>
        obtain rfl : bytes = [] := ended
        exact Nat.zero_le n
    | failed errno => trivial
  obtain ⟨proper', busy, outcome⟩ := TCPServer.read_ended proper blocked ended
  rw [TCPServer.next_read answers]
  exact ⟨⟨proper', outcome.trans same⟩, busy⟩

section Connection

variable {history : List TCPServerEvent} {stream : List UInt8}
variable (listening : (tcpServerHandler.after .start history).phase = .accept)

include listening

variable (stream) in
/-- The earlier run leaves no trace in the outcome. -/
theorem acceptedConnection_heads :
    TCPServer.Heads (connectionOutcome stream) (acceptedConnection history stream).state
      (connectionOutcome stream).answer (stream ++ []) := by
  have accepted : (acceptedConnection history stream).state =
      { tcpServerHandler.after .start history with
        phase := .readCONN [], delivered := [], received := false } := by
    show TCPServer.onAccept _ _ = _
    simp only [TCPServer.onAccept, listening]
  rw [accepted, List.append_nil]
  exact ⟨⟨by decide, rfl⟩, rfl⟩

/-- **What the server has written and read when it is done is the outcome.** -/
theorem acceptedConnection_outcome {c : Fed TCPServer UInt8}
    (run : Fed.Reachable tcpServerProcess ReadEnds (acceptedConnection history stream) c)
    (served : ConnectionServed c) :
    c.written = (connectionOutcome stream).answer ∧
      c.state.delivered = (connectionOutcome stream).delivered := by
  obtain ⟨later, written, -, same⟩ := Fed.promised (tcpServer_promises _)
    (fun heads blocked ends => (readEnds_heads heads blocked ends).1)
    (acceptedConnection_heads stream listening) run
  have closed : c.state.call = .closed := by rw [TCPServer.call, served]
  rw [TCPServer.outcome_closed closed, Outcome.mk.injEq] at same
  obtain ⟨rfl, delivered, -⟩ := same
  exact ⟨((List.append_nil _).symm.trans written.symm), delivered⟩

/-- **The server comes to the end of the connection**, however the bytes arrive. -/
theorem acceptedConnection_served :
    Inevitable (Fed.Step tcpServerProcess ReadEnds) ConnectionServed
      (acceptedConnection history stream) := by
  refine Fed.settles (tcpServer_promises _) readEnds_heads ?_
    (acceptedConnection_heads stream listening)
  intro c puts heads settled
  rcases settled with closed | ⟨⟨n, blocked⟩, unread⟩
  · rcases TCPServer.call_closed closed with phase | phase
    · exact .inl phase
    · have proper := heads.1
      simp only [TCPServer.Proper, phase] at proper
  · exact .inr ⟨unread, ⟨n, blocked⟩, _, .data [], rfl, rfl⟩

end Connection

/-- **The server accepts exactly the session grammar.** -/
theorem tcp_server_grammar {history : List TCPServerEvent} {stream : List UInt8}
    (listening : (tcpServerHandler.after .start history).phase = .accept)
    (small : stream.length < 2 ^ 63) :
    Inevitable (Fed.Step tcpServerProcess ReadEnds) ConnectionServed
      (acceptedConnection history stream) ∧
    ∀ c, Fed.Reachable tcpServerProcess ReadEnds (acceptedConnection history stream) c →
      ConnectionServed c →
      (∀ sessionId, c.written = (initCONACC sessionId).store ++ (initRCVD sessionId).store ↔
        ∃ total payloads, Completes total.toNat payloads ∧
          sessionBytes sessionId total payloads <+: stream) ∧
      (∀ sessionId total payloads, Completes total.toNat payloads →
        sessionBytes sessionId total payloads <+: stream → c.state.delivered = payloads) ∧
      (∀ history' c', (tcpServerHandler.after .start history').phase = .accept →
        Fed.Reachable tcpServerProcess ReadEnds (acceptedConnection history' stream) c' →
        ConnectionServed c' → c'.written = c.written ∧ c'.state.delivered = c.state.delivered) := by
  refine ⟨acceptedConnection_served listening, fun c run served => ?_⟩
  obtain ⟨written, delivered⟩ := acceptedConnection_outcome listening run served
  refine ⟨fun sessionId => ⟨fun answer => ?_, ?_⟩, ?_, ?_⟩
  · exact connectionOutcome_sound small (written.symm.trans answer)
  · rintro ⟨total, payloads, completes, rest, rfl⟩
    rw [written, connectionOutcome_session sessionId total completes rest]
    rfl
  · rintro sessionId total payloads completes ⟨rest, rfl⟩
    rw [delivered, connectionOutcome_session sessionId total completes rest]
    rfl
  · intro history' c' listening' run' served'
    obtain ⟨written', delivered'⟩ := acceptedConnection_outcome listening' run' served'
    exact ⟨written'.trans written.symm, delivered'.trans delivered.symm⟩

/-- After a connection that broke off in its `CONN`, a session of two bytes is received, and
the byte that follows it is left alone. -/
theorem tcp_server_grammar_twoBytes :
    ∃ c, Fed.Reachable tcpServerProcess ReadEnds
        (acceptedConnection [.accept .connected, .read (.data [9, 9]), .read (.data [])]
          (sessionBytes 1 2 [[7], [8]] ++ [3])) c ∧
      ConnectionServed c ∧ c.written = (initCONACC 1).store ++ (initRCVD 1).store ∧
      c.state.delivered = [[7], [8]] := by
  have completes : Completes (2 : UInt64).toNat [[7], [8]] :=
    completes_cons_iff.mpr ⟨by decide, by decide, by decide,
      completes_cons_iff.mpr ⟨by decide, by decide, by decide, completes_nil_iff.mpr (by decide)⟩⟩
  have small : (sessionBytes 1 2 [[7], [8]] ++ [3]).length < 2 ^ 63 := by decide
  have listening : (tcpServerHandler.after .start
      [.accept .connected, .read (.data [9, 9]), .read (.data [])]).phase = .accept := by decide
  obtain ⟨served, accepts⟩ := tcp_server_grammar listening small
  obtain ⟨c, run, back⟩ := served.reaches
  obtain ⟨written, delivered, -⟩ := accepts c run back
  exact ⟨c, run, back, (written 1).mpr ⟨2, _, completes, List.prefix_append _ _⟩,
    delivered 1 2 _ completes (List.prefix_append _ _)⟩

end Ppcb
