import Ppcb.ServerTCP
import Ppcb.ServerSpec

/-!
# What becomes of a TCP connection

`TCPServer.outcome` says how a connection ends from any point on, given the bytes that are
still to come before the end of the stream: what the server still writes, the payloads it has
read in the end, whether it sends `RCVD`, and the bytes it leaves unread. It looks at the input
as a whole, packet by packet.

Reading the input in pieces does not change the outcome: it is a promise that every call
keeps (`tcpServer_promises`), and that the end of the input keeps as well
(`TCPServer.outcome_ended`).
-/

set_option autoImplicit false

namespace Ppcb

open ByteOrder CString Reactive

/-! ## Headers that are complete -/

/-- A field that lies within what was read does not depend on what follows. -/
theorem slice_append {got : List UInt8} (offset width : ℕ) (within : offset + width ≤ got.length)
    (rest : List UInt8) :
    ((got ++ rest).drop offset).take width = (got.drop offset).take width := by
  have room : width ≤ (got.drop offset).length := by
    rw [List.length_drop]
    omega
  rw [List.drop_append_of_le_length (by omega), List.take_append_of_le_length room]

/-- The fields of a `CONN` do not depend on what follows it. -/
theorem conn_append {got : List UInt8} (whole : got.length = sizeofCONN) (rest : List UInt8) :
    typeOf (got ++ rest) = typeOf got ∧ sessionOf (got ++ rest) = sessionOf got ∧
      protocolOf (got ++ rest) = protocolOf got ∧ totalOf (got ++ rest) = totalOf got := by
  have long : 18 = got.length := whole.symm
  have byte : ∀ offset < 18, ((got ++ rest).drop offset).headD 0 = (got.drop offset).headD 0 := by
    intro offset within
    rw [List.drop_append_of_le_length (by omega),
      List.drop_eq_getElem_cons (show offset < got.length by omega)]
    rfl
  refine ⟨byte 0 (by decide), ?_, byte 9 (by decide), ?_⟩
  · exact congrArg read64 (slice_append 1 8 (by omega) rest)
  · exact congrArg read64 (slice_append 10 8 (by omega) rest)

/-- A `CONN` that has been read whole. -/
theorem CONN.load_whole {got : List UInt8} (whole : got.length = 18) :
    (CONN.load got).packageTypeId = typeOf got ∧ (CONN.load got).protocolId = protocolOf got ∧
      ntohCONN (.load got) = ⟨typeOf got, sessionOf got, protocolOf got, totalOf got⟩ := by
  refine ⟨rfl, rfl, ?_⟩
  have cast : castBuffTo (CONN.store ⟨0, 0, 0, 0⟩) sizeofCONN got got.length = got := by
    rw [castBuffTo, if_neg (by rw [whole]; decide), sizeofCONN, ← whole, List.take_length]
  have received := CONN.receive_eq ⟨0, 0, 0, 0⟩ (Nat.le_of_eq whole.symm)
  rwa [CONN.receive, cast] at received

/-- A header of a `DATA` packet that has been read whole. -/
theorem DataInfo.load_whole {got : List UInt8} (whole : got.length = 21) :
    ntohDataInfo (.load got) = ⟨typeOf got, sessionOf got, packageOf got, lengthOf got⟩ := by
  have cast : castBuffTo (DataInfo.store ⟨0, 0, 0, 0⟩) sizeofDataInfo got got.length = got := by
    rw [castBuffTo, if_neg (by rw [whole]; decide), sizeofDataInfo, ← whole, List.take_length]
  have read : ntohDataInfo (.load got) = DataInfo.receive ⟨0, 0, 0, 0⟩ got := by
    rw [DataInfo.receive, cast]
  rw [read]
  exact DataInfo.ext (DataInfo.receive_packageTypeId _ (by omega))
    (DataInfo.receive_sessionId _ (by omega)) (DataInfo.receive_packageId _ (by omega))
    (DataInfo.receive_nbrOfBytesInPacket _ (by omega))

theorem readnErrorHandler_success_iff (readLength : Option ℕ) {dataSize : ℕ}
    (positive : 0 < dataSize) :
    readnErrorHandler readLength dataSize = .SUCCESS ↔ ∃ n, readLength = some n ∧ dataSize ≤ n := by
  cases readLength with
  | none => simp [readnErrorHandler]
  | some n =>
      simp only [readnErrorHandler]
      split
      · simp only [reduceCtorEq, false_iff]
        rintro ⟨n, ⟨⟩, enough⟩
        omega
      split
      · simp only [reduceCtorEq, false_iff]
        rintro ⟨n, ⟨⟩, enough⟩
        omega
      · simp only [true_iff]
        exact ⟨n, rfl, by omega⟩

/-- The locals after the header of a packet was accepted, if it is. -/
def TCPSession.header (loc : TCPSession) (sessionId : UInt64) (got : List UInt8) :
    Option TCPSession :=
  if typeOf got = dataId ∧ sessionOf got = sessionId ∧ packageOf got = loc.currPacketId ∧
      (lengthOf got).toNat ≤ maxAllowedPacketSize ∧
      loc.nbrOfBytesReceived + (lengthOf got).toUInt64 ≤ loc.totalNbrOfBytesToBeSent then
    some
      { loc with
        nbrOfBytesReceived := loc.nbrOfBytesReceived + (lengthOf got).toUInt64
        currPacketId := loc.currPacketId + 1
        accepted := loc.accepted ++ [lengthOf got] }
  else none

/-- The calls of the receive loop, and of the answer after it. -/
def TCPServerPhase.Serving : TCPServerPhase → Prop
  | .readDataInfo _ _ => True
  | .readData _ _ => True
  | .writeRJT _ => True
  | .writeRCVD _ => True
  | _ => False

theorem TCPServerPhase.Serving.ne_readCONN {phase : TCPServerPhase} (serving : phase.Serving)
    (got : List UInt8) : phase ≠ .readCONN got := by
  rintro rfl
  exact serving

theorem TCPServerPhase.Serving.ne_finished {phase : TCPServerPhase} (serving : phase.Serving) :
    phase ≠ .finished := by
  rintro rfl
  exact serving

/-- The locals of a connection when the receive loop starts. -/
def TCPSession.fresh (total : UInt64) : TCPSession := ⟨total, 0, 0, []⟩

/-! ## The outcome -/

/-- How a connection goes on and ends. -/
structure Outcome where
  answer : List UInt8
  delivered : List (List UInt8)
  received : Bool
  unread : List UInt8
deriving DecidableEq, Repr

/-- The same outcome, with more to be written first. -/
def Outcome.after (o : Outcome) (bytes : List UInt8) : Outcome :=
  { o with answer := bytes ++ o.answer }

section Rest

variable (sessionId : UInt64)

/-- `RJT` with this id is sent. -/
def rejectedOutcome (id : UInt64) (delivered : List (List UInt8)) (unread : List UInt8) :
    Outcome :=
  ⟨(initRJT sessionId id).store, delivered, false, unread⟩

/-- `RCVD` is sent. -/
def receivedOutcome (delivered : List (List UInt8)) (unread : List UInt8) : Outcome :=
  ⟨(initRCVD sessionId).store, delivered, true, unread⟩

/-- The outcome of the receive loop, at the header of a packet. -/
def restOfPackets (loc : TCPSession) (delivered : List (List UInt8)) (input : List UInt8) :
    Outcome :=
  if _short : input.length < sizeofDataInfo then
    rejectedOutcome sessionId loc.currPacketId delivered []
  else
    match loc.header sessionId (input.take sizeofDataInfo) with
    | none => rejectedOutcome sessionId loc.currPacketId delivered (input.drop sizeofDataInfo)
    | some loc =>
        let n := (lengthOf input).toNat
        let payload := input.drop sizeofDataInfo
        if payload.length < n then rejectedOutcome sessionId loc.currPacketId delivered []
        else if loc.nbrOfBytesReceived < loc.totalNbrOfBytesToBeSent then
          restOfPackets loc (delivered ++ [payload.take n]) (payload.drop n)
        else receivedOutcome sessionId (delivered ++ [payload.take n]) (payload.drop n)
termination_by input.length
decreasing_by
  simp only [List.length_drop, sizeofDataInfo] at _short ⊢
  omega

/-- The outcome at the test of the receive loop. -/
def restOfLoop (loc : TCPSession) (delivered : List (List UInt8)) (input : List UInt8) :
    Outcome :=
  if loc.nbrOfBytesReceived < loc.totalNbrOfBytesToBeSent then
    restOfPackets sessionId loc delivered input
  else receivedOutcome sessionId delivered input

/-- The outcome at a payload of `n` bytes. -/
def restOfPayload (loc : TCPSession) (n : ℕ) (delivered : List (List UInt8))
    (input : List UInt8) : Outcome :=
  if input.length < n then rejectedOutcome sessionId loc.currPacketId delivered []
  else restOfLoop sessionId loc (delivered ++ [input.take n]) (input.drop n)

variable {sessionId}

theorem restOfPackets_short {loc : TCPSession} {delivered : List (List UInt8)}
    {input : List UInt8} (short : input.length < sizeofDataInfo) :
    restOfPackets sessionId loc delivered input =
      rejectedOutcome sessionId loc.currPacketId delivered [] := by
  rw [restOfPackets, dif_pos short]

theorem restOfPackets_append {loc : TCPSession} {delivered : List (List UInt8)}
    {got input : List UInt8} (whole : got.length = sizeofDataInfo) :
    restOfPackets sessionId loc delivered (got ++ input) =
      match loc.header sessionId got with
      | none => rejectedOutcome sessionId loc.currPacketId delivered input
      | some loc => restOfPayload sessionId loc (lengthOf got).toNat delivered input := by
  have long : ¬ (got ++ input).length < sizeofDataInfo := by
    rw [List.length_append]
    omega
  have size : lengthOf (got ++ input) = lengthOf got :=
    congrArg read32 (slice_append 17 4 (by rw [whole]; decide) input)
  rw [restOfPackets, dif_neg long, ← whole, List.take_left, List.drop_left, size]
  cases loc.header sessionId got <;> rfl

end Rest

namespace TCPServer

/-- The outcome of the connection, when `input` is all that is still to come. -/
def outcome (s : TCPServer) (input : List UInt8) : Outcome :=
  match s.phase with
  | .readCONN got =>
      let all := got ++ input
      if all.length < sizeofCONN then ⟨[], s.delivered, false, []⟩
      else if typeOf all = connId ∧ protocolOf all = tcpProtocol then
        (restOfLoop (sessionOf all) (.fresh (totalOf all)) s.delivered
          (all.drop sizeofCONN)).after (initCONACC (sessionOf all)).store
      else ⟨[], s.delivered, false, all.drop sizeofCONN⟩
  | .writeCONACC left =>
      (restOfLoop s.conn.sessionId (.fresh s.conn.nbrOfBytesToBeSent) s.delivered input).after left
  | .readDataInfo loc got => restOfPackets s.conn.sessionId loc s.delivered (got ++ input)
  | .readData loc got =>
      restOfPayload s.conn.sessionId loc s.dataMetainfo.nbrOfBytesInPacket.toNat s.delivered
        (got ++ input)
  | .writeRJT left => ⟨left, s.delivered, false, input⟩
  | .writeRCVD left => ⟨left, s.delivered, true, input⟩
  | .accept => ⟨[], s.delivered, s.received, input⟩
  | .finished => ⟨[], s.delivered, s.received, input⟩

/-- The server serves a connection or waits for one. A call that is pending is not over yet,
and `received` says whether `RCVD` is sent. -/
def Proper (s : TCPServer) : Prop :=
  match s.phase with
  | .readCONN got => got.length < sizeofCONN ∧ s.received = false
  | .writeCONACC left => left ≠ [] ∧ s.received = false
  | .readDataInfo _ got => got.length < sizeofDataInfo ∧ s.received = false
  | .readData _ got =>
      got.length < s.dataMetainfo.nbrOfBytesInPacket.toNat ∧ s.received = false
  | .writeRJT left => left ≠ [] ∧ s.received = false
  | .writeRCVD left => left ≠ [] ∧ s.received = true
  | .accept => True
  | .finished => False

/-- The server writes `puts` when `takes` is all it reads, with an outcome that is otherwise
the given one. -/
def Heads (o : Outcome) (s : TCPServer) (puts takes : List UInt8) : Prop :=
  s.Proper ∧ s.outcome takes = { o with answer := puts }

/-! ## The functions of the server -/

section Functions

variable (s : TCPServer) {got : List UInt8}

theorem connRead_whole (whole : got.length = sizeofCONN) :
    s.connRead (some sizeofCONN) got =
      if typeOf got = connId ∧ protocolOf got = tcpProtocol then
        ({ s with
            conn := ⟨typeOf got, sessionOf got, protocolOf got, totalOf got⟩
            phase := .writeCONACC (initCONACC (sessionOf got)).store }, [])
      else { s with conn := CONN.load got }.close := by
  obtain ⟨typeId, protocol, host⟩ := CONN.load_whole whole
  have memory : readOver s.conn.store got = got :=
    readOver_whole (whole.trans (CONN.length_store _).symm)
  have length : readnErrorHandler (some sizeofCONN) sizeofCONN = .SUCCESS := by decide
  simp only [connRead, memory, tcpHandleConnInit, length, typeId, protocol, host, ne_eq,
    not_true_eq_false, if_false]
  by_cases type : typeOf got = connId
  · by_cases tcp : protocolOf got = tcpProtocol
    · simp only [type, tcp, not_true_eq_false, if_false, and_self, if_true]
    · simp only [type, tcp, not_true_eq_false, not_false_eq_true, if_false, if_true, and_false,
        reduceCtorEq]
  · simp only [type, not_false_eq_true, if_true, if_false, false_and, reduceCtorEq]

theorem connRead_short (got : List UInt8) {readLength : Option ℕ}
    (short : ∀ n, readLength = some n → n < sizeofCONN) :
    ∃ conn, s.connRead readLength got = { s with conn := conn }.close := by
  have failure : tcpHandleConnInit (CONN.load (readOver s.conn.store got)) readLength ≠
      .SUCCESS := by
    have bad : readnErrorHandler readLength sizeofCONN ≠ .SUCCESS := by
      rw [ne_eq, readnErrorHandler_success_iff _ (by decide)]
      rintro ⟨n, equal, enough⟩
      exact Nat.lt_irrefl _ (lt_of_lt_of_le (short n equal) enough)
    rw [tcpHandleConnInit, if_pos bad]
    exact nofun
  exact ⟨_, if_pos failure⟩

theorem outcome_receiveLoop (loc : TCPSession) (input : List UInt8) :
    (s.receiveLoop loc).outcome input = restOfLoop s.conn.sessionId loc s.delivered input := by
  rw [receiveLoop, restOfLoop]
  split <;> rfl

theorem proper_receiveLoop (loc : TCPSession) (fresh : s.received = false) :
    (s.receiveLoop loc).Proper := by
  rw [receiveLoop]
  split
  · exact ⟨by decide, fresh⟩
  · refine ⟨?_, rfl⟩
    rw [initRCVD, store_initSession]
    exact List.cons_ne_nil _ _

theorem proper_handleRJTSending (id : UInt64) (fresh : s.received = false) :
    (s.handleRJTSending id).Proper := by
  refine ⟨?_, fresh⟩
  rw [initRJT, store_initNumbered]
  exact List.cons_ne_nil _ _

theorem dataRead_whole (loc : TCPSession)
    (whole : got.length = s.dataMetainfo.nbrOfBytesInPacket.toNat) :
    s.dataRead loc (some got.length) got =
      { s with delivered := s.delivered ++ [got] }.receiveLoop loc := by
  simp only [dataRead, tcpReadDataToBuf, whole, ne_eq, not_true_eq_false, if_false]

theorem dataRead_short (loc : TCPSession) (got : List UInt8) {readBytes : Option ℕ}
    (short : ∀ n, readBytes = some n → n < s.dataMetainfo.nbrOfBytesInPacket.toNat) :
    s.dataRead loc readBytes got = s.handleRJTSending loc.currPacketId := by
  have failure : tcpReadDataToBuf readBytes s.dataMetainfo.nbrOfBytesInPacket ≠ .SUCCESS := by
    cases readBytes with
    | none => exact nofun
    | some n =>
        rw [tcpReadDataToBuf, if_pos (Nat.ne_of_lt (short n rfl))]
        exact nofun
  exact if_pos failure

/-- The server at the payload of a packet whose header has been accepted. -/
def atPayload (loc : TCPSession) : TCPServer :=
  match readnLoop s.dataMetainfo.nbrOfBytesInPacket.toNat [] with
  | .blocked got => { s with phase := .readData loc got }
  | .returned readBytes got => s.dataRead loc readBytes got

theorem dataInfoRead_whole (loc : TCPSession) (whole : got.length = sizeofDataInfo) :
    s.dataInfoRead loc (some sizeofDataInfo) got =
      let s : TCPServer :=
        { s with dataMetainfo := ⟨typeOf got, sessionOf got, packageOf got, lengthOf got⟩ }
      match loc.header s.conn.sessionId got with
      | none => s.handleRJTSending loc.currPacketId
      | some loc => s.atPayload loc := by
  have memory : readOver s.dataMetainfo.store got = got :=
    readOver_whole (whole.trans (DataInfo.length_store _).symm)
  have length : readnErrorHandler (some sizeofDataInfo) sizeofDataInfo = .SUCCESS := by decide
  simp only [dataInfoRead, memory, tcpGetDATAMetainfo, length, DataInfo.load_whole whole, ne_eq,
    not_true_eq_false, if_false]
  by_cases typeId : typeOf got = dataId
  · by_cases session : sessionOf got = s.conn.sessionId
    · by_cases package : packageOf got = loc.currPacketId
      · by_cases large : (lengthOf got).toNat > maxAllowedPacketSize
        · have small : ¬ (lengthOf got).toNat ≤ maxAllowedPacketSize := Nat.not_le.mpr large
          simp [TCPSession.header, typeId, session, package, large, small]
        · have small : (lengthOf got).toNat ≤ maxAllowedPacketSize := Nat.not_lt.mp large
          simp only [TCPSession.header, typeId, session, package, large, small, true_and,
            not_true_eq_false, if_false, gt_iff_lt, ← UInt64.not_le]
          by_cases within : loc.nbrOfBytesReceived + (lengthOf got).toUInt64 ≤
              loc.totalNbrOfBytesToBeSent
          · simp only [within, not_true_eq_false, if_false, if_true]
            rfl
          · simp only [within, not_false_eq_true, if_false, if_true]
      · simp [TCPSession.header, typeId, session, package]
    · simp [TCPSession.header, typeId, session]
  · simp [TCPSession.header, typeId]

theorem dataInfoRead_short (loc : TCPSession) (got : List UInt8) {readLength : Option ℕ}
    (short : ∀ n, readLength = some n → n < sizeofDataInfo) :
    ∃ info, s.dataInfoRead loc readLength got =
      { s with dataMetainfo := info }.handleRJTSending loc.currPacketId := by
  have bad : readnErrorHandler readLength sizeofDataInfo ≠ .SUCCESS := by
    rw [ne_eq, readnErrorHandler_success_iff _ (by decide)]
    rintro ⟨n, equal, enough⟩
    exact Nat.lt_irrefl _ (lt_of_lt_of_le (short n equal) enough)
  refine ⟨DataInfo.load (readOver s.dataMetainfo.store got), ?_⟩
  simp only [dataInfoRead, tcpGetDATAMetainfo, bad, ne_eq, not_false_eq_true, if_true, reduceCtorEq]

/-- A packet that announces no bytes is over at once. -/
theorem atPayload_cases (loc : TCPSession) :
    s.dataMetainfo.nbrOfBytesInPacket.toNat = 0 ∧
        s.atPayload loc = { s with delivered := s.delivered ++ [[]] }.receiveLoop loc ∨
      0 < s.dataMetainfo.nbrOfBytesInPacket.toNat ∧
        s.atPayload loc = { s with phase := .readData loc [] } := by
  by_cases empty : s.dataMetainfo.nbrOfBytesInPacket.toNat = 0
  · have done : readnLoop s.dataMetainfo.nbrOfBytesInPacket.toNat [] =
        .returned (some 0) [] := by
      rw [empty]
      rfl
    refine .inl ⟨empty, ?_⟩
    rw [atPayload, done]
    exact s.dataRead_whole loc (show ([] : List UInt8).length = _ from empty.symm)
  · have positive := Nat.pos_of_ne_zero empty
    have blocked : readnLoop s.dataMetainfo.nbrOfBytesInPacket.toNat [] = .blocked [] :=
      if_pos positive
    refine .inr ⟨positive, ?_⟩
    rw [atPayload, blocked]

theorem outcome_atPayload (loc : TCPSession) (input : List UInt8) :
    (s.atPayload loc).outcome input =
      restOfPayload s.conn.sessionId loc s.dataMetainfo.nbrOfBytesInPacket.toNat s.delivered
        input := by
  rcases s.atPayload_cases loc with ⟨empty, equal⟩ | ⟨-, equal⟩ <;> rw [equal]
  · rw [outcome_receiveLoop, restOfPayload, empty]
    rfl
  · rfl

theorem proper_atPayload (loc : TCPSession) (fresh : s.received = false) :
    (s.atPayload loc).Proper := by
  rcases s.atPayload_cases loc with ⟨-, equal⟩ | ⟨positive, equal⟩ <;> rw [equal]
  · exact proper_receiveLoop _ loc fresh
  · exact ⟨positive, fresh⟩

end Functions

/-! ## Where the functions lead -/

section Phases

variable (s : TCPServer) (loc : TCPSession)

theorem serving_receiveLoop : (s.receiveLoop loc).phase.Serving := by
  rw [receiveLoop]
  split <;> trivial

theorem serving_dataRead (readBytes : Option ℕ) (payload : List UInt8) :
    (s.dataRead loc readBytes payload).phase.Serving := by
  rw [dataRead]
  split
  · trivial
  · exact serving_receiveLoop _ loc

theorem serving_dataInfoRead (readLength : Option ℕ) (header : List UInt8) :
    (s.dataInfoRead loc readLength header).phase.Serving := by
  simp only [dataInfoRead]
  split
  · trivial
  split
  · trivial
  split
  · trivial
  · exact serving_dataRead _ _ _ _

theorem phase_connRead (readLength : Option ℕ) (header : List UInt8) :
    (s.connRead readLength header).1.phase = .accept ∨
      ∃ left, (s.connRead readLength header).1.phase = .writeCONACC left := by
  simp only [connRead]
  split
  · exact .inl rfl
  · exact .inr ⟨_, rfl⟩

theorem phase_conaccWritten (writtenLength : Option ℕ) :
    (s.conaccWritten writtenLength).1.phase = .accept ∨
      (s.conaccWritten writtenLength).1.phase.Serving := by
  rw [conaccWritten]
  split
  · exact .inl rfl
  · exact .inr (serving_receiveLoop s _)

end Phases

/-! ## Calls keep the outcome -/

section Calls

variable {s : TCPServer} {bytes rest got : List UInt8} {n : ℕ}

theorem next_read {r : Read} (answers : r.Answers s.call) :
    tcpServerHandler.next s (.read r) = (s.onRead r).1 := by
  show (if r.Answers s.call then s.onRead r else (s, [])).1 = _
  rw [if_pos answers]

/-- A `read` cannot come back like this. -/
theorem next_read_silent {r : Read} (silent : ¬ r.Answers s.call) :
    tcpServerHandler.next s (.read r) = s := by
  show (if r.Answers s.call then s.onRead r else (s, [])).1 = _
  rw [if_neg silent]

theorem next_write {r : Write} (answers : r.Answers s.call) :
    tcpServerHandler.next s (.write r) = (s.onWrite r).1 := by
  show (if r.Answers s.call then s.onWrite r else (s, [])).1 = _
  rw [if_pos answers]

theorem next_write_silent {r : Write} (silent : ¬ r.Answers s.call) :
    tcpServerHandler.next s (.write r) = s := by
  show (if r.Answers s.call then s.onWrite r else (s, [])).1 = _
  rw [if_neg silent]

/-! ### The outcome in each phase -/

theorem outcome_readCONN (phase : s.phase = .readCONN got) (input : List UInt8) :
    s.outcome input =
      if (got ++ input).length < sizeofCONN then ⟨[], s.delivered, false, []⟩
      else if typeOf (got ++ input) = connId ∧ protocolOf (got ++ input) = tcpProtocol then
        (restOfLoop (sessionOf (got ++ input)) (.fresh (totalOf (got ++ input))) s.delivered
          ((got ++ input).drop sizeofCONN)).after (initCONACC (sessionOf (got ++ input))).store
      else ⟨[], s.delivered, false, (got ++ input).drop sizeofCONN⟩ := by
  simp only [outcome, phase]

theorem outcome_readDataInfo {loc : TCPSession} (phase : s.phase = .readDataInfo loc got)
    (input : List UInt8) :
    s.outcome input = restOfPackets s.conn.sessionId loc s.delivered (got ++ input) := by
  simp only [outcome, phase]

theorem outcome_readData {loc : TCPSession} (phase : s.phase = .readData loc got)
    (input : List UInt8) :
    s.outcome input = restOfPayload s.conn.sessionId loc
      s.dataMetainfo.nbrOfBytesInPacket.toNat s.delivered (got ++ input) := by
  simp only [outcome, phase]

/-! ### Reads that return some bytes -/

section Reads

variable (some' : bytes ≠ [])
include some'

theorem read_readCONN (phase : s.phase = .readCONN got) (proper : s.Proper)
    (fits : bytes.length ≤ sizeofCONN - got.length) :
    (s.onRead (.data bytes)).1.Proper ∧
      (s.onRead (.data bytes)).1.outcome rest = s.outcome (bytes ++ rest) := by
  rw [outcome_readCONN phase]
  simp only [Proper, phase] at proper
  obtain ⟨short, fresh⟩ := proper
  rcases Nat.lt_or_ge (got.length + bytes.length) sizeofCONN with less | enough
  · simp only [onRead, phase, readnPass_more some' less]
    refine ⟨⟨by rw [List.length_append]; exact less, fresh⟩, ?_⟩
    rw [outcome_readCONN rfl, List.append_assoc]
  · have all : got.length + bytes.length = sizeofCONN := by omega
    have whole : (got ++ bytes).length = sizeofCONN := by rw [List.length_append, all]
    have long : ¬ (got ++ bytes ++ rest).length < sizeofCONN := by
      rw [List.length_append, whole]
      omega
    have split : (got ++ bytes ++ rest).drop sizeofCONN = rest := List.drop_left' whole
    obtain ⟨typeId, session, protocol, total⟩ := conn_append whole rest
    simp only [onRead, phase, readnPass_done some' all, connRead_whole s whole]
    rw [← List.append_assoc, if_neg long, typeId, session, protocol, total, split]
    by_cases correct : typeOf (got ++ bytes) = connId ∧ protocolOf (got ++ bytes) = tcpProtocol
    · rw [if_pos correct, if_pos correct]
      refine ⟨⟨?_, fresh⟩, rfl⟩
      rw [initCONACC, store_initSession]
      exact List.cons_ne_nil _ _
    · rw [if_neg correct, if_neg correct]
      refine ⟨trivial, ?_⟩
      show Outcome.mk [] s.delivered s.received rest = _
      rw [fresh]

theorem read_readDataInfo {loc : TCPSession} (phase : s.phase = .readDataInfo loc got)
    (proper : s.Proper) (fits : bytes.length ≤ sizeofDataInfo - got.length) :
    (s.onRead (.data bytes)).1.Proper ∧
      (s.onRead (.data bytes)).1.outcome rest = s.outcome (bytes ++ rest) := by
  rw [outcome_readDataInfo phase]
  simp only [Proper, phase] at proper
  obtain ⟨short, fresh⟩ := proper
  rcases Nat.lt_or_ge (got.length + bytes.length) sizeofDataInfo with less | enough
  · simp only [onRead, phase, readnPass_more some' less]
    refine ⟨⟨by rw [List.length_append]; exact less, fresh⟩, ?_⟩
    rw [outcome_readDataInfo rfl, List.append_assoc]
  · have all : got.length + bytes.length = sizeofDataInfo := by omega
    have whole : (got ++ bytes).length = sizeofDataInfo := by rw [List.length_append, all]
    simp only [onRead, phase, readnPass_done some' all, dataInfoRead_whole s loc whole]
    rw [← List.append_assoc, restOfPackets_append whole]
    cases loc.header s.conn.sessionId (got ++ bytes) with
    | none => exact ⟨proper_handleRJTSending _ _ fresh, rfl⟩
    | some loc => exact ⟨proper_atPayload _ _ fresh, outcome_atPayload _ _ _⟩

theorem read_readData {loc : TCPSession} (phase : s.phase = .readData loc got)
    (proper : s.Proper)
    (fits : bytes.length ≤ s.dataMetainfo.nbrOfBytesInPacket.toNat - got.length) :
    (s.onRead (.data bytes)).1.Proper ∧
      (s.onRead (.data bytes)).1.outcome rest = s.outcome (bytes ++ rest) := by
  rw [outcome_readData phase]
  simp only [Proper, phase] at proper
  obtain ⟨short, fresh⟩ := proper
  rcases Nat.lt_or_ge (got.length + bytes.length) s.dataMetainfo.nbrOfBytesInPacket.toNat with
    less | enough
  · simp only [onRead, phase, readnPass_more some' less]
    refine ⟨⟨by rw [List.length_append]; exact less, fresh⟩, ?_⟩
    rw [outcome_readData rfl, List.append_assoc]
  · have all : got.length + bytes.length = s.dataMetainfo.nbrOfBytesInPacket.toNat := by omega
    have whole : (got ++ bytes).length = s.dataMetainfo.nbrOfBytesInPacket.toNat := by
      rw [List.length_append, all]
    have long : ¬ (got ++ bytes ++ rest).length < s.dataMetainfo.nbrOfBytesInPacket.toNat := by
      rw [List.length_append, whole]
      omega
    have read := s.dataRead_whole loc whole
    rw [whole] at read
    simp only [onRead, phase, readnPass_done some' all, read]
    refine ⟨proper_receiveLoop _ loc fresh, ?_⟩
    rw [outcome_receiveLoop, ← List.append_assoc, restOfPayload, if_neg long, ← whole,
      List.take_left, List.drop_left]

end Reads

/-- The phases in which the server is blocked in a `read`. -/
theorem call_read (blocked : s.call = .read n) :
    (∃ got, s.phase = .readCONN got ∧ n = sizeofCONN - got.length) ∨
      (∃ loc got, s.phase = .readDataInfo loc got ∧ n = sizeofDataInfo - got.length) ∨
      ∃ loc got, s.phase = .readData loc got ∧
        n = s.dataMetainfo.nbrOfBytesInPacket.toNat - got.length := by
  rw [call] at blocked
  split at blocked
  · cases blocked
  · exact .inl ⟨_, ‹_›, (Call.read.inj blocked).symm⟩
  · cases blocked
  · exact .inr (.inl ⟨_, _, ‹_›, (Call.read.inj blocked).symm⟩)
  · exact .inr (.inr ⟨_, _, ‹_›, (Call.read.inj blocked).symm⟩)
  · cases blocked
  · cases blocked
  · cases blocked

/-- **A read keeps the outcome**, however much of the input it takes. -/
theorem read_keeps (proper : s.Proper) (blocked : s.call = .read n) (some' : bytes ≠ [])
    (fits : bytes.length ≤ n) :
    (s.onRead (.data bytes)).1.Proper ∧
      (s.onRead (.data bytes)).1.outcome rest = s.outcome (bytes ++ rest) := by
  rcases call_read blocked with ⟨got, phase, rfl⟩ | ⟨loc, got, phase, rfl⟩ |
    ⟨loc, got, phase, rfl⟩
  · exact read_readCONN some' phase proper fits
  · exact read_readDataInfo some' phase proper fits
  · exact read_readData some' phase proper fits

/-! ### Reads that find the end of the input -/

/-- **The end of the input keeps the outcome**, and the server stops reading. -/
theorem read_ended (proper : s.Proper) (blocked : s.call = .read n) {r : Read}
    (ended : r.Ended) :
    (s.onRead r).1.Proper ∧ (∀ k, (s.onRead r).1.call ≠ .read k) ∧
      (s.onRead r).1.outcome [] = s.outcome [] := by
  rcases call_read blocked with ⟨got, phase, -⟩ | ⟨loc, got, phase, -⟩ | ⟨loc, got, phase, -⟩
  · obtain ⟨length, pass, partly⟩ := readnPass_ended sizeofCONN got ended
    rw [outcome_readCONN phase, List.append_nil]
    simp only [Proper, phase] at proper
    obtain ⟨short, fresh⟩ := proper
    obtain ⟨conn, closed⟩ := s.connRead_short got
      fun k (equal : length = some k) => (partly k equal).symm ▸ short
    simp only [onRead, phase, pass, closed, if_pos short]
    refine ⟨trivial, nofun, ?_⟩
    show Outcome.mk [] s.delivered s.received [] = _
    rw [fresh]
  · obtain ⟨length, pass, partly⟩ := readnPass_ended sizeofDataInfo got ended
    rw [outcome_readDataInfo phase, List.append_nil]
    simp only [Proper, phase] at proper
    obtain ⟨short, fresh⟩ := proper
    obtain ⟨info, rejected⟩ := s.dataInfoRead_short loc got
      fun k (equal : length = some k) => (partly k equal).symm ▸ short
    simp only [onRead, phase, pass, rejected, restOfPackets_short short]
    exact ⟨proper_handleRJTSending _ _ fresh, nofun, rfl⟩
  · obtain ⟨length, pass, partly⟩ := readnPass_ended
      s.dataMetainfo.nbrOfBytesInPacket.toNat got ended
    rw [outcome_readData phase, List.append_nil]
    simp only [Proper, phase] at proper
    obtain ⟨short, fresh⟩ := proper
    have rejected := s.dataRead_short loc got
      fun k (equal : length = some k) => (partly k equal).symm ▸ short
    simp only [onRead, phase, pass, rejected]
    rw [restOfPayload, if_pos short]
    exact ⟨proper_handleRJTSending _ _ fresh, nofun, rfl⟩

/-! ### Writes -/

/-- The phases in which the server is blocked in a `write`. -/
theorem call_write {left : List UInt8} (blocked : s.call = .write left) :
    s.phase = .writeCONACC left ∨ s.phase = .writeRJT left ∨ s.phase = .writeRCVD left := by
  rw [call] at blocked
  split at blocked
  · cases blocked
  · cases blocked
  · cases blocked
    exact .inl ‹_›
  · cases blocked
  · cases blocked
  · cases blocked
    exact .inr (.inl ‹_›)
  · cases blocked
    exact .inr (.inr ‹_›)
  · cases blocked

/-- **A write takes its bytes off the answer.** -/
theorem write_keeps {left : List UInt8} (proper : s.Proper) (blocked : s.call = .write left)
    (input : List UInt8) :
    left ≠ [] ∧ ∃ o : Outcome, s.outcome input = o.after left ∧
      ∀ k, 0 < k → k ≤ left.length → (s.onWrite (.wrote k)).1.Proper ∧
        (s.onWrite (.wrote k)).1.outcome input = o.after (left.drop k) := by
  rcases call_write blocked with phase | phase | phase
  · simp only [Proper, phase] at proper
    obtain ⟨some', fresh⟩ := proper
    refine ⟨some', restOfLoop s.conn.sessionId (.fresh s.conn.nbrOfBytesToBeSent) s.delivered
      input, ?_, fun k positive fits => ?_⟩
    · simp only [outcome, phase]
    rcases Nat.lt_or_eq_of_le fits with less | all
    · simp only [onWrite, phase, writenPass_more positive less]
      exact ⟨⟨drop_ne_nil less, fresh⟩, rfl⟩
    · simp only [onWrite, phase, writenPass_done positive all]
      have sent : tcpSendPacket (some sizeofCONACC) sizeofCONACC = .SUCCESS := by decide
      simp only [conaccWritten, sent, ne_eq, not_true_eq_false, if_false]
      refine ⟨proper_receiveLoop _ _ fresh, ?_⟩
      rw [outcome_receiveLoop, Outcome.after, drop_all_append all]
      rfl
  · simp only [Proper, phase] at proper
    obtain ⟨some', fresh⟩ := proper
    refine ⟨some', ⟨[], s.delivered, false, input⟩, ?_, fun k positive fits => ?_⟩
    · simp only [outcome, phase, Outcome.after, List.append_nil]
    rcases Nat.lt_or_eq_of_le fits with less | all
    · simp only [onWrite, phase, writenPass_more positive less]
      exact ⟨⟨drop_ne_nil less, fresh⟩, by simp only [outcome, Outcome.after, List.append_nil]⟩
    · simp only [onWrite, phase, writenPass_done positive all]
      refine ⟨trivial, ?_⟩
      rw [Outcome.after, drop_all_append all]
      show Outcome.mk [] s.delivered s.received input = _
      rw [fresh]
  · simp only [Proper, phase] at proper
    obtain ⟨some', received⟩ := proper
    refine ⟨some', ⟨[], s.delivered, true, input⟩, ?_, fun k positive fits => ?_⟩
    · simp only [outcome, phase, Outcome.after, List.append_nil]
    rcases Nat.lt_or_eq_of_le fits with less | all
    · simp only [onWrite, phase, writenPass_more positive less]
      exact ⟨⟨drop_ne_nil less, received⟩, by simp only [outcome, Outcome.after, List.append_nil]⟩
    · simp only [onWrite, phase, writenPass_done positive all]
      refine ⟨trivial, ?_⟩
      rw [Outcome.after, drop_all_append all]
      show Outcome.mk [] s.delivered s.received input = _
      rw [received]

theorem call_closed (closed : s.call = .closed) : s.phase = .accept ∨ s.phase = .finished := by
  rw [call] at closed
  split at closed
  · exact .inl ‹_›
  · cases closed
  · cases closed
  · cases closed
  · cases closed
  · cases closed
  · cases closed
  · exact .inr ‹_›

/-- A server that is not at the connection writes nothing. -/
theorem outcome_closed (closed : s.call = .closed) (input : List UInt8) :
    s.outcome input = ⟨[], s.delivered, s.received, input⟩ := by
  rcases call_closed closed with phase | phase <;> simp only [outcome, phase]

end Calls

end TCPServer

/-- **The server keeps to its outcome.** -/
theorem tcpServer_promises (o : Outcome) : tcpServerProcess.Promises (TCPServer.Heads o) where
  reads := by
    intro s puts takes n heads blocked
    obtain ⟨proper, same⟩ := heads
    refine ⟨?_, fun bytes rest split some' fits => ?_⟩
    · rcases TCPServer.call_read blocked with ⟨got, phase, rfl⟩ | ⟨loc, got, phase, rfl⟩ |
        ⟨loc, got, phase, rfl⟩ <;> simp only [TCPServer.Proper, phase] at proper <;> omega
    · have answers : (Read.data bytes).Answers s.call := Read.answers_data blocked fits
      obtain ⟨proper', outcome⟩ := TCPServer.read_keeps proper blocked some' fits
      show TCPServer.Heads o (tcpServerHandler.next s (.read (.data bytes))) puts rest
      rw [TCPServer.next_read answers]
      exact ⟨proper', by rw [outcome, ← split, same]⟩
  writes := by
    intro s puts takes left heads blocked
    obtain ⟨proper, same⟩ := heads
    obtain ⟨some', rest, before, kept⟩ := TCPServer.write_keeps proper blocked takes
    rw [same] at before
    refine ⟨some', rest.answer, congrArg Outcome.answer before, fun k positive fits => ?_⟩
    have answers : (Write.wrote k).Answers s.call := Write.answers_wrote blocked fits
    obtain ⟨proper', after⟩ := kept k positive fits
    show TCPServer.Heads o (tcpServerHandler.next s (.write (.wrote k))) _ takes
    rw [TCPServer.next_write answers]
    refine ⟨proper', after.trans ?_⟩
    simp only [Outcome.after, Outcome.mk.injEq] at before ⊢
    exact ⟨trivial, before.2.1.symm, before.2.2.1.symm, before.2.2.2.symm⟩
  closed := by
    intro s puts takes heads closed
    exact (congrArg Outcome.answer (TCPServer.outcome_closed closed takes ▸ heads.2)).symm

end Ppcb
