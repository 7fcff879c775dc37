import Ppcb.StreamDiscipline
import Ppcb.SessionGrammar

/-!
# What a connection of the TCP server comes to, whatever happens to it

One connection, from `accept` to `close`, with any client: any bytes may arrive, and any
`read` or `write` may break off. `TCPServer.Conducts` says of each call what the server has
read and written by then.

In every state what was delivered are the payloads of packets that were read whole, in order,
right behind the `CONN`. `RCVD` is sent only when what was read is a complete session and
nothing else, and otherwise the server writes nothing but the beginning of `CONACC` and `RJT`
(`tcp_server_soundness`).
-/

set_option autoImplicit false

namespace Ppcb

open ByteOrder CString Reactive

/-! ## The server at its port -/

/-- The bytes the server has put on the connection. -/
def TCPOutput.bytes : TCPOutput → List UInt8
  | .written bytes => bytes
  | .closed => []

/-- How the server meets the connection that it has accepted. -/
def tcpServerPort : Port TCPServer TCPServerEvent TCPOutput UInt8 UInt8 where
  may s
    | .accept _ => False
    | .read r => r.Answers s.call
    | .write r => r.Answers s.call
    | .catchInt => True
  takes
    | .read r => r.bytes
    | _ => []
  puts := List.flatMap TCPOutput.bytes

/-- The server has just accepted a connection, after some earlier run. -/
def acceptedServer (history : List TCPServerEvent) : TCPServer :=
  tcpServerHandler.next (tcpServerHandler.after .start history) (.accept .connected)

/-! ## Sessions that have begun -/

/-- Payloads that fit into packets and stay within the total, which no shorter number of them
reaches. -/
structure Begins (total : ℕ) (payloads : List (List UInt8)) : Prop where
  sizes : ∀ payload ∈ payloads, payload.length ≤ maxAllowedPacketSize
  within : payloads.flatten.length ≤ total
  shorter : ∀ k < payloads.length, (payloads.take k).flatten.length < total

section Begins

variable {total : ℕ} {payloads : List (List UInt8)}

theorem begins_nil (total : ℕ) : Begins total [] where
  sizes _ member := nomatch member
  within := Nat.zero_le total
  shorter _ below := nomatch below

/-- One more packet. -/
theorem Begins.snoc (begins : Begins total payloads) {payload : List UInt8}
    (more : payloads.flatten.length < total) (small : payload.length ≤ maxAllowedPacketSize)
    (fits : payloads.flatten.length + payload.length ≤ total) :
    Begins total (payloads ++ [payload]) where
  sizes := by
    intro p member
    rcases List.mem_append.mp member with member | member
    · exact begins.sizes p member
    · rw [List.mem_singleton.mp member]
      exact small
  within := by
    rw [length_flatten_append]
    exact fits
  shorter := by
    intro k below
    rw [List.length_append, List.length_singleton] at below
    rw [List.take_append_of_le_length (Nat.le_of_lt_succ below)]
    rcases Nat.lt_succ_iff_lt_or_eq.mp below with below | rfl
    · exact begins.shorter k below
    · rwa [List.take_length]

/-- A session that has reached its total is complete. -/
theorem Begins.completes (begins : Begins total payloads)
    (all : total ≤ payloads.flatten.length) : Completes total payloads where
  sizes := begins.sizes
  complete := Nat.le_antisymm begins.within all
  shorter := begins.shorter

end Begins

/-- The packets grow at their end. -/
theorem packetsFrom_snoc (sessionId : UInt64) (id : ℕ) (payloads : List (List UInt8))
    (payload : List UInt8) :
    packetsFrom sessionId id (payloads ++ [payload]) =
      packetsFrom sessionId id payloads ++
        dataBytes sessionId (UInt64.ofNat (id + payloads.length)) payload := by
  induction payloads generalizing id with
  | nil => exact List.append_nil _
  | cons first payloads ih =>
      rw [List.cons_append, packetsFrom, ih, packetsFrom, List.append_assoc, List.length_cons,
        Nat.add_assoc, Nat.add_comm 1]

/-- The payloads are shorter than the packets. -/
theorem length_flatten_le_packetsFrom (sessionId : UInt64) (id : ℕ)
    (payloads : List (List UInt8)) :
    payloads.flatten.length ≤ (packetsFrom sessionId id payloads).length := by
  induction payloads generalizing id with
  | nil => exact Nat.le_refl 0
  | cons payload payloads ih =>
      rw [List.flatten_cons, packetsFrom, List.length_append, List.length_append, length_dataBytes]
      exact Nat.add_le_add (Nat.le_add_left _ _) (ih (id + 1))

/-- The locals of the receive loop count what was delivered. -/
structure TCPSession.Counts (loc : TCPSession) (conn : CONN) (delivered : List (List UInt8)) :
    Prop where
  begins : Begins conn.nbrOfBytesToBeSent.toNat delivered
  current : loc.currPacketId = UInt64.ofNat delivered.length
  total : loc.totalNbrOfBytesToBeSent = conn.nbrOfBytesToBeSent
  received : loc.nbrOfBytesReceived.toNat = delivered.flatten.length

namespace TCPServer

/-! ## What the server has read -/

/-- The `CONN` of the session and the packets that were delivered. -/
def sessionSoFar (s : TCPServer) : List UInt8 :=
  sessionBytes s.conn.sessionId s.conn.nbrOfBytesToBeSent s.delivered

/-- The server is at the payload of a packet with an accepted header. -/
def AtPayload (s : TCPServer) (loc : TCPSession) (got read : List UInt8) : Prop :=
  ∃ before : TCPSession, before.Counts s.conn s.delivered ∧
    before.nbrOfBytesReceived < before.totalNbrOfBytesToBeSent ∧
    s.dataMetainfo.nbrOfBytesInPacket.toNat ≤ maxAllowedPacketSize ∧
    before.nbrOfBytesReceived + s.dataMetainfo.nbrOfBytesInPacket.toUInt64 ≤
      before.totalNbrOfBytesToBeSent ∧
    loc = before.accept s.dataMetainfo.nbrOfBytesInPacket ∧
    read = s.sessionSoFar ++ (dataHeader s.conn.sessionId before.currPacketId
      s.dataMetainfo.nbrOfBytesInPacket).store ++ got

/-- What was delivered was read. -/
def Partly (s : TCPServer) (read : List UInt8) : Prop :=
  s.delivered ≠ [] → Begins s.conn.nbrOfBytesToBeSent.toNat s.delivered ∧ s.sessionSoFar <+: read

/-- A complete session was read, and nothing else. -/
def Whole (s : TCPServer) (read : List UInt8) : Prop :=
  Completes s.conn.nbrOfBytesToBeSent.toNat s.delivered ∧ read = s.sessionSoFar

def accepting (s : TCPServer) : List UInt8 := (initCONACC s.conn.sessionId).store

def confirming (s : TCPServer) : List UInt8 := s.accepting ++ (initRCVD s.conn.sessionId).store

def rejecting (s : TCPServer) (id : UInt64) : List UInt8 :=
  s.accepting ++ (initRJT s.conn.sessionId id).store

/-- The connection is over. -/
def Closed (s : TCPServer) (read written : List UInt8) : Prop :=
  s.received = true ∧ s.Whole read ∧ written <+: s.confirming ∨
    s.received = false ∧ s.Partly read ∧ ∃ id, written <+: s.rejecting id

/-- What the server has read and written, by the call it is at. -/
def Conducts (s : TCPServer) (read written : List UInt8) : Prop :=
  match s.phase with
  | .accept => s.Closed read written
  | .readCONN got => s.delivered = [] ∧ s.received = false ∧ got.length < sizeofCONN ∧
      read = got ∧ written = []
  | .writeCONACC left => s.delivered = [] ∧ s.received = false ∧ read = s.sessionSoFar ∧
      written ++ left = s.accepting
  | .readDataInfo loc got => s.received = false ∧ got.length < sizeofDataInfo ∧
      loc.Counts s.conn s.delivered ∧ loc.nbrOfBytesReceived < loc.totalNbrOfBytesToBeSent ∧
      read = s.sessionSoFar ++ got ∧ written = s.accepting
  | .readData loc got => s.received = false ∧
      got.length < s.dataMetainfo.nbrOfBytesInPacket.toNat ∧ s.AtPayload loc got read ∧
      written = s.accepting
  | .writeRJT left => s.received = false ∧ s.Partly read ∧ ∃ id, written ++ left = s.rejecting id
  | .writeRCVD left => s.received = true ∧ s.Whole read ∧ written ++ left = s.confirming
  | .finished => False

variable {s : TCPServer} {loc : TCPSession} {got read written : List UInt8}

/-! ## The functions of the server -/

/-- The test of the loop. -/
theorem conducts_receiveLoop (counts : loc.Counts s.conn s.delivered) (fresh : s.received = false) :
    (s.receiveLoop loc).Conducts s.sessionSoFar s.accepting := by
  rw [receiveLoop]
  split
  · rename_i more
    exact ⟨fresh, by decide, counts, more, (List.append_nil _).symm, rfl⟩
  · rename_i done
    rw [UInt64.lt_iff_toNat_lt, counts.received, counts.total] at done
    exact ⟨rfl, ⟨counts.begins.completes (Nat.not_lt.mp done), rfl⟩, rfl⟩

/-- The payload of a packet has been read. -/
theorem conducts_dataRead (atPayload : s.AtPayload loc got read) (fresh : s.received = false)
    (whole : got.length = s.dataMetainfo.nbrOfBytesInPacket.toNat)
    (few : read.length < 2 ^ 63) :
    ({ s with delivered := s.delivered ++ [got] }.receiveLoop loc).Conducts read s.accepting := by
  obtain ⟨before, counts, more, small, within, rfl, rfl⟩ := atPayload
  have size : UInt32.ofNat got.length = s.dataMetainfo.nbrOfBytesInPacket := by
    rw [whole, UInt32.ofNat_toNat]
  have packet : s.sessionSoFar ++ (dataHeader s.conn.sessionId before.currPacketId
      s.dataMetainfo.nbrOfBytesInPacket).store ++ got =
        sessionBytes s.conn.sessionId s.conn.nbrOfBytesToBeSent (s.delivered ++ [got]) := by
    rw [sessionBytes, packetsFrom_snoc, sessionSoFar, sessionBytes, dataBytes, size,
      counts.current, Nat.zero_add]
    simp only [List.append_assoc]
  have bytes : s.delivered.flatten.length + got.length < 2 ^ 63 := by
    have bound := length_flatten_le_packetsFrom s.conn.sessionId 0 (s.delivered ++ [got])
    rw [packet, sessionBytes, List.length_append] at few
    rw [length_flatten_append] at bound
    omega
  have sum : (before.nbrOfBytesReceived +
      s.dataMetainfo.nbrOfBytesInPacket.toUInt64).toNat =
        s.delivered.flatten.length + got.length := by
    rw [UInt64.toNat_add, UInt32.toNat_toUInt64, counts.received, ← whole]
    exact Nat.mod_eq_of_lt (by omega)
  rw [UInt64.le_iff_toNat_le, sum, counts.total] at within
  rw [UInt64.lt_iff_toNat_lt, counts.received, counts.total] at more
  rw [packet]
  refine conducts_receiveLoop (s := { s with delivered := s.delivered ++ [got] }) ?_ fresh
  refine ⟨counts.begins.snoc more (by rwa [whole]) within, ?_, counts.total, ?_⟩
  · rw [TCPSession.accept_currPacketId, counts.current, List.length_append,
      List.length_singleton]
    simp
  · rw [TCPSession.accept_nbrOfBytesReceived, sum, length_flatten_append]

/-- The server turns to the payload of a packet. -/
theorem conducts_atPayload (atPayload : s.AtPayload loc [] read) (fresh : s.received = false)
    (few : read.length < 2 ^ 63) : (s.atPayload loc).Conducts read s.accepting := by
  rcases s.atPayload_cases loc with ⟨empty, equal⟩ | ⟨positive, equal⟩ <;> rw [equal]
  · exact conducts_dataRead atPayload fresh empty.symm few
  · exact ⟨fresh, positive, atPayload, rfl⟩

/-- The header of a packet has been read. -/
theorem conducts_dataInfoRead (counts : loc.Counts s.conn s.delivered) (fresh : s.received = false)
    (more : loc.nbrOfBytesReceived < loc.totalNbrOfBytesToBeSent)
    (whole : got.length = sizeofDataInfo) (few : (s.sessionSoFar ++ got).length < 2 ^ 63) :
    (s.dataInfoRead loc (some sizeofDataInfo) got).Conducts (s.sessionSoFar ++ got)
      s.accepting := by
  simp only [dataInfoRead_whole s loc whole]
  cases accepted : loc.header s.conn.sessionId got with
  | none =>
      exact ⟨fresh, fun _ => ⟨counts.begins, List.prefix_append _ _⟩, loc.currPacketId, rfl⟩
  | some loc' =>
      obtain ⟨n, small, within, rfl, rfl⟩ := (header_eq_some_iff whole).mp accepted
      have size : lengthOf (dataHeader s.conn.sessionId loc.currPacketId n).store = n := by
        rw [store_dataHeader]
        simpa using lengthOf_cons dataId s.conn.sessionId loc.currPacketId n []
      simp only [size]
      generalize typeOf (dataHeader s.conn.sessionId loc.currPacketId n).store = typeId
      generalize sessionOf (dataHeader s.conn.sessionId loc.currPacketId n).store = session
      generalize packageOf (dataHeader s.conn.sessionId loc.currPacketId n).store = package
      exact conducts_atPayload (s := { s with dataMetainfo := ⟨typeId, session, package, n⟩ })
        ⟨loc, counts, more, small, within, rfl, (List.append_nil _).symm⟩ fresh few

/-- The `CONN` has been read. -/
theorem conducts_connRead (empty : s.delivered = []) (fresh : s.received = false)
    (whole : got.length = sizeofCONN) :
    (s.connRead (some sizeofCONN) got).1.Conducts got [] := by
  rw [connRead_whole s whole]
  split
  · rename_i correct
    refine ⟨empty, fresh, ?_, rfl⟩
    have conn := eq_conn_of_length whole
    rw [correct.1, correct.2, ← store_initCONN] at conn
    show got = (initCONN (sessionOf got) tcpProtocol (totalOf got)).store ++
      packetsFrom _ 0 s.delivered
    rw [empty, packetsFrom, List.append_nil]
    exact conn
  · exact .inr ⟨fresh, fun some' => absurd empty some', 0, List.nil_prefix⟩

/-! ## Steps of the server -/

theorem closed_short (empty : s.delivered = []) (fresh : s.received = false)
    (part : written <+: s.accepting) : s.Closed read written :=
  .inr ⟨fresh, fun some' => absurd empty some', 0, part.trans (List.prefix_append _ _)⟩

theorem bytes_connRead (readLength : Option ℕ) (got : List UInt8) :
    (s.connRead readLength got).2.flatMap TCPOutput.bytes = [] := by
  simp only [connRead]
  split <;> rfl

/-- A `read` puts nothing on the connection. -/
theorem bytes_onRead (s : TCPServer) (r : Read) :
    (s.onRead r).2.flatMap TCPOutput.bytes = [] := by
  rw [onRead]
  split
  · split
    · rfl
    · exact bytes_connRead _ _
  · split <;> rfl
  · split <;> rfl
  · rfl

theorem conducts_onRead (conducts : s.Conducts read written) {r : Read}
    (answers : r.Answers s.call) (few : (read ++ r.bytes).length < 2 ^ 63) :
    (s.onRead r).1.Conducts (read ++ r.bytes) written := by
  obtain ⟨n, blocked⟩ := Read.exists_call answers
  rw [blocked] at answers
  rcases call_read blocked with ⟨got, phase, rfl⟩ | ⟨loc, got, phase, rfl⟩ |
    ⟨loc, got, phase, rfl⟩ <;> simp only [Conducts, phase] at conducts
  · obtain ⟨empty, fresh, short, rfl, rfl⟩ := conducts
    have pass := readnPass_spec short answers
    simp only [onRead, phase]
    generalize readnPass sizeofCONN read r = result at pass ⊢
    generalize r.bytes = bytes at pass few ⊢
    cases pass with
    | more bytes less => exact ⟨empty, fresh, less, rfl, rfl⟩
    | done bytes all => exact conducts_connRead empty fresh all
    | broken readLength partly =>
        obtain ⟨conn, closed⟩ := s.connRead_short read partly
        simp only [closed]
        exact closed_short empty fresh List.nil_prefix
  · obtain ⟨fresh, short, counts, more, rfl, rfl⟩ := conducts
    have pass := readnPass_spec short answers
    rw [List.append_assoc] at few ⊢
    simp only [onRead, phase]
    generalize readnPass sizeofDataInfo got r = result at pass ⊢
    generalize r.bytes = bytes at pass few ⊢
    cases pass with
    | more bytes less => exact ⟨fresh, less, counts, more, rfl, rfl⟩
    | done bytes all => exact conducts_dataInfoRead counts fresh more all few
    | broken readLength partly =>
        obtain ⟨info, rejected⟩ := s.dataInfoRead_short loc got partly
        simp only [rejected, List.append_nil]
        exact ⟨fresh, fun _ => ⟨counts.begins, List.prefix_append _ _⟩, _, rfl⟩
  · obtain ⟨fresh, short, ⟨before, counts, more, small, within, equal, rfl⟩, rfl⟩ := conducts
    have pass := readnPass_spec short answers
    rw [List.append_assoc] at few ⊢
    simp only [onRead, phase]
    generalize readnPass s.dataMetainfo.nbrOfBytesInPacket.toNat got r = result at pass ⊢
    generalize r.bytes = bytes at pass few ⊢
    cases pass with
    | more bytes less =>
        exact ⟨fresh, less, ⟨before, counts, more, small, within, equal, rfl⟩, rfl⟩
    | done bytes all =>
        have read := s.dataRead_whole loc all
        rw [all] at read
        simp only [read]
        exact conducts_dataRead ⟨before, counts, more, small, within, equal, rfl⟩ fresh all few
    | broken readLength partly =>
        simp only [s.dataRead_short loc got partly, List.append_assoc]
        exact ⟨fresh, fun _ => ⟨counts.begins, List.prefix_append _ _⟩, _, rfl⟩

/-- The bytes of a `write` are what it took. -/
theorem bytes_writtenBytes (left : List UInt8) (r : Write) (closing : List TCPOutput) :
    (writtenBytes left r ++ closing).flatMap TCPOutput.bytes =
      r.taken left ++ closing.flatMap TCPOutput.bytes := by
  cases r <;> rfl

theorem conducts_onWrite (conducts : s.Conducts read written) {left : List UInt8} {r : Write}
    (blocked : s.call = .write left) (answers : r.Answers (.write left)) :
    (s.onWrite r).1.Conducts read (written ++ r.taken left) := by
  rcases call_write blocked with phase | phase | phase <;>
    simp only [Conducts, phase] at conducts
  · obtain ⟨empty, fresh, rfl, sending⟩ := conducts
    have pass := writenPass_spec sizeofCONACC answers
    simp only [onWrite, phase]
    generalize writenPass sizeofCONACC left r = result at pass ⊢
    generalize r.taken left = bytes at pass ⊢
    cases pass with
    | more k less => exact ⟨empty, fresh, rfl, taken_append_drop sending k⟩
    | done =>
        have sent : tcpSendPacket (some sizeofCONACC) sizeofCONACC = .SUCCESS := by decide
        simp only [conaccWritten, sent, ne_eq, not_true_eq_false, if_false, sending]
        refine conducts_receiveLoop ?_ fresh
        rw [empty]
        exact ⟨begins_nil _, rfl, rfl, rfl⟩
    | broken writtenLength stopped =>
        have unsent : tcpSendPacket writtenLength sizeofCONACC ≠ .SUCCESS := by
          cases writtenLength with
          | none => exact RetVal.noConfusion
          | some k =>
              rw [stopped k rfl]
              decide
        simp only [conaccWritten, unsent, ne_eq, not_false_eq_true, if_true, List.append_nil]
        exact closed_short empty fresh ⟨left, sending⟩
  · obtain ⟨fresh, partly, id, sending⟩ := conducts
    have pass := writenPass_spec sizeofRJT answers
    simp only [onWrite, phase]
    generalize writenPass sizeofRJT left r = result at pass ⊢
    generalize r.taken left = bytes at pass ⊢
    cases pass with
    | more k less => exact ⟨fresh, partly, id, taken_append_drop sending k⟩
    | done => exact .inr ⟨fresh, partly, id, [], (List.append_nil _).trans sending⟩
    | broken writtenLength stopped =>
        rw [List.append_nil]
        exact .inr ⟨fresh, partly, id, left, sending⟩
  · obtain ⟨received, whole, sending⟩ := conducts
    have pass := writenPass_spec sizeofRCVD answers
    simp only [onWrite, phase]
    generalize writenPass sizeofRCVD left r = result at pass ⊢
    generalize r.taken left = bytes at pass ⊢
    cases pass with
    | more k less => exact ⟨received, whole, taken_append_drop sending k⟩
    | done => exact .inl ⟨received, whole, [], (List.append_nil _).trans sending⟩
    | broken writtenLength stopped =>
        rw [List.append_nil]
        exact .inl ⟨received, whole, left, sending⟩

/-- The bytes that a `write` puts on the connection. -/
theorem bytes_onWrite {left : List UInt8} (blocked : s.call = .write left) (r : Write) :
    (s.onWrite r).2.flatMap TCPOutput.bytes = r.taken left := by
  have alone : (writtenBytes left r).flatMap TCPOutput.bytes = r.taken left := by
    cases r with
    | wrote k => exact List.append_nil _
    | failed errno => rfl
  have closing : ∀ {closing : List TCPOutput}, closing.flatMap TCPOutput.bytes = [] →
      (writtenBytes left r ++ closing).flatMap TCPOutput.bytes = r.taken left := by
    intro closing nothing
    rw [bytes_writtenBytes, nothing, List.append_nil]
  rcases call_write blocked with phase | phase | phase <;> simp only [onWrite, phase]
  · split
    · exact alone
    · refine closing ?_
      rw [conaccWritten]
      split <;> rfl
  · split
    · exact alone
    · exact closing rfl
  · split
    · exact alone
    · exact closing rfl

/-- **Every step keeps the invariant.** -/
theorem conducts_step (conducts : s.Conducts read written) {e : TCPServerEvent}
    (may : tcpServerPort.may s e) (few : (read ++ tcpServerPort.takes e).length < 2 ^ 63) :
    (tcpServerHandler.next s e).Conducts (read ++ tcpServerPort.takes e)
      (written ++ tcpServerPort.puts (tcpServerHandler.emit s e)) := by
  cases e with
  | accept r => exact may.elim
  | read r =>
      have answers : r.Answers s.call := may
      have next : tcpServerHandler.step s (.read r) = s.onRead r := if_pos answers
      have silent : tcpServerPort.puts (s.onRead r).2 = [] := bytes_onRead s r
      rw [Machine.next, Machine.emit, next, silent, List.append_nil]
      exact conducts_onRead conducts answers few
  | write r =>
      have answers : r.Answers s.call := may
      obtain ⟨left, blocked⟩ := Write.exists_call answers
      have next : tcpServerHandler.step s (.write r) = s.onWrite r := if_pos answers
      have bytes : tcpServerPort.puts (s.onWrite r).2 = r.taken left := bytes_onWrite blocked r
      rw [blocked] at answers
      rw [Machine.next, Machine.emit, next, bytes]
      have kept := conducts_onWrite conducts blocked answers
      rwa [← List.append_nil read] at kept
  | catchInt =>
      have nothing : tcpServerPort.puts (tcpServerHandler.emit s .catchInt) = [] := rfl
      rw [nothing, List.append_nil]
      show Conducts _ (read ++ []) written
      rw [List.append_nil]
      exact conducts

/-- A server that has accepted a connection. -/
theorem conducts_accepted {history : List TCPServerEvent}
    (listening : (tcpServerHandler.after .start history).phase = .accept) :
    (acceptedServer history).Conducts [] [] := by
  have accepted : acceptedServer history =
      { tcpServerHandler.after .start history with
        phase := .readCONN [], delivered := [], received := false } := by
    show TCPServer.onAccept _ _ = _
    simp only [TCPServer.onAccept, listening]
  rw [accepted]
  exact ⟨rfl, rfl, by decide, rfl, rfl⟩

/-- **The invariant holds in every run.** -/
theorem conducts_run {history : List TCPServerEvent}
    (listening : (tcpServerHandler.after .start history).phase = .accept)
    (run : tcpServerPort.Run tcpServerHandler (acceptedServer history) s read written)
    (few : read.length < 2 ^ 63) : s.Conducts read written := by
  refine run.invariant (I := fun s read written => read.length < 2 ^ 63 → s.Conducts read written)
    (fun _ => conducts_accepted listening) ?_ few
  intro s read written e conducts may few
  refine conducts_step (conducts (Nat.lt_of_le_of_lt ?_ few)) may few
  rw [List.length_append]
  exact Nat.le_add_right _ _

/-- What the invariant says of a connection in any state. -/
theorem Conducts.closed (conducts : s.Conducts read written) : s.Closed read written := by
  cases phase : s.phase with
  | accept =>
      simp only [Conducts, phase] at conducts
      exact conducts
  | readCONN got =>
      simp only [Conducts, phase] at conducts
      obtain ⟨empty, fresh, -, -, rfl⟩ := conducts
      exact closed_short empty fresh List.nil_prefix
  | writeCONACC left =>
      simp only [Conducts, phase] at conducts
      obtain ⟨empty, fresh, -, sending⟩ := conducts
      exact closed_short empty fresh ⟨left, sending⟩
  | readDataInfo loc got =>
      simp only [Conducts, phase] at conducts
      obtain ⟨fresh, -, counts, -, rfl, rfl⟩ := conducts
      exact .inr ⟨fresh, fun _ => ⟨counts.begins, List.prefix_append _ _⟩, 0,
        List.prefix_append _ _⟩
  | readData loc got =>
      simp only [Conducts, phase] at conducts
      obtain ⟨fresh, -, ⟨before, counts, -, -, -, -, rfl⟩, rfl⟩ := conducts
      refine .inr ⟨fresh, fun _ => ⟨counts.begins, ?_⟩, 0, List.prefix_append _ _⟩
      rw [List.append_assoc]
      exact List.prefix_append _ _
  | writeRJT left =>
      simp only [Conducts, phase] at conducts
      obtain ⟨fresh, partly, id, sending⟩ := conducts
      exact .inr ⟨fresh, partly, id, left, sending⟩
  | writeRCVD left =>
      simp only [Conducts, phase] at conducts
      obtain ⟨received, whole, sending⟩ := conducts
      exact .inl ⟨received, whole, left, sending⟩
  | finished =>
      simp only [Conducts, phase] at conducts

end TCPServer

/-- **What a connection of the server comes to, whoever is at its other end.** -/
theorem tcp_server_soundness {history : List TCPServerEvent} {s : TCPServer}
    {read written : List UInt8}
    (listening : (tcpServerHandler.after .start history).phase = .accept)
    (run : tcpServerPort.Run tcpServerHandler (acceptedServer history) s read written)
    (few : read.length < 2 ^ 63) :
    (s.delivered ≠ [] →
      sessionBytes s.conn.sessionId s.conn.nbrOfBytesToBeSent s.delivered <+: read ∧
      Begins s.conn.nbrOfBytesToBeSent.toNat s.delivered) ∧
    (s.received = true →
      read = sessionBytes s.conn.sessionId s.conn.nbrOfBytesToBeSent s.delivered ∧
      Completes s.conn.nbrOfBytesToBeSent.toNat s.delivered ∧
      written <+: (initCONACC s.conn.sessionId).store ++ (initRCVD s.conn.sessionId).store) ∧
    (s.received = false → ∃ id,
      written <+: (initCONACC s.conn.sessionId).store ++ (initRJT s.conn.sessionId id).store) := by
  rcases (TCPServer.conducts_run listening run few).closed with
    ⟨received, ⟨completes, rfl⟩, part⟩ | ⟨fresh, partly, rejects⟩
  · refine ⟨fun _ => ⟨List.prefix_rfl, ?_⟩, fun _ => ⟨rfl, completes, part⟩, fun fresh => ?_⟩
    · exact ⟨completes.sizes, Nat.le_of_eq completes.complete, completes.shorter⟩
    · rw [received] at fresh
      cases fresh
  · refine ⟨fun some' => (partly some').symm, fun received => ?_, fun _ => rejects⟩
    rw [fresh] at received
    cases received

/-- The calls of a connection with one byte, whose `RCVD` breaks off. -/
def oneByteCalls : List TCPServerEvent :=
  [.read (.data (initCONN 7 tcpProtocol 1).store), .write (.wrote 9),
    .read (.data (dataHeader 7 0 1).store), .read (.data [65]), .write (.wrote 4),
    .write (.failed .EAGAIN)]

/-- The byte is delivered, and the client reads a part of `RCVD`. -/
theorem tcp_server_soundness_oneByte :
    ∃ s read written, tcpServerPort.Run tcpServerHandler (acceptedServer []) s read written ∧
      s.phase = .accept ∧ s.received = true ∧ read = sessionBytes 7 1 [[65]] ∧
      written <+: (initCONACC 7).store ++ (initRCVD 7).store ∧ written.length = 13 := by
  have along : tcpServerHandler.Along tcpServerPort.may (acceptedServer []) oneByteCalls :=
    ⟨Nat.le_refl 18, Nat.le_refl 9, Nat.le_refl 21, Nat.le_refl 1, show 4 ≤ 9 by decide, trivial,
      trivial⟩
  have run := Port.Run.begin.play along
  have listening : (tcpServerHandler.after .start []).phase = .accept := rfl
  obtain ⟨-, confirmed, -⟩ := tcp_server_soundness listening run (by decide)
  have received : (tcpServerHandler.after (acceptedServer []) oneByteCalls).received = true := by
    decide
  obtain ⟨whole, -, part⟩ := confirmed received
  exact ⟨_, _, _, run, by decide, received, whole, part, by decide⟩

end Ppcb
