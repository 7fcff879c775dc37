import Ppcb.Reception
import Ppcb.TCPTransfer

/-!
# The three receivers

The receive loop over TCP, `UDP_data_receive` and `UDPR_data_receive` are given the same
`DATA` packets of a session. What they should make of them is `judge`: packets are accepted
as long as each is the next one and stays within the total, and the first that does not is
rejected by its own id.

They agree exactly on the sequences in which no packet has to be rejected
(`receivers_agree_iff`). A wrong id is rejected over TCP by the id that was expected, and a
packet that exceeds the total is accepted over UDP.
-/

set_option autoImplicit false

namespace Ppcb

open ByteOrder CString Reactive Relation

/-! ## Over TCP -/

section TCP

variable {sessionId total : UInt64} {before : List DataPacket} {e : Expected} {loc : TCPSession}

/-- The locals of the loop are where the packets have brought them. -/
structure TCPSession.At (total : UInt64) (e : Expected) (loc : TCPSession) : Prop where
  total : loc.totalNbrOfBytesToBeSent = total
  id : loc.currPacketId = e.id
  received : loc.nbrOfBytesReceived.toNat = e.received

theorem TCPSession.At.more (at' : loc.At total e) (more : e.received < total.toNat) :
    loc.nbrOfBytesReceived < loc.totalNbrOfBytesToBeSent := by
  rw [UInt64.lt_iff_toNat_lt, at'.received, at'.total]
  exact more

theorem TCPSession.At.accept (at' : loc.At total e) {p : DataPacket}
    (within : e.received + p.payload.length ≤ total.toNat) :
    (loc.accept (UInt32.ofNat p.payload.length)).At total (e.accept p) where
  total := at'.total
  id := by
    rw [TCPSession.accept_currPacketId, at'.id]
    rfl
  received := by
    have bound := total.toNat_lt
    have received := at'.received
    rw [TCPSession.received_accept p.fits (by omega), received]
    rfl

/-- The locals start where nothing has been received. -/
theorem TCPSession.at_fresh (total : UInt64) : (TCPSession.fresh total).At total .start :=
  ⟨rfl, rfl, rfl⟩

variable (sessionId) in
/-- Packets that advance are taken off the input. -/
theorem Advances.restOfLoop (advances : Advances total.toNat e before)
    (more : e.received < total.toNat) (at' : loc.At total e) (delivered : List (List UInt8))
    (rest : List UInt8) :
    ∃ loc' : TCPSession, loc'.At total (e.afterAll before) ∧
      restOfLoop sessionId loc delivered (wire sessionId before ++ rest) =
        Ppcb.restOfLoop sessionId loc' (delivered ++ payloads before) rest := by
  induction before generalizing e loc delivered with
  | nil =>
      refine ⟨loc, at', ?_⟩
      rw [payloads, List.map_nil, List.append_nil]
      rfl
  | cons p before ih =>
      obtain ⟨next, less, later⟩ := advances
      obtain ⟨loc', there, rest'⟩ := ih later less (at'.accept (Nat.le_of_lt less))
        (delivered ++ [p.payload])
      refine ⟨loc', there, ?_⟩
      have input : wire sessionId (p :: before) ++ rest =
          dataBytes sessionId loc.currPacketId p.payload ++ (wire sessionId before ++ rest) := by
        rw [at'.id, ← next, ← List.append_assoc]
        rfl
      rw [input, restOfLoop_accept (at'.more more) p.fits
        (by rw [at'.received, at'.total]; exact Nat.le_of_lt less), rest', List.append_assoc]
      rfl

/-- A packet with another id is rejected by the id that was expected. -/
theorem restOfLoop_wrongId {id : UInt64} {payload : List UInt8}
    (more : loc.nbrOfBytesReceived < loc.totalNbrOfBytesToBeSent)
    (other : id ≠ loc.currPacketId) (delivered : List (List UInt8)) (rest : List UInt8) :
    restOfLoop sessionId loc delivered (dataBytes sessionId id payload ++ rest) =
      rejectedOutcome sessionId loc.currPacketId delivered (payload ++ rest) := by
  have rejected : loc.header sessionId
      (dataHeader sessionId id (UInt32.ofNat payload.length)).store = none := by
    have package : packageOf (dataHeader sessionId id (UInt32.ofNat payload.length)).store = id := by
      rw [store_dataHeader, packageOf_cons]
    rw [TCPSession.header, package, if_neg]
    rintro ⟨-, -, same, -⟩
    exact other same
  rw [restOfLoop, if_pos more, dataBytes, List.append_assoc,
    restOfPackets_append (DataInfo.length_store _), rejected]

/-- The input has no end yet. -/
def NoEnd (_ _ : TCPServer) : Prop := False

/-- **A server that has come to rest** has closed the connection, whatever else were to come,
or waits for a packet and has written everything but what the end of the input would bring. -/
theorem tcp_settled {history : List TCPServerEvent} {stream : List UInt8}
    (listening : (tcpServerHandler.after .start history).phase = .accept)
    (header : sizeofCONN ≤ stream.length) {c : Fed TCPServer UInt8}
    (run : Fed.Reachable tcpServerProcess NoEnd (acceptedConnection history stream) c)
    (settled : c.Settled tcpServerProcess) :
    (∀ more, connectionOutcome (stream ++ more) =
        ⟨c.written, c.state.delivered, c.state.received, c.unread ++ more⟩) ∨
      ∃ session id, connectionOutcome stream =
        ⟨c.written ++ (initRJT session id).store, c.state.delivered, false, []⟩ := by
  have promised : ∀ more, ∃ later, (connectionOutcome (stream ++ more)).answer =
      c.written ++ later ∧
        TCPServer.Serves (stream ++ more) c.state later (c.unread ++ more) := by
    intro more
    obtain ⟨later, written, serves⟩ := Fed.promised (tcpServer_serves (stream ++ more))
      (fun _ _ impossible => impossible.elim) (accepted_serves listening (stream ++ more)) run
    exact ⟨later, written, serves⟩
  rcases settled with closed | ⟨⟨n, blocked⟩, unread⟩
  · refine .inl fun more => ?_
    obtain ⟨later, answer, ⟨-, same⟩, -⟩ := promised more
    rw [TCPServer.outcome_closed closed, Outcome.mk.injEq] at same
    obtain ⟨rfl, delivered, received, rest⟩ := same
    rw [List.append_nil] at answer
    rw [← answer, delivered, received, rest]
  · refine .inr ?_
    obtain ⟨later, answer, ⟨proper, same⟩, whole⟩ := promised []
    rw [unread, List.append_nil] at same whole
    rw [List.append_nil] at answer whole same
    rcases TCPServer.outcome_starved proper blocked with ⟨got, phase, -⟩ | ⟨id, outcome⟩
    · -- The whole `CONN` has arrived, so the server is past it.
      simp only [TCPServer.Proper, phase] at proper
      have all := whole got phase
      rw [List.append_nil] at all
      rw [all] at proper
      exact absurd header (Nat.not_le.mpr proper.1)
    · rw [outcome, rejectedOutcome, Outcome.mk.injEq] at same
      obtain ⟨rfl, delivered, received, rest⟩ := same
      refine ⟨c.state.conn.sessionId, id, ?_⟩
      rw [← answer, delivered, received, rest]

/-- The server comes to rest, however the bytes arrive. -/
theorem tcp_settles {history : List TCPServerEvent} {stream : List UInt8}
    (listening : (tcpServerHandler.after .start history).phase = .accept) :
    Inevitable (Fed.Step tcpServerProcess NoEnd) (fun c => c.Settled tcpServerProcess)
      (acceptedConnection history stream) := by
  have serves : TCPServer.Serves stream (acceptedConnection history stream).state
      (connectionOutcome stream).answer ((acceptedConnection history stream).unread ++ []) :=
    (List.append_nil stream).symm ▸ accepted_serves listening stream
  exact Fed.settles (tcpServer_serves stream) (fun _ _ impossible => impossible.elim)
    (fun _ _ _ settled => .inl settled) serves

/-- A connection on which these packets arrive after a `CONN`. -/
def tcpArrival (history : List TCPServerEvent) (sessionId total : UInt64)
    (packets : List DataPacket) : Fed TCPServer UInt8 :=
  acceptedConnection history
    ((initCONN sessionId tcpProtocol total).store ++ wire sessionId packets)

/-- The server has come to rest after the packets. -/
def TCPRests (history : List TCPServerEvent) (sessionId total : UInt64)
    (packets : List DataPacket) (c : Fed TCPServer UInt8) : Prop :=
  Fed.Reachable tcpServerProcess NoEnd (tcpArrival history sessionId total packets) c ∧
    c.Settled tcpServerProcess

section Rests

variable {history : List TCPServerEvent} {packets after : List DataPacket} {p : DataPacket}
variable {c : Fed TCPServer UInt8}
variable (listening : (tcpServerHandler.after .start history).phase = .accept)

include listening

theorem tcpRests_cases (rests : TCPRests history sessionId total packets c) :
    (∀ more, (restOfLoop sessionId (.fresh total) [] (wire sessionId packets ++ more)).after
          (initCONACC sessionId).store =
        ⟨c.written, c.state.delivered, c.state.received, c.unread ++ more⟩) ∨
      ∃ session id, (restOfLoop sessionId (.fresh total) [] (wire sessionId packets)).after
          (initCONACC sessionId).store =
        ⟨c.written ++ (initRJT session id).store, c.state.delivered, false, []⟩ := by
  obtain ⟨run, settled⟩ := rests
  have header : sizeofCONN ≤
      ((initCONN sessionId tcpProtocol total).store ++ wire sessionId packets).length := by
    rw [List.length_append, CONN.length_store]
    exact Nat.le_add_right _ _
  have cases' := tcp_settled listening header run settled
  rw [connectionOutcome_conn] at cases'
  simp only [List.append_assoc, connectionOutcome_conn] at cases'
  exact cases'

/-- A session that is received is answered with `RCVD`. -/
theorem tcpRests_received {delivered : List (List UInt8)} {unread : List UInt8}
    (outcome : restOfLoop sessionId (.fresh total) [] (wire sessionId packets) =
      receivedOutcome sessionId delivered unread)
    (rests : TCPRests history sessionId total packets c) :
    c.written = (initCONACC sessionId).store ++ (initRCVD sessionId).store ∧
      c.state.delivered = delivered := by
  rcases tcpRests_cases listening rests with closed | ⟨session, id, waiting⟩
  · have same := closed []
    rw [List.append_nil, outcome] at same
    simp only [receivedOutcome, Outcome.after, Outcome.mk.injEq] at same
    exact ⟨same.1.symm, same.2.1.symm⟩
  · rw [outcome] at waiting
    simp only [receivedOutcome, Outcome.after, Outcome.mk.injEq] at waiting
    exact absurd waiting.2.2.1 Bool.noConfusion

/-- Packets that advance are accepted, and the server waits for more. -/
theorem tcpRests_pending (advances : Advances total.toNat .start packets)
    (more : 0 < total.toNat) (rests : TCPRests history sessionId total packets c) :
    c.written = (initCONACC sessionId).store ∧ c.state.delivered = payloads packets := by
  -- Less than a header does not help the server on.
  have short : ∀ later : List UInt8, later.length < sizeofDataInfo → ∃ id,
      restOfLoop sessionId (.fresh total) [] (wire sessionId packets ++ later) =
        rejectedOutcome sessionId id (payloads packets) [] := by
    intro later less
    obtain ⟨loc, there, outcome⟩ := advances.restOfLoop sessionId more (TCPSession.at_fresh total)
      [] later
    have waits := there.more (advances.received_lt more)
    refine ⟨loc.currPacketId, ?_⟩
    rw [outcome, restOfLoop, if_pos waits, restOfPackets_short less, List.nil_append]
  rcases tcpRests_cases listening rests with closed | ⟨session, id, waiting⟩
  · obtain ⟨id, outcome⟩ := short [0] (by decide)
    have same := closed [0]
    rw [outcome] at same
    simp only [rejectedOutcome, Outcome.after, Outcome.mk.injEq] at same
    exact absurd same.2.2.2.symm (List.append_ne_nil_of_right_ne_nil _ (List.cons_ne_nil _ _))
  · obtain ⟨expected, outcome⟩ := short [] (by decide)
    rw [List.append_nil] at outcome
    rw [outcome] at waiting
    simp only [rejectedOutcome, Outcome.after, Outcome.mk.injEq] at waiting
    obtain ⟨answer, delivered, -, -⟩ := waiting
    obtain ⟨conacc, -⟩ := List.append_inj' answer
      (by rw [NumberedPacket.length_store, NumberedPacket.length_store])
    exact ⟨conacc.symm, delivered.symm⟩

/-- **A wrong id is not what the `RJT` carries.** -/
theorem tcpRests_wrongId {before : List DataPacket}
    (advances : Advances total.toNat .start before) (more : 0 < total.toNat)
    (other : p.id ≠ (Expected.start.afterAll before).id)
    (rests : TCPRests history sessionId total (before ++ p :: after) c) :
    c.written ≠ (initCONACC sessionId).store ++ (initRJT sessionId p.id).store := by
  obtain ⟨loc, there, outcome⟩ := advances.restOfLoop sessionId more (TCPSession.at_fresh total) []
    (p.bytes sessionId ++ wire sessionId after)
  have waits := there.more (advances.received_lt more)
  have input : wire sessionId (before ++ p :: after) =
      wire sessionId before ++ (p.bytes sessionId ++ wire sessionId after) := by
    simp only [wire, List.map_append, List.map_cons, List.flatten_append, List.flatten_cons]
  rw [← input, DataPacket.bytes, restOfLoop_wrongId waits (by rwa [there.id])] at outcome
  intro written
  rcases tcpRests_cases listening rests with closed | ⟨session, id, waiting⟩
  · have same := closed []
    rw [List.append_nil, outcome] at same
    simp only [rejectedOutcome, Outcome.after, Outcome.mk.injEq] at same
    have answer := List.append_cancel_left (same.1.trans written)
    have package := congrArg packageOf answer
    rw [initRJT, initRJT, store_initNumbered, store_initNumbered, packageOf_cons_nil,
      packageOf_cons_nil, there.id] at package
    exact other package.symm
  · rw [outcome] at waiting
    simp only [rejectedOutcome, Outcome.after, Outcome.mk.injEq] at waiting
    have length := congrArg List.length waiting.1
    rw [written] at length
    simp only [List.length_append, SessionPacket.length_store, NumberedPacket.length_store,
      sizeofACC] at length
    omega

end Rests

end TCP

/-! ## Agreement -/

/-- What the server has done over TCP, once it has come to rest, is what the judgement says. -/
def TCPAgrees (history : List TCPServerEvent) (sessionId total : UInt64)
    (packets : List DataPacket) : Prop :=
  let judgement := judge total.toNat .start packets
  ∀ c, TCPRests history sessionId total packets c →
    c.state.delivered = judgement.accepted ∧
      c.written = (initCONACC sessionId).store ++ (judgement.verdict.answer sessionId).flatten

section TCPAgrees

variable {history : List TCPServerEvent} {sessionId total : UInt64}
variable {packets before after : List DataPacket} {p : DataPacket}
variable (listening : (tcpServerHandler.after .start history).phase = .accept)

include listening

theorem tcpAgrees_empty (nothing : total.toNat = 0) :
    TCPAgrees history sessionId total packets := by
  have outcome : restOfLoop sessionId (.fresh total) [] (wire sessionId packets) =
      receivedOutcome sessionId [] (wire sessionId packets) :=
    restOfLoop_full (Nat.le_of_eq nothing) [] _
  have verdict : judge total.toNat .start packets = ⟨[], .received⟩ := by
    rw [nothing]
    cases packets <;> rfl
  intro c rests
  obtain ⟨written, delivered⟩ := tcpRests_received listening outcome rests
  rw [verdict]
  exact ⟨delivered, by simpa [Verdict.answer] using written⟩

theorem tcpAgrees_pending (more : 0 < total.toNat)
    (advances : Advances total.toNat .start packets) :
    TCPAgrees history sessionId total packets := by
  have verdict : judge total.toNat .start packets = ⟨payloads packets, .pending⟩ := by
    have whole : judge total.toNat .start (packets ++ []) = _ := advances.judge more
    rw [List.append_nil, judge, if_pos (advances.received_lt more), Judgement.after,
      List.append_nil] at whole
    exact whole
  intro c rests
  obtain ⟨written, delivered⟩ := tcpRests_pending listening advances more rests
  rw [verdict]
  exact ⟨delivered, by simpa [Verdict.answer] using written⟩

theorem tcpAgrees_received (more : 0 < total.toNat)
    (advances : Advances total.toNat .start before)
    (next : p.id = (Expected.start.afterAll before).id)
    (full : (Expected.start.afterAll before).received + p.payload.length = total.toNat) :
    TCPAgrees history sessionId total (before ++ p :: after) := by
  have received := advances.received_lt more
  have bound := total.toNat_lt
  obtain ⟨loc, there, outcome⟩ := advances.restOfLoop sessionId more (TCPSession.at_fresh total) []
    (p.bytes sessionId ++ wire sessionId after)
  have input : wire sessionId (before ++ p :: after) =
      wire sessionId before ++ (p.bytes sessionId ++ wire sessionId after) := by
    simp only [wire, List.map_append, List.map_cons, List.flatten_append, List.flatten_cons]
  have within : loc.nbrOfBytesReceived.toNat + p.payload.length ≤
      loc.totalNbrOfBytesToBeSent.toNat := by
    rw [there.received, there.total]
    exact Nat.le_of_eq full
  have there' := there.accept (Nat.le_of_eq full)
  have reached : (loc.accept (UInt32.ofNat p.payload.length)).totalNbrOfBytesToBeSent.toNat ≤
      (loc.accept (UInt32.ofNat p.payload.length)).nbrOfBytesReceived.toNat := by
    rw [there'.received, there'.total]
    exact Nat.le_of_eq full.symm
  rw [← input, DataPacket.bytes, next, ← there.id,
    restOfLoop_accept (there.more received) p.fits within, restOfLoop_full reached,
    List.nil_append] at outcome
  intro c rests
  obtain ⟨written, delivered⟩ := tcpRests_received listening outcome rests
  rw [advances.judge more, judge_full received next full]
  exact ⟨delivered, by simpa [Verdict.answer, Judgement.after] using written⟩

end TCPAgrees

/-- The three receivers agree on the packets. -/
structure ReceiversAgree (history : List TCPServerEvent) (sessionId total : UInt64)
    (client udpAddress udprAddress : SockAddr) (packets : List (DataPacket × ServerUninit)) :
    Prop where
  tcp : TCPAgrees history sessionId total (packets.map Prod.fst)
  udp : udpReception.Agrees sessionId total client udpAddress packets
  udpr : udprReception.Agrees sessionId total client udprAddress packets

/-- **The receivers agree exactly as long as no packet has to be rejected.** -/
theorem receivers_agree_iff {history : List TCPServerEvent}
    (listening : (tcpServerHandler.after .start history).phase = .accept)
    (sessionId total : UInt64) (client udpAddress udprAddress : SockAddr)
    (packets : List (DataPacket × ServerUninit)) :
    ReceiversAgree history sessionId total client udpAddress udprAddress packets ↔
      Orderly total.toNat .start (packets.map Prod.fst) := by
  rcases Nat.eq_zero_or_pos total.toNat with nothing | more
  · refine iff_of_true ⟨tcpAgrees_empty listening nothing, Reception.agrees_empty _ nothing,
      Reception.agrees_empty _ nothing⟩ ?_
    rw [nothing]
    cases packets.map Prod.fst with
    | nil => trivial
    | cons p packets => exact fun impossible => absurd impossible (Nat.lt_irrefl 0)
  generalize equal : packets.map Prod.fst = sent
  cases course total.toNat .start sent with
  | pending advances =>
      subst equal
      refine iff_of_true ⟨tcpAgrees_pending listening more advances,
        Reception.agrees_pending more advances, Reception.agrees_pending more advances⟩ ?_
      have orderly : Orderly total.toNat .start (_ ++ []) := (advances.orderly more).mpr trivial
      rwa [List.append_nil] at orderly
  | received advances next full =>
      obtain ⟨before, rest, rfl, rfl, tail⟩ := List.map_eq_append_iff.mp equal
      obtain ⟨q, after, rfl, rfl, rfl⟩ := List.map_eq_cons_iff.mp tail
      refine iff_of_true ⟨?_, Reception.agrees_received more advances next full,
        Reception.agrees_received more advances next full⟩ ?_
      · rw [List.map_append, List.map_cons]
        exact tcpAgrees_received listening more advances next full
      · refine (advances.orderly more).mpr fun _ => ⟨next, Nat.le_of_eq full, ?_⟩
        cases after.map Prod.fst with
        | nil => trivial
        | cons p packets => exact fun less => absurd full (Nat.ne_of_lt less)
  | wrongId advances other =>
      obtain ⟨before, rest, rfl, rfl, tail⟩ := List.map_eq_append_iff.mp equal
      obtain ⟨q, after, rfl, rfl, rfl⟩ := List.map_eq_cons_iff.mp tail
      have received := advances.received_lt more
      have wrong : ¬ (q.1.id = (Expected.start.afterAll (before.map Prod.fst)).id ∧
          (Expected.start.afterAll (before.map Prod.fst)).received + q.1.payload.length ≤
            total.toNat) := fun right => other right.1
      refine iff_of_false ?_ fun orderly =>
        other ((advances.orderly more).mp orderly received).1
      rintro ⟨tcp, -, -⟩
      obtain ⟨c, run, settled⟩ := (tcp_settles listening).reaches
      have written := (tcp c ⟨run, settled⟩).2
      rw [List.map_append, List.map_cons] at run
      refine tcpRests_wrongId listening advances more other ⟨run, settled⟩ ?_
      rw [written, List.map_append, List.map_cons, advances.judge more,
        judge_rejected received wrong]
      simp [Judgement.after, Verdict.answer]
  | tooMuch advances next much =>
      obtain ⟨before, rest, rfl, rfl, tail⟩ := List.map_eq_append_iff.mp equal
      obtain ⟨q, after, rfl, rfl, rfl⟩ := List.map_eq_cons_iff.mp tail
      have received := advances.received_lt more
      refine iff_of_false ?_ fun orderly => Nat.not_le.mpr much
        ((advances.orderly more).mp orderly received).2.1
      rintro ⟨-, udp, -⟩
      exact udp_tooMuch more advances next much udp

/-- One byte after the other. -/
theorem receivers_agree_twoBytes :
    ReceiversAgree [] 7 2 ⟨2, 2⟩ ⟨0, 0⟩ ⟨0, 0⟩
      [(⟨0, [65], by decide⟩, .zero), (⟨1, [66], by decide⟩, .zero)] :=
  (receivers_agree_iff rfl _ _ _ _ _ _).mpr fun _ =>
    ⟨rfl, by decide, fun _ => ⟨rfl, by decide, trivial⟩⟩

/-- A first packet of two bytes, with one byte announced, is accepted over UDP. -/
theorem receivers_disagree :
    ¬ ReceiversAgree [] 7 1 ⟨2, 2⟩ ⟨0, 0⟩ ⟨0, 0⟩ [(⟨0, [65, 66], by decide⟩, .zero)] := by
  rintro ⟨-, udp, -⟩
  have none : Advances (1 : UInt64).toNat .start
      (([] : List (DataPacket × ServerUninit)).map Prod.fst) := trivial
  exact udp_tooMuch (by decide) none rfl (by decide) udp

end Ppcb
