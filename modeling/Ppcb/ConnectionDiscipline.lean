import Ppcb.Lib.Inevitable
import Ppcb.Shutdown
import Ppcb.ReliablePipe

/-!
# What the TCP server does with a descriptor

The calls on the descriptors of a run are watched from outside (`TCPServer.uses`): where
`accept` returns one, each `write`, with what it came back with, and each `close`.

A connection is used as a whole, or is the last one and still open, and the writes on it
are attempts to send nothing, a `CONACC` that fails, or `CONACC` and then `RJT` or `RCVD`
(`Replies`). Once the client sends no more the descriptor is closed, whatever the calls
come back with (`tcp_connection_discipline`).
-/

set_option autoImplicit false

namespace Ppcb

open ByteOrder CString Reactive

/-- Only a `read` comes back like a `read`. -/
theorem Read.exists_call {r : Read} {call : Call UInt8} (answers : r.Answers call) :
    ∃ n, call = .read n := by
  cases call with
  | read n => exact ⟨n, rfl⟩
  | write left => cases r <;> exact answers.elim
  | closed => cases r <;> exact answers.elim

theorem Write.exists_call {r : Write} {call : Call UInt8} (answers : r.Answers call) :
    ∃ left, call = .write left := by
  cases call with
  | read n => cases r <;> exact answers.elim
  | write left => exact ⟨left, rfl⟩
  | closed => cases r <;> exact answers.elim

/-! ## Attempts to send a packet -/

/-- A call of `write`, with the bytes it is given. -/
abbrev WriteCall := List UInt8 × Write

/-- The calls of `write` that take `writen` from one pass of its loop to another. -/
inductive WritenCalls (n : ℕ) : Writen → List WriteCall → Writen → Prop where
  | none (s : Writen) : WritenCalls n s [] s
  | call {left : List UInt8} {r : Write} {writes : List WriteCall} {s : Writen}
      (answers : r.Answers (.write left)) (later : WritenCalls n (writenPass n left r) writes s) :
      WritenCalls n (.blocked left) ((left, r) :: writes) s

/-- `TCP_send_packet` has called `write` like this. -/
def Sending (packet : List UInt8) (writes : List WriteCall) (s : Writen) : Prop :=
  WritenCalls packet.length (writenLoop packet.length packet) writes s

/-- `TCP_send_packet` called `write` like this, and returned. -/
def Attempt (packet : List UInt8) (writes : List WriteCall) (ret : RetVal) : Prop :=
  ∃ writtenLength, Sending packet writes (.returned writtenLength) ∧
    tcpSendPacket writtenLength packet.length = ret

/-- The replies a connection can get. -/
inductive Replies where
  | nothing
  | failedCONACC
  | rejected
  | received
deriving DecidableEq, Repr

/-- The calls of `write` are attempts at these replies. -/
def Replies.Attempted (writes : List WriteCall) : Replies → Prop
  | nothing => writes = []
  | failedCONACC => ∃ sessionId, Attempt (initCONACC sessionId).store writes .ERROR
  | rejected => ∃ sessionId id conacc rjt ret, writes = conacc ++ rjt ∧
      Attempt (initCONACC sessionId).store conacc .SUCCESS ∧
      Attempt (initRJT sessionId id).store rjt ret
  | received => ∃ sessionId conacc rcvd ret, writes = conacc ++ rcvd ∧
      Attempt (initCONACC sessionId).store conacc .SUCCESS ∧
      Attempt (initRCVD sessionId).store rcvd ret

section Attempts

variable {n : ℕ} {packet left : List UInt8} {writes : List WriteCall}

theorem WritenCalls.extend {s : Writen} (calls : WritenCalls n s writes (.blocked left))
    {r : Write} (answers : r.Answers (.write left)) :
    WritenCalls n s (writes ++ [(left, r)]) (writenPass n left r) := by
  generalize waits : Writen.blocked left = t at calls
  induction calls with
  | none s =>
      subst waits
      exact .call answers (.none _)
  | call answers' later ih => exact .call answers' (ih waits)

/-- A call of `writen` that has returned is over: what follows belongs to something else. -/
theorem WritenCalls.over {s : Writen} {writes' rest rest' : List WriteCall} {v v' : Option ℕ}
    (calls : WritenCalls n s writes (.returned v)) (calls' : WritenCalls n s writes' (.returned v'))
    (same : writes ++ rest = writes' ++ rest') : writes = writes' ∧ v = v' := by
  generalize returned : Writen.returned v = t at calls
  induction calls generalizing writes' with
  | none s =>
      subst returned
      cases calls'
      exact ⟨rfl, rfl⟩
  | call answers later ih =>
      cases calls' with
      | call answers' later' =>
          rw [List.cons_append, List.cons_append, List.cons.injEq, Prod.mk.injEq] at same
          obtain ⟨⟨-, rfl⟩, same⟩ := same
          obtain ⟨rfl, value⟩ := ih later' same returned
          exact ⟨rfl, value⟩

theorem sending_start (more : packet ≠ []) : Sending packet [] (.blocked packet) := by
  rw [Sending, writenLoop, if_pos (List.length_pos_iff.mpr more)]
  exact .none _

theorem Sending.extend (sending : Sending packet writes (.blocked left)) {r : Write}
    (answers : r.Answers (.write left)) (size : packet.length = n) :
    Sending packet (writes ++ [(left, r)]) (writenPass n left r) := by
  subst size
  exact WritenCalls.extend sending answers

/-- The next `write` may fail. -/
theorem Sending.breaksOff (sending : Sending packet writes (.blocked left)) :
    Attempt packet (writes ++ [(left, .failed .EINTR)]) .ERROR :=
  ⟨none, sending.extend (r := .failed .EINTR) trivial rfl, rfl⟩

/-- The first `write` is given the whole packet. -/
theorem Attempt.first {ret : RetVal} (more : packet ≠ []) (attempt : Attempt packet writes ret) :
    ∃ r later, writes = (packet, r) :: later := by
  obtain ⟨v, sending, -⟩ := attempt
  rw [Sending, writenLoop, if_pos (List.length_pos_iff.mpr more)] at sending
  cases sending with
  | call answers later => exact ⟨_, _, rfl⟩

theorem Attempt.over {writes' rest rest' : List WriteCall} {ret ret' : RetVal}
    (attempt : Attempt packet writes ret) (attempt' : Attempt packet writes' ret')
    (same : writes ++ rest = writes' ++ rest') : writes = writes' ∧ ret = ret' := by
  obtain ⟨v, sending, rfl⟩ := attempt
  obtain ⟨v', sending', rfl⟩ := attempt'
  obtain ⟨rfl, rfl⟩ := WritenCalls.over sending sending' same
  exact ⟨rfl, rfl⟩

end Attempts

theorem conacc_ne_nil (sessionId : UInt64) : (initCONACC sessionId).store ≠ [] := by
  rw [initCONACC, store_initSession]
  exact List.cons_ne_nil _ _

theorem rcvd_ne_nil (sessionId : UInt64) : (initRCVD sessionId).store ≠ [] := by
  rw [initRCVD, store_initSession]
  exact List.cons_ne_nil _ _

theorem rjt_ne_nil (sessionId id : UInt64) : (initRJT sessionId id).store ≠ [] := by
  rw [initRJT, store_initNumbered]
  exact List.cons_ne_nil _ _

namespace Replies

variable {replies replies' : Replies} {writes : List WriteCall}

/-- What comes after the attempt at `CONACC` tells the replies apart. -/
def Then (ret : RetVal) (rest : List WriteCall) : Replies → Prop
  | nothing => False
  | failedCONACC => ret = .ERROR ∧ rest = []
  | rejected => ret = .SUCCESS ∧ ∃ call later, rest = call :: later ∧ call.1.length = sizeofRJT
  | received => ret = .SUCCESS ∧ ∃ call later, rest = call :: later ∧ call.1.length = sizeofRCVD

theorem Attempted.split (attempted : replies.Attempted writes) :
    replies = .nothing ∧ writes = [] ∨
      ∃ sessionId conacc rest ret, writes = conacc ++ rest ∧
        Attempt (initCONACC sessionId).store conacc ret ∧ replies.Then ret rest := by
  cases replies with
  | nothing => exact .inl ⟨rfl, attempted⟩
  | failedCONACC =>
      obtain ⟨sessionId, attempt⟩ := attempted
      exact .inr ⟨sessionId, writes, [], _, (List.append_nil _).symm, attempt, rfl, rfl⟩
  | rejected =>
      obtain ⟨sessionId, id, conacc, rjt, ret, rfl, attempt, attempt'⟩ := attempted
      obtain ⟨r, later, rfl⟩ := attempt'.first (rjt_ne_nil sessionId id)
      exact .inr ⟨sessionId, conacc, _, _, rfl, attempt, rfl, _, later, rfl,
        NumberedPacket.length_store _⟩
  | received =>
      obtain ⟨sessionId, conacc, rcvd, ret, rfl, attempt, attempt'⟩ := attempted
      obtain ⟨r, later, rfl⟩ := attempt'.first (rcvd_ne_nil sessionId)
      exact .inr ⟨sessionId, conacc, _, _, rfl, attempt, rfl, _, later, rfl,
        SessionPacket.length_store _⟩

/-- `RJT` and `RCVD` have different sizes. -/
theorem Then.not_both {ret : RetVal} {rest : List WriteCall} (rjt : rejected.Then ret rest)
    (rcvd : received.Then ret rest) : False := by
  obtain ⟨-, call, later, rfl, length⟩ := rjt
  obtain ⟨-, call', later', same, length'⟩ := rcvd
  cases same
  rw [length] at length'
  cases length'

theorem Then.unique {ret : RetVal} {rest : List WriteCall} (first : replies.Then ret rest)
    (second : replies'.Then ret rest) : replies = replies' := by
  cases replies with
  | nothing => exact first.elim
  | failedCONACC =>
      cases replies' with
      | nothing => exact second.elim
      | failedCONACC => rfl
      | rejected => cases first.1.symm.trans second.1
      | received => cases first.1.symm.trans second.1
  | rejected =>
      cases replies' with
      | nothing => exact second.elim
      | failedCONACC => cases first.1.symm.trans second.1
      | rejected => rfl
      | received => exact (first.not_both second).elim
  | received =>
      cases replies' with
      | nothing => exact second.elim
      | failedCONACC => cases first.1.symm.trans second.1
      | rejected => exact (second.not_both first).elim
      | received => rfl

/-- **The calls tell which replies were attempted.** -/
theorem Attempted.unique (first : replies.Attempted writes) (second : replies'.Attempted writes) :
    replies = replies' := by
  rcases first.split with ⟨rfl, empty⟩ | ⟨sessionId, conacc, rest, ret, rfl, attempt, then'⟩
  · rcases second.split with ⟨rfl, -⟩ | ⟨sessionId', conacc', rest', ret', same, attempt', -⟩
    · rfl
    · obtain ⟨r, later, rfl⟩ := attempt'.first (conacc_ne_nil _)
      rw [empty] at same
      cases same
  · obtain ⟨r, later, first⟩ := attempt.first (conacc_ne_nil _)
    rcases second.split with ⟨rfl, empty⟩ | ⟨sessionId', conacc', rest', ret', same, attempt', then''⟩
    · rw [first] at empty
      cases empty
    · obtain ⟨r', later', first'⟩ := attempt'.first (conacc_ne_nil _)
      have packet : (initCONACC sessionId').store = (initCONACC sessionId).store := by
        rw [first, first', List.cons_append, List.cons_append, List.cons.injEq,
          Prod.mk.injEq] at same
        exact same.1.1.symm
      rw [packet] at attempt'
      obtain ⟨rfl, rfl⟩ := attempt.over attempt' same
      rw [List.append_cancel_left same] at then'
      exact then'.unique then''

end Replies

/-! ## The uses of a descriptor -/

/-- What the server does with the descriptor of a connection. -/
inductive Use where
  | accepted
  | write (call : WriteCall)
  | closed
deriving DecidableEq, Repr

/-- A whole connection. -/
def connectionUses (writes : List WriteCall) : List Use :=
  .accepted :: writes.map .write ++ [.closed]

namespace TCPServer

/-- The call that an event answers. -/
def called (s : TCPServer) : TCPServerEvent → List Use
  | .accept .connected => if s.phase = .accept then [.accepted] else []
  | .write r =>
      match s.call with
      | .write left => if r.Answers (.write left) then [.write (left, r)] else []
      | _ => []
  | _ => []

/-- The calls of `close` among the outputs. -/
def closes : List TCPOutput → List Use :=
  List.filterMap fun
    | .closed => some .closed
    | .written _ => none

/-- What a step does with the descriptor. -/
def uses (s : TCPServer) (e : TCPServerEvent) : List Use :=
  s.called e ++ closes (tcpServerHandler.emit s e)

/-- The calls of `write` so far on the descriptor that is open. -/
def Replied (s : TCPServer) (writes : List WriteCall) : Prop :=
  let conacc := (initCONACC s.conn.sessionId).store
  match s.phase with
  | .readCONN _ => writes = []
  | .writeCONACC left => Sending conacc writes (.blocked left)
  | .readDataInfo _ _ => Attempt conacc writes .SUCCESS
  | .readData _ _ => Attempt conacc writes .SUCCESS
  | .writeRJT left => ∃ before id rjt, writes = before ++ rjt ∧ Attempt conacc before .SUCCESS ∧
      Sending (initRJT s.conn.sessionId id).store rjt (.blocked left)
  | .writeRCVD left => ∃ before rcvd, writes = before ++ rcvd ∧ Attempt conacc before .SUCCESS ∧
      Sending (initRCVD s.conn.sessionId).store rcvd (.blocked left)
  | .accept => False
  | .finished => False

/-! ### What the functions keep -/

section Functions

variable {s : TCPServer} {writes : List WriteCall}
  (acknowledged : Attempt (initCONACC s.conn.sessionId).store writes .SUCCESS)

include acknowledged

theorem replied_handleRJTSending (id : UInt64) : (s.handleRJTSending id).Replied writes :=
  ⟨writes, id, [], (List.append_nil _).symm, acknowledged, sending_start (rjt_ne_nil _ _)⟩

theorem replied_receiveLoop (loc : TCPSession) : (s.receiveLoop loc).Replied writes := by
  rw [receiveLoop]
  split
  · exact acknowledged
  · exact ⟨writes, [], (List.append_nil _).symm, acknowledged, sending_start (rcvd_ne_nil _)⟩

theorem replied_dataRead (loc : TCPSession) (readBytes : Option ℕ) (got : List UInt8) :
    (s.dataRead loc readBytes got).Replied writes := by
  rw [dataRead]
  split
  · exact replied_handleRJTSending acknowledged _
  · exact replied_receiveLoop (s := { s with delivered := s.delivered ++ [got] }) acknowledged loc

theorem replied_dataInfoRead (loc : TCPSession) (readLength : Option ℕ) (got : List UInt8) :
    (s.dataInfoRead loc readLength got).Replied writes := by
  simp only [dataInfoRead]
  generalize tcpGetDATAMetainfo _ _ _ _ = read
  have here : Attempt (initCONACC ({ s with dataMetainfo := read.2 } : TCPServer).conn.sessionId).store
      writes .SUCCESS := acknowledged
  split
  · exact replied_handleRJTSending here _
  split
  · exact replied_handleRJTSending here _
  split
  · exact here
  · exact replied_dataRead here _ _ _

end Functions

/-! ### One step -/

section Step

variable {s : TCPServer} {e : TCPServerEvent} {writes : List WriteCall}

/-- What a call leads to, seen from an open descriptor on which there were these calls of
`write`: there may be more of them, and at the end a `close`. -/
def Goes (writes : List WriteCall) (next : TCPServer) (uses : List Use) : Prop :=
  ∃ more : List WriteCall,
    uses = more.map .write ∧ next.Replied (writes ++ more) ∨
      uses = more.map .write ++ [.closed] ∧ next.phase = .accept ∧
        ∃ replies : Replies, replies.Attempted (writes ++ more)

theorem goes_on {next : TCPServer} (replied : next.Replied writes) : Goes writes next [] := by
  refine ⟨[], .inl ⟨rfl, ?_⟩⟩
  rwa [List.append_nil]

/-- The `CONN` has been read, or not. -/
theorem goes_connRead (readLength : Option ℕ) (got : List UInt8) :
    Goes [] (s.connRead readLength got).1 (closes (s.connRead readLength got).2) := by
  rw [connRead]
  split
  · exact ⟨[], .inr ⟨rfl, rfl, .nothing, rfl⟩⟩
  · refine goes_on ?_
    exact sending_start (conacc_ne_nil _)

/-- **A `read` with an open descriptor.** -/
theorem goes_onRead (replied : s.Replied writes) (r : Read) :
    Goes writes (s.onRead r).1 (closes (s.onRead r).2) := by
  rw [onRead]
  split
  · rename_i got phase
    simp only [Replied, phase] at replied
    subst replied
    split
    · exact goes_on rfl
    · exact goes_connRead _ _
  · rename_i loc got phase
    simp only [Replied, phase] at replied
    split
    · refine goes_on ?_
      exact replied
    · exact goes_on (replied_dataInfoRead replied _ _ _)
  · rename_i loc got phase
    simp only [Replied, phase] at replied
    split
    · refine goes_on ?_
      exact replied
    · exact goes_on (replied_dataRead replied _ _ _)
  · exact goes_on replied

theorem closes_writtenBytes (left : List UInt8) (r : Write) (later : List TCPOutput) :
    closes (writtenBytes left r ++ later) = closes later := by
  cases r <;> rfl

/-- `TCP_send_packet` returns `SUCCESS` or `ERROR`. -/
theorem tcpSendPacket_eq_error {writtenLength : Option ℕ} {packetSize : ℕ}
    (failed : tcpSendPacket writtenLength packetSize ≠ .SUCCESS) :
    tcpSendPacket writtenLength packetSize = .ERROR := by
  cases writtenLength with
  | none => rfl
  | some length =>
      simp only [tcpSendPacket] at failed ⊢
      split
      · rfl
      · split
        · rfl
        · simp_all only [not_true_eq_false, ne_eq, if_false]

/-- `CONACC` has been sent, or not. -/
theorem goes_conaccWritten {left : List UInt8} {r : Write} {writtenLength : Option ℕ}
    (sending : Sending (initCONACC s.conn.sessionId).store (writes ++ [(left, r)])
      (.returned writtenLength)) :
    Goes writes (s.conaccWritten writtenLength).1
      (.write (left, r) :: closes (s.conaccWritten writtenLength).2) := by
  have size : (initCONACC s.conn.sessionId).store.length = sizeofCONACC :=
    SessionPacket.length_store _
  rw [conaccWritten]
  split
  · rename_i failed
    refine ⟨[(left, r)], .inr ⟨rfl, rfl, .failedCONACC, s.conn.sessionId, writtenLength, sending, ?_⟩⟩
    rw [size]
    exact tcpSendPacket_eq_error failed
  · rename_i sent
    refine ⟨[(left, r)], .inl ⟨rfl, replied_receiveLoop ⟨writtenLength, sending, ?_⟩ _⟩⟩
    rw [size]
    exact not_not.mp sent

/-- A `write` for the last packet: there is more of it to send, or the descriptor is closed. -/
theorem goes_last {n : ℕ} {packet left : List UInt8} {before last : List WriteCall} {r : Write}
    (sending : Sending packet last (.blocked left)) (size : packet.length = n)
    (answers : r.Answers (.write left)) {more : List UInt8 → TCPServer}
    (replied : ∀ left' last', Sending packet last' (.blocked left') →
      (more left').Replied (before ++ last'))
    (attempted : ∀ last' ret, Attempt packet last' ret →
      ∃ replies : Replies, replies.Attempted (before ++ last')) :
    let step : TCPServer × List TCPOutput := match writenPass n left r with
      | .blocked left' => (more left', writtenBytes left r)
      | .returned _ => (s.close.1, writtenBytes left r ++ s.close.2)
    Goes (before ++ last) step.1 (.write (left, r) :: closes step.2) := by
  have sending := sending.extend answers size
  intro step
  cases pass : writenPass n left r with
  | blocked left' =>
      rw [pass] at sending
      have here : step = (more left', writtenBytes left r ++ []) := by
        simp only [step, pass, List.append_nil]
      rw [here, closes_writtenBytes]
      refine ⟨[(left, r)], .inl ⟨rfl, ?_⟩⟩
      rw [List.append_assoc]
      exact replied left' _ sending
  | returned v =>
      rw [pass] at sending
      have here : step = (s.close.1, writtenBytes left r ++ s.close.2) := by
        simp only [step, pass]
      rw [here, closes_writtenBytes]
      refine ⟨[(left, r)], .inr ⟨rfl, rfl, ?_⟩⟩
      rw [List.append_assoc]
      exact attempted _ _ ⟨v, sending, rfl⟩

/-- **A `write` with an open descriptor.** -/
theorem goes_onWrite (replied : s.Replied writes) {left : List UInt8} {r : Write}
    (blocked : s.call = .write left) (answers : r.Answers (.write left)) :
    Goes writes (s.onWrite r).1 (.write (left, r) :: closes (s.onWrite r).2) := by
  rcases call_write blocked with phase | phase | phase
  · simp only [Replied, phase] at replied
    have sending := Sending.extend replied answers (SessionPacket.length_store _)
    simp only [onWrite, phase]
    split
    · rename_i left' pass
      rw [pass] at sending
      rw [← List.append_nil (writtenBytes left r), closes_writtenBytes]
      exact ⟨[(left, r)], .inl ⟨rfl, sending⟩⟩
    · rename_i writtenLength pass
      rw [pass] at sending
      rw [closes_writtenBytes]
      exact goes_conaccWritten sending
  · simp only [Replied, phase] at replied
    obtain ⟨before, id, rjt, rfl, acknowledged, sending⟩ := replied
    simp only [onWrite, phase]
    refine goes_last (n := sizeofRJT) sending (NumberedPacket.length_store _) answers ?_ ?_
    · intro left' last' sending'
      exact ⟨before, id, last', rfl, acknowledged, sending'⟩
    · intro last' ret attempt
      exact ⟨.rejected, _, id, before, last', ret, rfl, acknowledged, attempt⟩
  · simp only [Replied, phase] at replied
    obtain ⟨before, rcvd, rfl, acknowledged, sending⟩ := replied
    simp only [onWrite, phase]
    refine goes_last (n := sizeofRCVD) sending (SessionPacket.length_store _) answers ?_ ?_
    · intro left' last' sending'
      exact ⟨before, last', rfl, acknowledged, sending'⟩
    · intro last' ret attempt
      exact ⟨.received, _, before, last', ret, rfl, acknowledged, attempt⟩

theorem uses_read (r : Read) :
    s.uses (.read r) = closes (if r.Answers s.call then (s.onRead r).2 else []) := by
  show [] ++ closes (if r.Answers s.call then s.onRead r else (s, [])).2 = _
  rw [List.nil_append]
  split <;> rfl

theorem uses_write {left : List UInt8} {r : Write} (blocked : s.call = .write left)
    (answers : r.Answers (.write left)) :
    s.uses (.write r) = .write (left, r) :: closes (s.onWrite r).2 := by
  have here : s.called (.write r) = [.write (left, r)] := by
    simp only [called, blocked, answers, if_true]
  have emits : tcpServerHandler.emit s (.write r) = (s.onWrite r).2 := by
    show (if r.Answers s.call then s.onWrite r else (s, [])).2 = _
    rw [blocked, if_pos answers]
  rw [uses, here, emits]
  rfl

theorem uses_write_silent {r : Write} (silent : ¬ r.Answers s.call) : s.uses (.write r) = [] := by
  have here : s.called (.write r) = [] := by
    simp only [called]
    split
    · rename_i left blocked
      rw [blocked] at silent
      rw [if_neg silent]
    · rfl
  have emits : tcpServerHandler.emit s (.write r) = [] := by
    show (if r.Answers s.call then s.onWrite r else (s, [])).2 = _
    rw [if_neg silent]
  rw [uses, here, emits]
  rfl

/-- `accept` is not called. -/
theorem onAccept_busy (busy : s.phase ≠ .accept) (r : Connect) : s.onAccept r = s := by
  simp only [onAccept]
  split
  · exact absurd ‹_› busy
  · exact absurd ‹_› busy
  · rfl

theorem uses_accept_busy (busy : s.phase ≠ .accept) (r : Connect) :
    s.uses (.accept r) = [] := by
  have here : s.called (.accept r) = [] := by
    cases r with
    | connected => exact if_neg busy
    | failed errno => rfl
  rw [uses, here]
  rfl

/-- **A step with an open descriptor.** -/
theorem goes_step (replied : s.Replied writes) (e : TCPServerEvent) :
    Goes writes (tcpServerHandler.next s e) (s.uses e) := by
  have busy : s.phase ≠ .accept := by
    intro phase
    simp only [Replied, phase] at replied
  cases e with
  | accept r =>
      have same : tcpServerHandler.next s (.accept r) = s := onAccept_busy busy r
      rw [uses_accept_busy busy, same]
      exact goes_on replied
  | catchInt =>
      have same : Replied { s with finish := true } writes := replied
      exact goes_on same
  | read r =>
      rw [uses_read]
      by_cases answers : r.Answers s.call
      · rw [if_pos answers, next_read answers]
        exact goes_onRead replied r
      · rw [if_neg answers, next_read_silent answers]
        exact goes_on replied
  | write r =>
      by_cases answers : r.Answers s.call
      · obtain ⟨left, blocked⟩ := Write.exists_call answers
        rw [next_write answers]
        rw [blocked] at answers
        rw [uses_write blocked answers]
        exact goes_onWrite replied blocked answers
      · rw [uses_write_silent answers, next_write_silent answers]
        exact goes_on replied

/-- The server has no connection. -/
def AtRest (s : TCPServer) : Prop := s.phase = .accept ∨ s.phase = .finished

theorem AtRest.call (rests : s.AtRest) : s.call = .closed := by
  rcases rests with phase | phase <;> rw [TCPServer.call, phase]

/-- **A step without a descriptor**: perhaps there is one after it, and nothing else is done. -/
theorem atRest_step (rests : s.AtRest) (e : TCPServerEvent) :
    s.uses e = [] ∧ (tcpServerHandler.next s e).AtRest ∨
      s.uses e = [.accepted] ∧ (tcpServerHandler.next s e).Replied [] := by
  have closed := rests.call
  cases e with
  | catchInt => exact .inl ⟨rfl, rests⟩
  | read r =>
      have silent : ¬ r.Answers s.call := by
        intro answers
        obtain ⟨n, blocked⟩ := Read.exists_call answers
        rw [closed] at blocked
        cases blocked
      rw [uses_read, if_neg silent, next_read_silent silent]
      exact .inl ⟨rfl, rests⟩
  | write r =>
      have silent : ¬ r.Answers s.call := by
        intro answers
        obtain ⟨left, blocked⟩ := Write.exists_call answers
        rw [closed] at blocked
        cases blocked
      rw [uses_write_silent silent, next_write_silent silent]
      exact .inl ⟨rfl, rests⟩
  | accept r =>
      by_cases waits : s.phase = .accept
      · cases r with
        | connected =>
            have here : s.called (.accept .connected) = [.accepted] := if_pos waits
            have next : tcpServerHandler.next s (.accept .connected) =
                { s with phase := .readCONN [], delivered := [], received := false } := by
              show s.onAccept .connected = _
              simp only [onAccept, waits]
            refine .inr ⟨?_, ?_⟩
            · rw [uses, here]
              rfl
            · rw [next]
              rfl
        | failed errno =>
            refine .inl ⟨rfl, ?_⟩
            show (s.onAccept (.failed errno)).AtRest
            simp only [onAccept, waits]
            split
            · exact .inr rfl
            · exact rests
      · have same : tcpServerHandler.next s (.accept r) = s := onAccept_busy waits r
        rw [uses_accept_busy waits, same]
        exact .inl ⟨rfl, rests⟩

end Step

/-! ### Whole runs -/

/-- The connections before were used as a whole, and the descriptor that is open was used as
the phase says. -/
def Disciplined (s : TCPServer) (seen : List Use) : Prop :=
  ∃ served : List (List WriteCall),
    (∀ writes ∈ served, ∃ replies : Replies, replies.Attempted writes) ∧
      (s.AtRest ∧ seen = (served.map connectionUses).flatten ∨
        ∃ writes : List WriteCall, s.Replied writes ∧
          seen = (served.map connectionUses).flatten ++ .accepted :: writes.map .write)

theorem disciplined_step (s : TCPServer) (seen : List Use) (e : TCPServerEvent)
    (disciplined : s.Disciplined seen) :
    (tcpServerHandler.next s e).Disciplined (seen ++ s.uses e) := by
  obtain ⟨served, whole, ⟨rests, rfl⟩ | ⟨writes, replied, rfl⟩⟩ := disciplined
  · refine ⟨served, whole, ?_⟩
    rcases atRest_step rests e with ⟨uses, rests'⟩ | ⟨uses, replied⟩
    · rw [uses, List.append_nil]
      exact .inl ⟨rests', rfl⟩
    · rw [uses]
      exact .inr ⟨[], replied, rfl⟩
  · obtain ⟨more, ⟨uses, replied'⟩ | ⟨uses, phase, replies, attempted⟩⟩ := goes_step replied e
    · refine ⟨served, whole, .inr ⟨writes ++ more, replied', ?_⟩⟩
      rw [uses, List.append_assoc, List.cons_append, ← List.map_append]
    · refine ⟨served ++ [writes ++ more], ?_, .inl ⟨.inl phase, ?_⟩⟩
      · intro writes' member
        rcases List.mem_append.mp member with earlier | last
        · exact whole writes' earlier
        · rw [List.mem_singleton.mp last]
          exact ⟨replies, attempted⟩
      · rw [uses, List.map_append, List.flatten_append, List.map_singleton,
          List.flatten_singleton, connectionUses, List.map_append]
        simp only [List.append_assoc, List.cons_append]

/-- **Every run is disciplined.** -/
theorem disciplined_after (es : List TCPServerEvent) :
    (tcpServerHandler.after .start es).Disciplined
      ((tcpServerHandler.watching uses).outputs .start es) :=
  Machine.watched disciplined_step ⟨[], nofun, .inl ⟨.inl rfl, rfl⟩⟩ es

/-- The calls of `write` on an open descriptor begin an attempt at some replies. -/
theorem Replied.completes {s : TCPServer} {writes : List WriteCall} (replied : s.Replied writes) :
    ∃ (later : List WriteCall) (replies : Replies), replies.Attempted (writes ++ later) := by
  cases phase : s.phase with
  | accept => simp only [Replied, phase] at replied
  | finished => simp only [Replied, phase] at replied
  | readCONN got =>
      simp only [Replied, phase] at replied
      exact ⟨[], .nothing, by rw [replied]; rfl⟩
  | writeCONACC left =>
      simp only [Replied, phase] at replied
      exact ⟨_, .failedCONACC, _, replied.breaksOff⟩
  | readDataInfo loc got =>
      simp only [Replied, phase] at replied
      exact ⟨_, .rejected, _, 0, writes, _, _, rfl, replied,
        (sending_start (rjt_ne_nil _ _)).breaksOff⟩
  | readData loc got =>
      simp only [Replied, phase] at replied
      exact ⟨_, .rejected, _, 0, writes, _, _, rfl, replied,
        (sending_start (rjt_ne_nil _ _)).breaksOff⟩
  | writeRJT left =>
      simp only [Replied, phase] at replied
      obtain ⟨before, id, rjt, rfl, acknowledged, sending⟩ := replied
      exact ⟨_, .rejected, _, id, before, _, _, List.append_assoc _ _ _, acknowledged,
        sending.breaksOff⟩
  | writeRCVD left =>
      simp only [Replied, phase] at replied
      obtain ⟨before, rcvd, rfl, acknowledged, sending⟩ := replied
      exact ⟨_, .received, _, before, _, _, List.append_assoc _ _ _, acknowledged,
        sending.breaksOff⟩

/-! ### The end of a connection -/

/-- Answers to the calls on a connection. The number is how many bytes can still be read. -/
def Answered (c c' : TCPServer × ℕ) : Prop :=
  (∃ r : Read, r.Answers c.1.call ∧ c'.1 = tcpServerHandler.next c.1 (.read r) ∧
      c.2 = r.bytes.length + c'.2) ∨
    ∃ r : Write, r.Answers c.1.call ∧ c'.1 = tcpServerHandler.next c.1 (.write r) ∧ c.2 = c'.2

/-- How far a connection is from its end when no more bytes arrive. -/
def rank (s : TCPServer) : ℕ :=
  match s.phase with
  | .accept => 0
  | .finished => 0
  | .writeRJT left => left.length
  | .writeRCVD left => left.length
  | .readDataInfo _ _ => 20
  | .readData _ _ => 20
  | .writeCONACC left => 20 + left.length
  | .readCONN _ => 30

section Ends

variable {s : TCPServer}

theorem rank_handleRJTSending (id : UInt64) : (s.handleRJTSending id).rank = sizeofRJT :=
  NumberedPacket.length_store _

theorem rank_receiveLoop (loc : TCPSession) : (s.receiveLoop loc).rank ≤ 20 := by
  rw [receiveLoop]
  split
  · exact le_refl 20
  · show (initRCVD s.conn.sessionId).store.length ≤ 20
    rw [SessionPacket.length_store]
    decide

theorem rank_dataRead (loc : TCPSession) (readBytes : Option ℕ) (got : List UInt8) :
    (s.dataRead loc readBytes got).rank ≤ 20 := by
  rw [dataRead]
  split
  · rw [rank_handleRJTSending]
    decide
  · exact rank_receiveLoop loc

theorem rank_dataInfoRead (loc : TCPSession) (readLength : Option ℕ) (got : List UInt8) :
    (s.dataInfoRead loc readLength got).rank ≤ 20 := by
  simp only [dataInfoRead]
  split
  · rw [rank_handleRJTSending]
    decide
  split
  · rw [rank_handleRJTSending]
    decide
  split
  · exact le_refl 20
  · exact rank_dataRead _ _ _

theorem rank_connRead (readLength : Option ℕ) (got : List UInt8) :
    (s.connRead readLength got).1.rank < 30 := by
  rw [connRead]
  split
  · exact Nat.succ_pos 29
  · show 20 + (initCONACC _).store.length < 30
    rw [SessionPacket.length_store]
    decide

theorem rank_conaccWritten (writtenLength : Option ℕ) :
    (s.conaccWritten writtenLength).1.rank ≤ 20 := by
  rw [conaccWritten]
  split
  · exact Nat.zero_le 20
  · exact rank_receiveLoop _

/-- A `read` goes back to the `CONN` at most. -/
theorem rank_onRead {n : ℕ} (blocked : s.call = .read n) (r : Read) :
    20 ≤ s.rank ∧ (s.onRead r).1.rank ≤ 30 := by
  have loop : 20 ≤ 30 := Nat.le_add_right 20 10
  rcases call_read blocked with ⟨got, phase, -⟩ | ⟨loc, got, phase, -⟩ | ⟨loc, got, phase, -⟩
  · refine ⟨by simp only [rank, phase]; exact loop, ?_⟩
    simp only [onRead, phase]
    split
    · exact le_refl 30
    · exact (rank_connRead _ _).le
  · refine ⟨by rw [rank, phase], ?_⟩
    simp only [onRead, phase]
    split
    · exact loop
    · exact (rank_dataInfoRead _ _ _).trans loop
  · refine ⟨by rw [rank, phase], ?_⟩
    simp only [onRead, phase]
    split
    · exact loop
    · exact (rank_dataRead _ _ _).trans loop

/-- **A `read` that brings nothing comes nearer to the end.** -/
theorem rank_read_ended {n : ℕ} (proper : s.Proper) (blocked : s.call = .read n) {r : Read}
    (ended : r.Ended) : (s.onRead r).1.rank < s.rank := by
  have rejected : sizeofRJT < 20 := by decide
  rcases call_read blocked with ⟨got, phase, -⟩ | ⟨loc, got, phase, -⟩ | ⟨loc, got, phase, -⟩
  · obtain ⟨length, pass, -⟩ := readnPass_ended sizeofCONN got ended
    simp only [onRead, phase, pass]
    simp only [rank, phase]
    exact rank_connRead _ _
  · obtain ⟨length, pass, partly⟩ := readnPass_ended sizeofDataInfo got ended
    simp only [Proper, phase] at proper
    obtain ⟨info, short⟩ := s.dataInfoRead_short loc got
      fun k (equal : length = some k) => (partly k equal).symm ▸ proper.1
    simp only [onRead, phase, pass, short, rank_handleRJTSending]
    simp only [rank, phase]
    exact rejected
  · obtain ⟨length, pass, partly⟩ := readnPass_ended
      s.dataMetainfo.nbrOfBytesInPacket.toNat got ended
    simp only [Proper, phase] at proper
    have short := s.dataRead_short loc got
      fun k (equal : length = some k) => (partly k equal).symm ▸ proper.1
    simp only [onRead, phase, pass, short, rank_handleRJTSending]
    simp only [rank, phase]
    exact rejected

theorem writenPass_shorter {n : ℕ} {left left' : List UInt8} {r : Write}
    (pass : writenPass n left r = .blocked left') : left'.length < left.length := by
  cases r with
  | failed errno => cases pass
  | wrote k =>
      simp only [writenPass, writenLoop] at pass
      split at pass
      · cases pass
      split at pass
      · rename_i positive more
        cases pass
        rw [List.length_drop] at more ⊢
        omega
      · cases pass

/-- While a packet is sent, a `write` comes nearer to what is behind it. -/
theorem rank_writing {n base : ℕ} {left : List UInt8} (waits : left ≠ []) (r : Write)
    {more : List UInt8 → TCPServer × List TCPOutput}
    {behind : Option ℕ → TCPServer × List TCPOutput}
    (more_rank : ∀ left', (more left').1.rank = base + left'.length)
    (behind_rank : ∀ v, (behind v).1.rank ≤ base) :
    (match writenPass n left r with
      | .blocked left' => more left'
      | .returned v => behind v).1.rank < base + left.length := by
  cases pass : writenPass n left r with
  | blocked left' =>
      have shorter := writenPass_shorter pass
      have rank := more_rank left'
      show (more left').1.rank < _
      omega
  | returned v =>
      have positive := List.length_pos_iff.mpr waits
      have rank := behind_rank v
      show (behind v).1.rank < _
      omega

/-- **A `write` comes nearer to the end.** -/
theorem rank_onWrite (proper : s.Proper) {left : List UInt8} (blocked : s.call = .write left)
    (r : Write) : (s.onWrite r).1.rank < s.rank := by
  rcases call_write blocked with phase | phase | phase
  · simp only [Proper, phase] at proper
    have here : s.rank = 20 + left.length := by simp only [rank, phase]
    rw [here]
    simp only [onWrite, phase]
    exact rank_writing proper.1 r (fun left' => rfl) fun v => rank_conaccWritten v
  · simp only [Proper, phase] at proper
    have here : s.rank = 0 + left.length := by simp only [rank, phase, Nat.zero_add]
    rw [here]
    simp only [onWrite, phase]
    exact rank_writing proper.1 r (fun left' => (Nat.zero_add _).symm) fun v => Nat.le_refl 0
  · simp only [Proper, phase] at proper
    have here : s.rank = 0 + left.length := by simp only [rank, phase, Nat.zero_add]
    rw [here]
    simp only [onWrite, phase]
    exact rank_writing proper.1 r (fun left' => (Nat.zero_add _).symm) fun v => Nat.le_refl 0

/-! ### Every state is proper -/

theorem proper_onRead (proper : s.Proper) {r : Read} (answers : r.Answers s.call) :
    (s.onRead r).1.Proper := by
  obtain ⟨n, blocked⟩ := Read.exists_call answers
  by_cases ended : r.Ended
  · exact (read_ended proper blocked ended).1
  cases r with
  | failed errno => exact absurd trivial ended
  | data bytes =>
      rw [blocked] at answers
      exact (read_keeps proper blocked ended answers : _ ∧ _ = s.outcome (bytes ++ [])).1

theorem proper_onWrite (proper : s.Proper) {r : Write} (answers : r.Answers s.call) :
    (s.onWrite r).1.Proper := by
  obtain ⟨left, blocked⟩ := Write.exists_call answers
  by_cases moves : ∃ k, r = .wrote k ∧ 0 < k
  · obtain ⟨k, rfl, positive⟩ := moves
    rw [blocked] at answers
    obtain ⟨-, o, -, kept⟩ := write_keeps proper blocked []
    exact (kept k positive answers).1
  · have stopped : ∃ v, (∀ n, writenPass n left r = .returned v) ∧
        tcpSendPacket v sizeofCONACC ≠ .SUCCESS := by
      cases r with
      | failed errno => exact ⟨none, fun _ => rfl, by decide⟩
      | wrote k =>
          have zero : k = 0 := by
            by_contra other
            exact moves ⟨k, rfl, Nat.pos_of_ne_zero other⟩
          subst zero
          exact ⟨some 0, fun _ => rfl, by decide⟩
    obtain ⟨v, pass, failed⟩ := stopped
    rcases call_write blocked with phase | phase | phase
    · simp only [onWrite, phase, pass, conaccWritten, failed, ne_eq, not_false_eq_true, if_true]
      trivial
    · simp only [onWrite, phase, pass]
      trivial
    · simp only [onWrite, phase, pass]
      trivial

/-- **Every state is proper**, until the server returns. -/
theorem proper_after (es : List TCPServerEvent) :
    (tcpServerHandler.after .start es).phase = .finished ∨
      (tcpServerHandler.after .start es).Proper := by
  refine Machine.invariant_after
    (I := fun s : TCPServer => s.phase = .finished ∨ s.Proper) ?_ (Or.inr ?_) es
  swap
  · show True
    trivial
  intro s e held
  rcases held with finished | proper
  · exact .inl (finished_stays finished).2
  cases e with
  | catchInt => exact .inr proper
  | read r =>
      by_cases answers : r.Answers s.call
      · rw [next_read answers]
        exact .inr (proper_onRead proper answers)
      · rw [next_read_silent answers]
        exact .inr proper
  | write r =>
      by_cases answers : r.Answers s.call
      · rw [next_write answers]
        exact .inr (proper_onWrite proper answers)
      · rw [next_write_silent answers]
        exact .inr proper
  | accept r =>
      show (s.onAccept r).phase = .finished ∨ (s.onAccept r).Proper
      by_cases waits : s.phase = .accept
      · cases r with
        | connected =>
            simp only [onAccept, waits]
            exact .inr ⟨by decide, rfl⟩
        | failed errno =>
            simp only [onAccept, waits]
            split
            · exact .inl rfl
            · exact .inr proper
      · rw [onAccept_busy waits]
        exact .inr proper

/-- **The descriptor comes to be closed**, however the calls are answered, if only so many
bytes can be read. -/
theorem closes_eventually (proper : s.Proper) (unread : ℕ) :
    Inevitable Answered (fun c => c.1.phase = .accept) (s, unread) := by
  refine Inevitable.of_measure (I := fun c => c.1.Proper) (fun c => 30 * c.2 + c.1.rank) ?_ ?_ proper
  · rintro ⟨s, unread⟩ proper busy
    cases blocked : s.call with
    | closed =>
        rcases call_closed blocked with phase | phase
        · exact absurd phase busy
        · simp only [Proper, phase] at proper
    | read n =>
        refine ⟨(_, unread), .inl ⟨.failed .EINTR, ?_, rfl, (Nat.zero_add unread).symm⟩⟩
        rw [blocked]
        trivial
    | write left =>
        refine ⟨(_, unread), .inr ⟨.failed .EINTR, ?_, rfl, rfl⟩⟩
        rw [blocked]
        trivial
  · rintro ⟨s, unread⟩ ⟨s', unread'⟩ proper - (⟨r, answers, rfl, taken⟩ | ⟨r, answers, rfl, same⟩)
    · obtain ⟨n, blocked⟩ := Read.exists_call answers
      simp only at taken ⊢
      rw [next_read answers]
      refine ⟨proper_onRead proper answers, ?_⟩
      show 30 * unread' + (s.onRead r).1.rank < 30 * unread + s.rank
      by_cases ended : r.Ended
      · have nearer : (s.onRead r).1.rank < s.rank := rank_read_ended proper blocked ended
        omega
      · have some' : 0 < r.bytes.length := by
          cases r with
          | failed errno => exact absurd trivial ended
          | data bytes => exact List.length_pos_iff.mpr ended
        obtain ⟨far, near⟩ : 20 ≤ s.rank ∧ (s.onRead r).1.rank ≤ 30 := rank_onRead blocked r
        omega
    · obtain ⟨left, blocked⟩ := Write.exists_call answers
      simp only at same ⊢
      rw [next_write answers]
      have nearer : (s.onWrite r).1.rank < s.rank := rank_onWrite proper blocked r
      refine ⟨proper_onWrite proper answers, ?_⟩
      show 30 * unread' + (s.onWrite r).1.rank < 30 * unread + s.rank
      omega

end Ends

end TCPServer

/-- **The discipline of the TCP server**, after any run. Each earlier connection was accepted,
then had its replies attempted, which were of exactly one kind, and was then closed, once.
At most one connection is open. It has been accepted last, the calls of `write` on it begin an
attempt at some replies, and it comes to be closed once the client sends no more. -/
theorem tcp_connection_discipline (es : List TCPServerEvent) :
    let s := tcpServerHandler.after .start es
    let seen := (tcpServerHandler.watching TCPServer.uses).outputs .start es
    ∃ served : List (List WriteCall),
      (∀ writes ∈ served, ∃! replies : Replies, replies.Attempted writes) ∧
      ((s.phase = .accept ∨ s.phase = .finished) ∧ seen = (served.map connectionUses).flatten ∨
        s.phase ≠ .accept ∧ s.phase ≠ .finished ∧
          (∃ writes : List WriteCall,
            seen = (served.map connectionUses).flatten ++ .accepted :: writes.map .write ∧
            ∃ (later : List WriteCall) (replies : Replies),
              replies.Attempted (writes ++ later)) ∧
          ∀ unread : ℕ,
            Inevitable TCPServer.Answered (fun c => c.1.phase = .accept) (s, unread)) := by
  intro s seen
  obtain ⟨served, whole, open'⟩ := TCPServer.disciplined_after es
  refine ⟨served, ?_, ?_⟩
  · intro writes member
    obtain ⟨replies, attempted⟩ := whole writes member
    exact ⟨replies, attempted, fun _ other => other.unique attempted⟩
  · rcases open' with rests | ⟨writes, replied, uses⟩
    · exact .inl rests
    · have busy : s.phase ≠ .accept := by
        intro phase
        rw [TCPServer.Replied, phase] at replied
        exact replied
      have running : s.phase ≠ .finished := by
        intro phase
        rw [TCPServer.Replied, phase] at replied
        exact replied
      have proper := (TCPServer.proper_after es).resolve_left running
      exact .inr ⟨busy, running, ⟨writes, uses, replied.completes⟩,
        TCPServer.closes_eventually proper⟩

end Ppcb
