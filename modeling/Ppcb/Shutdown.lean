import Ppcb.ReplyDestination
import Ppcb.ReceiversAgree

/-!
# `SIGINT`

The handler of `SIGINT` sets a flag, and the servers look at it only where the wait for a
connection has failed. A server opens no more sessions exactly when it has returned
(`Machine.forever_iff`), and it returns for a signal exactly when that interrupts the wait for
a connection (`no_session_after_sigint_iff`).
-/

set_option autoImplicit false

namespace Ppcb

open ByteOrder CString Reactive

/-! ## The UDP server -/

namespace UDPServer

/-- The step accepts a connection: `CONACC` is sent for a new session. -/
def Opens (s : UDPServer) (e : ServerEvent) : Prop :=
  ∃ reply ∈ udpServerHandler.emit s e, reply.origin = .serverHandler ∧
    ∃ sessionId, reply.bytes = (initCONACC sessionId).store

/-- The wait for a connection comes back without a datagram, or with an empty one. -/
def WaitFails : ServerEvent → Prop
  | .recvfrom (.failed _) _ _ => True
  | .recvfrom (.datagram _ bytes) _ _ => bytes = []
  | .catchInt => False

variable {s : UDPServer} {e : ServerEvent}

/-- A server that has returned stays away. -/
theorem finished_stays (finished : s.mode = .finished) :
    udpServerHandler.emit s e = [] ∧ (udpServerHandler.next s e).mode = .finished := by
  cases e with
  | catchInt => exact ⟨rfl, finished⟩
  | recvfrom r uninit conacc =>
      simp only [Machine.emit, Machine.next, udpServerHandler, step, finished, and_self]

theorem afterUDP_running (s : UDPServer) (receiving : Receiving UDPSession) :
    (s.afterUDP receiving).mode ≠ .finished := by
  rw [afterUDP]
  split <;> exact ServerMode.noConfusion

theorem afterUDPR_running (s : UDPServer) (receiving : Receiving UDPRSession) :
    (s.afterUDPR receiving).mode ≠ .finished := by
  rw [afterUDPR]
  split <;> exact ServerMode.noConfusion

/-- A session is opened, or none is because it is over at once. -/
theorem openSession_running (idle : s.mode = .idle) (conn : CONN) (client : SockAddr) :
    (s.openSession conn client).1.mode ≠ .finished := by
  rw [openSession]
  split
  · exact afterUDP_running s _
  split
  · exact afterUDPR_running s _
  · rw [idle]
    exact ServerMode.noConfusion

/-- **The flag counts where the wait for a connection fails.** -/
theorem onIdle_finished_iff (idle : s.mode = .idle) (flag : s.finish = true) (r : RecvFrom)
    (uninit : ServerUninit) (conacc : SendTo) :
    (s.onIdle r uninit conacc).1.mode = .finished ↔ WaitFails (.recvfrom r uninit conacc) := by
  have running : s.mode ≠ .finished := by
    rw [idle]
    exact ServerMode.noConfusion
  cases r with
  | failed errno =>
      simp only [onIdle, readDataToBuffer]
      by_cases timeout : errno = .EAGAIN
      · simp only [timeout, if_true, flag, WaitFails]
      · simp only [timeout, if_false, flag, if_true, WaitFails]
  | datagram src bytes =>
      have empty_iff : (bytes.take receiveBufforSize).length = 0 ↔ bytes = [] := by
        rw [List.length_eq_zero_iff, List.take_eq_nil_iff]
        exact or_iff_right (by decide)
      simp only [onIdle, readDataToBuffer, Option.getD_none, ne_eq, not_true_eq_false, or_self,
        if_false]
      by_cases empty : bytes = []
      · simp only [empty, List.take_nil, List.length_nil, if_true, flag, WaitFails]
      · have nonempty : ¬ (bytes.take receiveBufforSize).length = 0 := mt empty_iff.mp empty
        simp only [nonempty, if_false, WaitFails, empty, iff_false]
        split
        · exact running
        split
        · exact running
        · exact openSession_running idle _ _

/-- A step after the signal stops the server exactly when it is a wait for a connection that
fails. -/
theorem next_finished_iff (flag : s.finish = true) :
    (udpServerHandler.next s e).mode = .finished ↔
      s.mode = .finished ∨ s.mode = .idle ∧ WaitFails e := by
  cases mode : s.mode with
  | finished => exact iff_of_true (finished_stays mode).2 (.inl rfl)
  | idle =>
      have still : ServerMode.idle ≠ .finished := ServerMode.noConfusion
      rw [or_iff_right still, and_iff_right rfl]
      cases e with
      | catchInt => exact iff_of_false (mode ▸ still) id
      | recvfrom r uninit conacc =>
          simp only [Machine.next, udpServerHandler, step, mode]
          exact onIdle_finished_iff mode flag r uninit conacc
  | udp session =>
      refine iff_of_false ?_ (by rintro (mode | ⟨mode, -⟩) <;> cases mode)
      cases e with
      | catchInt => exact mode ▸ ServerMode.noConfusion
      | recvfrom r uninit conacc =>
          simp only [Machine.next, udpServerHandler, step, mode]
          exact afterUDP_running s _
  | udpr session =>
      refine iff_of_false ?_ (by rintro (mode | ⟨mode, -⟩) <;> cases mode)
      cases e with
      | catchInt => exact mode ▸ ServerMode.noConfusion
      | recvfrom r uninit conacc =>
          simp only [Machine.next, udpServerHandler, step, mode]
          exact afterUDPR_running s _

/-- An idle server opens a session, whatever the flag says. -/
theorem idle_opens (idle : s.mode = .idle) (client : SockAddr) (sessionId total : UInt64)
    (uninit : ServerUninit) : s.Opens (correctCONN client sessionId udpProtocol total uninit) := by
  refine ⟨sendCONACC .serverHandler client sessionId, ?_, rfl, sessionId, rfl⟩
  simp only [Machine.emit, udpServerHandler, step, correctCONN, idle]
  rw [s.onIdle_conn client uninit sessionId total (.inl rfl)]
  exact List.mem_cons_self

theorem interrupted_opens
    (idle : (udpServerHandler.next s (.recvfrom (.failed .EINTR) .zero .sent)).mode = .idle) :
    ∃ es, ¬ udpServerHandler.Along (fun s e => ¬ s.Opens e) s es := by
  refine ⟨[.recvfrom (.failed .EINTR) .zero .sent, correctCONN ⟨0, 0⟩ 0 udpProtocol 1 .zero], ?_⟩
  rintro ⟨-, closed, -⟩
  exact closed (idle_opens idle _ _ _ _)

/-- **A server that has not returned can open a session**, when the one that is active is
interrupted. -/
theorem running_opens (running : s.mode ≠ .finished) :
    ∃ es, ¬ udpServerHandler.Along (fun s e => ¬ s.Opens e) s es := by
  cases mode : s.mode with
  | finished => exact absurd mode running
  | idle =>
      refine ⟨[correctCONN ⟨0, 0⟩ 0 udpProtocol 1 .zero], ?_⟩
      rintro ⟨closed, -⟩
      exact closed (idle_opens mode _ _ _ _)
  | udp session =>
      apply interrupted_opens
      simp only [Machine.next, udpServerHandler, step, mode]
      rfl
  | udpr session =>
      apply interrupted_opens
      simp only [Machine.next, udpServerHandler, step, mode]
      rfl

/-- A wait that fails is not answered. -/
theorem waitFails_silent (idle : s.mode = .idle) (fails : WaitFails e) :
    udpServerHandler.emit s e = [] := by
  cases e with
  | catchInt => rfl
  | recvfrom r uninit conacc =>
      simp only [Machine.emit, udpServerHandler, step, idle, onIdle]
      cases r with
      | failed errno =>
          simp only [readDataToBuffer]
          by_cases timeout : errno = .EAGAIN
          · simp only [timeout, if_true]
            split <;> rfl
          · simp only [timeout, if_false]
            split <;> rfl
      | datagram src bytes =>
          have empty : bytes = [] := fails
          simp only [readDataToBuffer, empty, List.take_nil, List.length_nil, Option.getD_none,
            ne_eq, not_true_eq_false, or_self, if_false, if_true]
          split <;> rfl

/-- After the signal no session is opened, whatever happens, exactly when the server has
returned. -/
theorem closed_iff (s : UDPServer) :
    (∀ es, udpServerHandler.Along (fun s e => ¬ s.Opens e) s es) ↔ s.mode = .finished := by
  refine Machine.forever_iff (P := fun s => s.mode = .finished) ?_ ?_ s
  · intro s e finished
    obtain ⟨silent, finished'⟩ := finished_stays finished
    refine ⟨?_, finished'⟩
    rintro ⟨reply, member, -⟩
    rw [silent] at member
    cases member
  · intro s running
    exact running_opens running

/-- **One step later** the server is closed exactly when that step is a wait for a connection
that fails. -/
theorem closed_step_iff (flag : s.finish = true) :
    (∀ es, udpServerHandler.Along (fun s e => ¬ s.Opens e) s (e :: es)) ↔
      s.mode = .finished ∨ s.mode = .idle ∧ WaitFails e := by
  rw [← next_finished_iff flag, ← closed_iff]
  constructor
  · intro closed es
    exact (closed es).2
  · intro closed es
    refine ⟨?_, closed es⟩
    rintro ⟨reply, member, -⟩
    have silent : udpServerHandler.emit s e = [] := by
      rcases (next_finished_iff flag).mp ((closed_iff _).mp closed) with mode | ⟨idle, fails⟩
      · exact (finished_stays mode).1
      · exact waitFails_silent idle fails
    rw [silent] at member
    cases member

end UDPServer

/-! ## The TCP server -/

namespace TCPServer

/-- The step accepts a connection, or is a `write` of `CONACC`. -/
def Opens (s : TCPServer) (e : TCPServerEvent) : Prop :=
  s.phase = .accept ∧ e = .accept .connected ∨
    ∃ left r, s.phase = .writeCONACC left ∧ e = .write r

/-- `accept` fails. -/
def AcceptFails : TCPServerEvent → Prop
  | .accept (.failed _) => True
  | _ => False

variable {s : TCPServer} {e : TCPServerEvent}

/-- A server that has returned stays away. -/
theorem finished_stays (finished : s.phase = .finished) :
    ¬ s.Opens e ∧ (tcpServerHandler.next s e).phase = .finished := by
  refine ⟨?_, ?_⟩
  · rintro (⟨phase, -⟩ | ⟨left, r, phase, -⟩)
    · rw [finished] at phase
      cases phase
    · rw [finished] at phase
      cases phase
  · cases e with
    | accept r => simp only [Machine.next, tcpServerHandler, step, onAccept, finished]
    | read r =>
        have silent : ¬ r.Answers s.call := by
          rw [call, finished]
          cases r <;> exact id
        rw [next_read_silent silent, finished]
    | write r =>
        have silent : ¬ r.Answers s.call := by
          rw [call, finished]
          cases r <;> exact id
        rw [next_write_silent silent, finished]
    | catchInt => exact finished

theorem onRead_running (running : s.phase ≠ .finished) (r : Read) :
    (s.onRead r).1.phase ≠ .finished := by
  rw [onRead]
  split
  · split
    · exact TCPServerPhase.noConfusion
    · rcases phase_connRead s _ _ with phase | ⟨left, phase⟩
      · exact phase ▸ TCPServerPhase.noConfusion
      · exact phase ▸ TCPServerPhase.noConfusion
  · split
    · exact TCPServerPhase.noConfusion
    · exact (serving_dataInfoRead s _ _ _).ne_finished
  · split
    · exact TCPServerPhase.noConfusion
    · exact (serving_dataRead s _ _ _).ne_finished
  · exact running

theorem onWrite_running (running : s.phase ≠ .finished) (r : Write) :
    (s.onWrite r).1.phase ≠ .finished := by
  rw [onWrite]
  split
  · split
    · exact TCPServerPhase.noConfusion
    · rcases phase_conaccWritten s _ with phase | serving
      · exact phase ▸ TCPServerPhase.noConfusion
      · exact serving.ne_finished
  · split <;> exact TCPServerPhase.noConfusion
  · split <;> exact TCPServerPhase.noConfusion
  · exact running

/-- A step after the signal stops the server exactly when it is an `accept` that fails. -/
theorem next_finished_iff (flag : s.finish = true) :
    (tcpServerHandler.next s e).phase = .finished ↔
      s.phase = .finished ∨ s.phase = .accept ∧ AcceptFails e := by
  by_cases finished : s.phase = .finished
  · exact iff_of_true (finished_stays finished).2 (.inl finished)
  rw [or_iff_right finished]
  cases e with
  | catchInt => exact iff_of_false finished fun fails => fails.2
  | read r =>
      refine iff_of_false ?_ fun fails => fails.2
      by_cases answers : r.Answers s.call
      · rw [next_read answers]
        exact onRead_running finished r
      · rwa [next_read_silent answers]
  | write r =>
      refine iff_of_false ?_ fun fails => fails.2
      by_cases answers : r.Answers s.call
      · rw [next_write answers]
        exact onWrite_running finished r
      · rwa [next_write_silent answers]
  | accept r =>
      by_cases waits : s.phase = .accept
      swap
      · refine iff_of_false ?_ fun fails => waits fails.1
        show (s.onAccept r).phase ≠ .finished
        simp only [onAccept]
        split
        · exact absurd ‹_› waits
        · exact absurd ‹_› waits
        · exact finished
      · show (s.onAccept r).phase = .finished ↔ _
        cases r with
        | connected =>
            simp only [onAccept, waits]
            exact iff_of_false TCPServerPhase.noConfusion fun fails => fails.2
        | failed errno =>
            simp only [onAccept, waits, flag, if_true]
            exact iff_of_true trivial ⟨trivial, trivial⟩

/-- A `write` that fails ends the connection. -/
theorem write_fails {left : List UInt8} (blocked : s.call = .write left) :
    (tcpServerHandler.next s (.write (.failed .EINTR))).phase = .accept := by
  have answers : (Write.failed .EINTR).Answers s.call := by
    rw [blocked]
    trivial
  rw [next_write answers]
  rcases call_write blocked with phase | phase | phase <;>
    simp only [onWrite, phase, writenPass] <;> rfl

/-- A `read` that fails ends the connection, or leads to an `RJT`. -/
theorem read_fails {n : ℕ} (blocked : s.call = .read n) :
    (tcpServerHandler.next s (.read (.failed .EINTR))).phase = .accept ∨
      ∃ left, (tcpServerHandler.next s (.read (.failed .EINTR))).call = .write left := by
  have answers : (Read.failed .EINTR).Answers s.call := by
    rw [blocked]
    trivial
  have short : ∀ k n : ℕ, (none : Option ℕ) = some n → n < k := fun _ _ impossible => by
    cases impossible
  rw [next_read answers]
  rcases call_read blocked with ⟨got, phase, -⟩ | ⟨loc, got, phase, -⟩ | ⟨loc, got, phase, -⟩
  · obtain ⟨conn, closed⟩ := s.connRead_short got (short _)
    refine .inl ?_
    simp only [onRead, phase, readnPass, closed]
    rfl
  · obtain ⟨info, rejected⟩ := s.dataInfoRead_short loc got (short _)
    refine .inr ⟨(initRJT s.conn.sessionId loc.currPacketId).store, ?_⟩
    simp only [onRead, phase, readnPass, rejected]
    rfl
  · have rejected := s.dataRead_short loc got (short _)
    refine .inr ⟨(initRJT s.conn.sessionId loc.currPacketId).store, ?_⟩
    simp only [onRead, phase, readnPass, rejected]
    rfl

/-- **A server that has not returned can accept a connection**, when the calls it is at fail. -/
theorem running_opens (running : s.phase ≠ .finished) :
    ∃ es, ¬ tcpServerHandler.Along (fun s e => ¬ s.Opens e) s es := by
  have writes : ∀ s : TCPServer, ∀ left, s.call = .write left →
      ¬ tcpServerHandler.Along (fun s e => ¬ s.Opens e) s
        [.write (.failed .EINTR), .accept .connected] := by
    rintro s left blocked ⟨-, closed, -⟩
    exact closed (.inl ⟨write_fails blocked, rfl⟩)
  cases blocked : s.call with
  | closed =>
      refine ⟨[.accept .connected], ?_⟩
      rintro ⟨closed, -⟩
      exact closed (.inl ⟨(call_closed blocked).resolve_right running, rfl⟩)
  | write left => exact ⟨_, writes s left blocked⟩
  | read n =>
      rcases read_fails blocked with accepts | ⟨left, blocked'⟩
      · refine ⟨[.read (.failed .EINTR), .accept .connected], ?_⟩
        rintro ⟨-, closed, -⟩
        exact closed (.inl ⟨accepts, rfl⟩)
      · refine ⟨[.read (.failed .EINTR), .write (.failed .EINTR), .accept .connected], ?_⟩
        rintro ⟨-, later⟩
        exact writes _ left blocked' later

theorem closed_iff (s : TCPServer) :
    (∀ es, tcpServerHandler.Along (fun s e => ¬ s.Opens e) s es) ↔ s.phase = .finished :=
  Machine.forever_iff (P := fun s => s.phase = .finished) (fun _ _ => finished_stays)
    (fun _ => running_opens) s

theorem closed_step_iff (flag : s.finish = true) :
    (∀ es, tcpServerHandler.Along (fun s e => ¬ s.Opens e) s (e :: es)) ↔
      s.phase = .finished ∨ s.phase = .accept ∧ AcceptFails e := by
  rw [← next_finished_iff flag, ← closed_iff]
  constructor
  · intro closed es
    exact (closed es).2
  · intro closed es
    refine ⟨?_, closed es⟩
    rcases (next_finished_iff flag).mp ((closed_iff _).mp closed) with finished | ⟨waits, fails⟩
    · exact (finished_stays finished).1
    · rintro (⟨-, rfl⟩ | ⟨left, r, phase, -⟩)
      · exact fails
      · rw [waits] at phase
        cases phase

end TCPServer

/-! ## Both servers -/

/-- **No session after `SIGINT`**, whatever happens later, exactly when the signal finds the
server waiting for a connection and this wait fails, or the server has returned before. Then
the server has returned. -/
theorem no_session_after_sigint_iff (before : List ServerEvent) (answer : ServerEvent)
    (tcpBefore : List TCPServerEvent) (tcpAnswer : TCPServerEvent) :
    let s := udpServerHandler.next (udpServerHandler.after .start before) .catchInt
    let t := tcpServerHandler.next (tcpServerHandler.after .start tcpBefore) .catchInt
    ((∀ later, udpServerHandler.Along (fun s e => ¬ s.Opens e) s (answer :: later)) ↔
        s.mode = .finished ∨ s.mode = .idle ∧ UDPServer.WaitFails answer) ∧
      ((∀ later, udpServerHandler.Along (fun s e => ¬ s.Opens e) s (answer :: later)) ↔
        (udpServerHandler.next s answer).mode = .finished) ∧
      ((∀ later, tcpServerHandler.Along (fun s e => ¬ s.Opens e) t (tcpAnswer :: later)) ↔
        t.phase = .finished ∨ t.phase = .accept ∧ TCPServer.AcceptFails tcpAnswer) ∧
      ((∀ later, tcpServerHandler.Along (fun s e => ¬ s.Opens e) t (tcpAnswer :: later)) ↔
        (tcpServerHandler.next t tcpAnswer).phase = .finished) := by
  intro s t
  have flag : s.finish = true := rfl
  have tcpFlag : t.finish = true := rfl
  have udp := UDPServer.closed_step_iff (e := answer) flag
  have tcp := TCPServer.closed_step_iff (e := tcpAnswer) tcpFlag
  exact ⟨udp, udp.trans (UDPServer.next_finished_iff flag).symm, tcp,
    tcp.trans (TCPServer.next_finished_iff tcpFlag).symm⟩

/-- The signal interrupts a session, and the next client is served. -/
theorem session_after_sigint :
    (¬ ∀ later, udpServerHandler.Along (fun s e => ¬ s.Opens e)
      (udpServerHandler.next
        (udpServerHandler.after .start [correctCONN ⟨2, 2⟩ 7 udprProtocol 1 .zero]) .catchInt)
      (.recvfrom (.failed .EINTR) .zero .sent :: later)) ∧
    ¬ ∀ later, tcpServerHandler.Along (fun s e => ¬ s.Opens e)
      (tcpServerHandler.next (tcpServerHandler.after .start [.accept .connected]) .catchInt)
      (.read (.failed .EINTR) :: later) := by
  refine ⟨?_, ?_⟩
  · intro closed
    obtain ⟨-, closed', -⟩ := closed [correctCONN ⟨3, 3⟩ 8 udpProtocol 1 .zero]
    exact closed' (UDPServer.idle_opens rfl _ _ _ _)
  · intro closed
    obtain ⟨-, closed', -⟩ := closed [.accept .connected]
    exact closed' (.inl ⟨rfl, rfl⟩)

end Ppcb
