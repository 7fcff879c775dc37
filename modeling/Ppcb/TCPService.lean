import Ppcb.Lib.Queue
import Ppcb.TCPAgreement

/-!
# The TCP server serves one client after the other, and survives those that are killed

The clients wait in a queue. The server accepts one, and when the connection is closed it accepts
the next (`tcpService`). While both are there no call fails. Once the server has closed the
connection and left bytes unread, as it does if the last packet is not full, the pending call of
the client may fail (`TCPJob.ConnectionStep`). And a client can be killed at any time; then some of
what it has written may still come, any `read` may find the end of the stream or fail, and any
`write` may take something or fail. The server closes such a connection after finitely many calls
(`TCPJob.Visit.gone_inevitable`).

Whatever was served before, the queue comes to its end, every client that is not killed has its
vector delivered and ends in success, or with an error if its last packet is not full, and of one
that was killed the server has delivered first payloads, or all of them if it has confirmed the
transfer (`tcp_service_serves_all`).
-/

set_option autoImplicit false

namespace Ppcb

open ByteOrder CString Reactive Relation

/-- A client that wants to send its vector, in a process with this memory. -/
structure TCPJob where
  args : ClientArgs
  uninit : TCPClientUninit

/-- The client has connected to the server. -/
def openConnection (job : TCPJob) (server : TCPServer) : Connected TCPClient TCPServer UInt8 where
  left := (tcpClientHandler job.args).next (.start job.uninit) (.connect .connected)
  right := tcpServerHandler.next server (.accept .connected)
  fromLeft := []
  fromRight := []
  toRight := []
  toLeft := []

/-! ## The server between two connections -/

namespace TCPService

/-- The server has got here by a run. -/
def HasRun (s : TCPServer) : Prop := ∃ history, s = tcpServerHandler.after .start history

theorem HasRun.next {s : TCPServer} (run : HasRun s) (e : TCPServerEvent) :
    HasRun (tcpServerHandler.next s e) := by
  obtain ⟨history, rfl⟩ := run
  refine ⟨history ++ [e], ?_⟩
  generalize TCPServer.start = s
  induction history generalizing s with
  | nil => rfl
  | cons first history ih => exact ih _

/-- A server that can accept. -/
def Ready (s : TCPServer) : Prop := HasRun s ∧ s.phase = .accept

end TCPService

/-! ## Calls of the client that fail -/

/-- A `read` or a `write` that fails. -/
def TCPClientEvent.Fails : TCPClientEvent → Prop
  | .read (.failed _) => True
  | .write (.failed _) => True
  | _ => False

namespace TCPClient

variable {args : ClientArgs} {s : TCPClient} {e : TCPClientEvent}

theorem call_of_fails (may : tcpClientPort.may s e) (fails : e.Fails) :
    (∃ n, s.call = .read n) ∨ ∃ left, s.call = .write left := by
  cases e with
  | connect r => exact fails.elim
  | read r => exact .inl (Read.exists_call may)
  | write r => exact .inr (Write.exists_call may)

theorem call_ended {ret : RetVal} (phase : s.phase = .ended ret) : s.call = .closed := by
  rw [call, phase]

/-- **A client whose call fails ends with an error.** -/
theorem ended_of_fails (may : tcpClientPort.may s e) (fails : e.Fails) :
    ((tcpClientHandler args).next s e).phase = .ended .ERROR := by
  cases e with
  | connect r => exact fails.elim
  | read r =>
      cases r with
      | data bytes => exact fails.elim
      | failed errno =>
          obtain ⟨n, blocked⟩ := Read.exists_call may
          have next : (tcpClientHandler args).next s (.read (.failed errno)) =
              s.onRead args (.failed errno) := congrArg Prod.fst (if_pos may)
          rw [next]
          cases phase : s.phase with
          | readCONACC got =>
              rw [onRead, phase]
              rfl
          | readRCVD got =>
              rw [onRead, phase]
              rfl
          | _ =>
              rw [call, phase] at blocked
              cases blocked
  | write r =>
      cases r with
      | wrote k => exact fails.elim
      | failed errno =>
          obtain ⟨left, blocked⟩ := Write.exists_call may
          have next : (tcpClientHandler args).next s (.write (.failed errno)) =
              s.onWrite args (.failed errno) := congrArg Prod.fst (if_pos may)
          rw [next]
          cases phase : s.phase with
          | writeCONN left =>
              rw [onWrite, phase]
              rfl
          | writeDATA loc data left =>
              rw [onWrite, phase]
              rfl
          | _ =>
              rw [call, phase] at blocked
              cases blocked

end TCPClient

/-- A server that waits in `accept` has no call on a connection. -/
theorem TCPServer.call_accept {s : TCPServer} (listening : s.phase = .accept) :
    s.call = .closed := by
  rw [call, listening]

namespace TCPJob

open TCPService

variable (job : TCPJob)

/-! ## What the server has heard of a client -/

/-- What the server has read of the connection, with what it has not read yet, begins the
client's stream. -/
structure Hears (s : TCPServer) (unread : List UInt8) : Prop where
  run : HasRun s
  conducts : ∃ read written, s.Conducts read written ∧
    read ++ unread <+: clientStream job.args job.uninit

/-- The size is announced in four bytes. -/
abbrev Fits : Prop := job.args.vec.occupiedSize.toNat < 2 ^ 32

variable {job} {s before : TCPServer} {rest : List UInt8}
variable {c d : Connected TCPClient TCPServer UInt8}

theorem Hears.proper (hears : job.Hears s rest) : s.Proper := by
  obtain ⟨⟨history, rfl⟩, read, written, conducts, -⟩ := hears
  refine (TCPServer.proper_after history).resolve_left fun finished => ?_
  rw [TCPServer.Conducts, finished] at conducts
  exact conducts

/-- **What the server has delivered.** -/
theorem Hears.delivers (hears : job.Hears s rest) (fits : job.Fits) :
    s.delivered <+: udpChunks job.args ∧
      (s.received = true → s.delivered = udpChunks job.args) := by
  obtain ⟨-, read, written, conducts, arrives⟩ := hears
  obtain ⟨first, all⟩ := conducts.delivers fits ((List.prefix_append _ _).trans arrives)
  exact ⟨first, fun received => (all received).1⟩

/-- **A call keeps it**, whatever it comes back with. -/
theorem Hears.call {e : TCPServerEvent} (fits : job.Fits)
    (hears : job.Hears s (tcpServerPort.takes e ++ rest)) (may : tcpServerPort.may s e) :
    job.Hears (tcpServerHandler.next s e) rest := by
  obtain ⟨run, read, written, conducts, arrives⟩ := hears
  rw [← List.append_assoc] at arrives
  have few : (read ++ tcpServerPort.takes e).length < 2 ^ 63 :=
    Nat.lt_of_le_of_lt ((List.prefix_append _ _).trans arrives).length_le
      (length_clientStream fits job.uninit)
  exact ⟨run.next e, _, _, TCPServer.conducts_step conducts may few, arrives⟩

/-- What the server does on a connection is a run of the server. -/
theorem hasRun_step (step : TransferStep job.args c d) (run : HasRun c.right) :
    HasRun d.right := by
  cases step with
  | left move => exact run
  | right move =>
      cases move with
      | reads => exact run.next _
      | writes => exact run.next _
  | leftEnd => exact run
  | rightEnd => exact run.next _

/-- **While the client runs the server hears it.** -/
theorem hears_run (fits : job.Fits) (ready : Ready before)
    (run : ReflTransGen (TransferStep job.args) (openConnection job before) c) :
    job.Hears c.right c.toRight := by
  have hasRun : HasRun c.right :=
    invariant_run (I := fun c => HasRun c.right) (fun _ _ run step => hasRun_step step run)
      run (ready.1.next _)
  obtain ⟨⟨history, rfl⟩, listening⟩ := ready
  obtain ⟨atLeft, atRight, joined, -, divides⟩ := connection_joined run
  refine ⟨hasRun, atRight, c.fromRight, joined.conducts fits listening, ?_⟩
  rw [divides]
  exact WritesStream.clientStream fits (TCPClient.writesStream_run joined.leftRun)

/-! ## A connection on which the client is not killed -/

variable (job) in
/-- A call succeeds, or the client's call fails because the server has closed the connection with
bytes unread. -/
inductive ConnectionStep :
    Connected TCPClient TCPServer UInt8 → Connected TCPClient TCPServer UInt8 → Prop where
  | transfer {c d : Connected TCPClient TCPServer UInt8} (step : TransferStep job.args c d) :
      ConnectionStep c d
  | reset {c : Connected TCPClient TCPServer UInt8} {e : TCPClientEvent}
      (closed : c.right.phase = .accept) (unread : c.toRight ≠ [])
      (may : tcpClientPort.may c.left e) (fails : e.Fails) :
      ConnectionStep c { c with left := (tcpClientHandler job.args).next c.left e }

/-- A connection that is closed takes no call. -/
theorem not_step_over (ended : TransferOver c) : ¬ job.ConnectionStep c d := by
  obtain ⟨left, right⟩ := ended
  intro step
  cases step with
  | transfer step =>
      cases step with
      | left move =>
          cases move with
          | reads blocked => cases blocked.symm.trans left
          | writes blocked => cases blocked.symm.trans left
      | right move =>
          cases move with
          | reads blocked => cases blocked.symm.trans right
          | writes blocked => cases blocked.symm.trans right
      | leftEnd blocked => cases blocked.symm.trans left
      | rightEnd blocked => cases blocked.symm.trans right
  | reset closed unread may fails =>
      have ended := TCPClient.call_of_fails may fails
      rcases ended with ⟨n, blocked⟩ | ⟨bytes, blocked⟩
      · cases blocked.symm.trans left
      · cases blocked.symm.trans left

/-- The server has confirmed the vector and delivered it. The client is in success, or its last
packet was not full and it was reset. -/
structure Complete (job : TCPJob) (c : Connected TCPClient TCPServer UInt8) : Prop where
  received : c.right.received = true
  delivered : c.right.delivered = udpChunks job.args
  phase : c.left.phase = .ended .SUCCESS ∨
    c.left.phase = .ended .ERROR ∧ ¬ sendBuffSize ∣ job.args.vec.occupiedSize.toNat

/-- What the server has done when it has closed the connection, and when it leaves bytes
unread. -/
theorem closed_complete (fits : job.Fits) (ready : Ready before)
    (run : ReflTransGen (TransferStep job.args) (openConnection job before) c)
    (closed : c.right.call = .closed) :
    c.right.received = true ∧ c.right.delivered = udpChunks job.args ∧ Ready c.right ∧
      (c.toRight ≠ [] → ¬ sendBuffSize ∣ job.args.vec.occupiedSize.toNat) := by
  have hears := hears_run fits ready run
  obtain ⟨⟨history, rfl⟩, listening⟩ := ready
  obtain ⟨listens, received, delivered, -, later, -, -, sizes⟩ :=
    agreed_closed fits (transfer_agreed fits listening run) closed
  refine ⟨received, delivered, ⟨hears.run, listens⟩, fun unread multiple => unread ?_⟩
  rw [List.length_append] at sizes
  rw [← List.length_eq_zero_iff]
  simp only [packetCount, sendBuffSize] at sizes multiple
  omega

/-- What a connection has come to on which no call has failed. -/
theorem complete_of_over (fits : job.Fits) (ready : Ready before)
    (run : ReflTransGen (TransferStep job.args) (openConnection job before) c)
    (ended : TransferOver c) : job.Complete c ∧ Ready c.right := by
  obtain ⟨received, delivered, listens, -⟩ := closed_complete fits ready run ended.2
  obtain ⟨⟨history, rfl⟩, listening⟩ := ready
  obtain ⟨phase, -⟩ := agreed_over fits (transfer_agreed fits listening run) ended
  exact ⟨⟨received, delivered, .inl phase⟩, listens⟩

/-- **A reset comes only after the server has confirmed the vector**, and ends the connection. -/
theorem complete_of_reset (fits : job.Fits) (ready : Ready before)
    (run : ReflTransGen (TransferStep job.args) (openConnection job before) c)
    {e : TCPClientEvent} (closed : c.right.phase = .accept) (unread : c.toRight ≠ [])
    (may : tcpClientPort.may c.left e) (fails : e.Fails) {d : Connected TCPClient TCPServer UInt8}
    (reset : d = { c with left := (tcpClientHandler job.args).next c.left e }) :
    TransferOver d ∧ job.Complete d ∧ Ready d.right := by
  subst reset
  have over' := TCPServer.call_accept closed
  obtain ⟨received, delivered, listens, part⟩ := closed_complete fits ready run over'
  have failed : ((tcpClientHandler job.args).next c.left e).phase = .ended .ERROR :=
    TCPClient.ended_of_fails may fails
  exact ⟨⟨TCPClient.call_ended failed, over'⟩, ⟨received, delivered, .inr ⟨failed, part unread⟩⟩,
    listens⟩

/-- **A connection comes to its end** with the vector delivered, and the server listens again. -/
theorem connection_inevitable (fits : job.Fits) (ready : Ready before) :
    Inevitable job.ConnectionStep (fun c => TransferOver c ∧ job.Complete c ∧ Ready c.right)
      (openConnection job before) := by
  have ends : Inevitable (TransferStep job.args) TransferOver (openConnection job before) := by
    obtain ⟨⟨history, rfl⟩, listening⟩ := ready
    exact transfer_over fits listening
  have last (c d) (ended : TransferOver c) : ¬ TransferStep job.args c d :=
    fun step => not_step_over ended (.transfer step)
  refine Inevitable.of_simulation (R := fun x c => x = c ∧
    ReflTransGen (TransferStep job.args) (openConnection job before) c) ?_ ?_ ?_ ⟨rfl, .refl⟩ ends
  · rintro c _ ⟨rfl, run⟩ ended
    exact ⟨ended, complete_of_over fits ready run ended⟩
  · rintro c _ ⟨rfl, run⟩ unfinished
    cases ends.along last run with
    | now ended => exact absurd ⟨ended, complete_of_over fits ready run ended⟩ unfinished
    | later enabled _ =>
        obtain ⟨d, step⟩ := enabled
        exact ⟨d, .transfer step⟩
  · rintro c _ d ⟨rfl, run⟩ - step
    cases step with
    | transfer step => exact .inr ⟨d, step, rfl, run.tail step⟩
    | reset closed unread may fails =>
        exact .inl (complete_of_reset fits ready run closed unread may fails rfl)

/-- A reset is the end of the connection, and the server has no part in it. -/
theorem connection_run
    (run : ReflTransGen job.ConnectionStep (openConnection job before) c) :
    ∃ left, ReflTransGen (TransferStep job.args) (openConnection job before) { c with left } ∧
      (c.left = left ∨ TransferOver c) := by
  induction run with
  | refl => exact ⟨_, .refl, .inl rfl⟩
  | @tail c d _ step ih =>
      obtain ⟨left, run, rfl | ended⟩ := ih
      · cases step with
        | transfer step => exact ⟨d.left, run.tail step, .inl rfl⟩
        | reset closed unread may fails =>
            exact ⟨c.left, run, .inr ⟨TCPClient.call_ended (TCPClient.ended_of_fails may fails),
              TCPServer.call_accept closed⟩⟩
      · exact absurd step (not_step_over ended)

/-- **While the client runs the server hears it**, and when it has been reset. -/
theorem hears_connection (fits : job.Fits) (ready : Ready before)
    (run : ReflTransGen job.ConnectionStep (openConnection job before) c) :
    job.Hears c.right c.toRight := by
  obtain ⟨left, run, -⟩ := connection_run run
  have hears := hears_run fits ready run
  exact hears

/-! ## Visits -/

/-- A client at the server, or the server alone, once the client has been killed, with what has
not been read. -/
inductive Visit where
  | present (c : Connected TCPClient TCPServer UInt8)
  | gone (server : TCPServer) (unread : List UInt8)

namespace Visit

/-- A step of the two, the end of a client that runs, or a call of the server that is alone. -/
inductive Step (job : TCPJob) : Visit → Visit → Prop where
  | transfer {c d : Connected TCPClient TCPServer UInt8} (step : job.ConnectionStep c d) :
      Step job (.present c) (.present d)
  | killed {c : Connected TCPClient TCPServer UInt8} (runs : c.left.call ≠ .closed) :
      Step job (.present c) (.gone c.right c.toRight)
  | call {s : TCPServer} {e : TCPServerEvent} {unread : List UInt8}
      (may : tcpServerPort.may s e) (answer : e ≠ .catchInt) :
      Step job (.gone s (tcpServerPort.takes e ++ unread))
        (.gone (tcpServerHandler.next s e) unread)

def server : Visit → TCPServer
  | .present c => c.right
  | .gone s _ => s

def unread : Visit → List UInt8
  | .present c => c.toRight
  | .gone _ unread => unread

/-- Both have closed the connection, or the server has and the client is gone. -/
def Over : Visit → Prop
  | .present c => TransferOver c
  | .gone s _ => s.phase = .accept

variable {visit next : Visit}

/-- No call of such a server is answered. -/
theorem not_may_accept (listening : s.phase = .accept) {e : TCPServerEvent}
    (answer : e ≠ .catchInt) : ¬ tcpServerPort.may s e := by
  have closed := TCPServer.call_accept listening
  intro may
  cases e with
  | accept r => exact may
  | catchInt => exact answer rfl
  | read r =>
      obtain ⟨n, blocked⟩ := Read.exists_call may
      cases blocked.symm.trans closed
  | write r =>
      obtain ⟨left, blocked⟩ := Write.exists_call may
      cases blocked.symm.trans closed

theorem Over.quiet (ended : visit.Over) : ¬ Step job visit next := by
  intro step
  cases step with
  | transfer step => exact not_step_over ended step
  | killed runs => exact runs ended.1
  | call may answer => exact not_may_accept ended answer may

/-- What the server has delivered: all that the client has and all of it confirmed, or first
payloads of one that was killed, and all of them if it has confirmed. -/
def Served (job : TCPJob) : Visit → Prop
  | .present c => job.Complete c
  | .gone s _ => s.delivered <+: udpChunks job.args ∧
      (s.received = true → s.delivered = udpChunks job.args)

/-- What a visit has come to. -/
structure Done (job : TCPJob) (visit : Visit) : Prop where
  ended : visit.Over
  ready : Ready visit.server
  served : visit.Served job

/-! ## Every visit ends -/

/-- A call of a server whose client is gone is an answered call. -/
theorem answered_of_may {e : TCPServerEvent} (may : tcpServerPort.may s e)
    (answer : e ≠ .catchInt) (unread : List UInt8) :
    TCPServer.Answered (s, (tcpServerPort.takes e ++ unread).length)
      (tcpServerHandler.next s e, unread.length) := by
  rw [List.length_append]
  cases e with
  | accept r => exact may.elim
  | catchInt => exact absurd rfl answer
  | read r => exact .inl ⟨r, may, rfl, rfl⟩
  | write r => exact .inr ⟨r, may, rfl, Nat.zero_add _⟩

/-- A server on a connection has a call, which may fail. -/
theorem exists_call (hears : job.Hears s rest) (busy : s.phase ≠ .accept) :
    ∃ visit, Step job (.gone s rest) visit := by
  cases blocked : s.call with
  | closed =>
      have proper := hears.proper
      rcases TCPServer.call_closed blocked with phase | phase
      · exact absurd phase busy
      · simp only [TCPServer.Proper, phase] at proper
  | read n =>
      have may : tcpServerPort.may s (.read (.failed .EAGAIN)) := by
        show Read.Answers _ s.call
        rw [blocked]
        trivial
      exact ⟨_, .call may TCPServerEvent.noConfusion⟩
  | write left =>
      have may : tcpServerPort.may s (.write (.failed .EAGAIN)) := by
        show Write.Answers _ s.call
        rw [blocked]
        trivial
      exact ⟨_, .call may TCPServerEvent.noConfusion⟩

/-- **A server whose client has been killed accepts again.** -/
theorem gone_inevitable (fits : job.Fits) (hears : job.Hears s rest) :
    Inevitable (Step job) (Done job) (.gone s rest) := by
  -- The calls are those of `closes_eventually`, which counts the bytes that have not been read.
  refine Inevitable.of_simulation
    (R := fun (x : TCPServer × ℕ) visit => ∃ unread, visit = .gone x.1 unread ∧
      x.2 = unread.length ∧ job.Hears x.1 unread) ?_ ?_ ?_
    ⟨rest, rfl, rfl, hears⟩ (TCPServer.closes_eventually hears.proper rest.length)
  · rintro x _ ⟨unread, rfl, -, hears⟩ listening
    exact ⟨listening, ⟨hears.run, listening⟩, hears.delivers fits⟩
  · rintro x _ ⟨unread, rfl, -, hears⟩ busy
    refine exists_call hears fun listening => busy ?_
    exact ⟨listening, ⟨hears.run, listening⟩, hears.delivers fits⟩
  · rintro ⟨s, n⟩ _ visit ⟨_, rfl, rfl, hears⟩ - step
    cases step with
    | @call _ e unread may answer =>
        exact .inr ⟨_, answered_of_may may answer unread, unread, rfl, rfl, hears.call fits may⟩

/-- A visit ends whether the client is killed or not. -/
theorem present_inevitable (fits : job.Fits)
    (ends : Inevitable job.ConnectionStep
      (fun c => TransferOver c ∧ job.Complete c ∧ Ready c.right) c)
    (hears : ∀ d, ReflTransGen job.ConnectionStep c d → job.Hears d.right d.toRight) :
    Inevitable (Step job) (Done job) (.present c) := by
  induction ends with
  | now reached => exact .now ⟨reached.1, reached.2.2, reached.2.1⟩
  | later enabled _ ih =>
      obtain ⟨d, first⟩ := enabled
      refine .later ⟨_, .transfer first⟩ fun visit step => ?_
      cases step with
      | transfer step => exact ih _ step fun u run => hears u (.head step run)
      | killed runs => exact gone_inevitable fits (hears _ .refl)

/-- What the server has heard in a visit, whether the client is still there or not. -/
theorem hears_visit (fits : job.Fits) (ready : Ready before)
    (run : ReflTransGen (Step job) (.present (openConnection job before)) visit) :
    job.Hears visit.server visit.unread := by
  have known : job.Hears visit.server visit.unread ∧ ∀ c, visit = .present c →
      ReflTransGen job.ConnectionStep (openConnection job before) c := by
    induction run with
    | refl =>
        refine ⟨hears_connection fits ready .refl, fun c same => ?_⟩
        cases same
        exact .refl
    | tail _ step ih =>
        obtain ⟨hears, present⟩ := ih
        cases step with
        | transfer step =>
            have reached := (present _ rfl).tail step
            refine ⟨hears_connection fits ready reached, fun c same => ?_⟩
            cases same
            exact reached
        | killed runs =>
            refine ⟨hears, fun c same => ?_⟩
            cases same
        | call may answer =>
            refine ⟨hears.call fits may, fun c same => ?_⟩
            cases same
  exact known.1

end Visit

end TCPJob

/-! ## All visits -/

/-- The server as a service: a visit is a connection. -/
def tcpService : Service TCPJob TCPServer where
  Visit _ := TCPJob.Visit
  step := TCPJob.Visit.Step
  opens job server := .present (openConnection job server)
  Over _ := TCPJob.Visit.Over
  leaves _ := TCPJob.Visit.server
  quiet := TCPJob.Visit.Over.quiet

namespace TCPService

/-- **Every visit comes to its end.** -/
theorem serves : tcpService.Serves Ready TCPJob.Fits fun job _ visit => visit.Done job where
  ends fits ready :=
    TCPJob.Visit.present_inevitable fits (TCPJob.connection_inevitable fits ready)
      fun _ run => TCPJob.hears_connection fits ready run
  ended done := done.ended
  leaves done := done.ready

/-- What each visit of a chain has come to. -/
theorem served {first last : TCPServer} {visits : List ((job : TCPJob) × tcpService.Visit job)}
    (chain : tcpService.Chain (fun job _ visit => TCPJob.Visit.Done job visit) first visits last) :
    ∀ visit ∈ visits, TCPJob.Visit.Served visit.1 visit.2 := by
  refine chain.invariant
    (I := fun visits _ => ∀ visit ∈ visits, TCPJob.Visit.Served visit.1 visit.2) ?_ ?_
  · intro visit member
    cases member
  · intro visits server job visit earlier done visit' member
    rcases List.mem_append.mp member with member | member
    · exact earlier visit' member
    · rw [List.mem_singleton.mp member]
      exact done.served

end TCPService

/-- **The server serves every client of a queue that is not killed**, whatever it served before,
though it may reset those whose last packet is not full, and recovers from those that are
killed. -/
theorem tcp_service_serves_all {job : TCPJob} {jobs : List TCPJob}
    {history : List TCPServerEvent}
    (listening : (tcpServerHandler.after .start history).phase = .accept)
    (small : ∀ j ∈ job :: jobs, j.args.vec.occupiedSize.toNat < 2 ^ 32) :
    Inevitable tcpService.Step Service.Queue.Over
      (tcpService.start (tcpServerHandler.after .start history) job jobs) ∧
    ∀ q, ReflTransGen tcpService.Step
        (tcpService.start (tcpServerHandler.after .start history) job jobs) q →
      (∀ visit ∈ q.served, TCPJob.Visit.Served visit.1 visit.2) ∧
      q.server.delivered <+: udpChunks q.job.args ∧
      (q.server.received = true → q.server.delivered = udpChunks q.job.args) ∧
      q.visits.map Sigma.fst ++ q.waiting = job :: jobs ∧
      (q.Over → q.server.phase = .accept ∧
        ∀ visit ∈ q.visits, TCPJob.Visit.Served visit.1 visit.2) := by
  have ready : TCPService.Ready (tcpServerHandler.after .start history) :=
    ⟨⟨history, rfl⟩, listening⟩
  refine ⟨TCPService.serves.over_inevitable small ready [], fun q run => ?_⟩
  have orderly := TCPService.serves.orderly small ready run
  obtain ⟨order, server, chain, now, visit⟩ := id orderly
  have fits : q.job.Fits := by
    refine small q.job ?_
    rw [order]
    exact List.mem_append_right _ List.mem_cons_self
  obtain ⟨first, all⟩ := (TCPJob.Visit.hears_visit fits now visit).delivers fits
  refine ⟨TCPService.served chain, first, all, ?_, fun ended => ?_⟩
  · rw [order, Service.Queue.visits, List.map_append, List.append_assoc]
    rfl
  · obtain ⟨-, chain, ready⟩ := TCPService.serves.chain_visits small orderly ended
    exact ⟨ready.2, TCPService.served chain⟩

/-- Two clients, one with a byte and one with nothing to send. -/
theorem tcp_service_serves_two : ∃ q,
    ReflTransGen tcpService.Step
      (tcpService.start .start ⟨oneByte, .zero⟩ [⟨fullPacket, .zero⟩]) q ∧
    q.visits.map Sigma.fst = [⟨oneByte, .zero⟩, ⟨fullPacket, .zero⟩] ∧
    q.server.phase = .accept ∧ ∀ visit ∈ q.visits, TCPJob.Visit.Served visit.1 visit.2 := by
  have listening : (tcpServerHandler.after .start []).phase = .accept := rfl
  have small : ∀ j ∈ [TCPJob.mk oneByte .zero, TCPJob.mk fullPacket .zero],
      j.args.vec.occupiedSize.toNat < 2 ^ 32 := by
    intro j member
    simp only [List.mem_cons, List.not_mem_nil, or_false] at member
    rcases member with rfl | rfl <;> decide
  obtain ⟨ends, all⟩ := tcp_service_serves_all listening small
  obtain ⟨q, run, nobody, ended⟩ := ends.reaches
  obtain ⟨-, -, -, order, over_now⟩ := all q run
  rw [nobody, List.append_nil] at order
  exact ⟨q, run, order, over_now ⟨nobody, ended⟩⟩

end Ppcb
