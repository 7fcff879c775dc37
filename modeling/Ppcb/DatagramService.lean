import Ppcb.Lib.Queue
import Ppcb.DatagramTransfer
import Ppcb.Shutdown

/-!
# The UDP server serves one client after the other, and forgets those that are gone

The clients come one after the other, each with a vector that is not empty. A client that runs
can be killed at any time, with all that is on its way; then the server waits until its
`recvfrom` has timed out often enough, and listens again (`gone_inevitable`).

Whatever the server was through before, the queue comes to its end, every client that is not
killed ends in success, and what the server has received since is, visit by visit, one session
with all packets of the client, or some sessions with first packets of one that was killed
(`datagram_service_serves_all`).
-/

set_option autoImplicit false

namespace Ppcb

open ByteOrder CString Reactive Relation

/-! ## Earlier sessions -/

namespace UDPServer

/-- The server, with earlier sessions. -/
def behind (earlier : List UDPSession) (s : UDPServer) : UDPServer :=
  { s with ended := earlier ++ s.ended }

variable (earlier : List UDPSession) (s : UDPServer)

theorem sessions_behind : (s.behind earlier).sessions = earlier ++ s.sessions := by
  rw [sessions, sessions, ← List.append_assoc]
  rfl

theorem afterUDP_behind (receiving : Receiving UDPSession) :
    (s.behind earlier).afterUDP receiving = (s.afterUDP receiving).behind earlier := by
  obtain ⟨flow, clientAddress⟩ := receiving
  cases flow with
  | waiting session => rfl
  | returned session => simp [afterUDP, behind]

theorem afterUDPR_behind (receiving : Receiving UDPRSession) :
    (s.behind earlier).afterUDPR receiving = (s.afterUDPR receiving).behind earlier := by
  obtain ⟨flow, clientAddress⟩ := receiving
  cases flow with
  | waiting session => rfl
  | returned session => simp [afterUDPR, behind]

theorem openSession_behind (conn : CONN) (client : SockAddr) :
    (s.behind earlier).openSession conn client =
      ((s.openSession conn client).1.behind earlier, (s.openSession conn client).2) := by
  simp only [openSession, afterUDP_behind, afterUDPR_behind]
  split
  · rfl
  split <;> rfl

theorem onIdle_behind (r : RecvFrom) (uninit : ServerUninit) (conacc : SendTo) :
    (s.behind earlier).onIdle r uninit conacc =
      ((s.onIdle r uninit conacc).1.behind earlier, (s.onIdle r uninit conacc).2) := by
  simp only [onIdle, openSession_behind]
  split
  · split
    · rfl
    split <;> rfl
  · by_cases flag : s.finish = true
    · rw [if_pos flag, if_pos (show (s.behind earlier).finish = true from flag)]
      rfl
    · rw [if_neg flag, if_neg (show ¬ (s.behind earlier).finish = true from flag)]
  · rfl

/-- **Nothing the server does depends on the sessions that are over.** -/
theorem next_behind (e : ServerEvent) : udpServerHandler.next (s.behind earlier) e =
    (udpServerHandler.next s e).behind earlier := by
  obtain ⟨mode, udpClientAddress, udprClientAddress, finish, ended⟩ := s
  cases e with
  | catchInt => rfl
  | recvfrom r uninit conacc =>
      cases mode with
      | idle => exact congrArg Prod.fst (onIdle_behind earlier _ r uninit conacc)
      | udp session => exact afterUDP_behind earlier _ _
      | udpr session => exact afterUDPR_behind earlier _ _
      | finished => rfl

/-! ## A server that no signal reaches -/

variable {s}

theorem openSession_finish (conn : CONN) (client : SockAddr) :
    (s.openSession conn client).1.finish = s.finish := by
  have afterUDP_finish (receiving : Receiving UDPSession) :
      (s.afterUDP receiving).finish = s.finish := by
    rw [afterUDP]
    split <;> rfl
  have afterUDPR_finish (receiving : Receiving UDPRSession) :
      (s.afterUDPR receiving).finish = s.finish := by
    rw [afterUDPR]
    split <;> rfl
  simp only [openSession]
  split
  · exact afterUDP_finish _
  split
  · exact afterUDPR_finish _
  · rfl

/-- It goes on. -/
theorem runs_next (flag : s.finish = false) (running : s.mode ≠ .finished) (r : RecvFrom)
    (uninit : ServerUninit) (conacc : SendTo) :
    (udpServerHandler.next s (.recvfrom r uninit conacc)).finish = false ∧
      (udpServerHandler.next s (.recvfrom r uninit conacc)).mode ≠ .finished := by
  simp only [Machine.next, udpServerHandler, step]
  split
  · rename_i idle
    simp only [onIdle]
    split
    · split
      · exact ⟨flag, running⟩
      split
      · exact ⟨flag, running⟩
      · exact ⟨(openSession_finish _ _).trans flag, openSession_running idle _ _⟩
    · rw [if_neg (Bool.eq_false_iff.mp flag)]
      exact ⟨flag, running⟩
    · exact ⟨flag, running⟩
  · rw [afterUDP]
    split <;> exact ⟨flag, ServerMode.noConfusion⟩
  · rw [afterUDPR]
    split <;> exact ⟨flag, ServerMode.noConfusion⟩
  · exact ⟨flag, running⟩

/-- A timeout of `UDPR_data_receive` counts, and the last one ends it. -/
theorem udprDataReceivePass_timeout (session : UDPRSession) (clientAddress : SockAddr)
    (uninit : ServerUninit) :
    (udprDataReceivePass session clientAddress (.failed .EAGAIN) uninit).1 =
      ⟨if session.nbrOfRetransmits + 1 > maxRetransmits then
          .returned { session with nbrOfRetransmits := session.nbrOfRetransmits + 1 }
        else .waiting { session with nbrOfRetransmits := session.nbrOfRetransmits + 1 },
        clientAddress⟩ := by
  simp only [udprDataReceivePass, readDataToBuffer, if_pos, doRetransmission]
  by_cases last : session.nbrOfRetransmits + 1 > maxRetransmits
  · rw [if_pos last, if_pos last]
    rfl
  · rw [if_neg last, if_neg last]
    split <;> rfl

/-- The timeouts of a session that are left. -/
def patience : ServerMode → ℕ
  | .udp _ => 1
  | .udpr session => maxRetransmits - session.nbrOfRetransmits + 1
  | _ => 0

/-- **Every timeout brings the end of a session nearer.** -/
theorem timeout_patience (running : s.mode ≠ .finished) (active : s.mode ≠ .idle)
    (uninit : ServerUninit) (conacc : SendTo) :
    patience (udpServerHandler.next s (.recvfrom (.failed .EAGAIN) uninit conacc)).mode <
      patience s.mode := by
  obtain ⟨mode, udpClientAddress, udprClientAddress, finish, ended⟩ := s
  cases mode with
  | idle => exact absurd rfl active
  | finished => exact absurd rfl running
  | udp session => exact Nat.one_pos
  | udpr session =>
      simp only [Machine.next, udpServerHandler, step, udprDataReceivePass_timeout]
      by_cases last : session.nbrOfRetransmits + 1 > maxRetransmits
      · rw [if_pos last]
        exact Nat.succ_pos _
      · rw [if_neg last]
        exact Nat.succ_lt_succ (Nat.sub_lt_sub_left (Nat.not_lt.mp last) (Nat.lt_succ_self _))

/-! ## A server that has heard one client -/

/-- What the server has received since it was `before` follows the client's cut. -/
structure Since (s : UDPServer) (cut : Cut) (before : UDPServer) : Prop where
  own : ∃ own : UDPServer, s = own.behind before.ended ∧ own.Agrees cut
  flag : s.finish = false
  running : s.mode ≠ .finished

variable {cut : Cut} {before : UDPServer}

theorem Since.start (idle : s.mode = .idle) (flag : s.finish = false) : s.Since cut s where
  own := by
    refine ⟨{ s with ended := [] }, ?_, ⟨?_, ?_⟩⟩
    · rw [behind, List.append_nil]
    · intro session member
      rw [sessions, idle] at member
      cases member
    · rw [idle]
      trivial
  flag := flag
  running := by
    rw [idle]
    exact ServerMode.noConfusion

/-- **It still does, whatever it hears of what the client has offered.** -/
theorem Since.next (since : s.Since cut before) {r : RecvFrom} (offered : r.Offered cut)
    (uninit : ServerUninit) (conacc : SendTo) :
    (udpServerHandler.next s (.recvfrom r uninit conacc)).Since cut before := by
  obtain ⟨⟨own, rfl, agrees⟩, flag, running⟩ := since
  obtain ⟨flag', running'⟩ := runs_next flag running r uninit conacc
  refine ⟨⟨_, next_behind before.ended own _, ?_⟩, flag', running'⟩
  exact (step_refines agrees (e := .recvfrom r uninit conacc) offered).agrees

/-- The sessions since then. -/
theorem Since.sessions (since : s.Since cut before) :
    ∃ own, s.sessions = before.ended ++ own ∧ ∀ session ∈ own, session.Agrees cut := by
  obtain ⟨⟨own, rfl, agrees⟩, -, -⟩ := since
  exact ⟨own.sessions, sessions_behind before.ended own, agrees.sessions⟩

end UDPServer

/-! ## Visits -/

/-- A client that wants to send its vector. -/
structure DatagramJob where
  type : DatagramType
  args : ClientArgs
  address : SockAddr
  errno : Errno

namespace DatagramJob

variable (job : DatagramJob)

/-- The client and the server. -/
abbrev Pair := Joined job.type.Client UDPServer (List UInt8) (List UInt8)

/-- A client at the server, or the server alone, once the client has been killed. -/
inductive Visit where
  | present (pair : job.Pair)
  | gone (server : UDPServer)

/-- The cut of the vector. -/
abbrev cut : Cut := job.type.cut job.args

/-- The size is announced in four bytes, and not zero. -/
structure Fits : Prop where
  some_bytes : 0 < job.args.vec.occupiedSize
  small : job.args.vec.occupiedSize.toNat < 2 ^ 32

variable {job}

namespace Visit

/-- A step of the two, the end of a client that runs, or a timeout of the server. -/
inductive Step : job.Visit → job.Visit → Prop where
  | transfer {s u : job.Pair} (step : job.type.TransferStep job.args job.address s u) :
      Step (.present s) (.present u)
  | killed {s : job.Pair} (runs : job.type.succeeded s.left = false) :
      Step (.present s) (.gone s.right)
  | timeout {s : UDPServer} (active : s.mode ≠ .idle) (uninit : ServerUninit)
      (conacc : SendTo) :
      Step (.gone s) (.gone (udpServerHandler.next s
        (.recvfrom (.failed .EAGAIN) uninit conacc)))

def server : job.Visit → UDPServer
  | .present s => s.right
  | .gone s => s

/-- The server listens, and nothing is on its way. -/
def Over : job.Visit → Prop
  | .present s => job.type.succeeded s.left = true ∧ s.right.mode = .idle ∧ s.Pending [] []
  | .gone s => s.mode = .idle

theorem Over.quiet {visit next : job.Visit} (ended : visit.Over) : ¬ Step visit next := by
  intro step
  cases step with
  | transfer step =>
      exact ended.2.2.still (DatagramType.clientPort_rests _ ended.1)
        (serverPort_rests job.address _) step
  | killed runs => exact Bool.eq_false_iff.mp runs ended.1
  | timeout active => exact active ended

/-- What a visit has come to. -/
def Done (before : UDPServer) (visit : job.Visit) : Prop :=
  visit.server.Since job.cut before ∧ match visit with
    | .present s => job.type.Completed job.args job.address before s
    | .gone s => s.mode = .idle

theorem Done.ended {before : UDPServer} {visit : job.Visit} (done : visit.Done before) :
    visit.Over := by
  cases visit with
  | present s => exact ⟨done.2.1, done.2.2.1.idle, done.2.2.2⟩
  | gone s => exact done.2

/-! ## Every visit ends -/

/-- **A server whose client has gone listens again.** -/
theorem gone_inevitable {before s : UDPServer} (since : s.Since job.cut before) :
    Inevitable Step (Done before) (.gone s : job.Visit) := by
  induction left : UDPServer.patience s.mode using Nat.strongRecOn generalizing s with
  | ind n ih =>
      by_cases idle : s.mode = .idle
      · exact .now ⟨since, idle⟩
      · refine .later ⟨_, .timeout idle .zero .sent⟩ fun visit step => ?_
        cases step with
        | timeout active uninit conacc =>
            refine ih _ ?_ (since.next (r := .failed .EAGAIN) trivial uninit conacc) rfl
            rw [← left]
            exact UDPServer.timeout_patience since.running active uninit conacc

/-- A visit ends whether the client is killed or not. -/
theorem present_inevitable {before : UDPServer} {s : job.Pair}
    (ends : Inevitable (job.type.TransferStep job.args job.address)
      (job.type.Completed job.args job.address before) s)
    (since : ∀ u, ReflTransGen (job.type.TransferStep job.args job.address) s u →
      u.right.Since job.cut before) :
    Inevitable Step (Done before) (.present s : job.Visit) := by
  induction ends with
  | now completed => exact .now ⟨since _ .refl, completed⟩
  | later enabled _ ih =>
      obtain ⟨u, first⟩ := enabled
      refine .later ⟨_, .transfer first⟩ fun visit step => ?_
      cases step with
      | transfer step => exact ih _ step fun u run => since u (.head step run)
      | killed runs => exact gone_inevitable (since _ .refl)

end Visit

/-- What the client puts, it offers. -/
theorem Fits.offers (fits : job.Fits) {bytes : List UInt8}
    (member : bytes ∈ (job.type.clientScript job.args).flatMap Act.puts) :
    job.cut.Offer bytes := by
  obtain ⟨act, member, puts⟩ := List.mem_flatMap.mp member
  simp only [DatagramType.clientScript, DatagramType.packetScript, DatagramType.pass,
    List.mem_cons, List.mem_append, List.mem_flatMap, List.mem_map, List.mem_range,
    List.not_mem_nil, or_false] at member
  rcases member with (rfl | rfl | ⟨i, below, rfl | ⟨ack, -, rfl⟩⟩) | rfl
  · have offer : job.cut.Offer _ := .conn job.type.protocol
    rw [job.type.cut_sessionId, job.type.cut_total] at offer
    rwa [List.mem_singleton.mp puts]
  · cases puts
  · have few := DatagramType.count_lt fits.small
    have offer : job.cut.Offer _ := .data i (by omega)
    rw [job.type.cut_sessionId, job.type.cut_chunk] at offer
    rwa [List.mem_singleton.mp puts]
  · cases puts
  · cases puts

/-- What the server has received of a client that is there. -/
theorem Fits.since (fits : job.Fits) {server : UDPServer} (idle : server.mode = .idle)
    (flag : server.finish = false) {s : job.Pair}
    (run : ReflTransGen (job.type.TransferStep job.args job.address)
      (.start (job.type.start job.errno) server) s) : s.right.Since job.cut server := by
  induction run with
  | refl => exact .start idle flag
  | @tail s u run step ih =>
      cases step with
      | left e may arrives => exact ih
      | right d may arrives =>
          cases d with
          | catchInt => cases may
          | recvfrom r uninit conacc =>
              refine ih.next ?_ uninit conacc
              cases r with
              | failed errno => cases may
              | datagram src bytes =>
                  obtain ⟨rest, _, -, remains⟩ := (DatagramType.meeting job.errno fits.small idle
                    (.inl fits.some_bytes)).run DatagramType.clientPort_rests
                    (fun s _ => serverPort_rests job.address s) run
                  have came : bytes ∈ s.fromLeft :=
                    arrives.subset (List.mem_append_right _ (List.mem_singleton_self bytes))
                  refine fits.offers ?_
                  rw [← List.nil_append (List.flatMap _ _)]
                  exact remains.left ▸ List.mem_append_left _ came

/-- What it has received in a visit, whether the client is still there or not. -/
theorem Fits.visit_since (fits : job.Fits) {server : UDPServer} (idle : server.mode = .idle)
    (flag : server.finish = false) {visit : job.Visit}
    (run : ReflTransGen Visit.Step (.present (.start (job.type.start job.errno) server)) visit) :
    visit.server.Since job.cut server := by
  have known : visit.server.Since job.cut server ∧ ∀ s, visit = .present s →
      ReflTransGen (job.type.TransferStep job.args job.address)
        (.start (job.type.start job.errno) server) s := by
    induction run with
    | refl =>
        refine ⟨.start idle flag, fun s same => ?_⟩
        cases same
        exact .refl
    | tail _ step ih =>
        obtain ⟨since, present⟩ := ih
        cases step with
        | transfer step =>
            have reached := (present _ rfl).tail step
            refine ⟨fits.since idle flag reached, fun s same => ?_⟩
            cases same
            exact reached
        | killed runs =>
            refine ⟨since, fun s same => ?_⟩
            cases same
        | timeout active uninit conacc =>
            refine ⟨since.next (r := .failed .EAGAIN) trivial uninit conacc, fun s same => ?_⟩
            cases same
  exact known.1

end DatagramJob

/-! ## All visits -/

/-- The server as a service. -/
def datagramService : Service DatagramJob UDPServer where
  Visit := DatagramJob.Visit
  step _ := DatagramJob.Visit.Step
  opens job server := .present (.start (job.type.start job.errno) server)
  Over _ := DatagramJob.Visit.Over
  leaves _ := DatagramJob.Visit.server
  quiet := DatagramJob.Visit.Over.quiet

namespace DatagramService

/-- A server that listens. -/
def Ready (s : UDPServer) : Prop := s.mode = .idle ∧ s.finish = false

/-- **Every visit comes to its end.** -/
theorem serves : datagramService.Serves Ready DatagramJob.Fits
    fun _ before visit => visit.Done before where
  ends {job server} fits ready :=
    DatagramJob.Visit.present_inevitable
      (DatagramType.completes job.errno fits.small ready.1 (.inl fits.some_bytes))
      fun _ run => fits.since ready.1 ready.2 run
  ended := DatagramJob.Visit.Done.ended
  leaves {job server visit} done := by
    refine ⟨?_, done.1.flag⟩
    cases visit with
    | present s => exact done.2.2.1.idle
    | gone s => exact done.2

/-- What the server has received in a visit: everything in one session, or first packets of a
client that was killed. -/
def Received : ((job : DatagramJob) × job.Visit) → List UDPSession → Prop
  | ⟨job, .present s⟩, sessions => job.type.succeeded s.left = true ∧
      ∃ session, sessions = [session] ∧ session.currClientAddr = job.address ∧
        session.conn.sessionId = job.args.sessionId ∧
        session.delivered = job.type.chunks job.args
  | ⟨job, .gone _⟩, sessions => ∀ session ∈ sessions, session.Agrees job.cut

/-- The sessions since `before`, visit by visit. -/
def Account (before : UDPServer) (visits : List ((job : DatagramJob) × job.Visit))
    (sessions : List UDPSession) : Prop :=
  ∃ parts, List.Forall₂ Received visits parts ∧ sessions = before.ended ++ parts.flatten

theorem account_visit {job : DatagramJob} {before : UDPServer} {visit : job.Visit}
    (done : visit.Done before) :
    ∃ part, Received ⟨job, visit⟩ part ∧ visit.server.ended = before.ended ++ part := by
  cases visit with
  | present s =>
      obtain ⟨-, ended, ⟨-, session, same, own⟩, -⟩ := done
      exact ⟨[session], ⟨ended, session, rfl, own⟩, same⟩
  | gone s =>
      obtain ⟨⟨⟨own, rfl, agrees⟩, -, -⟩, -⟩ := done
      exact ⟨own.ended, fun session member =>
        agrees.sessions session (List.mem_append_left _ member), rfl⟩

/-- The account of a chain of visits. -/
theorem account {first last : UDPServer} {visits : List ((job : DatagramJob) × job.Visit)}
    (chain : datagramService.Chain (fun _ before visit => visit.Done before) first visits last) :
    Account first visits last.ended := by
  refine chain.invariant (I := fun visits s => Account first visits s.ended) ?_ ?_
  · exact ⟨[], .nil, (List.append_nil _).symm⟩
  · rintro visits server job visit ⟨parts, received, same⟩ done
    obtain ⟨part, received', same'⟩ := account_visit done
    refine ⟨parts ++ [part], ?_, ?_⟩
    · exact List.rel_append received (.cons received' .nil)
    · rw [List.flatten_append, List.flatten_singleton, ← List.append_assoc, ← same]
      exact same'

end DatagramService

/-- **The server serves every client of a queue that is not killed**, whatever it was through
before, and recovers from those that are. -/
theorem datagram_service_serves_all {job : DatagramJob} {jobs : List DatagramJob}
    {server : UDPServer} (idle : server.mode = .idle) (flag : server.finish = false)
    (fits : ∀ j ∈ job :: jobs, j.Fits) :
    Inevitable datagramService.Step Service.Queue.Over (datagramService.start server job jobs) ∧
    ∀ q, ReflTransGen datagramService.Step (datagramService.start server job jobs) q →
      (∃ sessions own, DatagramService.Account server q.served sessions ∧
        q.server.sessions = sessions ++ own ∧ ∀ session ∈ own, session.Agrees q.job.cut) ∧
      (q.Over → q.server.mode = .idle ∧ q.visits.map Sigma.fst = job :: jobs ∧
        DatagramService.Account server q.visits q.server.ended) := by
  have ready : DatagramService.Ready server := ⟨idle, flag⟩
  refine ⟨DatagramService.serves.over_inevitable fits ready [], fun q run => ?_⟩
  have orderly := DatagramService.serves.orderly fits ready run
  constructor
  · obtain ⟨order, earlier, chain, now, visit⟩ := orderly
    have fit : q.job.Fits := by
      refine fits q.job ?_
      rw [order]
      exact List.mem_append_right _ List.mem_cons_self
    obtain ⟨own, sessions, agrees⟩ := (fit.visit_since now.1 now.2 visit).sessions
    exact ⟨earlier.ended, own, DatagramService.account chain, sessions, agrees⟩
  · intro ended
    obtain ⟨order, chain, now⟩ := DatagramService.serves.chain_visits fits orderly ended
    exact ⟨now.1, order.symm, DatagramService.account chain⟩

/-- A client with retransmission and one without it, each with a byte. -/
theorem datagram_service_serves_two : ∃ q,
    ReflTransGen datagramService.Step (datagramService.start .start
      ⟨.UDPR, oneByte, ⟨1, 1⟩, .other 0⟩ [⟨.UDP, oneByte, ⟨2, 1⟩, .other 0⟩]) q ∧
    q.visits.map Sigma.fst =
      [⟨.UDPR, oneByte, ⟨1, 1⟩, .other 0⟩, ⟨.UDP, oneByte, ⟨2, 1⟩, .other 0⟩] ∧
    DatagramService.Account .start q.visits q.server.ended := by
  have fits : ∀ j ∈ [DatagramJob.mk .UDPR oneByte ⟨1, 1⟩ (.other 0),
      DatagramJob.mk .UDP oneByte ⟨2, 1⟩ (.other 0)], j.Fits := by
    intro j member
    simp only [List.mem_cons, List.not_mem_nil, or_false] at member
    rcases member with rfl | rfl <;> exact ⟨by decide, by decide⟩
  have listening : UDPServer.start.mode = .idle := rfl
  obtain ⟨ends, all⟩ := datagram_service_serves_all listening rfl fits
  obtain ⟨q, run, ended⟩ := ends.reaches
  exact ⟨q, run, ((all q run).2 ended).2⟩

end Ppcb
