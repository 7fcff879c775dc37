import Ppcb.ServerNoninterference

/-!
# One client among others

The server serves one session at a time, whoever opened it. What one client is owed does not
depend on the others: the server with its sessions only (`UDPServer.only`) still refines the
client's transfer, as long as nobody else opens a session under its session id
(`UDPServer.Hosts`, `UDPServer.hosts_step`).

Three things are behind this. A session that is active answers a stranger inside
`read_data_to_buffer` and waits on. What a session of somebody else confirms carries another
session id, wherever it is sent. And between sessions the server forgets everything but the
static addresses, which only say where a reply goes.
-/

set_option autoImplicit false

namespace Ppcb

open ByteOrder CString Reactive Relation

/-! ## The server as one client sees it -/

/-- A session of somebody else is no session. -/
def ServerMode.only (client : SockAddr) : ServerMode → ServerMode
  | .udp s => if s.currClientAddr = client then .udp s else .idle
  | .udpr s => if s.currClientAddr = client then .udpr s else .idle
  | mode => mode

/-- The server with the sessions of one client. -/
def UDPServer.only (client : SockAddr) (s : UDPServer) : UDPServer :=
  { s with
    mode := s.mode.only client
    ended := s.ended.filter (·.currClientAddr = client) }

section Only

variable {client : SockAddr}

theorem ServerMode.current_only (mode : ServerMode) :
    (mode.only client).current = mode.current.filter (·.currClientAddr = client) := by
  cases mode with
  | idle => rfl
  | finished => rfl
  | udp s =>
      by_cases own : s.currClientAddr = client <;> simp [only, current, own]
  | udpr s =>
      by_cases own : s.currClientAddr = client <;> simp [only, current, own]

theorem UDPServer.sessions_only (s : UDPServer) :
    (s.only client).sessions = s.sessions.filter (·.currClientAddr = client) := by
  rw [sessions, sessions, List.filter_append]
  exact congrArg _ (ServerMode.current_only s.mode)

theorem UDPServer.mem_of_mem_only {s : UDPServer} {session : UDPSession}
    (member : session ∈ (s.only client).sessions) : session ∈ s.sessions := by
  rw [sessions_only] at member
  exact (List.mem_filter.mp member).1

theorem ServerMode.waits_only {mode : ServerMode} (waits : mode.Waits) :
    (mode.only client).Waits := by
  cases mode with
  | idle => trivial
  | finished => trivial
  | udp s =>
      by_cases own : s.currClientAddr = client
      · rwa [only, if_pos own]
      · rw [only, if_neg own]
        trivial
  | udpr s =>
      by_cases own : s.currClientAddr = client
      · rwa [only, if_pos own]
      · rw [only, if_neg own]
        trivial

theorem UDPServer.only_afterUDP (s : UDPServer) {receiving : Receiving UDPSession}
    (own : receiving.flow.session.currClientAddr = client) :
    (s.afterUDP receiving).only client = (s.only client).afterUDP receiving := by
  obtain ⟨flow, clientAddress⟩ := receiving
  cases flow with
  | waiting session =>
      have own : session.currClientAddr = client := own
      simp only [only, afterUDP, ServerMode.only, if_pos own]
  | returned session =>
      have own : session.currClientAddr = client := own
      simp [only, afterUDP, ServerMode.only, own]

theorem UDPServer.only_afterUDPR (s : UDPServer) {receiving : Receiving UDPRSession}
    (own : receiving.flow.session.currClientAddr = client) :
    (s.afterUDPR receiving).only client = (s.only client).afterUDPR receiving := by
  obtain ⟨flow, clientAddress⟩ := receiving
  cases flow with
  | waiting session =>
      have own : session.currClientAddr = client := own
      simp only [only, afterUDPR, ServerMode.only, if_pos own]
  | returned session =>
      have own : session.currClientAddr = client := own
      simp [only, afterUDPR, ServerMode.only, own]

/-- A session of somebody else leaves nothing behind. -/
theorem UDPServer.only_afterUDP_foreign (s : UDPServer) {receiving : Receiving UDPSession}
    (foreign : receiving.flow.session.currClientAddr ≠ client) :
    ((s.afterUDP receiving).only client).mode = .idle ∧
      ((s.afterUDP receiving).only client).sessions =
        s.ended.filter (·.currClientAddr = client) := by
  constructor
  · obtain ⟨flow, clientAddress⟩ := receiving
    cases flow with
    | waiting session => exact if_neg foreign
    | returned session => rfl
  · rw [sessions_only, sessions_afterUDP, List.filter_append,
      List.filter_cons_of_neg (by simpa using foreign), List.filter_nil, List.append_nil]

theorem UDPServer.only_afterUDPR_foreign (s : UDPServer) {receiving : Receiving UDPRSession}
    (foreign : receiving.flow.session.currClientAddr ≠ client) :
    ((s.afterUDPR receiving).only client).mode = .idle ∧
      ((s.afterUDPR receiving).only client).sessions =
        s.ended.filter (·.currClientAddr = client) := by
  constructor
  · obtain ⟨flow, clientAddress⟩ := receiving
    cases flow with
    | waiting session => exact if_neg foreign
    | returned session => rfl
  · rw [sessions_only, sessions_afterUDPR, List.filter_append,
      List.filter_cons_of_neg (by simpa using foreign), List.filter_nil, List.append_nil]

end Only

/-! ## What a session confirms -/

/-- A reply that confirms nothing, or confirms something under the session id `sessionId`. -/
def Reply.About (sessionId : UInt64) (reply : Reply) : Prop :=
  reply.ConfirmsNothing ∨ (∃ p, reply.bytes = (initACC sessionId p).store) ∨
    reply.bytes = (initRCVD sessionId).store

theorem initACC_session {s s' p p' : UInt64}
    (same : (initACC s p).store = (initACC s' p').store) : s = s' := by
  have session := congrArg sessionOf same
  simpa [initACC] using session

theorem initRCVD_session {s s' : UInt64} (same : (initRCVD s).store = (initRCVD s').store) :
    s = s' := by
  have session := congrArg sessionOf same
  simpa [initRCVD] using session

theorem initACC_ne_initRCVD (s p s' : UInt64) :
    (initACC s p).store ≠ (initRCVD s').store := by
  intro same
  have types := congrArg typeOf same
  simp [initACC, initRCVD, accId, rcvdId] at types

/-- What is said under another session id is no matter of the transfer. -/
theorem Reply.About.justified {cut : Cut} {sessionId : UInt64} {reply : Reply}
    (about : reply.About sessionId) (other : sessionId ≠ cut.sessionId)
    (t : Transfer (List UInt8)) : reply.Justified cut t := by
  rcases about with silent | ⟨p, acc⟩ | rcvd
  · exact silent.justified
  · refine ⟨fun p' acc' => ?_, fun rcvd => ?_⟩
    · exact absurd (initACC_session (acc.symm.trans acc')) other
    · exact absurd (acc.symm.trans rcvd) (initACC_ne_initRCVD _ _ _)
  · refine ⟨fun p' acc' => ?_, fun rcvd' => ?_⟩
    · exact absurd (acc'.symm.trans rcvd) (initACC_ne_initRCVD _ _ _)
    · exact absurd (initRCVD_session (rcvd.symm.trans rcvd')) other

section About

variable (clientAddress : SockAddr) (r : RecvFrom) (uninit : ServerUninit)

theorem udpDataReceiveLoop_about (s : UDPSession) :
    ∀ reply ∈ (udpDataReceiveLoop s clientAddress).2, reply.About s.conn.sessionId := by
  intro reply member
  exact .inr (.inr ((udpDataReceiveLoop_cases s clientAddress).2.2 reply member).1)

theorem udprDataReceiveLoop_about (s : UDPRSession) :
    ∀ reply ∈ (udprDataReceiveLoop s clientAddress).2, reply.About s.conn.sessionId := by
  intro reply member
  rcases (udprDataReceiveLoop_cases s clientAddress).2.2 reply member with silent | rcvd
  · exact .inl silent
  · exact .inr (.inr rcvd.1)

/-- A pass keeps the `CONN` of the session, and confirms only under its id. -/
theorem udpDataReceivePass_about (s : UDPSession) :
    (udpDataReceivePass s clientAddress r uninit).1.flow.session.conn = s.conn ∧
      ∀ reply ∈ (udpDataReceivePass s clientAddress r uninit).2,
        reply.About s.conn.sessionId := by
  rcases udpDataReceivePass_cases s clientAddress r uninit with
    ⟨src, payload, -, -, accepted⟩ | ⟨same, silent⟩
  · rw [accepted]
    refine ⟨?_, udpDataReceiveLoop_about src (s.accept payload)⟩
    rw [(udpDataReceiveLoop_cases _ _).1]
    rfl
  · exact ⟨by rw [same], fun reply member => .inl (silent reply member)⟩

theorem udprDataReceivePass_about (s : UDPRSession) :
    (udprDataReceivePass s clientAddress r uninit).1.flow.session.conn = s.conn ∧
      ∀ reply ∈ (udprDataReceivePass s clientAddress r uninit).2,
        reply.About s.conn.sessionId := by
  rcases udprDataReceivePass_cases s clientAddress r uninit with
    ⟨src, payload, -, -, accepted⟩ | ⟨⟨nbr, same⟩, silent⟩
  · rw [accepted]
    constructor
    · show (udprDataReceiveLoop (s.accept payload) src).1.flow.session.conn = s.conn
      rw [(udprDataReceiveLoop_cases _ _).1]
      rfl
    · intro reply member
      rcases List.mem_cons.mp member with rfl | final
      · exact .inr (.inl ⟨_, rfl⟩)
      · exact udprDataReceiveLoop_about src (s.accept payload) reply final
  · refine ⟨by rw [same], fun reply member => ?_⟩
    rcases silent reply member with silent | ⟨-, acc⟩
    · exact .inl silent
    · exact .inr (.inl ⟨_, acc⟩)

end About

/-! ## The client's own session -/

/-- A `CONN` of the right length with the session id `sessionId`. -/
def OpensSession (sessionId : UInt64) (bytes : List UInt8) : Prop :=
  bytes.length = sizeofCONN ∧ typeOf bytes = connId ∧ sessionOf bytes = sessionId

instance (sessionId : UInt64) (bytes : List UInt8) : Decidable (OpensSession sessionId bytes) :=
  inferInstanceAs (Decidable (_ ∧ _ ∧ _))

/-- The client offers its transfer; from elsewhere anything may come but a `CONN` under the
client's session id. -/
def RecvFrom.Among (cut : Cut) (client : SockAddr) : RecvFrom → Prop
  | .datagram src bytes =>
      (src = client → cut.Offer bytes) ∧ (src ≠ client → ¬ OpensSession cut.sessionId bytes)
  | .failed _ => True

section Own

variable {cut : Cut} {client : SockAddr}

theorem RecvFrom.Among.offered {r : RecvFrom} (among : r.Among cut client)
    (source : r.FromClient client) : r.Offered cut := by
  cases r with
  | failed errno => trivial
  | datagram src bytes => exact among.1 source

theorem RecvFrom.eq_datagram_of_not_fromClient {r : RecvFrom} (foreign : ¬ r.FromClient client) :
    ∃ src bytes, r = .datagram src bytes ∧ src ≠ client := by
  cases r with
  | failed errno => exact absurd trivial foreign
  | datagram src bytes => exact ⟨src, bytes, rfl, foreign⟩

/-- A session that goes on as it was. -/
theorem Served.ignored {s : UDPSession} (agrees : s.Agrees cut) {replies : List Reply}
    (silent : ∀ reply ∈ replies, reply.ConfirmsNothing) : Served cut s s replies where
  agrees := agrees
  progress := .inl rfl
  replies reply member _ _ := (silent reply member).justified

theorem answerForeign_confirmsNothing (src : SockAddr) (uninit : ServerUninit)
    (buff : List UInt8) : ∀ reply ∈ answerForeign src uninit buff, reply.ConfirmsNothing :=
  fun reply member => (rejects_answerForeign src uninit buff reply member).confirmsNothing

theorem udpDataReceivePass_among {s : UDPSession} (agrees : s.Agrees cut) (waits : s.Waits)
    (own : s.currClientAddr = client) (clientAddress : SockAddr) {r : RecvFrom}
    (among : r.Among cut client) (uninit : ServerUninit) :
    Served cut s (udpDataReceivePass s clientAddress r uninit).1.flow.session
        (udpDataReceivePass s clientAddress r uninit).2 ∧
      ∀ s', (udpDataReceivePass s clientAddress r uninit).1.flow = .waiting s' → s'.Waits := by
  by_cases source : r.FromClient client
  · exact udpDataReceivePass_served agrees waits clientAddress (among.offered source) uninit
  · obtain ⟨src, bytes, rfl, foreign⟩ := RecvFrom.eq_datagram_of_not_fromClient source
    rw [udp_attentive.foreign s clientAddress src bytes uninit (by rwa [own])]
    refine ⟨.ignored agrees (answerForeign_confirmsNothing _ _ _), fun s' flow => ?_⟩
    cases flow
    exact waits

theorem udprDataReceivePass_among {s : UDPRSession} (agrees : s.toUDPSession.Agrees cut)
    (waits : s.Waits) (own : s.currClientAddr = client) (clientAddress : SockAddr) {r : RecvFrom}
    (among : r.Among cut client) (uninit : ServerUninit) :
    Served cut s.toUDPSession
        (udprDataReceivePass s clientAddress r uninit).1.flow.session.toUDPSession
        (udprDataReceivePass s clientAddress r uninit).2 ∧
      ∀ s', (udprDataReceivePass s clientAddress r uninit).1.flow = .waiting s' → s'.Waits := by
  by_cases source : r.FromClient client
  · exact udprDataReceivePass_served agrees waits clientAddress (among.offered source) uninit
  · obtain ⟨src, bytes, rfl, foreign⟩ := RecvFrom.eq_datagram_of_not_fromClient source
    rw [udpr_attentive.foreign s clientAddress src bytes uninit (by rwa [own])]
    refine ⟨.ignored agrees (answerForeign_confirmsNothing _ _ _), fun s' flow => ?_⟩
    cases flow
    exact waits

end Own

/-! ## Opening a session -/

section Idle

variable {client : SockAddr}

/-- The client opens its own session, whatever the others have done. -/
theorem UDPServer.openSession_only (s : UDPServer) (conn : CONN) :
    ((s.openSession conn client).1.only client, (s.openSession conn client).2) =
      (s.only client).openSession conn client := by
  simp only [openSession]
  split
  · have own : (udpDataReceiveLoop (.start conn client)
        s.udpClientAddress).1.flow.session.currClientAddr = client := by
      rw [(udpDataReceiveLoop_cases _ _).1]
      rfl
    exact congrArg (·, _) (s.only_afterUDP own)
  split
  · have own : (udprDataReceiveLoop (.start conn client)
        s.udprClientAddress).1.flow.session.currClientAddr = client := by
      rw [(udprDataReceiveLoop_cases _ _).1]
      rfl
    exact congrArg (·, _) (s.only_afterUDPR own)
  · rfl

/-- `recvfrom` overwrites the address when the idle loop hears a datagram. -/
theorem readDataToBuffer_heard {r : RecvFrom} (source : r.FromClient client)
    {uninit : ServerUninit} {buff : List UInt8}
    (success : (readDataToBuffer ⟨0, 0⟩ none uninit r).ret = some (.SUCCESS, buff)) :
    (readDataToBuffer ⟨0, 0⟩ none uninit r).clientAddress = client := by
  cases r with
  | failed errno => cases errno <;> cases success
  | datagram src bytes =>
      cases source
      simp only [readDataToBuffer]
      split
      · rfl
      split <;> rfl

/-- A datagram of the client, or a failed call, does to the idle server what it does to the
server without the others. -/
theorem UDPServer.onIdle_only (s : UDPServer) {r : RecvFrom} (source : r.FromClient client)
    (uninit : ServerUninit) (conacc : SendTo) :
    ((s.onIdle r uninit conacc).1.only client, (s.onIdle r uninit conacc).2) =
      (s.only client).onIdle r uninit conacc := by
  have finish : (s.only client).finish = s.finish := rfl
  simp only [onIdle, finish]
  split
  · rename_i buff success
    rw [readDataToBuffer_heard source success]
    split
    · rfl
    split
    · rfl
    · rw [← openSession_only]
  · split <;> rfl
  · rfl

theorem UDPServer.sessions_idle {s : UDPServer} (idle : s.mode = .idle) :
    s.sessions = s.ended := by
  rw [sessions, idle]
  exact List.append_nil _

/-- The session that is opened is the only new one. -/
theorem UDPServer.openSession_fresh {s : UDPServer} (idle : s.mode = .idle) (conn : CONN)
    (src : SockAddr) : ∀ session ∈ (s.openSession conn src).1.sessions,
      session ∈ s.sessions ∨ session = .start conn src := by
  intro session member
  simp only [openSession] at member
  split at member
  · rw [sessions_afterUDP, (udpDataReceiveLoop_cases _ _).1, ← sessions_idle idle] at member
    exact (List.mem_append.mp member).imp_right List.mem_singleton.mp
  split at member
  · rw [sessions_afterUDPR, (udprDataReceiveLoop_cases _ _).1, ← sessions_idle idle] at member
    exact (List.mem_append.mp member).imp_right List.mem_singleton.mp
  · exact .inl member

theorem UDPServer.openSession_about (s : UDPServer) (conn : CONN) (src : SockAddr) :
    ∀ reply ∈ (s.openSession conn src).2, reply.About conn.sessionId := by
  intro reply member
  simp only [openSession] at member
  split at member
  · exact udpDataReceiveLoop_about _ (.start conn src) reply member
  split at member
  · exact udprDataReceiveLoop_about _ (.start conn src) reply member
  · cases member

/-- A stranger's session is no session of the client. -/
theorem UDPServer.openSession_foreign {s : UDPServer} (idle : s.mode = .idle) (conn : CONN)
    {src : SockAddr} (foreign : src ≠ client) :
    ((s.openSession conn src).1.only client).mode = .idle ∧
      ((s.openSession conn src).1.only client).sessions = (s.only client).sessions := by
  have filtered : (s.only client).sessions = s.ended.filter (·.currClientAddr = client) := by
    rw [sessions_only, sessions_idle idle]
  rw [filtered]
  simp only [openSession]
  split
  · apply only_afterUDP_foreign
    rwa [(udpDataReceiveLoop_cases _ _).1]
  split
  · apply only_afterUDPR_foreign
    rwa [(udprDataReceiveLoop_cases _ _).1]
  · refine ⟨?_, filtered⟩
    show s.mode.only client = .idle
    rw [idle]
    rfl

/-- What the idle server makes of a stranger's datagram. -/
inductive UDPServer.Greets (s : UDPServer) (src : SockAddr) (bytes : List UInt8) :
    UDPServer × List Reply → Prop where
  | unmoved (replies : List Reply) (silent : ∀ reply ∈ replies, reply.ConfirmsNothing) :
      Greets s src bytes (s, replies)
  | finished : Greets s src bytes ({ s with mode := .finished }, [])
  | opened (conn : CONN) (whole : OpensSession conn.sessionId bytes)
      (protocol : conn.protocolId = protocolOf bytes) :
      Greets s src bytes ((s.openSession conn src).1,
        sendCONACC .serverHandler src conn.sessionId :: (s.openSession conn src).2)

/-- A correct `CONN` is the whole datagram. -/
theorem opensSession_of_correct {bytes : List UInt8} {uninit : CONN}
    (correct : (checkIfCorrectCONN (bytes.take receiveBufforSize) uninit).1 = .SUCCESS) :
    OpensSession (checkIfCorrectCONN (bytes.take receiveBufforSize) uninit).2.sessionId bytes ∧
      (checkIfCorrectCONN (bytes.take receiveBufforSize) uninit).2.protocolId =
        protocolOf bytes := by
  obtain ⟨sessionId, protocol, total, known, packet⟩ :=
    (checkIfCorrectCONN_success_iff _ _).mp correct
  have length := congrArg List.length packet
  rw [List.length_take, CONN.length_store] at length
  have whole : bytes.take receiveBufforSize = bytes := by
    apply List.take_of_length_le
    simp only [sizeofCONN, receiveBufforSize] at length ⊢
    omega
  rw [packet, checkIfCorrectCONN_initCONN uninit sessionId total known, ← whole, packet]
  refine ⟨⟨CONN.length_store _, ?_, ?_⟩, ?_⟩
  · rw [store_initCONN, typeOf_cons]
  · rw [store_initCONN, sessionOf_cons]
  · rw [store_initCONN, protocolOf_cons]

theorem UDPServer.onIdle_greets (s : UDPServer) (src : SockAddr) (bytes : List UInt8)
    (uninit : ServerUninit) (conacc : SendTo) :
    s.Greets src bytes (s.onIdle (.datagram src bytes) uninit conacc) := by
  obtain ⟨replies, returned⟩ := readDataToBuffer_cases ⟨0, 0⟩ none uninit (.datagram src bytes)
  simp only [onIdle]
  split
  · rename_i buff success
    have heard : (RecvFrom.datagram src bytes).FromClient src := rfl
    rw [readDataToBuffer_heard heard success]
    rcases returned _ _ success with ⟨-, rfl⟩ | impossible | impossible
    · split
      · refine .unmoved _ ?_
        intro reply member
        cases List.mem_singleton.mp member
        exact (sendCONRJT_rejects _ _ _).confirmsNothing
      rename_i correct
      split
      · exact .unmoved _ fun _ member => absurd member List.not_mem_nil
      · obtain ⟨whole, protocol⟩ := opensSession_of_correct (not_not.mp correct)
        exact .opened _ whole protocol
    · cases impossible
    · cases impossible
  · split
    · exact .finished
    · exact .unmoved _ fun _ member => absurd member List.not_mem_nil
  · exact .unmoved _ fun reply member => (replies reply member).confirmsNothing

end Idle

/-! ## One step of the server -/

/-- The sessions of the client follow its cut, and nobody else's session has its id. -/
structure UDPServer.Hosts (cut : Cut) (client : SockAddr) (s : UDPServer) : Prop where
  own : (s.only client).Agrees cut
  others : ∀ session ∈ s.sessions, session.currClientAddr ≠ client →
    session.conn.sessionId ≠ cut.sessionId

def ServerEvent.Among (cut : Cut) (client : SockAddr) : ServerEvent → Prop
  | .recvfrom r _ _ => r.Among cut client
  | .catchInt => True

section Step

variable {cut : Cut} {client : SockAddr}

/-- A step that leaves the client's sessions alone and says nothing about them. -/
theorem UDPServer.Refines.unmoved {s s' : UDPServer} {replies : List Reply}
    (before : s.Agrees cut) (same : s'.sessions = s.sessions) (waits : s'.mode.Waits)
    (justified : ∀ reply ∈ replies, ∀ t : Transfer (List UInt8), reply.Justified cut t) :
    UDPServer.Refines cut s s' replies where
  agrees := ⟨by rw [same]; exact before.sessions, waits⟩
  moves confirmed finished := by
    rw [UDPServer.received, UDPServer.received, same]
  replies reply member _ _ := justified reply member _

/-- What one step does to the sessions of the client and to those of the others. -/
structure UDPServer.Accommodates (cut : Cut) (client : SockAddr) (s s' : UDPServer)
    (replies : List Reply) : Prop where
  refines : UDPServer.Refines cut (s.only client) (s'.only client) replies
  others : ∀ session ∈ s'.sessions, session.currClientAddr ≠ client →
    session.conn.sessionId ≠ cut.sessionId

theorem UDPServer.sessions_finished {s : UDPServer} (idle : s.mode = .idle) :
    ({ s with mode := .finished } : UDPServer).sessions = s.sessions := by
  rw [sessions_idle idle]
  exact List.append_nil _

/-- A session that opens has the source of a `CONN` that was heard, its id and its protocol. -/
theorem UDPServer.onIdle_fresh {s : UDPServer} (idle : s.mode = .idle) (r : RecvFrom)
    (uninit : ServerUninit) (conacc : SendTo) :
    ∀ session ∈ (s.onIdle r uninit conacc).1.sessions,
      session ∈ s.sessions ∨ ∃ bytes, r = .datagram session.currClientAddr bytes ∧
        OpensSession session.conn.sessionId bytes ∧
          session.conn.protocolId = protocolOf bytes := by
  intro session member
  cases r with
  | failed errno =>
      left
      have failed : (s.onIdle (.failed errno) uninit conacc).1 =
          if s.finish then { s with mode := .finished } else s := by
        cases errno <;> cases flag : s.finish <;> simp [onIdle, readDataToBuffer, flag]
      rw [failed] at member
      split at member
      · rwa [sessions_finished idle] at member
      · exact member
  | datagram src bytes =>
      have greets := s.onIdle_greets src bytes uninit conacc
      generalize s.onIdle (.datagram src bytes) uninit conacc = result at greets member
      cases greets with
      | unmoved replies silent => exact .inl member
      | finished =>
          rw [sessions_finished idle] at member
          exact .inl member
      | opened conn whole protocol =>
          rcases openSession_fresh idle conn src session member with member | rfl
          · exact .inl member
          · exact .inr ⟨bytes, rfl, whole, protocol⟩

/-- The idle server hears the client, or nobody. -/
theorem UDPServer.Hosts.greet_own {s : UDPServer} (hosts : s.Hosts cut client)
    (idle : s.mode = .idle) {r : RecvFrom} (source : r.FromClient client)
    (offered : r.Offered cut) (uninit : ServerUninit) (conacc : SendTo) :
    UDPServer.Accommodates cut client s (s.onIdle r uninit conacc).1
      (s.onIdle r uninit conacc).2 := by
  have only_idle : (s.only client).mode = .idle := by
    show s.mode.only client = .idle
    rw [idle]
    rfl
  have refines := UDPServer.onIdle_refines hosts.own only_idle offered uninit conacc
  rw [← s.onIdle_only source uninit conacc] at refines
  refine ⟨refines, fun session member stranger => ?_⟩
  rcases UDPServer.onIdle_fresh idle r uninit conacc session member with
    member | ⟨bytes, rfl, -⟩
  · exact hosts.others session member stranger
  · exact absurd source stranger

/-- The idle server hears a stranger. -/
theorem UDPServer.Hosts.greet_stranger {s : UDPServer} (hosts : s.Hosts cut client)
    (idle : s.mode = .idle) {src : SockAddr} (foreign : src ≠ client) {bytes : List UInt8}
    (closed : ¬ OpensSession cut.sessionId bytes) (uninit : ServerUninit) (conacc : SendTo) :
    UDPServer.Accommodates cut client s (s.onIdle (.datagram src bytes) uninit conacc).1
      (s.onIdle (.datagram src bytes) uninit conacc).2 := by
  have greets := s.onIdle_greets src bytes uninit conacc
  generalize s.onIdle (.datagram src bytes) uninit conacc = result at greets ⊢
  cases greets with
  | unmoved replies silent =>
      exact ⟨.quiet hosts.own rfl hosts.own.mode silent, hosts.others⟩
  | finished =>
      have sessions := UDPServer.sessions_finished idle
      constructor
      · refine .quiet hosts.own ?_ trivial ?_
        · rw [UDPServer.sessions_only, UDPServer.sessions_only, sessions]
        · exact fun _ member => absurd member List.not_mem_nil
      · rw [sessions]
        exact hosts.others
  | opened conn whole =>
      have other : conn.sessionId ≠ cut.sessionId := by
        intro same
        rw [same] at whole
        exact closed whole
      obtain ⟨mode, sessions⟩ := UDPServer.openSession_foreign idle conn foreign
      constructor
      · refine .unmoved hosts.own sessions (by rw [mode]; trivial) ?_
        intro reply member t
        rcases List.mem_cons.mp member with rfl | member
        · exact (sendCONACC_confirmsNothing _ _ _).justified
        · exact (s.openSession_about conn src reply member).justified other t
      · intro session member stranger
        rcases UDPServer.openSession_fresh idle conn src session member with member | rfl
        · exact hosts.others session member stranger
        · exact other

/-- The client's own session, when it is active. -/
theorem UDPServer.Hosts.active {s : UDPServer} (hosts : s.Hosts cut client)
    {session : UDPSession} (current : s.mode.current = [session])
    (own : session.currClientAddr = client) : session.Agrees cut ∧ s.mode.Waits := by
  constructor
  · refine hosts.own.sessions session ?_
    rw [UDPServer.sessions_only, UDPServer.sessions, current]
    simp [own]
  · have waits := hosts.own.mode
    rw [UDPServer.only] at waits
    cases mode : s.mode with
    | idle => trivial
    | finished => trivial
    | udp session' =>
        rw [mode] at current waits
        cases current
        rwa [ServerMode.only, if_pos own] at waits
    | udpr session' =>
        rw [mode] at current waits
        cases current
        rwa [ServerMode.only, if_pos own] at waits

/-- A pass over the client's own session. -/
theorem UDPServer.Hosts.serve_own {s s' : UDPServer} {before after : UDPSession}
    {replies : List Reply} (hosts : s.Hosts cut client) (current : s.mode.current = [before])
    (own : before.currClientAddr = client) (served : Served cut before after replies)
    (sessions : s'.sessions = s.ended ++ [after])
    (kept : after.currClientAddr = before.currClientAddr) (waits : s'.mode.Waits) :
    UDPServer.Accommodates cut client s s' replies := by
  have kept := kept.trans own
  have earlier : (s.only client).sessions =
      s.ended.filter (·.currClientAddr = client) ++ [before] := by
    rw [UDPServer.sessions_only, UDPServer.sessions, current, List.filter_append,
      List.filter_cons_of_pos (by simpa using own), List.filter_nil]
  constructor
  · refine .served hosts.own earlier served ?_ (ServerMode.waits_only waits)
    rw [UDPServer.sessions_only, sessions, List.filter_append,
      List.filter_cons_of_pos (by simpa using kept), List.filter_nil]
  · intro other member stranger
    rw [sessions] at member
    rcases List.mem_append.mp member with member | member
    · exact hosts.others other (List.mem_append_left _ member) stranger
    · rw [List.mem_singleton.mp member] at stranger
      exact absurd kept stranger

/-- A pass over a session of somebody else. -/
theorem UDPServer.Hosts.serve_stranger {s s' : UDPServer} {before after : UDPSession}
    {replies : List Reply} (hosts : s.Hosts cut client) (current : s.mode.current = [before])
    (foreign : before.currClientAddr ≠ client) (sessions : s'.sessions = s.ended ++ [after])
    (kept : after.currClientAddr = before.currClientAddr) (conn : after.conn = before.conn)
    (idle : (s'.only client).mode = .idle)
    (about : ∀ reply ∈ replies, reply.About before.conn.sessionId) :
    UDPServer.Accommodates cut client s s' replies := by
  have other : before.conn.sessionId ≠ cut.sessionId := by
    refine hosts.others before (List.mem_append_right _ ?_) foreign
    rw [current]
    exact List.mem_singleton_self _
  have kept : after.currClientAddr ≠ client := by rwa [kept]
  constructor
  · refine .unmoved hosts.own ?_ (by rw [idle]; trivial)
      fun reply member => (about reply member).justified other
    rw [UDPServer.sessions_only, UDPServer.sessions_only, sessions, UDPServer.sessions, current,
      List.filter_append, List.filter_append, List.filter_cons_of_neg (by simpa using kept),
      List.filter_cons_of_neg (by simpa using foreign)]
  · intro session member stranger
    rw [sessions] at member
    rcases List.mem_append.mp member with member | member
    · exact hosts.others session (List.mem_append_left _ member) stranger
    · rw [List.mem_singleton.mp member, conn]
      exact other

/-- A pass keeps the client and the `CONN` of the session. -/
theorem UDPServer.sessions_pass {s s' : UDPServer} {before after : UDPSession}
    (current : s.mode.current = [before]) (sessions : s'.sessions = s.ended ++ [after])
    (kept : after.currClientAddr = before.currClientAddr) (conn : after.conn = before.conn) :
    ∀ session ∈ s'.sessions, ∃ earlier ∈ s.sessions,
      earlier.currClientAddr = session.currClientAddr ∧ earlier.conn = session.conn := by
  intro session member
  rw [sessions] at member
  rcases List.mem_append.mp member with member | member
  · exact ⟨session, List.mem_append_left _ member, rfl, rfl⟩
  · cases List.mem_singleton.mp member
    refine ⟨before, List.mem_append_right _ ?_, kept.symm, conn.symm⟩
    rw [current]
    exact List.mem_singleton_self before

/-- **Where a session comes from**: it was there before the step, with the same client and the
same `CONN`, or a `CONN` was heard. -/
theorem UDPServer.sessions_next (s : UDPServer) (e : ServerEvent) :
    ∀ session ∈ (udpServerHandler.next s e).sessions,
      (∃ earlier ∈ s.sessions, earlier.currClientAddr = session.currClientAddr ∧
        earlier.conn = session.conn) ∨
      ∃ bytes uninit conacc, e = .recvfrom (.datagram session.currClientAddr bytes) uninit conacc ∧
        OpensSession session.conn.sessionId bytes ∧
          session.conn.protocolId = protocolOf bytes := by
  cases e with
  | catchInt => exact fun session member => .inl ⟨session, member, rfl, rfl⟩
  | recvfrom r uninit conacc =>
      simp only [Machine.next, udpServerHandler, UDPServer.step]
      split
      · rename_i idle
        intro session member
        rcases UDPServer.onIdle_fresh idle r uninit conacc session member with
          member | ⟨bytes, rfl, opens⟩
        · exact .inl ⟨session, member, rfl, rfl⟩
        · exact .inr ⟨bytes, uninit, conacc, rfl, opens⟩
      · rename_i session mode
        exact fun _ member => .inl (sessions_pass (by rw [mode]; rfl) (s.sessions_afterUDP _)
          (udp_attentive.keeps session s.udpClientAddress r uninit)
          (udpDataReceivePass_about s.udpClientAddress r uninit session).1 _ member)
      · rename_i session mode
        exact fun _ member => .inl (sessions_pass (by rw [mode]; rfl) (s.sessions_afterUDPR _)
          (udpr_attentive.keeps session s.udprClientAddress r uninit)
          (udprDataReceivePass_about s.udprClientAddress r uninit session).1 _ member)
      · exact fun session member => .inl ⟨session, member, rfl, rfl⟩

/-- **Every step of the shared server is a step of the client's transfer or none**, whoever is
heard and whoever's session is active. -/
theorem UDPServer.hosts_step {s : UDPServer} (hosts : s.Hosts cut client) {e : ServerEvent}
    (among : e.Among cut client) :
    UDPServer.Accommodates cut client s (udpServerHandler.next s e)
      (udpServerHandler.emit s e) := by
  cases e with
  | catchInt =>
      exact ⟨.quiet hosts.own rfl hosts.own.mode fun _ member => absurd member List.not_mem_nil,
        hosts.others⟩
  | recvfrom r uninit conacc =>
      simp only [Machine.next, Machine.emit, udpServerHandler, UDPServer.step]
      split
      · rename_i idle
        by_cases source : r.FromClient client
        · exact hosts.greet_own idle source (among.offered source) uninit conacc
        · obtain ⟨src, bytes, rfl, foreign⟩ := RecvFrom.eq_datagram_of_not_fromClient source
          exact hosts.greet_stranger idle foreign (among.2 foreign) uninit conacc
      · rename_i session mode
        have current : s.mode.current = [session] := by rw [mode]; rfl
        have kept := udp_attentive.keeps session s.udpClientAddress r uninit
        have sessions := s.sessions_afterUDP
          (udpDataReceivePass session s.udpClientAddress r uninit).1
        by_cases own : session.currClientAddr = client
        · obtain ⟨agrees, waits⟩ := hosts.active current own
          rw [mode] at waits
          obtain ⟨served, waits⟩ := udpDataReceivePass_among agrees waits own _ among uninit
          exact hosts.serve_own current own served sessions kept (UDPServer.waits_afterUDP waits)
        · obtain ⟨conn, about⟩ := udpDataReceivePass_about s.udpClientAddress r uninit session
          exact hosts.serve_stranger current own sessions kept conn
            (s.only_afterUDP_foreign (by rwa [kept])).1 about
      · rename_i session mode
        have current : s.mode.current = [session.toUDPSession] := by rw [mode]; rfl
        have kept := udpr_attentive.keeps session s.udprClientAddress r uninit
        have sessions := s.sessions_afterUDPR
          (udprDataReceivePass session s.udprClientAddress r uninit).1
        by_cases own : session.currClientAddr = client
        · obtain ⟨agrees, waits⟩ := hosts.active current own
          rw [mode] at waits
          obtain ⟨served, waits⟩ := udprDataReceivePass_among agrees waits own _ among uninit
          exact hosts.serve_own current own served sessions kept (UDPServer.waits_afterUDPR waits)
        · obtain ⟨conn, about⟩ := udprDataReceivePass_about s.udprClientAddress r uninit session
          exact hosts.serve_stranger current own sessions kept conn
            (s.only_afterUDPR_foreign (by rwa [kept])).1 about
      · exact ⟨.quiet hosts.own rfl hosts.own.mode (fun _ member => absurd member List.not_mem_nil),
          hosts.others⟩

end Step

end Ppcb
