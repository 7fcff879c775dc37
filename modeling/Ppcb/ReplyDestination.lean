import Ppcb.ServerNoninterference

/-!
# The replies of a session go to its client

What the receive loops themselves send, `RCVD`, `RJT`, `ACC` and the repeated `CONACC`, goes
to the client whose `CONN` opened the session, and a session that read all its bytes is
confirmed to it. The static address of the last sender is set by the first datagram of a
session only, so a session that declares no bytes is confirmed to whoever was heard last in
an earlier session of its protocol (`replies_to_opener`).
-/

set_option autoImplicit false

namespace Ppcb

open ByteOrder CString Reactive

/-- What a pass leaves behind in a session of `client`: the loop's own replies go to the
client, the session stays the client's, and a loop that returns with all its bytes has sent
`RCVD`. -/
structure Attended {σ : Type} (base : σ → UDPSession) (client : SockAddr) (sessionId : UInt64)
    (after : Receiving σ × List Reply) : Prop where
  dest : ∀ reply ∈ after.2, reply.origin = .dataReceive → reply.dest = client
  keepsClient : (base after.1.flow.session).currClientAddr = client
  keepsSession : (base after.1.flow.session).conn.sessionId = sessionId
  waits : ∀ s, after.1.flow = .waiting s → (base s).Waits
  confirms : ∀ s, after.1.flow = .returned s →
    (base s).bytesRecvd = (base s).conn.nbrOfBytesToBeSent →
    sendRCVD .dataReceive client sessionId ∈ after.2

theorem answerForeign_origin (src : SockAddr) (uninit : ServerUninit) (buff : List UInt8) :
    ∀ reply ∈ answerForeign src uninit buff, reply.origin = .readDataToBuffer := by
  intro reply member
  simp only [answerForeign] at member
  split at member
  · split at member
    · cases member
    · cases List.mem_singleton.mp member
      rfl
  split at member
  · cases List.mem_singleton.mp member
    rfl
  · cases member

section Pass

variable {σ : Type} {base : σ → UDPSession} {s : σ} {client : SockAddr} {sessionId : UInt64}

/-- A pass that leaves the session as it was, short of its bytes. -/
theorem Attended.unmoved {after : Receiving σ × List Reply}
    (same : base after.1.flow.session = base s) (waits : (base s).Waits)
    (dest : ∀ reply ∈ after.2, reply.origin = .dataReceive →
      reply.dest = (base s).currClientAddr) :
    Attended base (base s).currClientAddr (base s).conn.sessionId after where
  dest := dest
  keepsClient := by rw [same]
  keepsSession := by rw [same]
  waits s' flow := by
    rw [flow] at same
    rwa [show base s' = base s from same]
  confirms s' flow complete := by
    rw [flow] at same
    rw [show base s' = base s from same] at complete
    rw [UDPSession.Waits, complete] at waits
    exact absurd waits (UInt64.lt_irrefl _)

/-- What follows the test of a loop: it waits, or it has returned and, with all its bytes,
sent `RCVD`. -/
theorem Attended.loop {after : Receiving σ × List Reply}
    (same : after.1.flow.session = s)
    (waits : ∀ s', after.1.flow = .waiting s' → (base s).Waits)
    (dest : ∀ reply ∈ after.2, reply.dest = (base s).currClientAddr)
    (confirms : (base s).bytesRecvd = (base s).conn.nbrOfBytesToBeSent →
      sendRCVD .dataReceive (base s).currClientAddr (base s).conn.sessionId ∈ after.2) :
    Attended base (base s).currClientAddr (base s).conn.sessionId after where
  dest reply member _ := dest reply member
  keepsClient := by rw [same]
  keepsSession := by rw [same]
  waits s' flow := by
    rw [flow] at same
    rw [show s' = s from same]
    exact waits s' flow
  confirms s' flow complete := by
    rw [flow] at same
    rw [show s' = s from same] at complete
    exact confirms complete

/-- What a session that declares bytes does on entry, or one whose client was heard last. -/
theorem Attended.entry {conn : CONN} {clientAddress : SockAddr} {empty after : Receiving σ × List Reply}
    (start : after = if conn.nbrOfBytesToBeSent = 0 then empty
      else (⟨.waiting s, clientAddress⟩, []))
    (opened : base s = .start conn client)
    (loop : clientAddress = client → Attended base client conn.sessionId after)
    (confirmed : conn.nbrOfBytesToBeSent ≠ 0 ∨ clientAddress = client) :
    Attended base client conn.sessionId after := by
  rcases confirmed with nonzero | same
  · rw [start, if_neg nonzero]
    refine ⟨nofun, congrArg UDPSession.currClientAddr opened,
      congrArg (·.conn.sessionId) opened, ?_, nofun⟩
    rintro s' ⟨⟩
    rw [opened]
    exact UInt64.pos_iff_ne_zero.mpr nonzero
  · exact loop same

/-- A stranger's datagram. -/
theorem Attentive.foreign_attended
    {pass : σ → SockAddr → RecvFrom → ServerUninit → Receiving σ × List Reply}
    (attentive : Attentive pass (fun s => (base s).currClientAddr)) (waits : (base s).Waits)
    (clientAddress : SockAddr) {r : RecvFrom} (uninit : ServerUninit)
    (foreign : ¬ r.FromClient (base s).currClientAddr) :
    Attended base (base s).currClientAddr (base s).conn.sessionId
      (pass s clientAddress r uninit) := by
  cases r with
  | failed errno => exact absurd trivial foreign
  | datagram src bytes =>
      rw [attentive.foreign s clientAddress src bytes uninit foreign]
      refine .unmoved rfl waits ?_
      intro reply member origin
      rw [answerForeign_origin _ _ _ reply member] at origin
      cases origin

end Pass

/-! ## The loop without retransmission -/

theorem udpDataReceiveLoop_attended (s : UDPSession) :
    Attended id s.currClientAddr s.conn.sessionId
      (udpDataReceiveLoop s s.currClientAddr) := by
  obtain ⟨session, waiting, -⟩ := udpDataReceiveLoop_cases s s.currClientAddr
  refine .loop session waiting (udpDataReceiveLoop_dest _ _) fun complete => ?_
  have complete : s.bytesRecvd = s.conn.nbrOfBytesToBeSent := complete
  rw [udpDataReceiveLoop, if_neg (complete ▸ UInt64.lt_irrefl _), if_pos complete]
  exact List.mem_cons_self

theorem udpDataReceivePass_attended {s : UDPSession} (waits : s.Waits) (clientAddress : SockAddr)
    (r : RecvFrom) (uninit : ServerUninit) :
    Attended id s.currClientAddr s.conn.sessionId
      (udpDataReceivePass s clientAddress r uninit) := by
  by_cases source : r.FromClient s.currClientAddr
  swap
  · exact Attentive.foreign_attended udp_attentive waits clientAddress uninit source
  have dest := udp_attentive.replies s clientAddress r uninit source
  cases r with
  | failed errno =>
      have same : (udpDataReceivePass s clientAddress (.failed errno) uninit).1.flow.session = s := by
        cases errno <;> rfl
      exact .unmoved same waits fun reply member _ => dest reply member
  | datagram src bytes =>
      cases source
      rw [udpDataReceivePass_own] at dest ⊢
      split at dest
      · rename_i empty
        rw [if_pos empty]
        exact .unmoved rfl waits (by simp)
      rename_i nonempty
      rw [if_neg nonempty]
      rcases udpDataReceiveBody_cases s s.currClientAddr uninit (bytes.take receiveBufforSize) with
        ⟨payload, -, -, accepted⟩ | ⟨flow, -⟩
      · rw [accepted]
        exact udpDataReceiveLoop_attended (s.accept payload)
      · refine .unmoved ?_ waits fun reply member _ => dest reply member
        rw [flow]
        rfl

/-! ## The loop with retransmission -/

theorem udprDataReceiveLoop_attended (s : UDPRSession) :
    Attended UDPRSession.toUDPSession s.currClientAddr s.conn.sessionId
      (udprDataReceiveLoop s s.currClientAddr) := by
  obtain ⟨session, waiting, -⟩ := udprDataReceiveLoop_cases s s.currClientAddr
  refine .loop session waiting (udprDataReceiveLoop_dest _ _) fun complete => ?_
  rw [udprDataReceiveLoop, if_neg (complete ▸ UInt64.lt_irrefl _), if_pos complete]
  exact List.mem_cons_self

theorem udprDataReceivePass_attended {s : UDPRSession} (waits : s.toUDPSession.Waits)
    (clientAddress : SockAddr) (r : RecvFrom) (uninit : ServerUninit) :
    Attended UDPRSession.toUDPSession s.currClientAddr s.conn.sessionId
      (udprDataReceivePass s clientAddress r uninit) := by
  by_cases source : r.FromClient s.currClientAddr
  swap
  · exact Attentive.foreign_attended udpr_attentive waits clientAddress uninit source
  have dest := udpr_attentive.replies s clientAddress r uninit source
  cases r with
  | failed errno =>
      refine .unmoved ?_ waits fun reply member _ => dest reply member
      cases errno with
      | EAGAIN =>
          simp only [udprDataReceivePass, readDataToBuffer, if_true]
          split <;> rfl
      | EINTR => rfl
      | other code => rfl
  | datagram src bytes =>
      cases source
      rw [udprDataReceivePass_own] at dest ⊢
      split at dest
      · rename_i empty
        rw [if_pos empty]
        exact .unmoved rfl waits (by simp)
      rename_i nonempty
      rw [if_neg nonempty]
      rcases udprDataReceiveBody_cases s s.currClientAddr uninit (bytes.take receiveBufforSize) with
        ⟨payload, -, -, accepted⟩ | ⟨same, -⟩
      · rw [accepted] at dest ⊢
        have attended := udprDataReceiveLoop_attended (s.accept payload)
        exact ⟨fun reply member _ => dest reply member, attended.keepsClient, attended.keepsSession,
          attended.waits, fun s' flow complete =>
            List.mem_cons_of_mem _ (attended.confirms s' flow complete)⟩
      · exact .unmoved (by rw [same]) waits fun reply member _ => dest reply member

/-! ## The server -/

/-- A session of the client is active, short of its bytes. -/
def ServerMode.Serves (client : SockAddr) (sessionId : UInt64) : ServerMode → Prop
  | .udp s => s.currClientAddr = client ∧ s.conn.sessionId = sessionId ∧ s.Waits
  | .udpr s => s.currClientAddr = client ∧ s.conn.sessionId = sessionId ∧ s.toUDPSession.Waits
  | _ => False

/-- What a step of the server makes of the session that is active or just opened, after the
sessions `earlier`: it goes on, or it is over, and then confirmed if it has its bytes. -/
def UDPServer.Attends (earlier : List UDPSession) (client : SockAddr) (sessionId : UInt64)
    (s : UDPServer) (replies : List Reply) : Prop :=
  (∀ reply ∈ replies, reply.origin = .dataReceive → reply.dest = client) ∧
    (s.ended = earlier ∧ s.mode.Serves client sessionId ∨
      ∃ session, s.ended = earlier ++ [session] ∧
        (session.bytesRecvd = session.conn.nbrOfBytesToBeSent →
          sendRCVD .dataReceive client sessionId ∈ replies))

section Server

variable {client : SockAddr} {sessionId : UInt64}

theorem UDPServer.attends_afterUDP (s : UDPServer) {after : Receiving UDPSession × List Reply}
    (attended : Attended id client sessionId after) :
    Attends s.ended client sessionId (s.afterUDP after.1) after.2 := by
  refine ⟨attended.dest, ?_⟩
  obtain ⟨⟨flow, clientAddress⟩, replies⟩ := after
  cases flow with
  | waiting session =>
      exact .inl ⟨rfl, attended.keepsClient, attended.keepsSession, attended.waits session rfl⟩
  | returned session => exact .inr ⟨session, rfl, attended.confirms session rfl⟩

theorem UDPServer.attends_afterUDPR (s : UDPServer) {after : Receiving UDPRSession × List Reply}
    (attended : Attended UDPRSession.toUDPSession client sessionId after) :
    Attends s.ended client sessionId (s.afterUDPR after.1) after.2 := by
  refine ⟨attended.dest, ?_⟩
  obtain ⟨⟨flow, clientAddress⟩, replies⟩ := after
  cases flow with
  | waiting session =>
      exact .inl ⟨rfl, attended.keepsClient, attended.keepsSession, attended.waits session rfl⟩
  | returned session => exact .inr ⟨_, rfl, attended.confirms session rfl⟩

/-- **One step of an active session.** -/
theorem UDPServer.step_attends {s : UDPServer} (serves : s.mode.Serves client sessionId)
    (e : ServerEvent) :
    Attends s.ended client sessionId (udpServerHandler.next s e) (udpServerHandler.emit s e) := by
  obtain ⟨mode, udpAddress, udprAddress, finish, ended⟩ := s
  cases e with
  | catchInt => exact ⟨nofun, .inl ⟨rfl, serves⟩⟩
  | recvfrom r uninit conacc =>
      cases mode with
      | idle => cases serves
      | finished => cases serves
      | udp session =>
          obtain ⟨rfl, rfl, waits⟩ := serves
          exact attends_afterUDP _ (udpDataReceivePass_attended waits udpAddress r uninit)
      | udpr session =>
          obtain ⟨rfl, rfl, waits⟩ := serves
          exact attends_afterUDPR _ (udprDataReceivePass_attended waits udprAddress r uninit)

/-- The session after `earlier` is not over. -/
def UDPServer.During (earlier : List UDPSession) (s : UDPServer) (_ : ServerEvent) : Prop :=
  s.ended.length = earlier.length

/-- **A run of one session**, up to its end. -/
theorem UDPServer.run_attends {earlier : List UDPSession} {s : UDPServer} {replies : List Reply}
    {es : List ServerEvent} (attends : Attends earlier client sessionId s replies)
    (during : udpServerHandler.Along (During earlier) s es) :
    Attends earlier client sessionId (udpServerHandler.after s es)
      (replies ++ udpServerHandler.outputs s es) := by
  refine Machine.history_along (fun s history e attends active => ?_) attends during
  obtain ⟨dest, ⟨ended, serves⟩ | ⟨session, ended, -⟩⟩ := attends
  · obtain ⟨dest', outcome⟩ := step_attends serves e
    refine ⟨?_, ?_⟩
    · intro reply member
      rcases List.mem_append.mp member with before | now
      · exact dest reply before
      · exact dest' reply now
    · rw [ended] at outcome
      rcases outcome with going | ⟨session, ended', confirmed⟩
      · exact .inl going
      · exact .inr ⟨session, ended', fun complete => List.mem_append_right _ (confirmed complete)⟩
  · -- The session has ended, and the run was to stop there.
    have length : s.ended.length = earlier.length := active
    rw [ended, List.length_append, List.length_singleton] at length
    omega

end Server

/-! ## A session from its opening on -/

/-- The static address that a session of this protocol finds. -/
def UDPServer.lastSender (s : UDPServer) (protocol : UInt8) : SockAddr :=
  if protocol = udpProtocol then s.udpClientAddress else s.udprClientAddress

theorem udpDataReceiveLoop_start_attended {conn : CONN} {client clientAddress : SockAddr}
    (confirmed : conn.nbrOfBytesToBeSent ≠ 0 ∨ clientAddress = client) :
    Attended id client conn.sessionId
      (udpDataReceiveLoop (.start conn client) clientAddress) := by
  refine .entry (udpDataReceiveLoop_start conn client clientAddress) rfl ?_ confirmed
  rintro rfl
  exact udpDataReceiveLoop_attended (.start conn clientAddress)

theorem udprDataReceiveLoop_start_attended {conn : CONN} {client clientAddress : SockAddr}
    (confirmed : conn.nbrOfBytesToBeSent ≠ 0 ∨ clientAddress = client) :
    Attended UDPRSession.toUDPSession client conn.sessionId
      (udprDataReceiveLoop (.start conn client) clientAddress) := by
  refine .entry (udprDataReceiveLoop_start conn client clientAddress) rfl ?_ confirmed
  rintro rfl
  exact udprDataReceiveLoop_attended (.start conn clientAddress)

section Open

variable {conn : CONN} (known : conn.protocolId = udpProtocol ∨ conn.protocolId = udprProtocol)

include known

theorem UDPServer.openSession_attends (s : UDPServer) {client : SockAddr}
    (confirmed : conn.nbrOfBytesToBeSent ≠ 0 ∨ s.lastSender conn.protocolId = client) :
    Attends s.ended client conn.sessionId (s.openSession conn client).1
      (s.openSession conn client).2 := by
  by_cases udp : conn.protocolId = udpProtocol
  · rw [lastSender, if_pos udp] at confirmed
    rw [openSession, if_pos udp]
    exact s.attends_afterUDP (udpDataReceiveLoop_start_attended confirmed)
  · rw [lastSender, if_neg udp] at confirmed
    rw [openSession, if_neg udp, if_pos (known.resolve_left udp)]
    exact s.attends_afterUDPR (udprDataReceiveLoop_start_attended confirmed)

/-- A session that declares no bytes is confirmed to the last sender. -/
theorem UDPServer.openSession_empty (s : UDPServer) (client : SockAddr)
    (zero : conn.nbrOfBytesToBeSent = 0) :
    sendRCVD .dataReceive (s.lastSender conn.protocolId) conn.sessionId ∈
      (s.openSession conn client).2 := by
  by_cases udp : conn.protocolId = udpProtocol
  · rw [lastSender, if_pos udp, openSession, if_pos udp, udpDataReceiveLoop_start, if_pos zero]
    exact List.mem_cons_self
  · rw [lastSender, if_neg udp, openSession, if_neg udp, if_pos (known.resolve_left udp),
      udprDataReceiveLoop_start, if_pos zero]
    exact List.mem_cons_self

end Open

/-- A correct `CONN` of the client, and a `CONACC` that gets out. -/
def correctCONN (client : SockAddr) (sessionId : UInt64) (protocol : UInt8) (total : UInt64)
    (uninit : ServerUninit) : ServerEvent :=
  .recvfrom (.datagram client (initCONN sessionId protocol total).store) uninit .sent

/-- In the session that `conn` opens, up to its end, the receive loop replies to the client
only, and a session that ends with all its bytes is confirmed to the client. -/
def UDPServer.RepliesTo (s : UDPServer) (conn : ServerEvent) (client : SockAddr)
    (sessionId : UInt64) : Prop :=
  ∀ es, udpServerHandler.Along (During s.ended) (udpServerHandler.next s conn) es →
    (∀ reply ∈ udpServerHandler.outputs s (conn :: es),
      reply.origin = .dataReceive → reply.dest = client) ∧
    ∀ session, (udpServerHandler.after s (conn :: es)).ended = s.ended ++ [session] →
      session.bytesRecvd = session.conn.nbrOfBytesToBeSent →
      sendRCVD .dataReceive client sessionId ∈ udpServerHandler.outputs s (conn :: es)

/-- **The replies of a session go to the client that opened it if and only if the session
declares bytes or the last sender of its protocol was that client.** -/
theorem replies_to_opener (history : List ServerEvent)
    (idle : (udpServerHandler.after .start history).mode = .idle) (client : SockAddr)
    (sessionId total : UInt64) {protocol : UInt8}
    (known : protocol = udpProtocol ∨ protocol = udprProtocol) (uninit : ServerUninit) :
    (udpServerHandler.after .start history).RepliesTo
        (correctCONN client sessionId protocol total uninit) client sessionId ↔
      total ≠ 0 ∨ (udpServerHandler.after .start history).lastSender protocol = client := by
  generalize udpServerHandler.after .start history = s at idle ⊢
  have known' : (⟨connId, sessionId, protocol, total⟩ : CONN).protocolId = udpProtocol ∨
    (⟨connId, sessionId, protocol, total⟩ : CONN).protocolId = udprProtocol := known
  have opens : udpServerHandler.step s (correctCONN client sessionId protocol total uninit) =
      ((s.openSession ⟨connId, sessionId, protocol, total⟩ client).1,
        sendCONACC .serverHandler client sessionId ::
          (s.openSession ⟨connId, sessionId, protocol, total⟩ client).2) := by
    rw [← s.onIdle_conn client uninit sessionId total known]
    obtain ⟨mode, udpAddress, udprAddress, finish, ended⟩ := s
    cases idle
    rfl
  have next := congrArg Prod.fst opens
  have emits := congrArg Prod.snd opens
  constructor
  · intro replies
    by_contra neither
    obtain ⟨zero, other⟩ := not_or.mp neither
    have rcvd := s.openSession_empty known' client (not_not.mp zero)
    apply other
    refine (replies [] trivial).1 (sendRCVD .dataReceive (s.lastSender protocol) sessionId) ?_ rfl
    rw [Machine.outputs_cons, Machine.outputs_nil, List.append_nil, Machine.emit, emits]
    exact List.mem_cons_of_mem _ rcvd
  · intro confirmed es during
    obtain ⟨dest, outcome⟩ := s.openSession_attends known' confirmed
    have attends : UDPServer.Attends s.ended client sessionId
        (udpServerHandler.next s (correctCONN client sessionId protocol total uninit))
        (udpServerHandler.emit s (correctCONN client sessionId protocol total uninit)) := by
      rw [Machine.next, Machine.emit, next, emits]
      refine ⟨?_, ?_⟩
      · intro reply member origin
        rcases List.mem_cons.mp member with rfl | later
        · cases origin
        · exact dest reply later origin
      · rcases outcome with active | ⟨session, ended', confirms⟩
        · exact .inl active
        · exact .inr ⟨session, ended', fun complete =>
            List.mem_cons_of_mem _ (confirms complete)⟩
    obtain ⟨dest, outcome⟩ := UDPServer.run_attends attends during
    refine ⟨dest, ?_⟩
    intro session ended' complete
    rw [Machine.after_cons] at ended'
    rcases outcome with ⟨active, -⟩ | ⟨session', ended'', confirms⟩
    · rw [active] at ended'
      simp at ended'
    · rw [ended''] at ended'
      cases List.singleton_inj.mp (List.append_cancel_left ended')
      exact confirms complete

/-- The first session of a server that declares one byte. -/
theorem replies_to_opener_oneByte :
    UDPServer.start.RepliesTo (correctCONN oneByteClient 7 udprProtocol 1 .zero)
      oneByteClient 7 :=
  (replies_to_opener [] rfl oneByteClient 7 1 (.inr rfl) .zero).mpr (.inl (by decide))

/-- One session of another client, over after its only packet. -/
def earlierSession : List ServerEvent :=
  [correctCONN ⟨3, 3⟩ 5 udpProtocol 1 .zero,
    .recvfrom (.datagram ⟨3, 3⟩ (dataBytes 5 0 [65])) .zero .sent]

/-- The `RCVD` of a session that declares no bytes goes to the client of the session before
it. -/
theorem rcvd_goes_astray :
    ¬ ∀ history, (udpServerHandler.after .start history).mode = .idle →
      ∀ client sessionId total protocol, protocol = udpProtocol ∨ protocol = udprProtocol →
        ∀ uninit, (udpServerHandler.after .start history).RepliesTo
          (correctCONN client sessionId protocol total uninit) client sessionId := by
  intro replies
  have idle : (udpServerHandler.after .start earlierSession).mode = .idle := by decide +kernel
  have dest := (replies earlierSession idle oneByteClient 7 0 udpProtocol (.inl rfl) .zero []
    trivial).1 (sendRCVD .dataReceive ⟨3, 3⟩ 7) (by decide +kernel) rfl
  revert dest
  decide

end Ppcb
