import Ppcb.Agreement

/-!
# Datagrams of strangers at the server

Every pass of a receive loop overwrites the static address of the last sender, and most
replies of the loop go to that address. All of them are sent while it holds the address of
the session's client, because a stranger's datagram is answered inside `read_data_to_buffer`
and the next reply of the loop waits for the client's next datagram. The one exception is a
session that declares no bytes: it is confirmed to whoever was heard in an earlier session
(`session_noninterference`).
-/

set_option autoImplicit false

namespace Ppcb

open ByteOrder CString Reactive

/-- A datagram of the client, or an answer of the system. -/
def RecvFrom.FromClient (client : SockAddr) : RecvFrom → Prop
  | .datagram src _ => src = client
  | .failed _ => True

instance (client : SockAddr) : DecidablePred (RecvFrom.FromClient client)
  | .datagram src _ => inferInstanceAs (Decidable (src = client))
  | .failed _ => .isTrue trivial

/-- The replies that a stranger may get to the datagram `r`: `CONRJT` with its session id to
a `CONN` of the right length, or `RJT`. -/
def Reply.RejectsStranger (r : RecvFrom) (reply : Reply) : Prop :=
  ∃ src bytes, r = .datagram src bytes ∧ reply.dest = src ∧
    (bytes.length = sizeofCONN ∧ typeOf bytes = connId ∧
        reply.bytes = (initCONRJT (sessionOf bytes)).store ∨
      ∃ sessionId packageId, reply.bytes = (initRJT sessionId packageId).store)

theorem answerForeign_rejects (src : SockAddr) (bytes : List UInt8) (uninit : ServerUninit) :
    ∀ reply ∈ answerForeign src uninit (bytes.take receiveBufforSize),
      reply.RejectsStranger (.datagram src bytes) := by
  intro reply member
  simp only [answerForeign] at member
  split at member
  · rename_i typeId
    split at member
    · cases member
    rename_i length
    cases List.mem_singleton.mp member
    have whole : bytes.take receiveBufforSize = bytes := by
      apply List.take_of_length_le
      have cut := not_not.mp length
      rw [List.length_take] at cut
      simp only [sizeofCONN, receiveBufforSize] at cut ⊢
      omega
    rw [whole] at typeId length
    have length : bytes.length = 18 := (not_not.mp length).symm
    rw [uninit.conn.receive_eq (by omega)] at typeId
    refine ⟨src, bytes, rfl, rfl, .inl ⟨length, typeId, ?_⟩⟩
    rw [whole, uninit.conn.receive_eq (by omega)]
    rfl
  split at member
  · cases List.mem_singleton.mp member
    exact ⟨src, bytes, rfl, rfl, .inr ⟨_, _, rfl⟩⟩
  · cases member

/-! ## Loops that attend to one client -/

/-- A receive loop that keeps its client, hears strangers in `read_data_to_buffer` only, and
otherwise does not depend on the static address. -/
structure Attentive {σ : Type}
    (pass : σ → SockAddr → RecvFrom → ServerUninit → Receiving σ × List Reply)
    (client : σ → SockAddr) : Prop where
  keeps : ∀ s a r uninit, client (pass s a r uninit).1.flow.session = client s
  foreign : ∀ s a src bytes uninit, src ≠ client s →
    pass s a (.datagram src bytes) uninit =
      (⟨.waiting s, src⟩, answerForeign src uninit (bytes.take receiveBufforSize))
  own : ∀ s a b r uninit, r.FromClient (client s) →
    (pass s a r uninit).1.flow = (pass s b r uninit).1.flow ∧
      (pass s a r uninit).2 = (pass s b r uninit).2
  replies : ∀ s a r uninit, r.FromClient (client s) →
    ∀ reply ∈ (pass s a r uninit).2, reply.dest = client s

theorem readDataToBuffer_foreign (clientAddress : SockAddr) {src correct : SockAddr}
    (uninit : ServerUninit) (bytes : List UInt8) (foreign : src ≠ correct) :
    readDataToBuffer clientAddress (some correct) uninit (.datagram src bytes) =
      ⟨src, answerForeign src uninit (bytes.take receiveBufforSize), none⟩ := by
  simp only [readDataToBuffer, Option.getD_some]
  rw [if_pos (SockAddr.ne_iff.mp foreign)]

/-- The client's datagram leaves its own address in the static variable. -/
theorem readDataToBuffer_own (clientAddress client : SockAddr) (uninit : ServerUninit)
    (bytes : List UInt8) :
    readDataToBuffer clientAddress (some client) uninit (.datagram client bytes) =
      ⟨client, [], some (if bytes.take receiveBufforSize = [] then (.ERROR, [])
        else (.SUCCESS, bytes.take receiveBufforSize))⟩ := by
  simp only [readDataToBuffer, Option.getD_some, ne_eq, not_true_eq_false, or_self, if_false,
    List.length_eq_zero_iff]
  split <;> rfl

theorem udpDataReceivePass_own (s : UDPSession) (clientAddress : SockAddr)
    (bytes : List UInt8) (uninit : ServerUninit) :
    udpDataReceivePass s clientAddress (.datagram s.currClientAddr bytes) uninit =
      if bytes.take receiveBufforSize = [] then (⟨.returned s, s.currClientAddr⟩, [])
      else udpDataReceiveBody s s.currClientAddr uninit (bytes.take receiveBufforSize) := by
  rw [udpDataReceivePass, readDataToBuffer_own]
  by_cases empty : bytes.take receiveBufforSize = []
  · rw [if_pos empty, if_pos empty]
  · rw [if_neg empty, if_neg empty]

theorem udprDataReceivePass_own (s : UDPRSession) (clientAddress : SockAddr)
    (bytes : List UInt8) (uninit : ServerUninit) :
    udprDataReceivePass s clientAddress (.datagram s.currClientAddr bytes) uninit =
      if bytes.take receiveBufforSize = [] then (⟨.returned s, s.currClientAddr⟩, [])
      else udprDataReceiveBody s s.currClientAddr uninit (bytes.take receiveBufforSize) := by
  rw [udprDataReceivePass, readDataToBuffer_own]
  by_cases empty : bytes.take receiveBufforSize = []
  · rw [if_pos empty, if_pos empty]
  · rw [if_neg empty, if_neg empty]

/-! ## Where the replies of a loop go -/

theorem udpDataReceiveLoop_dest (s : UDPSession) (clientAddress : SockAddr) :
    ∀ reply ∈ (udpDataReceiveLoop s clientAddress).2, reply.dest = clientAddress := by
  intro reply member
  simp only [udpDataReceiveLoop] at member
  split at member
  · cases member
  split at member
  · cases List.mem_singleton.mp member
    rfl
  · cases member

theorem udprDataReceiveLoop_dest (s : UDPRSession) (clientAddress : SockAddr) :
    ∀ reply ∈ (udprDataReceiveLoop s clientAddress).2, reply.dest = clientAddress := by
  intro reply member
  simp only [udprDataReceiveLoop] at member
  split at member
  · cases member
  split at member
  all_goals
    cases List.mem_singleton.mp member
    rfl

theorem udpDataReceiveBody_dest (s : UDPSession) (clientAddress : SockAddr)
    (uninit : ServerUninit) (buff : List UInt8) :
    ∀ reply ∈ (udpDataReceiveBody s clientAddress uninit buff).2, reply.dest = clientAddress := by
  intro reply member
  simp only [udpDataReceiveBody] at member
  split at member
  · cases List.mem_singleton.mp member
    rfl
  · exact udpDataReceiveLoop_dest _ _ reply member

theorem handleRetVal_dest (ret : RetVal) (clientAddress : SockAddr) (readBytes : ℕ)
    (currPackageId : UInt64) (dataInfo : DataInfo) (sessionId : UInt64) (isFirst : Bool) :
    ∀ reply ∈ (handleRetVal ret clientAddress readBytes currPackageId dataInfo sessionId
      isFirst).2, reply.dest = clientAddress := by
  intro reply member
  simp only [handleRetVal] at member
  repeat' split at member
  all_goals first
    | cases member
      done
    | cases List.mem_singleton.mp member
      rfl

/-- A timeout is answered at the saved address. -/
theorem doRetransmission_dest (clientAddress : SockAddr) (conn : CONN) (isFirst : Bool)
    (nbrOfRetransmits : ℕ) (currPackageId : UInt64) :
    ∀ reply ∈ (doRetransmission clientAddress conn isFirst nbrOfRetransmits currPackageId).2.2,
      reply.dest = clientAddress := by
  intro reply member
  simp only [doRetransmission] at member
  split at member
  · cases member
  split at member
  all_goals
    cases List.mem_singleton.mp member
    rfl

theorem udprDataReceiveBody_dest (s : UDPRSession) (clientAddress : SockAddr)
    (uninit : ServerUninit) (buff : List UInt8) :
    ∀ reply ∈ (udprDataReceiveBody s clientAddress uninit buff).2,
      reply.dest = clientAddress := by
  have handled := handleRetVal_dest
    (checkIfCorrectDATAPacket buff s.conn uninit.dataInfo s.currPackageId).1 clientAddress
    buff.length s.currPackageId
    (checkIfCorrectDATAPacket buff s.conn uninit.dataInfo s.currPackageId).2 s.conn.sessionId
    s.isFirstDATAPacket
  intro reply member
  simp only [udprDataReceiveBody] at member
  split at member
  · exact handled reply member
  · exact handled reply member
  · rcases List.mem_append.mp member with early | late
    · exact handled reply early
    rcases List.mem_cons.mp late with rfl | final
    · rfl
    · exact udprDataReceiveLoop_dest _ _ reply final

theorem udp_attentive : Attentive udpDataReceivePass UDPSession.currClientAddr where
  keeps s a r uninit := by
    rcases udpDataReceivePass_cases s a r uninit with
      ⟨src, payload, -, -, accepted⟩ | ⟨same, -⟩
    · rw [accepted, (udpDataReceiveLoop_cases _ _).1]
      rfl
    · rw [same]
  foreign s a src bytes uninit foreign := by
    rw [udpDataReceivePass, readDataToBuffer_foreign a uninit bytes foreign]
  own s a b r uninit source := by
    cases r with
    | failed errno => cases errno <;> exact ⟨rfl, rfl⟩
    | datagram src bytes =>
        cases source
        rw [udpDataReceivePass_own, udpDataReceivePass_own]
        exact ⟨rfl, rfl⟩
  replies s a r uninit source := by
    cases r with
    | failed errno => cases errno <;> simp [udpDataReceivePass, readDataToBuffer]
    | datagram src bytes =>
        cases source
        rw [udpDataReceivePass_own]
        split
        · simp
        · exact udpDataReceiveBody_dest _ _ _ _

theorem udpr_attentive :
    Attentive udprDataReceivePass (fun s : UDPRSession => s.currClientAddr) where
  keeps s a r uninit := by
    rcases udprDataReceivePass_cases s a r uninit with
      ⟨src, payload, -, -, accepted⟩ | ⟨⟨nbr, same⟩, -⟩
    · rw [accepted]
      simp only
      rw [(udprDataReceiveLoop_cases _ _).1]
      rfl
    · rw [same]
  foreign s a src bytes uninit foreign := by
    rw [udprDataReceivePass, readDataToBuffer_foreign a uninit bytes foreign]
  own s a b r uninit source := by
    cases r with
    | failed errno =>
        cases errno with
        | EAGAIN =>
            simp only [udprDataReceivePass, readDataToBuffer, if_true]
            split <;> exact ⟨rfl, rfl⟩
        | EINTR => exact ⟨rfl, rfl⟩
        | other code => exact ⟨rfl, rfl⟩
    | datagram src bytes =>
        cases source
        rw [udprDataReceivePass_own, udprDataReceivePass_own]
        exact ⟨rfl, rfl⟩
  replies s a r uninit source := by
    cases r with
    | failed errno =>
        cases errno with
        | EAGAIN =>
            simp only [udprDataReceivePass, readDataToBuffer, if_true]
            split <;> exact doRetransmission_dest _ _ _ _ _
        | EINTR => simp [udprDataReceivePass, readDataToBuffer]
        | other code => simp [udprDataReceivePass, readDataToBuffer]
    | datagram src bytes =>
        cases source
        rw [udprDataReceivePass_own]
        split
        · simp
        · exact udprDataReceiveBody_dest _ _ _ _

/-! ## Runs of a loop -/

/-- A session of `client` that strangers cannot tell apart from one without them: deleting
their datagrams changes neither the loop nor its replies to the client, and they get
nothing but rejections. -/
def Isolated {σ : Type} (M : Machine (Receiving σ) (RecvFrom × ServerUninit) Reply)
    (entry : Receiving σ × List Reply) (client : SockAddr) : Prop :=
  ∀ es,
    (M.after entry.1 es).flow = (M.after entry.1 (es.filter (·.1.FromClient client))).flow ∧
    (entry.2 ++ M.outputs entry.1 es).filter (·.dest = client) =
      (entry.2 ++ M.outputs entry.1 (es.filter (·.1.FromClient client))).filter
        (·.dest = client) ∧
    (∀ reply ∈ entry.2, reply.dest = client) ∧
    ∀ e, ∀ reply ∈ M.emit (M.after entry.1 es) e,
      reply.dest = client ∨ reply.RejectsStranger e.1

namespace Attentive

variable {σ : Type} {pass : σ → SockAddr → RecvFrom → ServerUninit → Receiving σ × List Reply}
  {client : σ → SockAddr} (attentive : Attentive pass client)

/-- Two states of one session, up to the static address. -/
structure Alike (client : σ → SockAddr) (opener : SockAddr) (s t : Receiving σ) : Prop where
  flow : s.flow = t.flow
  client : client s.flow.session = opener

include attentive

theorem client_next (s : Receiving σ) (e : RecvFrom × ServerUninit) :
    client ((receiver pass).next s e).flow.session = client s.flow.session := by
  obtain ⟨flow, clientAddress⟩ := s
  cases flow with
  | returned session => rfl
  | waiting session => exact attentive.keeps session clientAddress e.1 e.2

/-- Replies go to the client, or reject the stranger that was heard. -/
theorem emit_dest (s : Receiving σ) (e : RecvFrom × ServerUninit) :
    ∀ reply ∈ (receiver pass).emit s e,
      reply.dest = client s.flow.session ∨ reply.RejectsStranger e.1 := by
  obtain ⟨flow, clientAddress⟩ := s
  obtain ⟨r, uninit⟩ := e
  cases flow with
  | returned session => exact nofun
  | waiting session =>
      intro reply member
      by_cases source : r.FromClient (client session)
      · exact .inl (attentive.replies session clientAddress r uninit source reply member)
      · cases r with
        | failed errno => exact absurd trivial source
        | datagram src bytes =>
            have answered : (receiver pass).emit ⟨.waiting session, clientAddress⟩
                (.datagram src bytes, uninit) =
                  answerForeign src uninit (bytes.take receiveBufforSize) :=
              congrArg Prod.snd (attentive.foreign session clientAddress src bytes uninit source)
            rw [answered] at member
            exact .inr (answerForeign_rejects src bytes uninit reply member)

theorem hide {opener : SockAddr} {s t : Receiving σ} {e : RecvFrom × ServerUninit}
    (alike : Alike client opener s t) (foreign : ¬ e.1.FromClient opener) :
    Alike client opener ((receiver pass).next s e) t ∧
      ((receiver pass).emit s e).filter (·.dest = opener) = [] := by
  obtain ⟨flow, clientAddress⟩ := s
  obtain ⟨r, uninit⟩ := e
  cases flow with
  | returned session => exact ⟨alike, rfl⟩
  | waiting session =>
      cases r with
      | failed errno => exact absurd trivial foreign
      | datagram src bytes =>
          have other : src ≠ client session := fun same => foreign (same.trans alike.client)
          have passes : (receiver pass).step ⟨.waiting session, clientAddress⟩
              (.datagram src bytes, uninit) =
                (⟨.waiting session, src⟩, answerForeign src uninit (bytes.take receiveBufforSize)) :=
            attentive.foreign session clientAddress src bytes uninit other
          rw [Machine.next, Machine.emit, passes]
          refine ⟨⟨alike.flow, alike.client⟩, ?_⟩
          rw [List.filter_eq_nil_iff]
          intro reply member
          obtain ⟨src', bytes', same, dest, -⟩ := answerForeign_rejects src bytes uninit reply member
          cases same
          rw [decide_eq_true_eq, dest]
          exact foreign

theorem keep {opener : SockAddr} {s t : Receiving σ} {e : RecvFrom × ServerUninit}
    (alike : Alike client opener s t) (source : e.1.FromClient opener) :
    Alike client opener ((receiver pass).next s e) ((receiver pass).next t e) ∧
      (receiver pass).emit s e = (receiver pass).emit t e := by
  have same : client ((receiver pass).next s e).flow.session = opener := by
    rw [attentive.client_next, alike.client]
  obtain ⟨flow, clientAddress⟩ := s
  obtain ⟨flow', clientAddress'⟩ := t
  obtain ⟨r, uninit⟩ := e
  cases alike.flow
  cases flow with
  | returned session => exact ⟨⟨rfl, alike.client⟩, rfl⟩
  | waiting session =>
      rw [← alike.client] at source
      obtain ⟨flow, replies⟩ :=
        attentive.own session clientAddress clientAddress' r uninit source
      exact ⟨⟨flow, same⟩, replies⟩

/-- **A loop that attends to one client isolates its session** from its entry on, if what it
sends on entry goes to the client. -/
theorem isolated {entry : Receiving σ × List Reply} {opener : SockAddr}
    (opened : client entry.1.flow.session = opener)
    (entered : ∀ reply ∈ entry.2, reply.dest = opener) :
    Isolated (receiver pass) entry opener := by
  intro es
  have run := Machine.unwinding (M := receiver pass) (R := Alike client opener)
    (fun s t e (hidden : (!decide (e.1.FromClient opener)) = true) (_ : True) alike =>
      attentive.hide alike (by simpa using hidden))
    (fun s t e shown _ alike => by
      obtain ⟨alike', same⟩ := attentive.keep alike (by simpa using shown)
      exact ⟨alike', by rw [same]⟩)
    (⟨rfl, opened⟩ : Alike client opener entry.1 entry.1)
    (Machine.along_of_forall (fun _ _ _ => trivial) entry.1 : (receiver pass).Along _ entry.1 es)
  simp only [Bool.not_not] at run
  refine ⟨run.1.flow, ?_, entered, ?_⟩
  · rw [List.filter_append, List.filter_append, run.2]
  · intro e reply member
    rw [← opened]
    have kept : client ((receiver pass).after entry.1 es).flow.session =
        client entry.1.flow.session :=
      Machine.invariant_after (I := fun s => client s.flow.session = client entry.1.flow.session)
        (fun s e same => (attentive.client_next s e).trans same) rfl es
    rw [← kept]
    exact attentive.emit_dest _ e reply member

end Attentive

/-! ## The two sessions -/

/-- A session that declares no bytes is over at once. -/
theorem udpDataReceiveLoop_start (conn : CONN) (client clientAddress : SockAddr) :
    udpDataReceiveLoop (.start conn client) clientAddress =
      if conn.nbrOfBytesToBeSent = 0 then
        (⟨.returned (.start conn client), clientAddress⟩,
          [sendRCVD .dataReceive clientAddress conn.sessionId])
      else (⟨.waiting (.start conn client), clientAddress⟩, []) := by
  split
  · rename_i zero
    have total : (UDPSession.start conn client).conn.nbrOfBytesToBeSent = 0 := zero
    rw [udpDataReceiveLoop, total]
    rfl
  · rename_i nonzero
    exact udpDataReceiveLoop_waits clientAddress (UInt64.pos_iff_ne_zero.mpr nonzero)

theorem udprDataReceiveLoop_start (conn : CONN) (client clientAddress : SockAddr) :
    udprDataReceiveLoop (.start conn client) clientAddress =
      if conn.nbrOfBytesToBeSent = 0 then
        (⟨.returned (.start conn client), clientAddress⟩,
          [sendRCVD .dataReceive clientAddress conn.sessionId])
      else (⟨.waiting (.start conn client), clientAddress⟩, []) := by
  split
  · rename_i zero
    have total : (UDPRSession.start conn client).conn.nbrOfBytesToBeSent = 0 := zero
    rw [udprDataReceiveLoop, total]
    rfl
  · rename_i nonzero
    exact udprDataReceiveLoop_waits clientAddress (UInt64.pos_iff_ne_zero.mpr nonzero)

/-- What a session sends on entry goes to its client unless it declares no bytes. -/
theorem entry_dest_iff {σ : Type} {entry : Receiving σ × List Reply} {returned waits : Receiving σ}
    {conn : CONN} {client clientAddress : SockAddr}
    (start : entry = if conn.nbrOfBytesToBeSent = 0 then
      (returned, [sendRCVD .dataReceive clientAddress conn.sessionId]) else (waits, [])) :
    (∀ reply ∈ entry.2, reply.dest = client) ↔
      conn.nbrOfBytesToBeSent ≠ 0 ∨ clientAddress = client := by
  subst start
  by_cases zero : conn.nbrOfBytesToBeSent = 0
  · rw [if_pos zero]
    constructor
    · intro entered
      exact .inr (entered _ List.mem_cons_self)
    · rintro (nonzero | rfl) reply member
      · exact absurd zero nonzero
      · cases List.mem_singleton.mp member
        rfl
  · rw [if_neg zero]
    exact ⟨fun _ => .inl zero, fun _ => nofun⟩

/-- **A session is isolated from strangers if and only if it declares bytes or the address
left by an earlier session is its client's.** -/
theorem session_noninterference (conn : CONN) (client clientAddress : SockAddr) :
    (Isolated udpDataReceive (udpDataReceiveLoop (.start conn client) clientAddress) client ↔
        conn.nbrOfBytesToBeSent ≠ 0 ∨ clientAddress = client) ∧
      (Isolated udprDataReceive (udprDataReceiveLoop (.start conn client) clientAddress) client ↔
        conn.nbrOfBytesToBeSent ≠ 0 ∨ clientAddress = client) := by
  constructor
  · rw [← entry_dest_iff (udpDataReceiveLoop_start conn client clientAddress)]
    refine ⟨fun isolated => (isolated []).2.2.1, udp_attentive.isolated ?_⟩
    rw [(udpDataReceiveLoop_cases _ _).1]
    rfl
  · rw [← entry_dest_iff (udprDataReceiveLoop_start conn client clientAddress)]
    refine ⟨fun isolated => (isolated []).2.2.1, udpr_attentive.isolated ?_⟩
    rw [(udprDataReceiveLoop_cases _ _).1]
    rfl

/-- A session that declares no bytes confirms itself to the client of an earlier one. -/
theorem empty_session_not_isolated :
    ¬ ∀ conn client clientAddress,
      Isolated udpDataReceive (udpDataReceiveLoop (.start conn client) clientAddress) client ∧
        Isolated udprDataReceive (udprDataReceiveLoop (.start conn client) clientAddress)
          client := by
  intro isolated
  have entered := (isolated ⟨connId, 7, udpProtocol, 0⟩ oneByteClient ⟨3, 3⟩).1 []
  have dest := entered.2.2.1 (sendRCVD .dataReceive ⟨3, 3⟩ 7) (by decide)
  revert dest
  decide

end Ppcb
