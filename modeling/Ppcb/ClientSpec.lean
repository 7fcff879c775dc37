import Ppcb.SendLoops

/-!
# What the clients accept, and what a step of a client does

Each handler succeeds on exactly one datagram, whatever its uninitialised structure held:
the `CONACC` of the session, the `ACC` of the current packet, the `RCVD` of the session
(`udprClientHandleACC_success_iff` and its siblings).

`UDPRMove` and `UDPMove` are the transitions of the clients without their counters and
waiting states; every step of a client is one of them (`UDPRClient.step_move`,
`UDPClient.step_move`), so what follows about a client is a case analysis of its
transitions. `UDPRPhase.At` and `UDPPhase.At` tie the phase to the number of packets
behind it: the locals of the sending loop are those of that packet.
-/

set_option autoImplicit false

namespace Ppcb

open ByteOrder CString Reactive

/-! ## The datagrams that are accepted -/

section Accepted

variable {sessionId currPackageId : UInt64} {buff : List UInt8}

theorem eq_session_store (t : UInt8) (length : buff.length = sizeofCONACC)
    (typeId : typeOf buff = t) (session : sessionOf buff = sessionId) :
    buff = (initSession t sessionId).store := by
  rw [store_initSession, ← typeId, ← session]
  exact eq_session_of_length length

theorem eq_numbered_store (t : UInt8) (length : buff.length = sizeofACC)
    (typeId : typeOf buff = t) (session : sessionOf buff = sessionId)
    (package : packageOf buff = currPackageId) :
    buff = (initNumbered t sessionId currPackageId).store := by
  rw [store_initNumbered, ← typeId, ← session, ← package]
  exact eq_numbered_of_length length

theorem SessionPacket.receive_init (p : SessionPacket) (t : UInt8) :
    p.receive (initSession t sessionId).store = ⟨t, sessionId⟩ := by
  simpa using p.receive_wire t sessionId []

theorem NumberedPacket.receive_init (p : NumberedPacket) (t : UInt8) :
    p.receive (initNumbered t sessionId currPackageId).store = ⟨t, sessionId, currPackageId⟩ := by
  simpa using p.receive_wire t sessionId currPackageId []

/-- Type, session id and length are right exactly for the packet itself. -/
theorem SessionPacket.received_eq_iff (p : SessionPacket) (t : UInt8) :
    ((p.receive buff).packageTypeId = t ∧ (p.receive buff).sessionId = sessionId ∧
        buff.length = sizeofCONACC) ↔
      buff = (initSession t sessionId).store := by
  constructor
  · rintro ⟨typeId, session, length⟩
    have whole : buff.length = 9 := length
    rw [p.receive_packageTypeId (by omega)] at typeId
    rw [p.receive_sessionId (by omega)] at session
    exact eq_session_store t length typeId session
  · rintro rfl
    rw [p.receive_init t, store_initSession]
    simp [sizeofCONACC]

/-- Three checks, one after the other. -/
theorem checks_success_iff {p q r : Prop} [Decidable p] [Decidable q] [Decidable r] :
    (if ¬ p then RetVal.ERROR else if ¬ q then .ERROR else if ¬ r then .ERROR else .SUCCESS) =
        .SUCCESS ↔ p ∧ q ∧ r := by
  by_cases first : p
  · by_cases second : q
    · by_cases third : r <;> simp [first, second, third]
    · simp [first, second]
  · simp [first]

/-- **Only the `CONACC` of the session connects the client with retransmission.** -/
theorem udprClientInitConnection_success_iff (uninit : CONACC) :
    udprClientInitConnection sessionId uninit buff = .SUCCESS ↔
      buff = (initCONACC sessionId).store := by
  constructor
  · intro success
    simp only [udprClientInitConnection] at success
    split at success
    · cases success
    split at success
    · cases success
    rename_i length
    split at success
    · cases success
    rename_i fields
    rw [not_or, not_not, not_not] at fields
    exact (uninit.received_eq_iff conaccId).mp ⟨fields.1, fields.2, not_not.mp length⟩
  · rintro rfl
    rw [initCONACC, udprClientInitConnection, SessionPacket.receive_init]
    simp [conaccId, conrjtId, sizeofCONACC]

theorem udpClientCONACCHandler_success_iff (uninit : CONACC) :
    udpClientCONACCHandler sessionId uninit buff = .SUCCESS ↔
      buff = (initCONACC sessionId).store :=
  checks_success_iff.trans (uninit.received_eq_iff conaccId)

/-- **Only the `RCVD` of the session ends the client in success.** -/
theorem udpClientRCVDHandler_success_iff (uninit : RCVD) :
    udpClientRCVDHandler sessionId uninit buff = .SUCCESS ↔
      buff = (initRCVD sessionId).store :=
  checks_success_iff.trans (uninit.received_eq_iff rcvdId)

theorem udprClientHandleRCVD_success_iff (uninit : ClientUninit) :
    udprClientHandleRCVD uninit currPackageId sessionId (.SUCCESS, buff) = some .SUCCESS ↔
      buff = (initRCVD sessionId).store := by
  constructor
  · intro success
    simp only [udprClientHandleRCVD] at success
    split at success
    · split at success
      · split at success
        · cases success
        split at success
        · cases success
        · cases success
      · cases success
    split at success
    · cases success
    rename_i typeId
    split at success
    · cases success
    rename_i session
    split at success
    · cases success
    rename_i length
    exact (uninit.rcvd.received_eq_iff rcvdId).mp
      ⟨not_not.mp typeId, not_not.mp session, not_not.mp length⟩
  · rintro rfl
    rw [initRCVD, udprClientHandleRCVD, SessionPacket.receive_init]
    simp [rcvdId, accId, sizeofRCVD]
    all_goals simp

/-- **Only the `ACC` of the current packet is its acknowledgement**, and it leaves the
counter of retransmissions alone. -/
theorem udprClientHandleACC_success_iff (uninit : ACC) (nbr nbr' : ℕ) (before : Bool) :
    udprClientHandleACC uninit nbr currPackageId sessionId before (.SUCCESS, buff) =
        some (.SUCCESS, nbr') ↔
      buff = (initACC sessionId currPackageId).store ∧ nbr' = nbr := by
  constructor
  · intro success
    simp only [udprClientHandleACC, countRetransmit] at success
    split at success
    · split at success
      · simp at success
      split at success
      · simp at success
      · simp at success
    split at success
    · split at success
      · simp at success
      split at success
      · simp at success
      · split at success <;> simp at success
    split at success
    · simp at success
    rename_i typeId
    split at success
    · simp at success
    rename_i session
    split at success
    · simp at success
    rename_i length
    split at success
    · simp at success
    rename_i notLess
    split at success
    · simp at success
    rename_i notGreater
    have length : buff.length = 17 := not_not.mp length
    rw [uninit.receive_packageTypeId (by omega), not_not] at typeId
    rw [uninit.receive_sessionId (by omega), not_not] at session
    rw [uninit.receive_packageId (by omega)] at notLess notGreater
    have package : packageOf buff = currPackageId :=
      UInt64.le_antisymm (UInt64.not_lt.mp notGreater) (UInt64.not_lt.mp notLess)
    simp only [Option.some.injEq, Prod.mk.injEq, true_and] at success
    exact ⟨eq_numbered_store accId length typeId session package, success.symm⟩
  · rintro ⟨rfl, rfl⟩
    rw [initACC, udprClientHandleACC, NumberedPacket.receive_init]
    · simp [accId, conaccId, rcvdId, sizeofACC]
    all_goals simp

/-! ## Packets that came too late or too early -/

/-- Waiting for an `ACC`, a client that gets one goes by its id. -/
theorem udprClientHandleACC_acc (uninit : ACC) (nbr : ℕ) (before : Bool) (id : UInt64) :
    udprClientHandleACC uninit nbr currPackageId sessionId before
        (.SUCCESS, (initACC sessionId id).store) =
      if id < currPackageId then none
      else if id > currPackageId then some (.ERROR, nbr) else some (.SUCCESS, nbr) := by
  rw [initACC, udprClientHandleACC, NumberedPacket.receive_init]
  · simp [accId, conaccId, rcvdId, sizeofACC]
  all_goals simp

theorem udprClientHandleACC_conacc (uninit : ACC) (nbr : ℕ) (before : Bool) :
    udprClientHandleACC uninit nbr currPackageId sessionId before
        (.SUCCESS, (initCONACC sessionId).store) =
      if before = true then none else some (.ERROR, nbr) := by
  have read := uninit.receive_session conaccId sessionId
  rw [initCONACC, store_initSession, udprClientHandleACC]
  · simp [read, sizeofCONACC]
  all_goals simp

/-- Waiting for `RCVD`, a client that gets an `ACC` goes by its id, too. -/
theorem udprClientHandleRCVD_acc (uninit : ClientUninit) (id : UInt64) :
    udprClientHandleRCVD uninit currPackageId sessionId (.SUCCESS, (initACC sessionId id).store) =
      if id > currPackageId then some .ERROR else none := by
  have rcvd : (uninit.rcvd.receive (initNumbered accId sessionId id).store) =
      ⟨accId, sessionId⟩ := by
    rw [store_initNumbered]
    exact uninit.rcvd.receive_wire accId sessionId (net64 id)
  rw [initACC, udprClientHandleRCVD, NumberedPacket.receive_init, rcvd]
  · simp [sizeofACC]
  all_goals simp

theorem udprClientHandleRCVD_conacc (uninit : ClientUninit) :
    udprClientHandleRCVD uninit currPackageId sessionId (.SUCCESS, (initCONACC sessionId).store) =
      some .ERROR := by
  rw [initCONACC, udprClientHandleRCVD, SessionPacket.receive_init]
  · simp [accId, conaccId, rcvdId]
  all_goals simp

end Accepted

/-! ## One pass of waiting -/

/-- The bytes a client finds in its buffer. -/
def ClientEvent.buff : ClientEvent → List UInt8
  | .recvfrom (.datagram _ bytes) _ => bytes.take responseBuffSize
  | _ => []

/-- What `wait_for_server_response` can return. -/
theorem waitForServerResponse_cases (w : WaitState) (port : UInt16) (r : RecvFrom)
    (uninit : ClientUninit) {response : RetVal × List UInt8}
    (returned : (waitForServerResponse w port r).2 = some response) :
    response = (.SUCCESS, (ClientEvent.recvfrom r uninit).buff) ∨
      response = (.TIMEOUT_ERROR, []) ∨ response = (.ERROR, []) := by
  have failure : ∀ errno, some (waitFailure errno, []) = some response →
      response = (.TIMEOUT_ERROR, []) ∨ response = (.ERROR, []) := by
    intro errno failed
    rw [← Option.some.inj failed, waitFailure]
    by_cases timeout : errno = .EAGAIN
    · exact .inl (by rw [if_pos timeout])
    · exact .inr (by rw [if_neg timeout])
  cases r with
  | failed errno => exact .inr (failure errno returned)
  | datagram src bytes =>
      simp only [waitForServerResponse] at returned
      split at returned
      · exact .inr (failure _ returned)
      split at returned
      · cases returned
      · exact .inl (Option.some.inj returned).symm

/-- No stranger was taken for the server. -/
def WaitState.Knows (server : SockAddr) (w : WaitState) : Prop :=
  w.firstWait = true ∨ w.realServerSAddr = server.sAddr

theorem WaitState.learn_server {server : SockAddr} {w : WaitState} (knows : w.Knows server) :
    (w.learn server).realServerSAddr = server.sAddr := by
  rw [WaitState.learn]
  split
  · rfl
  · rename_i learnt
    exact knows.resolve_left learnt

/-- A datagram of the server gets through. -/
theorem waitForServerResponse_server {w : WaitState} {server : SockAddr} {bytes : List UInt8}
    (knows : w.Knows server) (fits : bytes.length ≤ responseBuffSize) (nonempty : bytes ≠ []) :
    waitForServerResponse w server.sinPort (.datagram server bytes) =
      (w.learn server, some (.SUCCESS, bytes)) := by
  have length : ¬ bytes.length = 0 := fun empty => nonempty (List.length_eq_zero_iff.mp empty)
  simp only [waitForServerResponse, List.take_of_length_le fits, length, if_false,
    WaitState.learn_server knows, ne_eq, not_true_eq_false, or_self]

/-- The packets of the server fit into the client's buffer. -/
theorem fits_initSession (typeId : UInt8) (sessionId : UInt64) :
    (initSession typeId sessionId).store.length ≤ responseBuffSize ∧
      (initSession typeId sessionId).store ≠ [] := by
  refine ⟨?_, by simp⟩
  rw [SessionPacket.length_store]
  decide

theorem fits_initCONACC (sessionId : UInt64) :
    (initCONACC sessionId).store.length ≤ responseBuffSize ∧
      (initCONACC sessionId).store ≠ [] := fits_initSession conaccId sessionId

theorem fits_initRCVD (sessionId : UInt64) :
    (initRCVD sessionId).store.length ≤ responseBuffSize ∧ (initRCVD sessionId).store ≠ [] :=
  fits_initSession rcvdId sessionId

theorem fits_initACC (sessionId id : UInt64) :
    (initACC sessionId id).store.length ≤ responseBuffSize ∧ (initACC sessionId id).store ≠ [] := by
  refine ⟨?_, by simp [initACC]⟩
  rw [NumberedPacket.length_store]
  decide

/-- What reaches the client is an answer of the system or comes from the server. -/
def ClientEvent.FromServer (server : SockAddr) : ClientEvent → Prop
  | .recvfrom (.datagram src _) _ => src = server
  | _ => True

theorem waitForServerResponse_knows {w : WaitState} {server : SockAddr} {r : RecvFrom}
    {uninit : ClientUninit} (knows : w.Knows server)
    (source : (ClientEvent.recvfrom r uninit).FromServer server) (port : UInt16) :
    (waitForServerResponse w port r).1.Knows server := by
  cases r with
  | failed errno => exact knows
  | datagram src bytes =>
      cases source
      simp only [waitForServerResponse]
      split
      · exact knows
      split
      · exact .inr (WaitState.learn_server knows)
      · exact .inr (WaitState.learn_server knows)

/-! ## The transitions of the client with retransmission -/

/-- The transitions without the counter of retransmissions and the waiting state: the
phase before and after, the number of packets acknowledged, and what is sent. -/
inductive UDPRMove (args : ClientArgs) (buff : List UInt8) :
    UDPRPhase → UDPRPhase → ℕ → List Datagram → Prop where
  | stay (phase : UDPRPhase) : UDPRMove args buff phase phase 0 []
  | fail (phase : UDPRPhase) (ret : RetVal) (running : ∀ r, phase ≠ .ended r)
      (failure : ret ≠ .SUCCESS) : UDPRMove args buff phase (.ended ret) 0 []
  | connect : UDPRMove args buff .sendCONN .waitCONACC 0
      [⟨args.serverAddress, (initCONN args.sessionId udprProtocol args.vec.occupiedSize).store⟩]
  | connectAgain : UDPRMove args buff .waitCONACC .sendCONN 0 []
  | connected (data : DATA) (conacc : buff = (initCONACC args.sessionId).store) :
      UDPRMove args buff .waitCONACC (udprClientSendDATA args (.start args.vec) data) 0 []
  | send (loc : UDPRSend) (data : DATA) :
      UDPRMove args buff (.sendDATA loc data) (.waitACC loc data) 0
        [⟨args.serverAddress, data.sentBytes⟩]
  | sendAgain (loc : UDPRSend) (data : DATA) :
      UDPRMove args buff (.waitACC loc data) (udprClientSendDATA args loc data) 0 []
  | acknowledged (loc : UDPRSend) (data : DATA)
      (acc : buff = (initACC args.sessionId loc.currPackageId).store) :
      UDPRMove args buff (.waitACC loc data) (udprClientSendDATA args loc.advance data) 1 []
  | confirmed (rcvd : buff = (initRCVD args.sessionId).store) :
      UDPRMove args buff .waitRCVD (.ended .SUCCESS) 0 []

section UDPR

variable {args : ClientArgs}

variable (args) in
theorem UDPRClient.connectAgain_move (buff : List UInt8) (s : UDPRClient)
    (connecting : s.phase = .sendCONN ∨ s.phase = .waitCONACC) :
    s.connectAgain.acked = s.acked ∧
      UDPRMove args buff s.phase s.connectAgain.phase 0 [] := by
  rw [UDPRClient.connectAgain]
  split
  · refine ⟨rfl, .fail _ _ ?_ (by decide)⟩
    intro r ended
    rcases connecting with phase | phase <;> cases phase.symm.trans ended
  · refine ⟨rfl, ?_⟩
    rcases connecting with phase | phase <;> rw [phase]
    · exact .stay _
    · exact .connectAgain

theorem UDPRClient.onSendto_move (s : UDPRClient) (r : SendTo) :
    ∃ n, (s.onSendto args r).1.acked = s.acked + n ∧
      UDPRMove args [] s.phase (s.onSendto args r).1.phase n (s.onSendto args r).2 := by
  obtain ⟨wait, nbr, phase, acked⟩ := s
  cases phase with
  | sendCONN =>
      cases r with
      | sent => exact ⟨0, rfl, .connect⟩
      | failed errno =>
          obtain ⟨same, move⟩ := UDPRClient.connectAgain_move args []
            ⟨{ wait with errno := errno }, nbr, .sendCONN, acked⟩ (.inl rfl)
          exact ⟨0, same, move⟩
  | sendDATA loc data =>
      cases r with
      | sent => exact ⟨0, rfl, .send loc data⟩
      | failed errno => exact ⟨0, rfl, .fail _ _ nofun (by decide)⟩
  | waitCONACC => exact ⟨0, rfl, .stay _⟩
  | waitACC loc data => exact ⟨0, rfl, .stay _⟩
  | waitRCVD => exact ⟨0, rfl, .stay _⟩
  | ended ret => exact ⟨0, rfl, .stay _⟩

theorem UDPRClient.onResponse_move (s : UDPRClient) (uninit : ClientUninit) (buff : List UInt8)
    (response : RetVal × List UInt8)
    (returned : response = (.SUCCESS, buff) ∨ response = (.TIMEOUT_ERROR, []) ∨
      response = (.ERROR, [])) :
    ∃ n, (s.onResponse args uninit response).acked = s.acked + n ∧
      UDPRMove args buff s.phase (s.onResponse args uninit response).phase n [] := by
  obtain ⟨wait, nbr, phase, acked⟩ := s
  cases phase with
  | waitCONACC =>
      simp only [onResponse]
      split
      · rename_i connected
        refine ⟨0, rfl, .connected _ ?_⟩
        rcases returned with rfl | rfl | rfl
        · exact (udprClientInitConnection_success_iff _).mp connected
        · cases connected
        · cases connected
      · exact ⟨0, rfl, .fail _ _ nofun (by decide)⟩
      · exact ⟨0, connectAgain_move args _ _ (.inr rfl)⟩
  | waitACC loc data =>
      simp only [onResponse]
      split
      · exact ⟨0, rfl, .stay _⟩
      · rename_i accepted
        refine ⟨1, rfl, .acknowledged _ _ ?_⟩
        rcases returned with rfl | rfl | rfl
        · exact ((udprClientHandleACC_success_iff _ _ _ _).mp accepted).1
        · simp only [udprClientHandleACC, countRetransmit] at accepted
          split at accepted <;> simp at accepted
        · simp [udprClientHandleACC] at accepted
      · exact ⟨0, rfl, .sendAgain _ _⟩
      · exact ⟨0, rfl, .fail _ _ nofun (by decide)⟩
  | waitRCVD =>
      simp only [onResponse]
      split
      · exact ⟨0, rfl, .stay _⟩
      · rename_i ret handled
        by_cases success : ret = .SUCCESS
        · subst success
          refine ⟨0, rfl, .confirmed ?_⟩
          rcases returned with rfl | rfl | rfl
          · exact (udprClientHandleRCVD_success_iff _).mp handled
          · simp [udprClientHandleRCVD] at handled
          · simp [udprClientHandleRCVD] at handled
        · exact ⟨0, rfl, .fail _ _ nofun success⟩
  | sendCONN => exact ⟨0, rfl, .stay _⟩
  | sendDATA loc data => exact ⟨0, rfl, .stay _⟩
  | ended ret => exact ⟨0, rfl, .stay _⟩

/-- An answer of `recvfrom` is passed over, or a value comes back from
`wait_for_server_response`. -/
theorem UDPRClient.onRecvfrom_cases (s : UDPRClient) (r : RecvFrom) (uninit : ClientUninit) :
    (∃ w, s.onRecvfrom args r uninit = { s with wait := w }) ∨
      ∃ w response,
        (waitForServerResponse s.wait args.serverAddress.sinPort r).2 = some response ∧
        s.onRecvfrom args r uninit = ({ s with wait := w }).onResponse args uninit response := by
  simp only [onRecvfrom]
  split
  · split
    · exact .inl ⟨_, rfl⟩
    · rename_i response returned
      exact .inr ⟨_, response, returned, rfl⟩
  · exact .inl ⟨s.wait, rfl⟩

variable (args) in
/-- **Every step of the client is a transition.** -/
theorem UDPRClient.step_move (s : UDPRClient) (e : ClientEvent) :
    ∃ n, ((udprClientHandler args).next s e).acked = s.acked + n ∧
      UDPRMove args e.buff s.phase ((udprClientHandler args).next s e).phase n
        ((udprClientHandler args).emit s e) := by
  cases e with
  | sendto r => exact s.onSendto_move r
  | recvfrom r uninit =>
      rw [next_recvfrom, emit_recvfrom]
      rcases s.onRecvfrom_cases r uninit with ⟨w, passed⟩ | ⟨w, response, returned, comes⟩
      · rw [passed]
        exact ⟨0, rfl, .stay _⟩
      · rw [comes]
        exact onResponse_move _ uninit _ response
          (waitForServerResponse_cases _ _ _ uninit returned)

@[simp] theorem UDPRClient.connectAgain_wait (s : UDPRClient) : s.connectAgain.wait = s.wait := by
  rw [UDPRClient.connectAgain]
  split <;> rfl

variable (args) in
/-- What is done with an answer does not depend on the waiting state, and leaves it alone. -/
theorem UDPRClient.onResponse_forget (s : UDPRClient) (w : WaitState) (uninit : ClientUninit)
    (response : RetVal × List UInt8) :
    ({ s with wait := w }).onResponse args uninit response =
      { s.onResponse args uninit response with wait := w } := by
  have again : ({ s with wait := w }).connectAgain = { s.connectAgain with wait := w } := by
    simp only [connectAgain]
    split <;> rfl
  obtain ⟨wait, nbr, phase, acked⟩ := s
  cases phase with
  | waitCONACC =>
      simp only [onResponse]
      split
      · rfl
      · rfl
      · exact again
  | waitACC loc data =>
      simp only [onResponse]
      split <;> rfl
  | waitRCVD =>
      simp only [onResponse]
      split <;> rfl
  | _ => rfl

theorem UDPRClient.onResponse_wait (s : UDPRClient) (uninit : ClientUninit)
    (response : RetVal × List UInt8) : (s.onResponse args uninit response).wait = s.wait := by
  have kept := congrArg UDPRClient.wait (onResponse_forget args s s.wait uninit response)
  exact kept

/-- A datagram of the server that was learnt reaches the handler that waits for it. -/
theorem UDPRClient.onRecvfrom_learnt {s : UDPRClient} {server : SockAddr} {bytes : List UInt8}
    (port : server.sinPort = args.serverAddress.sinPort) (knows : s.wait.Knows server)
    (waiting : s.waiting = true) (fits : bytes.length ≤ responseBuffSize)
    (nonempty : bytes ≠ []) (uninit : ClientUninit) :
    s.onRecvfrom args (.datagram server bytes) uninit =
      ({ s with wait := s.wait.learn server }).onResponse args uninit (.SUCCESS, bytes) := by
  rw [onRecvfrom, if_pos waiting, ← port, waitForServerResponse_server knows fits nonempty]

/-- A datagram of the server reaches the handler that waits for it. -/
theorem UDPRClient.onRecvfrom_server {s : UDPRClient} {bytes : List UInt8}
    (knows : s.wait.Knows args.serverAddress) (waiting : s.waiting = true)
    (fits : bytes.length ≤ responseBuffSize) (nonempty : bytes ≠ []) (uninit : ClientUninit) :
    s.onRecvfrom args (.datagram args.serverAddress bytes) uninit =
      ({ s with wait := s.wait.learn args.serverAddress }).onResponse args uninit
        (.SUCCESS, bytes) :=
  onRecvfrom_learnt rfl knows waiting fits nonempty uninit

/-- While nothing but the server reaches it, the client takes no stranger for the
server. -/
theorem UDPRClient.knows_next {s : UDPRClient} {e : ClientEvent}
    (knows : s.wait.Knows args.serverAddress) (source : e.FromServer args.serverAddress) :
    ((udprClientHandler args).next s e).wait.Knows args.serverAddress := by
  cases e with
  | sendto r =>
      obtain ⟨wait, nbr, phase, acked⟩ := s
      show (UDPRClient.onSendto args _ r).1.wait.Knows args.serverAddress
      cases r <;> cases phase <;>
        simp only [onSendto, sendtoWrapper, connectAgain_wait, if_true, reduceCtorEq, if_false] <;>
        exact knows
  | recvfrom r uninit =>
      have learned := waitForServerResponse_knows knows source args.serverAddress.sinPort
      show (s.onRecvfrom args r uninit).wait.Knows args.serverAddress
      simp only [onRecvfrom]
      split
      · split
        · exact learned
        · rw [onResponse_wait]
          exact learned
      · exact knows

/-- Bytes are left after `k` acknowledged packets. -/
def UDPRSend.HasMore (args : ClientArgs) (k : ℕ) : Prop :=
  (UDPRSend.atPacket args k).bytesSent.toUInt64 < args.vec.occupiedSize

theorem UDPRSend.hasMore_iff (k : ℕ) :
    UDPRSend.HasMore args k ↔
      min (size32 args) (sendBuffSize * k) < args.vec.occupiedSize.toNat := by
  rw [HasMore, UInt64.lt_iff_toNat_lt, UInt32.toNat_toUInt64, bytesSent_atPacket]

/-- The phase of a client that has `k` acknowledged packets behind it. -/
def UDPRPhase.At (args : ClientArgs) (k : ℕ) : UDPRPhase → Prop
  | .sendCONN | .waitCONACC => k = 0
  | .sendDATA loc data | .waitACC loc data =>
      loc = (UDPRSend.atPacket args k).filled ∧
        data.sentBytes = dataBytes args.sessionId (UInt64.ofNat k) (udprChunk args k) ∧
        UDPRSend.HasMore args k
  | .waitRCVD | .ended .SUCCESS => ¬ UDPRSend.HasMore args k
  | .ended _ => True

/-- The test of the loop and the building of packet `k`; the `shift` of the previous
packet does not matter. -/
theorem udprClientSendDATA_cases {k : ℕ} {loc : UDPRSend} (data : DATA)
    (same : loc.filled = (UDPRSend.atPacket args k).filled) :
    (UDPRSend.HasMore args k ∧ ∃ built,
        udprClientSendDATA args loc data =
          .sendDATA (UDPRSend.atPacket args k).filled built ∧
        built.sentBytes = dataBytes args.sessionId (UInt64.ofNat k) (udprChunk args k)) ∨
      (¬ UDPRSend.HasMore args k ∧ udprClientSendDATA args loc data = .waitRCVD) := by
  have sent : loc.bytesSent = (UDPRSend.atPacket args k).bytesSent :=
    (congrArg UDPRSend.bytesSent same :)
  have left : loc.bytesLeft = (UDPRSend.atPacket args k).bytesLeft :=
    (congrArg UDPRSend.bytesLeft same :)
  have position : loc.startCpyPos = (UDPRSend.atPacket args k).startCpyPos :=
    (congrArg UDPRSend.startCpyPos same :)
  have package : loc.currPackageId = UInt64.ofNat k := by
    rw [← UDPRSend.currPackageId_atPacket args k]
    exact (congrArg UDPRSend.currPackageId same :)
  obtain ⟨built, equal, bytes⟩ := loc.build_eq args.vec args.sessionId data
  rw [udprClientSendDATA, equal, same, sent]
  by_cases more : UDPRSend.HasMore args k
  · refine .inl ⟨more, built, if_pos more, ?_⟩
    rw [bytes, package, udprChunk_eq, left, position]
  · exact .inr ⟨more, if_neg more⟩

theorem udprClientSendDATA_at {k : ℕ} {loc : UDPRSend} (data : DATA)
    (same : loc.filled = (UDPRSend.atPacket args k).filled) :
    (udprClientSendDATA args loc data).At args k := by
  rcases udprClientSendDATA_cases data same with ⟨more, built, phase, bytes⟩ | ⟨done, phase⟩
  · rw [phase]
    exact ⟨rfl, bytes, more⟩
  · rw [phase]
    exact done

/-- **A transition keeps the phase in step with the acknowledged packets.** -/
theorem UDPRMove.at {buff : List UInt8} {p p' : UDPRPhase} {n k : ℕ} {out : List Datagram}
    (move : UDPRMove args buff p p' n out) (before : p.At args k) : p'.At args (k + n) := by
  cases move with
  | stay => exact before
  | fail _ ret running failure =>
      cases ret with
      | SUCCESS => exact absurd rfl failure
      | _ => trivial
  | connect => exact before
  | connectAgain => exact before
  | connected data =>
      have first : k = 0 := before
      subst first
      exact udprClientSendDATA_at data rfl
  | send => exact before
  | sendAgain loc data =>
      obtain ⟨rfl, -, -⟩ := before
      exact udprClientSendDATA_at data rfl
  | acknowledged loc data =>
      obtain ⟨rfl, -, -⟩ := before
      exact udprClientSendDATA_at data (by rw [UDPRSend.atPacket_succ])
  | confirmed => exact before

theorem UDPRClient.at_next {s : UDPRClient} (e : ClientEvent) (before : s.phase.At args s.acked) :
    ((udprClientHandler args).next s e).phase.At args
      ((udprClientHandler args).next s e).acked := by
  obtain ⟨n, acked, move⟩ := s.step_move args e
  rw [acked]
  exact move.at before

/-- How many datagrams a client in this phase must have sent, with `k` acknowledged
packets behind it. -/
def UDPRPhase.traffic (k : ℕ) : UDPRPhase → ℕ
  | .sendCONN => 0
  | .waitCONACC => 1
  | .sendDATA _ _ => k + 1
  | .waitACC _ _ => k + 2
  | .waitRCVD => k + 1
  | .ended _ => k

theorem udprClientSendDATA_traffic (k : ℕ) (loc : UDPRSend) (data : DATA) :
    (udprClientSendDATA args loc data).traffic k = k + 1 := by
  obtain ⟨built, equal, -⟩ := loc.build_eq args.vec args.sessionId data
  rw [udprClientSendDATA, equal]
  split <;> rfl

theorem UDPRMove.traffic {buff : List UInt8} {p p' : UDPRPhase} {n k : ℕ} {out : List Datagram}
    (move : UDPRMove args buff p p' n out) (before : p.At args k) :
    p'.traffic (k + n) ≤ p.traffic k + out.length := by
  cases move with
  | stay => exact Nat.le_add_right _ _
  | fail ret running failure =>
      cases p with
      | sendCONN => exact Nat.le_of_eq before
      | waitCONACC => exact Nat.le_succ_of_le (Nat.le_of_eq before)
      | _ => simp only [UDPRPhase.traffic]; omega
  | connect => exact Nat.le_refl _
  | connectAgain => exact Nat.zero_le _
  | connected data =>
      have first : k = 0 := before
      rw [udprClientSendDATA_traffic, first]
      exact Nat.le_refl _
  | send => exact Nat.le_refl _
  | sendAgain loc data =>
      rw [udprClientSendDATA_traffic]
      exact Nat.le_succ _
  | acknowledged loc data =>
      rw [udprClientSendDATA_traffic]
      exact Nat.le_refl _
  | confirmed => exact Nat.le_succ _

/-- Whether the session ended in success. -/
def UDPRPhase.succeeded : UDPRPhase → Bool
  | .ended .SUCCESS => true
  | _ => false

theorem UDPRPhase.succeeded_iff (p : UDPRPhase) : p.succeeded = true ↔ p = .ended .SUCCESS := by
  cases p with
  | ended ret => cases ret <;> simp [succeeded]
  | _ => simp [succeeded]

theorem udprClientSendDATA_succeeded (loc : UDPRSend) (data : DATA) :
    (udprClientSendDATA args loc data).succeeded = false := by
  obtain ⟨built, equal, -⟩ := loc.build_eq args.vec args.sessionId data
  rw [udprClientSendDATA, equal]
  split <;> rfl

/-- **Everything sent is the `CONN` or the packet the client is at**, and goes to the
server. -/
theorem UDPRMove.sent {buff : List UInt8} {p p' : UDPRPhase} {n k : ℕ} {out : List Datagram}
    (move : UDPRMove args buff p p' n out) (before : p.At args k) :
    ∀ d ∈ out, d.dest = args.serverAddress ∧
      (d.bytes = (initCONN args.sessionId udprProtocol args.vec.occupiedSize).store ∨
        p.traffic k = k + 1 ∧
          d.bytes = dataBytes args.sessionId (UInt64.ofNat k) (udprChunk args k)) := by
  intro d member
  cases move with
  | connect =>
      cases List.mem_singleton.mp member
      exact ⟨rfl, .inl rfl⟩
  | send loc data =>
      cases List.mem_singleton.mp member
      exact ⟨rfl, .inr ⟨rfl, before.2.1⟩⟩
  | _ => cases member

end UDPR

/-! ## The transitions of the client without retransmission -/

/-- The transitions of the client without retransmission, with any waiting state. -/
inductive UDPMove (args : ClientArgs) (buff : List UInt8) (s : UDPClient) :
    UDPClient → List Datagram → Prop where
  | stay (w : WaitState) : UDPMove args buff s { s with wait := w } []
  | fail (w : WaitState) (ret : RetVal) (running : ∀ r, s.phase ≠ .ended r)
      (failure : ret ≠ .SUCCESS) :
      UDPMove args buff s { s with wait := w, phase := .ended ret } []
  | connect (w : WaitState) (phase : s.phase = .sendCONN) :
      UDPMove args buff s { s with wait := w, phase := .waitCONACC }
        [⟨args.serverAddress, (initCONN args.sessionId udpProtocol args.vec.occupiedSize).store⟩]
  | connected (w : WaitState) (data : DATA) (phase : s.phase = .waitCONACC)
      (conacc : buff = (initCONACC args.sessionId).store) :
      UDPMove args buff s ({ s with wait := w }.sendDATA args (.start args.vec) data) []
  | send (w : WaitState) (loc : UDPSend) (data : DATA) (phase : s.phase = .sendDATA loc data) :
      UDPMove args buff s ({ s with wait := w }.sendDATA args loc data)
        [⟨args.serverAddress, data.sentBytes⟩]
  | confirmed (w : WaitState) (phase : s.phase = .waitRCVD)
      (rcvd : buff = (initRCVD args.sessionId).store) :
      UDPMove args buff s { s with wait := w, phase := .ended .SUCCESS } []

section UDP

variable {args : ClientArgs}

theorem UDPClient.onSendto_move (s : UDPClient) (r : SendTo) :
    UDPMove args [] s (s.onSendto args r).1 (s.onSendto args r).2 := by
  obtain ⟨wait, phase, built⟩ := s
  cases phase with
  | sendCONN =>
      cases r with
      | sent => exact .connect wait rfl
      | failed errno => exact .fail _ _ nofun (by decide)
  | sendDATA loc data =>
      cases r with
      | sent => exact .send wait loc data rfl
      | failed errno => exact .fail _ _ nofun (by decide)
  | waitCONACC => exact .stay wait
  | waitRCVD => exact .stay wait
  | ended ret => exact .stay wait

theorem UDPClient.onResponse_move (s : UDPClient) (w : WaitState) (uninit : ClientUninit)
    (buff : List UInt8) (response : RetVal × List UInt8)
    (returned : response = (.SUCCESS, buff) ∨ response = (.TIMEOUT_ERROR, []) ∨
      response = (.ERROR, [])) :
    UDPMove args buff s (({ s with wait := w }).onResponse args uninit response) [] := by
  obtain ⟨wait, phase, built⟩ := s
  cases phase with
  | waitCONACC =>
      simp only [onResponse]
      rcases returned with rfl | rfl | rfl
      · simp only [ne_eq, not_true_eq_false, if_false]
        split
        · exact .fail _ _ nofun (by decide)
        · rename_i connected
          exact .connected _ _ rfl ((udpClientCONACCHandler_success_iff _).mp (not_not.mp connected))
      · exact .fail _ _ nofun (by decide)
      · exact .fail _ _ nofun (by decide)
  | waitRCVD =>
      simp only [onResponse]
      rcases returned with rfl | rfl | rfl
      · simp only [ne_eq, not_true_eq_false, if_false]
        by_cases success : udpClientRCVDHandler args.sessionId uninit.rcvd buff = .SUCCESS
        · rw [success]
          exact .confirmed _ rfl ((udpClientRCVDHandler_success_iff _).mp success)
        · exact .fail _ _ nofun success
      · exact .fail _ _ nofun (by simp)
      · exact .fail _ _ nofun (by simp)
  | sendCONN => exact .stay w
  | sendDATA loc data => exact .stay w
  | ended ret => exact .stay w

variable (args) in
/-- **Every step of the client is a transition.** -/
theorem UDPClient.step_move (s : UDPClient) (e : ClientEvent) :
    UDPMove args e.buff s ((udpClientHandler args).next s e)
      ((udpClientHandler args).emit s e) := by
  cases e with
  | sendto r => exact s.onSendto_move r
  | recvfrom r uninit =>
      show UDPMove args (ClientEvent.recvfrom r uninit).buff s (s.onRecvfrom args r uninit) []
      simp only [onRecvfrom]
      split
      · split
        · exact .stay _
        · rename_i response returned
          exact onResponse_move _ _ uninit _ response
            (waitForServerResponse_cases _ _ _ uninit returned)
      · exact .stay s.wait

variable (args) in
theorem UDPClient.sendDATA_forget (s : UDPClient) (w : WaitState) (loc : UDPSend) (data : DATA) :
    ({ s with wait := w }).sendDATA args loc data =
      { s.sendDATA args loc data with wait := w } := by
  simp only [sendDATA]
  split
  · split <;> rfl
  · rfl

variable (args) in
/-- What is done with an answer does not depend on the waiting state, and leaves it alone. -/
theorem UDPClient.onResponse_forget (s : UDPClient) (w : WaitState) (uninit : ClientUninit)
    (response : RetVal × List UInt8) :
    ({ s with wait := w }).onResponse args uninit response =
      { s.onResponse args uninit response with wait := w } := by
  obtain ⟨wait, phase, built⟩ := s
  cases phase with
  | waitCONACC =>
      simp only [onResponse]
      split
      · split
        · rfl
        · exact sendDATA_forget args ⟨wait, .waitCONACC, built⟩ w _ _
      · split
        · rfl
        · exact sendDATA_forget args ⟨wait, .waitCONACC, built⟩ w _ _
  | waitRCVD => rfl
  | _ => rfl

variable (args) in
theorem UDPClient.sendDATA_wait (s : UDPClient) (loc : UDPSend) (data : DATA) :
    (s.sendDATA args loc data).wait = s.wait := by
  have kept := congrArg UDPClient.wait (sendDATA_forget args s s.wait loc data)
  exact kept

variable (args) in
theorem UDPClient.onResponse_wait (s : UDPClient) (uninit : ClientUninit)
    (response : RetVal × List UInt8) : (s.onResponse args uninit response).wait = s.wait := by
  have kept := congrArg UDPClient.wait (onResponse_forget args s s.wait uninit response)
  exact kept

/-- The loop builds a packet number `k`. -/
def UDPSend.HasMore (args : ClientArgs) (k : ℕ) : Prop :=
  (UDPSend.atPacket args k).bytesSent.toUInt64 ≠ args.vec.occupiedSize

theorem UDPSend.hasMore_iff (k : ℕ) :
    UDPSend.HasMore args k ↔
      min (size32 args) (sendBuffSize * k) ≠ args.vec.occupiedSize.toNat := by
  rw [HasMore, ne_eq, ← UInt64.toNat_inj, UInt32.toNat_toUInt64, bytesSent_atPacket]

/-- The phase of a client that has built `k` packets. The packet it is about to send is
the last of them. -/
def UDPPhase.At (args : ClientArgs) (k : ℕ) : UDPPhase → Prop
  | .sendCONN | .waitCONACC => k = 0
  | .sendDATA loc data => ∃ i, k = i + 1 ∧ loc = UDPSend.atPacket args k ∧
      data.sentBytes = dataBytes args.sessionId (UInt64.ofNat i) (udpChunk args i)
  | .waitRCVD | .ended .SUCCESS => ¬ UDPSend.HasMore args k
  | .ended _ => True

variable (args) in
theorem UDPClient.sendDATA_cases (s : UDPClient) (k : ℕ) (data : DATA) :
    (UDPSend.HasMore args k ∧ ∃ built,
        s.sendDATA args (UDPSend.atPacket args k) data =
          { s with phase := .sendDATA (UDPSend.atPacket args (k + 1)) built
                   built := s.built + 1 } ∧
        built.sentBytes = dataBytes args.sessionId (UInt64.ofNat k) (udpChunk args k)) ∨
      (¬ UDPSend.HasMore args k ∧
        s.sendDATA args (UDPSend.atPacket args k) data = { s with phase := .waitRCVD }) := by
  obtain ⟨built, equal, bytes⟩ := UDPSend.build_atPacket args k data
  rw [UDPSend.currPackageId_atPacket] at bytes
  rw [sendDATA, equal]
  by_cases more : UDPSend.HasMore args k
  · exact .inl ⟨more, built, if_pos more, bytes⟩
  · exact .inr ⟨more, if_neg more⟩

theorem UDPClient.sendDATA_at (s : UDPClient) {loc : UDPSend} (data : DATA)
    (same : loc = UDPSend.atPacket args s.built) :
    (s.sendDATA args loc data).phase.At args (s.sendDATA args loc data).built := by
  subst same
  rcases s.sendDATA_cases args s.built data with
    ⟨-, built, equal, bytes⟩ | ⟨done, equal⟩
  · rw [equal]
    exact ⟨s.built, rfl, rfl, bytes⟩
  · rw [equal]
    exact done

/-- **A transition keeps the phase in step with the packets built.** -/
theorem UDPMove.at {buff : List UInt8} {s s' : UDPClient} {out : List Datagram}
    (move : UDPMove args buff s s' out) (before : s.phase.At args s.built) :
    s'.phase.At args s'.built := by
  cases move with
  | stay => exact before
  | fail w ret running failure =>
      cases ret with
      | SUCCESS => exact absurd rfl failure
      | _ => trivial
  | connect w phase =>
      rw [phase] at before
      exact before
  | connected w data phase =>
      rw [phase] at before
      have first : s.built = 0 := before
      exact UDPClient.sendDATA_at { s with wait := w } data (by rw [first]; rfl)
  | send w loc data phase =>
      rw [phase] at before
      obtain ⟨i, -, same, -⟩ := before
      exact UDPClient.sendDATA_at { s with wait := w } data same
  | confirmed w phase =>
      rw [phase] at before
      exact before

theorem UDPClient.at_next {s : UDPClient} (e : ClientEvent) (before : s.phase.At args s.built) :
    ((udpClientHandler args).next s e).phase.At args
      ((udpClientHandler args).next s e).built :=
  (s.step_move args e).at before

/-- How many datagrams a client in this phase must have sent, with `k` packets built. -/
def UDPPhase.traffic (k : ℕ) : UDPPhase → ℕ
  | .sendDATA _ _ => k
  | .waitRCVD => k + 1
  | .waitCONACC => 1
  | .sendCONN => 0
  | .ended _ => 0

theorem UDPClient.sendDATA_traffic (s : UDPClient) {loc : UDPSend} (data : DATA)
    (same : loc = UDPSend.atPacket args s.built) :
    (s.sendDATA args loc data).phase.traffic (s.sendDATA args loc data).built =
      s.built + 1 := by
  subst same
  rcases s.sendDATA_cases args s.built data with ⟨-, built, equal, -⟩ | ⟨-, equal⟩ <;>
    rw [equal] <;> rfl

theorem UDPMove.traffic {buff : List UInt8} {s s' : UDPClient} {out : List Datagram}
    (move : UDPMove args buff s s' out) (before : s.phase.At args s.built) :
    s'.phase.traffic s'.built ≤ s.phase.traffic s.built + out.length := by
  cases move with
  | stay => exact Nat.le_add_right _ _
  | fail => exact Nat.zero_le _
  | connect w phase =>
      rw [phase]
      exact Nat.le_refl _
  | connected w data phase =>
      rw [phase] at before
      have first : s.built = 0 := before
      rw [UDPClient.sendDATA_traffic { s with wait := w } data (by rw [first]; rfl), phase]
      exact Nat.le_of_eq (congrArg (· + 1) first)
  | send w loc data phase =>
      rw [phase] at before
      obtain ⟨i, -, same, -⟩ := before
      rw [UDPClient.sendDATA_traffic { s with wait := w } data same, phase]
      exact Nat.le_refl _
  | confirmed => exact Nat.zero_le _

/-- Whether the session ended in success. -/
def UDPPhase.succeeded : UDPPhase → Bool
  | .ended .SUCCESS => true
  | _ => false

theorem UDPPhase.succeeded_iff (p : UDPPhase) : p.succeeded = true ↔ p = .ended .SUCCESS := by
  cases p with
  | ended ret => cases ret <;> simp [succeeded]
  | _ => simp [succeeded]

theorem UDPClient.sendDATA_succeeded (s : UDPClient) (loc : UDPSend) (data : DATA) :
    (s.sendDATA args loc data).phase.succeeded = false := by
  obtain ⟨built, equal, -⟩ := loc.build_eq args.vec args.sessionId data
  rw [sendDATA, equal]
  split <;> rfl

/-- **Everything sent is the `CONN` or the last packet built**, and goes to the server. -/
theorem UDPMove.sent {buff : List UInt8} {s s' : UDPClient} {out : List Datagram}
    (move : UDPMove args buff s s' out) (before : s.phase.At args s.built) :
    ∀ d ∈ out, d.dest = args.serverAddress ∧
      (d.bytes = (initCONN args.sessionId udpProtocol args.vec.occupiedSize).store ∨
        ∃ i, s.phase.traffic s.built = i + 1 ∧
          d.bytes = dataBytes args.sessionId (UInt64.ofNat i) (udpChunk args i)) := by
  intro d member
  cases move with
  | connect =>
      cases List.mem_singleton.mp member
      exact ⟨rfl, .inl rfl⟩
  | send w loc data phase =>
      cases List.mem_singleton.mp member
      rw [phase] at before ⊢
      obtain ⟨i, count, -, bytes⟩ := before
      exact ⟨rfl, .inr ⟨i, count, bytes⟩⟩
  | _ => cases member

end UDP

end Ppcb
