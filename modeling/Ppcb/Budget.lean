import Ppcb.Agreement

/-!
# The budget of retransmissions

Client and server give up when they have retransmitted more than `MAX_RETRANSMITS` times.
Both count over the whole session: the counter is never reset when a packet is confirmed,
so it holds the number of all retransmissions of the run (`UDPRClient.counted`,
`UDPRSession.counted`). A session is abandoned exactly when that number exceeds the limit,
however it is spread over the packets (`retransmission_budget`).
-/

set_option autoImplicit false

namespace Ppcb

open ByteOrder CString Reactive

/-- The packet that waits for its confirmation: `CONN` or `CONACC`, or a packet with an
id. -/
inductive Unconfirmed where
  | handshake
  | numbered (id : ℕ)
deriving DecidableEq, Repr

/-! ## The client -/

/-- An answer that `UDPR_client_handle_ACC` takes for a loss: a timeout, or a `RCVD` of the
session. -/
def countsAsLost (sessionId : UInt64) (uninit : ACC) : RetVal × List UInt8 → Bool
  | (.TIMEOUT_ERROR, _) => true
  | (.SUCCESS, buff) =>
      (uninit.receive buff).packageTypeId = rcvdId && (uninit.receive buff).sessionId = sessionId &&
        buff.length = sizeofRCVD
  | _ => false

/-- The retransmission that an answer to the waiting client counts. -/
def UDPRClient.lost (args : ClientArgs) (s : UDPRClient) (uninit : ClientUninit)
    (response : RetVal × List UInt8) : Option Unconfirmed :=
  match s.phase with
  | .waitCONACC =>
      let ret := if response.1 ≠ .SUCCESS then .ERROR else
        udprClientInitConnection args.sessionId uninit.conacc response.2
      if ret = .SUCCESS ∨ ret = .CONRJT_ERROR then none else some .handshake
  | .waitACC _ _ =>
      if countsAsLost args.sessionId uninit.acc response then some (.numbered s.acked) else none
  | _ => none

/-- The retransmission that a step of the client counts. -/
def UDPRClient.retransmits (args : ClientArgs) (s : UDPRClient) : ClientEvent → Option Unconfirmed
  | .sendto r =>
      match s.phase with
      | .sendCONN => if sendtoWrapper r = .SUCCESS then none else some .handshake
      | _ => none
  | .recvfrom r uninit =>
      match (waitForServerResponse s.wait args.serverAddress.sinPort r).2 with
      | none => none
      | some response => s.lost args uninit response

/-- The session was given up for its number of retransmissions. -/
def UDPRClient.Abandoned (s : UDPRClient) : Prop :=
  s.phase = .ended .ERROR ∧ maxRetransmits < s.nbrOfRetransmits

/-- `UDPR_client_handle_ACC` raises the counter exactly on what it takes for a loss. -/
theorem udprClientHandleACC_counts (uninit : ACC) (nbr : ℕ) (currPackageId sessionId : UInt64)
    (before : Bool) {response : RetVal × List UInt8}
    (returned : response.1 = .SUCCESS ∨ response.1 = .TIMEOUT_ERROR ∨ response.1 = .ERROR) :
    ((udprClientHandleACC uninit nbr currPackageId sessionId before response).map Prod.snd).getD
      nbr = nbr + (if countsAsLost sessionId uninit response then 1 else 0) := by
  obtain ⟨ret, buff⟩ := response
  rcases returned with rfl | rfl | rfl
  · rw [udprClientHandleACC]
    · by_cases conacc : (uninit.receive buff).packageTypeId = conaccId
      · have other : conaccId ≠ rcvdId := by decide
        simp only [countsAsLost, conacc, other, if_true]
        split
        · rfl
        split <;> rfl
      by_cases rcvd : (uninit.receive buff).packageTypeId = rcvdId
      · have other : rcvdId ≠ conaccId := by decide
        simp only [countsAsLost, rcvd, other, if_true, if_false, countRetransmit]
        by_cases session : (uninit.receive buff).sessionId = sessionId <;>
          by_cases length : buff.length = sizeofRCVD <;> simp [session, length]
      · simp only [countsAsLost, conacc, rcvd, decide_false, Bool.false_and, Bool.false_eq_true,
          if_false]
        repeat' split
        all_goals rfl
    all_goals simp
  · rfl
  · rfl

/-- Past the limit the handler returns an error. -/
theorem udprClientHandleACC_exceeds {uninit : ACC} {nbr nbr' : ℕ}
    {currPackageId sessionId : UInt64} {before : Bool} {response : RetVal × List UInt8}
    {ret : RetVal} (handled : udprClientHandleACC uninit nbr currPackageId sessionId before
      response = some (ret, nbr')) (exceeds : maxRetransmits < nbr') :
    maxRetransmits < nbr ∨ ret = .ERROR := by
  have counted : some (countRetransmit nbr) = some (ret, nbr') → ret = .ERROR := by
    intro same
    have counts := Option.some.inj same
    simp only [countRetransmit, Prod.mk.injEq] at counts
    rw [← counts.1, if_pos (by omega)]
  simp only [udprClientHandleACC] at handled
  repeat' split at handled
  all_goals first
    | exact .inr (counted handled)
    | simp only [Option.some.injEq, Prod.mk.injEq, reduceCtorEq] at handled
  all_goals exact .inl (handled.2 ▸ exceeds)

theorem udprClientHandleACC_within {uninit : ACC} {nbr nbr' : ℕ}
    {currPackageId sessionId : UInt64} {before : Bool} {response : RetVal × List UInt8}
    {ret : RetVal} (handled : udprClientHandleACC uninit nbr currPackageId sessionId before
      response = some (ret, nbr')) (within : ¬ maxRetransmits < nbr) (fine : ret ≠ .ERROR) :
    ¬ maxRetransmits < nbr' := by
  intro exceeds
  rcases udprClientHandleACC_exceeds handled exceeds with earlier | error
  · exact within earlier
  · exact fine error

section Client

variable {args : ClientArgs}

/-- The counter and the phase of a client that does not go past the limit in silence. -/
def UDPRClient.Counted (s : UDPRClient) : Prop :=
  maxRetransmits < s.nbrOfRetransmits → s.phase = .ended .ERROR

theorem UDPRClient.Counted.within {s : UDPRClient} (counted : s.Counted)
    (running : s.phase ≠ .ended .ERROR) : ¬ maxRetransmits < s.nbrOfRetransmits :=
  fun exceeds => running (counted exceeds)

theorem UDPRClient.connectAgain_counts (s : UDPRClient) :
    s.connectAgain.nbrOfRetransmits = s.nbrOfRetransmits + 1 ∧ s.connectAgain.Counted := by
  rw [connectAgain]
  split
  · exact ⟨rfl, fun _ => rfl⟩
  · rename_i within
    exact ⟨rfl, fun exceeds => absurd exceeds within⟩

theorem UDPRClient.onResponse_counts {s : UDPRClient} (uninit : ClientUninit)
    {response : RetVal × List UInt8}
    (returned : response.1 = .SUCCESS ∨ response.1 = .TIMEOUT_ERROR ∨ response.1 = .ERROR) :
    (s.onResponse args uninit response).nbrOfRetransmits =
        s.nbrOfRetransmits + (s.lost args uninit response).toList.length ∧
      (s.Counted → (s.onResponse args uninit response).Counted) := by
  obtain ⟨w, nbr, phase, acked⟩ := s
  cases phase with
  | waitCONACC =>
      have within : Counted ⟨w, nbr, .waitCONACC, acked⟩ → ¬ maxRetransmits < nbr :=
        fun counted => counted.within (by simp)
      simp only [onResponse, lost]
      split
      · rename_i success
        rw [if_pos (.inl success)]
        exact ⟨rfl, fun counted exceeds => absurd exceeds (within counted)⟩
      · rename_i rejected
        rw [if_pos (.inr rejected)]
        exact ⟨rfl, fun counted exceeds => absurd exceeds (within counted)⟩
      · rename_i notSuccess notRejected
        rw [if_neg (not_or.mpr ⟨notSuccess, notRejected⟩)]
        exact ⟨(connectAgain_counts _).1, fun _ => (connectAgain_counts _).2⟩
  | waitACC loc data =>
      have within : Counted ⟨w, nbr, .waitACC loc data, acked⟩ → ¬ maxRetransmits < nbr :=
        fun counted => counted.within (by simp)
      have counts := udprClientHandleACC_counts uninit.acc nbr loc.currPackageId args.sessionId
        loc.isBeforeFirstAcc returned
      have marked : (lost args ⟨w, nbr, .waitACC loc data, acked⟩ uninit response).toList.length =
          if countsAsLost args.sessionId uninit.acc response then 1 else 0 := by
        simp only [lost]
        split <;> rfl
      rw [marked]
      simp only [onResponse]
      split
      · rename_i continues
        rw [continues] at counts
        exact ⟨counts, fun counted exceeds => absurd exceeds (within counted)⟩
      · rename_i handled
        rw [handled] at counts
        exact ⟨counts, fun counted exceeds => absurd exceeds
          (udprClientHandleACC_within handled (within counted) RetVal.noConfusion)⟩
      · rename_i handled
        rw [handled] at counts
        exact ⟨counts, fun counted exceeds => absurd exceeds
          (udprClientHandleACC_within handled (within counted) RetVal.noConfusion)⟩
      · rename_i handled
        rw [handled] at counts
        exact ⟨counts, fun _ _ => rfl⟩
  | waitRCVD =>
      simp only [onResponse]
      split
      · exact ⟨rfl, id⟩
      · exact ⟨rfl, fun counted exceeds => absurd exceeds (counted.within (by simp))⟩
  | sendCONN => exact ⟨rfl, id⟩
  | sendDATA loc data => exact ⟨rfl, id⟩
  | ended ret => exact ⟨rfl, id⟩

/-- One step raises the counter exactly when it retransmits, and past the limit the
session is over. -/
theorem UDPRClient.next_counts (s : UDPRClient) (e : ClientEvent) :
    ((udprClientHandler args).next s e).nbrOfRetransmits =
        s.nbrOfRetransmits + (s.retransmits args e).toList.length ∧
      (s.Counted → ((udprClientHandler args).next s e).Counted) := by
  cases e with
  | sendto r =>
      obtain ⟨w, nbr, phase, acked⟩ := s
      rw [next_sendto]
      cases phase with
      | sendCONN =>
          cases r with
          | sent =>
              exact ⟨rfl, fun counted exceeds => absurd exceeds (counted.within (by simp))⟩
          | failed errno =>
              exact ⟨(connectAgain_counts _).1, fun _ => (connectAgain_counts _).2⟩
      | sendDATA loc data =>
          cases r with
          | sent =>
              exact ⟨rfl, fun counted exceeds => absurd exceeds (counted.within (by simp))⟩
          | failed errno => exact ⟨rfl, fun _ _ => rfl⟩
      | waitCONACC => exact ⟨rfl, id⟩
      | waitACC loc data => exact ⟨rfl, id⟩
      | waitRCVD => exact ⟨rfl, id⟩
      | ended ret => exact ⟨rfl, id⟩
  | recvfrom r uninit =>
      rw [next_recvfrom, onRecvfrom]
      by_cases waits : s.waiting = true
      · rw [if_pos waits]
        simp only [retransmits]
        cases received : (waitForServerResponse s.wait args.serverAddress.sinPort r).2 with
        | none => exact ⟨rfl, id⟩
        | some response =>
            refine onResponse_counts
              (s := { s with wait := (waitForServerResponse s.wait args.serverAddress.sinPort r).1 })
              uninit ?_
            rcases waitForServerResponse_cases _ _ _ uninit received with rfl | rfl | rfl <;> simp
      · rw [if_neg waits]
        refine ⟨?_, id⟩
        obtain ⟨w, nbr, phase, acked⟩ := s
        have silent (response : RetVal × List UInt8) :
            lost args ⟨w, nbr, phase, acked⟩ uninit response = none := by
          cases phase with
          | waitCONACC => exact absurd rfl waits
          | waitACC loc data => exact absurd rfl waits
          | _ => rfl
        simp only [retransmits, silent]
        split <;> rfl

variable (args) in
/-- The counter of a client is the number of retransmissions of its whole run. -/
theorem UDPRClient.counted (s : UDPRClient) (es : List ClientEvent) :
    ((udprClientHandler args).after s es).nbrOfRetransmits = s.nbrOfRetransmits +
      ((udprClientHandler args).marks (fun s e => s.retransmits args e) s es).length :=
  Machine.counter_after nbrOfRetransmits (fun s e => s.retransmits args e)
    (fun s e => (next_counts s e).1) s es

/-- A client is abandoned exactly when the retransmissions of its run exceed the limit. -/
theorem UDPRClient.abandoned_iff (errno : Errno) (es : List ClientEvent) :
    ((udprClientHandler args).after (.start errno) es).Abandoned ↔
      maxRetransmits < ((udprClientHandler args).marks (fun s e => s.retransmits args e)
        (.start errno) es).length := by
  have same := counted args (.start errno) es
  have fresh : (UDPRClient.start errno).nbrOfRetransmits = 0 := rfl
  rw [fresh, Nat.zero_add] at same
  rw [← same]
  constructor
  · exact fun abandoned => abandoned.2
  · intro exceeds
    refine ⟨?_, exceeds⟩
    refine Machine.invariant_after (I := Counted) (fun s e => (next_counts s e).2) ?_ es exceeds
    exact fun exceeds => absurd exceeds (Nat.not_lt_zero _)

end Client

/-! ## The server -/

/-- The retransmission that a step of `UDPR_data_receive` counts: every timeout is one. -/
def UDPRSession.retransmits (s : Receiving UDPRSession) (e : RecvFrom × ServerUninit) :
    Option Unconfirmed :=
  match s.flow, e.1 with
  | .waiting session, .failed .EAGAIN =>
      if session.isFirstDATAPacket then some .handshake
      else some (.numbered (session.delivered.length - 1))
  | _, _ => none

/-- The session was given up for its number of retransmissions. -/
def UDPRSession.Abandoned : Flow UDPRSession → Prop
  | .waiting _ => False
  | .returned session => maxRetransmits < session.nbrOfRetransmits

/-- The counter and the flow of a loop that does not go past the limit in silence. -/
def UDPRSession.Counted (s : Receiving UDPRSession) : Prop :=
  maxRetransmits < s.flow.session.nbrOfRetransmits → Abandoned s.flow

theorem UDPRSession.counted_of_session {s : UDPRSession} {receiving : Receiving UDPRSession}
    (same : receiving.flow.session.nbrOfRetransmits = s.nbrOfRetransmits)
    (within : ¬ maxRetransmits < s.nbrOfRetransmits) : Counted receiving :=
  fun exceeds => absurd (same ▸ exceeds) within

/-- A datagram leaves the counter as it is. -/
theorem udprDataReceivePass_datagram (s : UDPRSession) (clientAddress src : SockAddr)
    (bytes : List UInt8) (uninit : ServerUninit) :
    (udprDataReceivePass s clientAddress (.datagram src bytes) uninit).1.flow.session.nbrOfRetransmits
      = s.nbrOfRetransmits := by
  have notTimeout : ∀ buff, (readDataToBuffer clientAddress (some s.currClientAddr) uninit
      (.datagram src bytes)).ret ≠ some (.TIMEOUT_ERROR, buff) := by
    intro buff
    simp only [readDataToBuffer]
    repeat' split
    all_goals simp
  rw [udprDataReceivePass]
  simp only
  split
  · rfl
  · rename_i buff success
    rcases udprDataReceiveBody_cases s
        (readDataToBuffer clientAddress (some s.currClientAddr) uninit (.datagram src bytes)).clientAddress
        uninit buff with ⟨payload, -, -, accepted⟩ | ⟨same, -⟩
    · rw [accepted]
      have accepts := (udprDataReceiveLoop_cases (s.accept payload)
        (readDataToBuffer clientAddress (some s.currClientAddr) uninit (.datagram src bytes)).clientAddress).1
      have same := congrArg UDPRSession.nbrOfRetransmits accepts
      exact same
    · rw [same]
  · rename_i buff timeout
    exact absurd timeout (notTimeout buff)
  · rfl

/-- One step raises the counter exactly when it retransmits, and past the limit the loop
has returned. -/
theorem UDPRSession.next_counts (s : Receiving UDPRSession) (e : RecvFrom × ServerUninit) :
    (udprDataReceive.next s e).flow.session.nbrOfRetransmits =
        s.flow.session.nbrOfRetransmits + (retransmits s e).toList.length ∧
      (Counted s → Counted (udprDataReceive.next s e)) := by
  obtain ⟨flow, clientAddress⟩ := s
  obtain ⟨r, uninit⟩ := e
  cases flow with
  | returned session => exact ⟨rfl, id⟩
  | waiting session =>
      have within : Counted ⟨.waiting session, clientAddress⟩ →
          ¬ maxRetransmits < session.nbrOfRetransmits := fun counted exceeds => counted exceeds
      have passes : udprDataReceive.next ⟨.waiting session, clientAddress⟩ (r, uninit) =
          (udprDataReceivePass session clientAddress r uninit).1 := rfl
      rw [passes]
      cases r with
      | datagram src bytes =>
          have same := udprDataReceivePass_datagram session clientAddress src bytes uninit
          exact ⟨same, fun counted => counted_of_session same (within counted)⟩
      | failed errno =>
          cases errno with
          | EINTR => exact ⟨rfl, fun counted => counted_of_session rfl (within counted)⟩
          | other code => exact ⟨rfl, fun counted => counted_of_session rfl (within counted)⟩
          | EAGAIN =>
              have marked : (retransmits ⟨.waiting session, clientAddress⟩
                  (.failed .EAGAIN, uninit)).toList.length = 1 := by
                simp only [retransmits]
                split <;> rfl
              rw [marked]
              simp only [udprDataReceivePass, readDataToBuffer, if_true, doRetransmission]
              split
              · rename_i exceeds
                exact ⟨rfl, fun _ _ => exceeds⟩
              · rename_i below
                split <;> exact ⟨rfl, fun _ exceeds => absurd exceeds below⟩

/-- The counter of a session is the number of retransmissions of its whole run. -/
theorem UDPRSession.counted (s : Receiving UDPRSession) (es : List (RecvFrom × ServerUninit)) :
    (udprDataReceive.after s es).flow.session.nbrOfRetransmits =
      s.flow.session.nbrOfRetransmits + (udprDataReceive.marks retransmits s es).length :=
  Machine.counter_after (fun s : Receiving UDPRSession => s.flow.session.nbrOfRetransmits)
    retransmits (fun s e => (next_counts s e).1) s es

/-- A session is abandoned exactly when the retransmissions of its run exceed the limit. -/
theorem UDPRSession.abandoned_iff (conn : CONN) (client clientAddress : SockAddr)
    (es : List (RecvFrom × ServerUninit)) :
    Abandoned (udprDataReceive.after
        (udprDataReceiveLoop (.start conn client) clientAddress).1 es).flow ↔
      maxRetransmits < (udprDataReceive.marks retransmits
        (udprDataReceiveLoop (.start conn client) clientAddress).1 es).length := by
  have fresh : (udprDataReceiveLoop (.start conn client) clientAddress).1.flow.session =
      UDPRSession.start conn client := (udprDataReceiveLoop_cases _ _).1
  have total := counted (udprDataReceiveLoop (.start conn client) clientAddress).1 es
  have zero : (udprDataReceiveLoop (.start conn client) clientAddress).1.flow.session.nbrOfRetransmits
      = 0 := congrArg nbrOfRetransmits fresh
  rw [zero, Nat.zero_add] at total
  rw [← total]
  constructor
  · intro abandoned
    generalize (udprDataReceive.after _ es).flow = flow at abandoned ⊢
    cases flow with
    | waiting session => cases abandoned
    | returned session => exact abandoned
  · apply Machine.invariant_after (I := Counted) (fun s e => (next_counts s e).2)
    intro exceeds
    rw [zero] at exceeds
    cases exceeds

/-! ## The whole session -/

/-- **A session is abandoned exactly when it retransmits more than `MAX_RETRANSMITS` times
in all**, at the client and at the server. -/
theorem retransmission_budget (args : ClientArgs) (errno : Errno) (es : List ClientEvent)
    (conn : CONN) (client clientAddress : SockAddr) (fs : List (RecvFrom × ServerUninit)) :
    (¬ ((udprClientHandler args).after (.start errno) es).Abandoned ↔
        ((udprClientHandler args).marks (fun s e => s.retransmits args e)
          (.start errno) es).length ≤ maxRetransmits) ∧
      (¬ UDPRSession.Abandoned (udprDataReceive.after
          (udprDataReceiveLoop (.start conn client) clientAddress).1 fs).flow ↔
        (udprDataReceive.marks UDPRSession.retransmits
          (udprDataReceiveLoop (.start conn client) clientAddress).1 fs).length ≤
          maxRetransmits) := by
  constructor
  · rw [UDPRClient.abandoned_iff, Nat.not_lt]
  · rw [UDPRSession.abandoned_iff, Nat.not_lt]

/-- Five timeouts while the client connects, and four after its first packet. -/
def scatteredLosses : List ClientEvent :=
  (List.replicate 5 [.sendto .sent, .recvfrom (.failed .EAGAIN) .zero]).flatten ++
    [.sendto .sent, .recvfrom (.datagram oneByte.serverAddress (initCONACC 7).store) .zero] ++
    (List.replicate 4 [.sendto .sent, .recvfrom (.failed .EAGAIN) .zero]).flatten

/-- A client is abandoned although it sent no packet again more than `MAX_RETRANSMITS`
times. -/
theorem retransmissions_accumulate :
    ¬ ∀ args errno es,
      (∀ packet, ((udprClientHandler args).marks (fun s e => s.retransmits args e)
        (.start errno) es).count packet ≤ maxRetransmits) →
      ¬ ((udprClientHandler args).after (.start errno) es).Abandoned := by
  intro perPacket
  have losses : (udprClientHandler oneByte).marks (fun s e => s.retransmits oneByte e)
      (.start (.other 0)) scatteredLosses =
        List.replicate 5 .handshake ++ List.replicate 4 (.numbered 0) := by decide +kernel
  refine perPacket oneByte (.other 0) scatteredLosses (fun packet => ?_)
    ((UDPRClient.abandoned_iff _ _).mpr (by rw [losses]; decide))
  rw [losses, List.count_append, List.count_replicate, List.count_replicate]
  cases packet with
  | handshake => decide
  | numbered id =>
      rw [if_neg (by simp)]
      split <;> decide

end Ppcb
