import Ppcb.AgreementUDP

/-!
# Datagrams of strangers at the client

A client asks `wait_for_server_response` for every datagram it gets, and a datagram of a
stranger should be ignored there. Two things go wrong: the emptiness of a datagram is
tested before its source, and the address of the server is taken from whatever arrives
first. All other datagrams of strangers can be deleted from a run without a trace
(`client_noninterference`), and only those (`Listener.harmless_iff`).
-/

set_option autoImplicit false

namespace Ppcb

open ByteOrder CString Reactive

instance (server : SockAddr) : DecidablePred (ClientEvent.FromServer server)
  | .sendto _ => .isTrue trivial
  | .recvfrom (.failed _) _ => .isTrue trivial
  | .recvfrom (.datagram src _) _ => inferInstanceAs (Decidable (src = server))

/-! ## One pass of waiting -/

section Wait

variable {w w' : WaitState} {server : SockAddr}

@[simp] theorem WaitState.errno_learn (w : WaitState) (src : SockAddr) :
    (w.learn src).errno = w.errno := by
  rw [WaitState.learn]
  split <;> rfl

/-- A datagram that is not empty is judged by its source. -/
theorem waitForServerResponse_datagram (w : WaitState) (port : UInt16) (src : SockAddr)
    {bytes : List UInt8} (nonempty : bytes ≠ []) :
    waitForServerResponse w port (.datagram src bytes) =
      if src.sAddr ≠ (w.learn src).realServerSAddr ∨ src.sinPort ≠ port then (w.learn src, none)
      else (w.learn src, some (.SUCCESS, bytes.take responseBuffSize)) := by
  have positive := List.length_pos_of_ne_nil nonempty
  have room : 0 < responseBuffSize := by decide
  have length : ¬ (bytes.take responseBuffSize).length = 0 := by
    rw [List.length_take]
    omega
  simp only [waitForServerResponse]
  rw [if_neg length]

/-- A stranger's datagram is ignored if it is not empty and its address is not learnt. -/
theorem waitForServerResponse_stranger {src : SockAddr} {bytes : List UInt8}
    (knows : w.Knows server) (stranger : src ≠ server) (nonempty : bytes ≠ [])
    (learnt : w.firstWait = false ∨ src.sAddr = server.sAddr) :
    waitForServerResponse w server.sinPort (.datagram src bytes) = (w.learn src, none) ∧
      (w.learn src).Knows server := by
  have real : (w.learn src).realServerSAddr = server.sAddr := by
    rw [WaitState.learn]
    split
    · rename_i first
      exact learnt.resolve_left (by rw [first]; decide)
    · rename_i notFirst
      exact knows.resolve_left notFirst
  refine ⟨?_, .inr real⟩
  rw [waitForServerResponse_datagram _ _ _ nonempty, real, if_pos (SockAddr.ne_iff.mp stranger)]

/-- A stranger that is heard first is taken for the server. -/
theorem waitForServerResponse_first {src : SockAddr} {bytes : List UInt8}
    (first : w.firstWait = true) (nonempty : bytes ≠ []) (port : UInt16) :
    (waitForServerResponse w port (.datagram src bytes)).1 =
      { w with firstWait := false, realServerSAddr := src.sAddr } := by
  have learnt : w.learn src = { w with firstWait := false, realServerSAddr := src.sAddr } :=
    if_pos first
  rw [waitForServerResponse_datagram _ _ _ nonempty, learnt]
  split <;> rfl

/-- An answer of the system, or of the server, gets the same treatment from two waiting
states that know the server and read the same `errno`. -/
theorem waitForServerResponse_congr {r : RecvFrom} {uninit : ClientUninit}
    (knows : w.Knows server) (knows' : w'.Knows server) (errno : w.errno = w'.errno)
    (source : (ClientEvent.recvfrom r uninit).FromServer server) :
    (waitForServerResponse w server.sinPort r).2 =
        (waitForServerResponse w' server.sinPort r).2 ∧
      (waitForServerResponse w server.sinPort r).1.errno =
        (waitForServerResponse w' server.sinPort r).1.errno := by
  cases r with
  | failed code => exact ⟨rfl, rfl⟩
  | datagram src bytes =>
      cases source
      simp only [waitForServerResponse, WaitState.learn_server knows,
        WaitState.learn_server knows', ne_eq, not_true_eq_false, or_self, if_false, errno]
      split
      · exact ⟨rfl, errno⟩
      · refine ⟨rfl, ?_⟩
        simp only [WaitState.errno_learn, errno]

end Wait

/-! ## Clients that listen to the server only -/

/-- The datagrams of strangers that do no harm: what arrives while the client does not wait,
and otherwise what is neither empty nor the first to be heard from its address. -/
def Harmless (server : SockAddr) (wait : WaitState) (waiting : Bool) : ClientEvent → Prop
  | .recvfrom (.datagram src bytes) _ =>
      src = server ∨ waiting = false ∨
        bytes ≠ [] ∧ (wait.firstWait = false ∨ src.sAddr = server.sAddr)
  | _ => True

theorem harmless_of_fromServer {server : SockAddr} {wait : WaitState} {waiting : Bool}
    {e : ClientEvent} (source : e.FromServer server) : Harmless server wait waiting e := by
  cases e with
  | sendto r => trivial
  | recvfrom r uninit =>
      cases r with
      | failed errno => trivial
      | datagram src bytes => exact .inl source

/-- A client that hears the network through `wait_for_server_response` only. `forget` drops
the waiting state, and what the client does with an answer does not depend on it. -/
structure Listener {σ φ : Type} (M : Machine σ ClientEvent Datagram) (server : SockAddr)
    (phase : σ → φ) where
  wait : σ → WaitState
  waiting : σ → Bool
  forget : σ → σ
  answer : σ → ClientUninit → RetVal × List UInt8 → σ
  phase_forget : ∀ s, phase (forget s) = phase s
  waiting_forget : ∀ s, waiting (forget s) = waiting s
  silent : ∀ s r uninit, M.emit s (.recvfrom r uninit) = []
  deaf : ∀ s r uninit, waiting s = false → M.next s (.recvfrom r uninit) = s
  waits : ∀ s r uninit, waiting s = true →
    wait (M.next s (.recvfrom r uninit)) = (waitForServerResponse (wait s) server.sinPort r).1
  ignored : ∀ s r uninit, waiting s = true →
    (waitForServerResponse (wait s) server.sinPort r).2 = none →
    forget (M.next s (.recvfrom r uninit)) = forget s
  answered : ∀ s r uninit response, waiting s = true →
    (waitForServerResponse (wait s) server.sinPort r).2 = some response →
    forget (M.next s (.recvfrom r uninit)) = answer (forget s) uninit response
  sends : ∀ s t r, forget s = forget t → (wait s).errno = (wait t).errno →
    forget (M.next s (.sendto r)) = forget (M.next t (.sendto r)) ∧
      (wait (M.next s (.sendto r))).errno = (wait (M.next t (.sendto r))).errno ∧
      M.emit s (.sendto r) = M.emit t (.sendto r)
  sends_knows : ∀ s r, (wait s).Knows server → (wait (M.next s (.sendto r))).Knows server
  stirs : ∀ s uninit response, waiting s = true →
    response.1 = .TIMEOUT_ERROR ∨ response.1 = .ERROR ∨ response = (.SUCCESS, [0]) →
    phase (answer s uninit response) ≠ phase s

/-- The run ends in the phase it ends in without the datagrams of strangers, and sends what
it sends without them. -/
def Undisturbed {σ φ : Type} (M : Machine σ ClientEvent Datagram) (server : SockAddr)
    (phase : σ → φ) (s : σ) (es : List ClientEvent) : Prop :=
  phase (M.after s es) = phase (M.after s (es.filter (·.FromServer server))) ∧
    M.outputs s es = M.outputs s (es.filter (·.FromServer server))

namespace Listener

variable {σ φ : Type} {M : Machine σ ClientEvent Datagram} {server : SockAddr} {phase : σ → φ}
  (listener : Listener M server phase)

/-- Two states that differ in nothing the server can bring to light. -/
structure Alike (s t : σ) : Prop where
  forget : listener.forget s = listener.forget t
  errno : (listener.wait s).errno = (listener.wait t).errno
  left : (listener.wait s).Knows server
  right : (listener.wait t).Knows server

variable {s t : σ}

section Alike

variable {listener}

theorem Alike.phase_eq (alike : listener.Alike s t) : phase s = phase t := by
  rw [← listener.phase_forget s, alike.forget, listener.phase_forget]

theorem Alike.waiting_eq (alike : listener.Alike s t) : listener.waiting s = listener.waiting t := by
  rw [← listener.waiting_forget s, alike.forget, listener.waiting_forget]

/-- A harmless datagram of a stranger leaves no trace. -/
theorem Alike.hide {e : ClientEvent} (alike : listener.Alike s t) (foreign : ¬ e.FromServer server)
    (harmless : Harmless server (listener.wait s) (listener.waiting s) e) :
    listener.Alike (M.next s e) t ∧ M.emit s e = [] := by
  cases e with
  | sendto r => exact absurd trivial foreign
  | recvfrom r uninit =>
      cases r with
      | failed errno => exact absurd trivial foreign
      | datagram src bytes =>
          refine ⟨?_, listener.silent _ _ _⟩
          rcases harmless with same | idle | ⟨nonempty, learnt⟩
          · exact absurd same foreign
          · rw [listener.deaf _ _ _ idle]
            exact alike
          · obtain ⟨passes, knows⟩ :=
              waitForServerResponse_stranger alike.left foreign nonempty learnt
            cases waits : listener.waiting s with
            | false =>
                rw [listener.deaf _ _ _ waits]
                exact alike
            | true =>
                have forget := listener.ignored s _ uninit waits (congrArg Prod.snd passes)
                have wait := listener.waits s (.datagram src bytes) uninit waits
                rw [passes] at wait
                refine ⟨forget.trans alike.forget, ?_, ?_, alike.right⟩
                · rw [wait, WaitState.errno_learn, alike.errno]
                · rw [wait]
                  exact knows

/-- Every other event keeps two states alike. -/
theorem Alike.keep {e : ClientEvent} (alike : listener.Alike s t) (source : e.FromServer server) :
    listener.Alike (M.next s e) (M.next t e) ∧ M.emit s e = M.emit t e := by
  cases e with
  | sendto r =>
      obtain ⟨forget, errno, emits⟩ := listener.sends s t r alike.forget alike.errno
      exact ⟨⟨forget, errno, listener.sends_knows s r alike.left,
        listener.sends_knows t r alike.right⟩, emits⟩
  | recvfrom r uninit =>
      refine ⟨?_, by rw [listener.silent, listener.silent]⟩
      obtain ⟨returned, errno⟩ :=
        waitForServerResponse_congr alike.left alike.right alike.errno source
      have left := waitForServerResponse_knows alike.left source server.sinPort
      have right := waitForServerResponse_knows alike.right source server.sinPort
      cases waits : listener.waiting s with
      | false =>
          rw [listener.deaf _ _ _ waits, listener.deaf _ _ _ (alike.waiting_eq ▸ waits)]
          exact alike
      | true =>
          have waits' : listener.waiting t = true := alike.waiting_eq ▸ waits
          rw [← listener.waits s r uninit waits] at errno left
          rw [← listener.waits t r uninit waits'] at errno right
          refine ⟨?_, errno, left, right⟩
          cases received : (waitForServerResponse (listener.wait s) server.sinPort r).2 with
          | none =>
              rw [listener.ignored s r uninit waits received,
                listener.ignored t r uninit waits' (returned ▸ received), alike.forget]
          | some response =>
              rw [listener.answered s r uninit response waits received,
                listener.answered t r uninit response waits' (returned ▸ received), alike.forget]

end Alike

/-- Runs whose strangers are harmless. -/
def HarmlessRun (s : σ) (es : List ClientEvent) : Prop :=
  M.Along (fun s e => Harmless server (listener.wait s) (listener.waiting s) e) s es

variable {listener} in
theorem Alike.run {es : List ClientEvent} (alike : listener.Alike s t)
    (harmless : listener.HarmlessRun s es) :
    listener.Alike (M.after s es) (M.after t (es.filter (·.FromServer server))) ∧
      M.outputs s es = M.outputs t (es.filter (·.FromServer server)) := by
  have hide (s t : σ) (e : ClientEvent) (hidden : (!decide (e.FromServer server)) = true)
      (ok : Harmless server (listener.wait s) (listener.waiting s) e)
      (alike : listener.Alike s t) :
      listener.Alike (M.next s e) t ∧ (M.emit s e).filter (fun _ => true) = [] := by
    obtain ⟨alike', silent⟩ := alike.hide (by simpa using hidden) ok
    exact ⟨alike', by rw [silent]; rfl⟩
  have keep (s t : σ) (e : ClientEvent) (shown : (!decide (e.FromServer server)) = false)
      (_ : Harmless server (listener.wait s) (listener.waiting s) e)
      (alike : listener.Alike s t) :
      listener.Alike (M.next s e) (M.next t e) ∧
        (M.emit s e).filter (fun _ => true) = (M.emit t e).filter (fun _ => true) := by
    obtain ⟨alike', same⟩ := alike.keep (by simpa using shown)
    exact ⟨alike', by rw [same]⟩
  simpa using Machine.unwinding hide keep alike harmless

/-- **Harmless strangers can be deleted from a run**, and none of them is taken for the
server. -/
theorem undisturbed {es : List ClientEvent} (knows : (listener.wait s).Knows server)
    (harmless : listener.HarmlessRun s es) :
    Undisturbed M server phase s es ∧ (listener.wait (M.after s es)).Knows server := by
  have alike : listener.Alike s s := ⟨rfl, rfl, knows, knows⟩
  obtain ⟨alike', same⟩ := alike.run harmless
  exact ⟨⟨alike'.phase_eq, same⟩, alike'.left⟩

/-- An answer that is a failure, or a byte that is no packet, moves a waiting client. -/
theorem moved {r : RecvFrom} {response : RetVal × List UInt8} (uninit : ClientUninit)
    (waits : listener.waiting s = true)
    (received : (waitForServerResponse (listener.wait s) server.sinPort r).2 = some response)
    (stirring : response.1 = .TIMEOUT_ERROR ∨ response.1 = .ERROR ∨ response = (.SUCCESS, [0])) :
    phase (M.next s (.recvfrom r uninit)) ≠ phase s := by
  rw [← listener.phase_forget, listener.answered s r uninit response waits received,
    ← listener.phase_forget s]
  exact listener.stirs _ _ _ (by rw [listener.waiting_forget, waits]) stirring

/-- A client that took another address for the server's does not hear the server. -/
theorem unmoved {bytes : List UInt8} (uninit : ClientUninit) (nonempty : bytes ≠ [])
    (notFirst : (listener.wait s).firstWait = false)
    (other : (listener.wait s).realServerSAddr ≠ server.sAddr) :
    phase (M.next s (.recvfrom (.datagram server bytes) uninit)) = phase s := by
  cases waits : listener.waiting s with
  | false => rw [listener.deaf _ _ _ waits]
  | true =>
      have learnt : (listener.wait s).learn server = listener.wait s := by
        rw [WaitState.learn, notFirst]
        rfl
      have ignores : (waitForServerResponse (listener.wait s) server.sinPort
          (.datagram server bytes)).2 = none := by
        rw [waitForServerResponse_datagram _ _ _ nonempty, learnt, if_pos (.inl other.symm)]
      rw [← listener.phase_forget, listener.ignored _ _ _ waits ignores, listener.phase_forget]

/-- **Only harmless strangers can be deleted.** -/
theorem harmless_iff {e : ClientEvent} (knows : (listener.wait s).Knows server)
    (foreign : ¬ e.FromServer server) :
    Harmless server (listener.wait s) (listener.waiting s) e ↔
      ∀ es, (∀ f ∈ es, ClientEvent.FromServer server f) →
        Undisturbed M server phase s (e :: es) := by
  constructor
  · intro harmless es fromServer
    have along : listener.HarmlessRun s (e :: es) := by
      refine ⟨harmless, Machine.along_of_forall (fun f member s => ?_) _⟩
      exact harmless_of_fromServer (fromServer f member)
    exact (listener.undisturbed knows along).1
  · intro undisturbed
    have deleted (es : List ClientEvent) (fromServer : ∀ f ∈ es, ClientEvent.FromServer server f) :
        phase (M.after (M.next s e) es) = phase (M.after s es) := by
      have same := (undisturbed es fromServer).1
      rwa [List.filter_cons_of_neg (by simpa using foreign),
        List.filter_eq_self.mpr (by simpa using fromServer)] at same
    cases e with
    | sendto r => exact absurd trivial foreign
    | recvfrom r uninit =>
        cases r with
        | failed errno => exact absurd trivial foreign
        | datagram src bytes =>
            cases waits : listener.waiting s with
            | false => exact .inr (.inl rfl)
            | true =>
                refine .inr (.inr ?_)
                have nonempty : bytes ≠ [] := by
                  rintro rfl
                  refine listener.moved uninit waits rfl ?_ (deleted [] nofun)
                  rw [waitFailure]
                  split
                  · exact .inl rfl
                  · exact .inr (.inl rfl)
                refine ⟨nonempty, ?_⟩
                by_contra unlearnt
                obtain ⟨notFirst, other⟩ := not_or.mp unlearnt
                -- The stranger is taken for the server, and the server's next datagram is lost.
                have wait := listener.waits s (.datagram src bytes) uninit waits
                rw [waitForServerResponse_first (Bool.not_eq_false _ ▸ notFirst) nonempty] at wait
                have unheard := listener.unmoved uninit (List.cons_ne_nil (0 : UInt8) [])
                  (congrArg WaitState.firstWait wait)
                  (by rw [congrArg WaitState.realServerSAddr wait]; exact other)
                have heard := listener.moved (r := .datagram server [0]) uninit waits
                  (congrArg Prod.snd (waitForServerResponse_server knows (by decide) (by simp)))
                  (.inr (.inr rfl))
                apply heard
                have same := deleted [.recvfrom (.datagram server [0]) uninit] (by
                  intro f member
                  cases List.mem_singleton.mp member
                  rfl)
                exact same.symm.trans (unheard.trans (deleted [] nofun))

end Listener

/-! ## The two clients -/

section Clients

variable (args : ClientArgs)

/-- The loop goes on to send, to wait for `RCVD`, or to an end. -/
theorem udprClientSendDATA_ne {phase : UDPRPhase}
    (other : phase = .waitCONACC ∨ ∃ loc data, phase = .waitACC loc data)
    (loc : UDPRSend) (data : DATA) : udprClientSendDATA args loc data ≠ phase := by
  simp only [udprClientSendDATA]
  split
  · split
    all_goals rcases other with rfl | ⟨_, _, rfl⟩ <;> simp
  · rcases other with rfl | ⟨_, _, rfl⟩ <;> simp

theorem UDPRClient.onResponse_stirs (s : UDPRClient) (uninit : ClientUninit)
    (response : RetVal × List UInt8) (waits : s.waiting = true)
    (stirring : response.1 = .TIMEOUT_ERROR ∨ response.1 = .ERROR ∨ response = (.SUCCESS, [0])) :
    (s.onResponse args uninit response).phase ≠ s.phase := by
  have again (s : UDPRClient) : s.connectAgain.phase ≠ .waitCONACC := by
    simp only [connectAgain]
    split <;> simp
  obtain ⟨wait, nbr, phase, acked⟩ := s
  obtain ⟨ret, buff⟩ := response
  cases phase with
  | waitCONACC =>
      simp only [onResponse]
      split
      · exact udprClientSendDATA_ne args (.inl rfl) _ _
      · simp
      · exact again _
  | waitACC loc data =>
      have notIgnored : udprClientHandleACC uninit.acc nbr loc.currPackageId args.sessionId
          loc.isBeforeFirstAcc (ret, buff) ≠ none := by
        rcases stirring with rfl | rfl | same
        · simp [udprClientHandleACC]
        · simp [udprClientHandleACC]
        · cases same
          have typeId : (uninit.acc.receive [0]).packageTypeId = 0 :=
            uninit.acc.receive_packageTypeId (le_refl 1)
          simp [udprClientHandleACC, typeId, conaccId, rcvdId, accId]
      simp only [onResponse]
      split
      · rename_i ignored
        exact absurd ignored notIgnored
      · exact udprClientSendDATA_ne args (.inr ⟨_, _, rfl⟩) _ _
      · exact udprClientSendDATA_ne args (.inr ⟨_, _, rfl⟩) _ _
      · simp
  | waitRCVD =>
      have notIgnored : udprClientHandleRCVD uninit 0 args.sessionId (ret, buff) ≠ none := by
        rcases stirring with rfl | rfl | same
        · simp [udprClientHandleRCVD]
        · simp [udprClientHandleRCVD]
        · cases same
          have typeId : (uninit.rcvd.receive [0]).packageTypeId = 0 :=
            uninit.rcvd.receive_packageTypeId (le_refl 1)
          simp [udprClientHandleRCVD, typeId, accId, rcvdId]
      simp only [onResponse]
      split
      · rename_i ignored
        exact absurd ignored notIgnored
      · simp
  | sendCONN => cases waits
  | sendDATA loc data => cases waits
  | ended ret => cases waits

theorem UDPClient.onResponse_stirs (s : UDPClient) (uninit : ClientUninit)
    (response : RetVal × List UInt8) (waits : s.waiting = true) :
    (s.onResponse args uninit response).phase ≠ s.phase := by
  have sends (s : UDPClient) (loc : UDPSend) (data : DATA) :
      (s.sendDATA args loc data).phase ≠ .waitCONACC := by
    simp only [sendDATA]
    split
    · split <;> simp
    · simp
  obtain ⟨wait, phase, built⟩ := s
  cases phase with
  | waitCONACC =>
      simp only [onResponse]
      split
      · simp
      · split
        · simp
        · exact sends _ _ _
  | waitRCVD => simp [onResponse]
  | sendCONN => cases waits
  | sendDATA loc data => cases waits
  | ended ret => cases waits

/-- The client with retransmission listens to the server only. -/
def udprListener : Listener (udprClientHandler args) args.serverAddress UDPRClient.phase where
  wait := UDPRClient.wait
  waiting := UDPRClient.waiting
  forget s := { s with wait := .start .EAGAIN }
  answer s uninit response := s.onResponse args uninit response
  phase_forget _ := rfl
  waiting_forget _ := rfl
  silent _ _ _ := rfl
  deaf s r uninit idle := by
    rw [UDPRClient.next_recvfrom, UDPRClient.onRecvfrom, idle]
    rfl
  waits s r uninit waits := by
    rw [UDPRClient.next_recvfrom, UDPRClient.onRecvfrom, if_pos waits]
    simp only
    split
    · rfl
    · rw [UDPRClient.onResponse_wait]
  ignored s r uninit waits ignored := by
    rw [UDPRClient.next_recvfrom, UDPRClient.onRecvfrom, if_pos waits]
    simp only [ignored]
  answered s r uninit response waits returned := by
    rw [UDPRClient.next_recvfrom, UDPRClient.onRecvfrom, if_pos waits]
    simp only [returned, UDPRClient.onResponse_forget]
  sends := by
    rintro ⟨w, nbr, phase, acked⟩ ⟨w', nbr', phase', acked'⟩ r same errno
    cases same
    cases phase with
    | sendCONN =>
        cases r with
        | sent => exact ⟨rfl, errno, rfl⟩
        | failed code =>
            simp only [UDPRClient.next_sendto, UDPRClient.emit_sendto, UDPRClient.onSendto,
              sendtoWrapper, reduceCtorEq, if_false, UDPRClient.connectAgain]
            split <;> exact ⟨rfl, rfl, trivial⟩
    | sendDATA loc data =>
        cases r with
        | sent => exact ⟨rfl, errno, rfl⟩
        | failed code => exact ⟨rfl, rfl, rfl⟩
    | waitCONACC => exact ⟨rfl, errno, rfl⟩
    | waitACC loc data => exact ⟨rfl, errno, rfl⟩
    | waitRCVD => exact ⟨rfl, errno, rfl⟩
    | ended ret => exact ⟨rfl, errno, rfl⟩
  sends_knows s r knows := UDPRClient.knows_next knows trivial
  stirs := UDPRClient.onResponse_stirs args

/-- The client without retransmission listens to the server only. -/
def udpListener : Listener (udpClientHandler args) args.serverAddress UDPClient.phase where
  wait := UDPClient.wait
  waiting := UDPClient.waiting
  forget s := { s with wait := .start .EAGAIN }
  answer s uninit response := s.onResponse args uninit response
  phase_forget _ := rfl
  waiting_forget _ := rfl
  silent _ _ _ := rfl
  deaf s r uninit idle := by
    rw [UDPClient.next_recvfrom, UDPClient.onRecvfrom, idle]
    rfl
  waits s r uninit waits := by
    rw [UDPClient.next_recvfrom, UDPClient.onRecvfrom, if_pos waits]
    simp only
    split
    · rfl
    · rw [UDPClient.onResponse_wait]
  ignored s r uninit waits ignored := by
    rw [UDPClient.next_recvfrom, UDPClient.onRecvfrom, if_pos waits]
    simp only [ignored]
  answered s r uninit response waits returned := by
    rw [UDPClient.next_recvfrom, UDPClient.onRecvfrom, if_pos waits]
    simp only [returned, UDPClient.onResponse_forget]
  sends := by
    rintro ⟨w, phase, built⟩ ⟨w', phase', built'⟩ r same errno
    cases same
    cases phase with
    | sendCONN =>
        cases r with
        | sent => exact ⟨rfl, errno, rfl⟩
        | failed code => exact ⟨rfl, rfl, rfl⟩
    | sendDATA loc data =>
        cases r with
        | sent =>
            have left : (udpClientHandler args).next ⟨w, .sendDATA loc data, built⟩ (.sendto .sent) =
                UDPClient.sendDATA args ⟨w, .sendDATA loc data, built⟩ loc data := rfl
            have right : (udpClientHandler args).next ⟨w', .sendDATA loc data, built⟩ (.sendto .sent) =
                { UDPClient.sendDATA args ⟨w, .sendDATA loc data, built⟩ loc data with wait := w' } :=
              UDPClient.sendDATA_forget args ⟨w, .sendDATA loc data, built⟩ w' loc data
            rw [left, right]
            refine ⟨rfl, ?_, rfl⟩
            rw [UDPClient.sendDATA_wait]
            exact errno
        | failed code => exact ⟨rfl, rfl, rfl⟩
    | waitCONACC => exact ⟨rfl, errno, rfl⟩
    | waitRCVD => exact ⟨rfl, errno, rfl⟩
    | ended ret => exact ⟨rfl, errno, rfl⟩
  sends_knows s r knows := by
    obtain ⟨wait, phase, built⟩ := s
    rw [UDPClient.next_sendto]
    cases r with
    | sent =>
        cases phase with
        | sendDATA loc data =>
            simp only [UDPClient.onSendto, sendtoWrapper, if_true]
            rw [UDPClient.sendDATA_wait]
            exact knows
        | _ => exact knows
    | failed errno => cases phase <;> exact knows
  stirs s uninit response waits _ := UDPClient.onResponse_stirs args s uninit response waits

/-- The datagrams of strangers that do the client with retransmission no harm. -/
def UDPRClient.Harmless (s : UDPRClient) (e : ClientEvent) : Prop :=
  Ppcb.Harmless args.serverAddress s.wait s.waiting e

/-- The datagrams of strangers that do the client without retransmission no harm. -/
def UDPClient.Harmless (s : UDPClient) (e : ClientEvent) : Prop :=
  Ppcb.Harmless args.serverAddress s.wait s.waiting e

end Clients

/-- **Strangers and the clients.** A run whose strangers are harmless sends what it sends
without them and ends as it ends without them. At any point of it, one more datagram of a
stranger changes nothing, whatever the server answers from then on, if and only if it is
harmless there. -/
theorem client_noninterference (args : ClientArgs) (errno : Errno) :
    (∀ es, (udprClientHandler args).Along (UDPRClient.Harmless args) (.start errno) es →
      Undisturbed (udprClientHandler args) args.serverAddress UDPRClient.phase (.start errno) es ∧
        ∀ e, ¬ e.FromServer args.serverAddress →
          (((udprClientHandler args).after (.start errno) es).Harmless args e ↔
            ∀ fs, (∀ f ∈ fs, ClientEvent.FromServer args.serverAddress f) →
              Undisturbed (udprClientHandler args) args.serverAddress UDPRClient.phase
                ((udprClientHandler args).after (.start errno) es) (e :: fs))) ∧
      ∀ es, (udpClientHandler args).Along (UDPClient.Harmless args) (.start errno) es →
        Undisturbed (udpClientHandler args) args.serverAddress UDPClient.phase (.start errno) es ∧
          ∀ e, ¬ e.FromServer args.serverAddress →
            (((udpClientHandler args).after (.start errno) es).Harmless args e ↔
              ∀ fs, (∀ f ∈ fs, ClientEvent.FromServer args.serverAddress f) →
                Undisturbed (udpClientHandler args) args.serverAddress UDPClient.phase
                  ((udpClientHandler args).after (.start errno) es) (e :: fs)) := by
  have fresh : (WaitState.start errno).Knows args.serverAddress := .inl rfl
  constructor
  · intro es harmless
    obtain ⟨same, knows⟩ := (udprListener args).undisturbed (s := .start errno) fresh harmless
    exact ⟨same, fun e foreign => (udprListener args).harmless_iff knows foreign⟩
  · intro es harmless
    obtain ⟨same, knows⟩ := (udpListener args).undisturbed (s := .start errno) fresh harmless
    exact ⟨same, fun e foreign => (udpListener args).harmless_iff knows foreign⟩

/-- Neither the server nor the client. -/
def stranger : SockAddr := ⟨3, 3⟩

/-- A stranger is heard after the server's `CONACC`. -/
def strangerLate : List ClientEvent :=
  [.sendto .sent, .recvfrom (.datagram oneByte.serverAddress (initCONACC 7).store) .zero,
    .sendto .sent, .recvfrom (.datagram stranger [1]) .zero]

theorem client_noninterference_strangerLate :
    Undisturbed (udprClientHandler oneByte) oneByte.serverAddress UDPRClient.phase
        (.start (.other 0)) strangerLate ∧
      Undisturbed (udpClientHandler oneByte) oneByte.serverAddress UDPClient.phase
        (.start (.other 0)) strangerLate := by
  obtain ⟨udpr, udp⟩ := client_noninterference oneByte (.other 0)
  constructor
  · refine (udpr strangerLate ⟨trivial, .inl rfl, trivial, .inr (.inr ⟨by simp, .inl ?_⟩), trivial⟩).1
    decide +kernel
  · refine (udp strangerLate ⟨trivial, .inl rfl, trivial, .inr (.inr ⟨by simp, .inl ?_⟩), trivial⟩).1
    decide +kernel

/-- An empty datagram of a stranger ends one attempt to connect, and a stranger's byte that
comes first keeps the client from hearing the server. -/
theorem stranger_disturbs :
    (¬ ∀ args errno es, Undisturbed (udprClientHandler args) args.serverAddress UDPRClient.phase
      (.start errno) es) ∧
    ¬ ∀ args errno es, Undisturbed (udpClientHandler args) args.serverAddress UDPClient.phase
      (.start errno) es := by
  constructor
  · intro undisturbed
    have same := (undisturbed oneByte (.other 0)
      [.sendto .sent, .recvfrom (.datagram stranger []) .zero]).1
    revert same
    decide +kernel
  · intro undisturbed
    have same := (undisturbed oneByte (.other 0)
      [.sendto .sent, .recvfrom (.datagram stranger [1]) .zero,
        .recvfrom (.datagram oneByte.serverAddress (initCONACC 7).store) .zero]).1
    revert same
    decide +kernel

end Ppcb
