import Ppcb.Lib.SentOnce
import Ppcb.LossyTransfer
import Ppcb.ExactAcceptance

/-!
# Without retransmission a transfer is all or nothing

The protocol without retransmission sends every datagram once: message `0` is the `CONN`, message
`i + 1` is packet `i`. The client sends (`udpSends`) and the server takes (`udpTakes`).

So over a network that keeps the order and may lose anything, every run comes to an end with the
server listening again. The client ends in success exactly if nothing was lost and nothing came
too late, and then the server has received everything (`udp_transfer_succeeds_iff_faultless`).
-/

set_option autoImplicit false

namespace Ppcb

open ByteOrder CString Reactive Relation

namespace UDP

variable (args : ClientArgs)

/-- What the client sends, in order. -/
def message : ℕ → List UInt8
  | 0 => DatagramType.UDP.conn args
  | i + 1 => DatagramType.UDP.packet args i

/-- What a datagram of the server is to the client: the `CONACC`, the `RCVD` or something else. -/
def kind (bytes : List UInt8) : ℕ :=
  if bytes = (initCONACC args.sessionId).store then 0
  else if bytes = (initRCVD args.sessionId).store then 1
  else 2

variable {args}

theorem rcvd_ne_conacc (sessionId : UInt64) :
    (initRCVD sessionId).store ≠ (initCONACC sessionId).store := by
  intro same
  have types := congrArg typeOf same
  simp only [initRCVD, initCONACC, store_initSession, typeOf_cons] at types
  exact absurd types (by decide)

theorem kind_eq_zero_iff {bytes : List UInt8} :
    kind args bytes = 0 ↔ bytes = (initCONACC args.sessionId).store := by
  rw [kind]
  split
  · exact iff_of_true rfl ‹_›
  · refine iff_of_false ?_ ‹_›
    split <;> decide

theorem kind_eq_one_iff {bytes : List UInt8} :
    kind args bytes = 1 ↔ bytes = (initRCVD args.sessionId).store := by
  rw [kind]
  split
  · rename_i conacc
    refine iff_of_false (by decide) ?_
    rw [conacc]
    exact (rcvd_ne_conacc _).symm
  · split
    · exact iff_of_true rfl ‹_›
    · exact iff_of_false (by decide) ‹_›

/-- What rejects is neither of the two confirmations. -/
theorem kind_of_type {bytes : List UInt8} (conacc : typeOf bytes ≠ conaccId)
    (rcvd : typeOf bytes ≠ rcvdId) : kind args bytes = 2 := by
  rw [kind, if_neg, if_neg]
  · rintro rfl
    exact rcvd (by rw [initRCVD, store_initSession, typeOf_cons])
  · rintro rfl
    exact conacc (by rw [initCONACC, store_initSession, typeOf_cons])

theorem kind_rjt (packageId : UInt64) :
    kind args (initRJT args.sessionId packageId).store = 2 := by
  apply kind_of_type <;> rw [initRJT, store_initNumbered, typeOf_cons] <;> decide

theorem kind_conrjt : kind args (initCONRJT args.sessionId).store = 2 := by
  apply kind_of_type <;> rw [initCONRJT, store_initSession, typeOf_cons] <;> decide

end UDP

/-! ## The client -/

/-- The client may run into a timeout when it waits. -/
def UDPClient.timedPort (serverAddress : SockAddr) :
    TimedPort UDPClient ClientEvent Datagram (List UInt8) (List UInt8) where
  toPort := DatagramType.UDP.clientPort serverAddress
  times s
    | .recvfrom (.failed errno) _ => errno = .EAGAIN ∧ s.waiting = true
    | _ => False

/-- The client has sent this many messages and heard this many replies. -/
inductive UDPClient.SendsAt (args : ClientArgs) : ℕ → ℕ → UDPClient → Prop where
  | sendCONN {w : WaitState} {n : ℕ} (knows : w.Knows args.serverAddress) :
      SendsAt args 0 0 ⟨w, .sendCONN, n⟩
  | waitCONACC {w : WaitState} {n : ℕ} (knows : w.Knows args.serverAddress) :
      SendsAt args 1 0 ⟨w, .waitCONACC, n⟩
  | packet {i : ℕ} {s : UDPClient} (within : i ≤ DatagramType.count args)
      (there : s.AtPacket args i) : SendsAt args (i + 1) 1 s
  | ended {w : WaitState} {n : ℕ} :
      SendsAt args (DatagramType.count args + 1) 2 ⟨w, .ended .SUCCESS, n⟩

/-- The client has ended without success. -/
def UDPClient.Failed (s : UDPClient) : Prop := ∃ ret, s.phase = .ended ret ∧ ret ≠ .SUCCESS

section Client

variable {args : ClientArgs} {w : WaitState} {n h i : ℕ} {s : UDPClient} {e : ClientEvent}

theorem WaitState.Knows.trusts {server : SockAddr} (knows : w.Knows server) :
    w.Trusts server.sinPort server :=
  ⟨(WaitState.learn_server knows).symm, rfl⟩

/-- A function that waits for one packet accepts exactly this packet. -/
theorem afterWait_trusted_iff {handler : List UInt8 → RetVal} {t : UInt8}
    {sessionId : UInt64}
    (accepts : ∀ buff, handler buff = .SUCCESS ↔ buff = (initSession t sessionId).store)
    (errno : Errno) (bytes : List UInt8) :
    afterWait handler (if bytes = [] then (waitFailure errno, [])
        else (.SUCCESS, bytes.take responseBuffSize)) = .SUCCESS ↔
      bytes = (initSession t sessionId).store := by
  have short : (initSession t sessionId).store.length < responseBuffSize := by
    rw [SessionPacket.length_store]
    decide
  split
  · rename_i empty
    refine iff_of_false (fun same => afterWait_failed handler errno (congrArg some same)) ?_
    rw [empty]
    exact fun same => (fits_initSession t sessionId).2 same.symm
  · rw [← take_eq_iff short, ← accepts]
    rfl

/-- What a waiting client does with a datagram of the server. -/
theorem UDPClient.onRecvfrom_own {s : UDPClient} (waiting : s.waiting = true)
    (knows : s.wait.Knows args.serverAddress) (bytes : List UInt8) (uninit : ClientUninit) :
    ∃ wait : WaitState, wait.Knows args.serverAddress ∧
      s.onRecvfrom args (.datagram args.serverAddress bytes) uninit =
        ({ s with wait := wait }).onResponse args uninit
          (if bytes = [] then (waitFailure s.wait.errno, [])
            else (.SUCCESS, bytes.take responseBuffSize)) := by
  have response := waitForServerResponse_trusted knows.trusts bytes
  rw [← apply_ite some] at response
  have source : (ClientEvent.recvfrom (.datagram args.serverAddress bytes) uninit).FromServer
      args.serverAddress := rfl
  refine ⟨(waitForServerResponse s.wait args.serverAddress.sinPort
    (.datagram args.serverAddress bytes)).1, waitForServerResponse_knows knows source _, ?_⟩
  simp only [onRecvfrom, waiting, if_true, response]

/-- A client that waits is behind its last packet, if it is behind the `CONACC`. -/
theorem UDPClient.AtPacket.spent (small : args.vec.occupiedSize.toNat < 2 ^ 32)
    (there : s.AtPacket args i) (within : i ≤ DatagramType.count args)
    (waiting : s.waiting = true) : i = DatagramType.count args := by
  obtain ⟨before, data, rfl, knows⟩ := there
  rcases before.sendDATA_cases args i data with ⟨-, built, equal, -⟩ | ⟨done, -⟩
  · rw [equal] at waiting
    cases waiting
  · have spent : ¬ i < DatagramType.count args := mt (UDPSend.hasMore_iff_lt small i).mpr done
    exact Nat.le_antisymm within (Nat.not_lt.mp spent)

/-- A client that waits for the `CONACC` takes exactly that one. -/
theorem UDPClient.hears_waitCONACC (knows : w.Knows args.serverAddress) (bytes : List UInt8)
    (uninit : ClientUninit) {next : UDPClient}
    (heard : UDPClient.onRecvfrom args ⟨w, .waitCONACC, n⟩
      (.datagram args.serverAddress bytes) uninit = next) :
    (UDP.kind args bytes = 0 → next.AtPacket args 0) ∧
      (UDP.kind args bytes ≠ 0 → next.Failed) := by
  obtain ⟨wait, knows', same⟩ :=
    onRecvfrom_own (s := ⟨w, .waitCONACC, n⟩) rfl knows bytes uninit
  have handled (buff : List UInt8) : udpClientCONACCHandler args.sessionId uninit.conacc buff =
      .SUCCESS ↔ buff = (initCONACC args.sessionId).store :=
    udpClientCONACCHandler_success_iff uninit.conacc
  have accepts := afterWait_trusted_iff handled w.errno bytes
  rw [heard] at same
  rw [ne_eq, UDP.kind_eq_zero_iff, initCONACC, ← accepts]
  constructor
  · intro success
    have connected : next = UDPClient.sendDATA args ⟨wait, .waitCONACC, n⟩ (.start args.vec)
        uninit.data := same.trans (if_neg (not_not.mpr success))
    exact ⟨_, _, connected, knows'⟩
  · intro failure
    have ended : next = ⟨wait, .ended .ERROR, n⟩ := same.trans (if_pos failure)
    exact ⟨.ERROR, by rw [ended], by decide⟩

/-- A client that waits for the `RCVD` takes exactly that one. -/
theorem UDPClient.hears_waitRCVD (phase : s.phase = .waitRCVD)
    (knows : s.wait.Knows args.serverAddress) (bytes : List UInt8) (uninit : ClientUninit)
    {next : UDPClient}
    (heard : s.onRecvfrom args (.datagram args.serverAddress bytes) uninit = next) :
    (UDP.kind args bytes = 1 → next.SendsAt args (DatagramType.count args + 1) 2) ∧
      (UDP.kind args bytes ≠ 1 → next.Failed) := by
  obtain ⟨w, _, n⟩ := s
  cases phase
  obtain ⟨wait, -, same⟩ := onRecvfrom_own (s := ⟨w, .waitRCVD, n⟩) rfl knows bytes uninit
  have handled (buff : List UInt8) : udpClientRCVDHandler args.sessionId uninit.rcvd buff =
      .SUCCESS ↔ buff = (initRCVD args.sessionId).store :=
    udpClientRCVDHandler_success_iff uninit.rcvd
  have accepts := afterWait_trusted_iff handled w.errno bytes
  rw [heard] at same
  rw [ne_eq, UDP.kind_eq_one_iff, initRCVD, ← accepts]
  constructor
  · intro success
    have ended : next = ⟨wait, .ended (afterWait _ _), n⟩ := same
    rw [success] at ended
    rw [ended]
    exact .ended
  · intro failure
    have ended : next = ⟨wait, .ended (afterWait _ _), n⟩ := same
    exact ⟨_, by rw [ended], failure⟩

/-- A message is sent. -/
theorem UDPClient.SendsAt.sends (small : args.vec.occupiedSize.toNat < 2 ^ 32)
    (there : s.SendsAt args n h) (sending : Volley.Sending (DatagramType.count args) n h) :
    (∃ e, (timedPort args.serverAddress).may s e) ∧
      ∀ e, (timedPort args.serverAddress).may s e →
        (timedPort args.serverAddress).takes e = [] ∧
        (timedPort args.serverAddress).puts ((udpClientHandler args).emit s e) =
          [UDP.message args n] ∧
        ((udpClientHandler args).next s e).SendsAt args (n + 1) h := by
  cases there with
  | sendCONN knows =>
      refine ⟨⟨.sendto .sent, rfl, rfl⟩, fun e may => ?_⟩
      cases DatagramType.sendto_of_may (t := .UDP) rfl may
      exact ⟨rfl, DatagramType.UDP.puts_own _ _, .waitCONACC knows⟩
  | waitCONACC => exact absurd sending (by simp [Volley.Sending])
  | ended => exact absurd sending (by simp [Volley.Sending])
  | @packet i s within there =>
      have below : i < DatagramType.count args := sending.within
      obtain ⟨⟨e, may, -⟩, all⟩ := follows_pass small below there
      refine ⟨⟨e, may⟩, fun e may => ?_⟩
      obtain ⟨length, acts⟩ := all e may
      have nothing := List.length_eq_zero_iff.mp length
      obtain ⟨puts, next⟩ := acts nothing
      exact ⟨nothing, puts, .packet below next⟩

/-- A datagram of the server comes. -/
theorem UDPClient.SendsAt.hears (small : args.vec.occupiedSize.toNat < 2 ^ 32)
    (there : s.SendsAt args n h) (waiting : Volley.Waiting (DatagramType.count args) n h)
    (may : (timedPort args.serverAddress).may s e) :
    (timedPort args.serverAddress).puts ((udpClientHandler args).emit s e) = [] ∧
      ∃ y, (timedPort args.serverAddress).takes e = [y] ∧
        (UDP.kind args y = h → ((udpClientHandler args).next s e).SendsAt args n (h + 1)) ∧
        (UDP.kind args y ≠ h → ((udpClientHandler args).next s e).Failed) := by
  cases there with
  | sendCONN => exact absurd waiting (by simp [Volley.Waiting])
  | ended => exact absurd waiting (by simp [Volley.Waiting])
  | waitCONACC knows =>
      obtain ⟨bytes, uninit, rfl⟩ := DatagramType.recvfrom_of_may (t := .UDP) rfl may
      obtain ⟨proceeds, fails⟩ := hears_waitCONACC knows bytes uninit rfl
      exact ⟨rfl, bytes, rfl, fun conacc => .packet (Nat.zero_le _) (proceeds conacc), fails⟩
  | @packet i s within there =>
      have last : i = DatagramType.count args := Nat.succ_injective waiting.sent_all
      subst last
      obtain ⟨phase, knows⟩ := there.waits small
      have waits : DatagramType.UDP.waiting s = true := by
        show s.waiting = true
        rw [UDPClient.waiting, phase]
      obtain ⟨bytes, uninit, rfl⟩ := DatagramType.recvfrom_of_may (t := .UDP) waits may
      obtain ⟨proceeds, fails⟩ := hears_waitRCVD phase knows bytes uninit rfl
      exact ⟨rfl, bytes, rfl, proceeds, fails⟩

/-- The client waits when it has sent all it can. -/
theorem UDPClient.SendsAt.waiting_iff (small : args.vec.occupiedSize.toNat < 2 ^ 32)
    (there : s.SendsAt args n h) :
    s.waiting = true ↔ Volley.Waiting (DatagramType.count args) n h := by
  cases there with
  | sendCONN => exact iff_of_false Bool.noConfusion (by simp [Volley.Waiting])
  | waitCONACC => exact iff_of_true rfl (.inl ⟨rfl, rfl⟩)
  | ended => exact iff_of_false Bool.noConfusion (by simp [Volley.Waiting])
  | @packet i s within there =>
      constructor
      · exact fun waits => .inr ⟨congrArg (· + 1) (there.spent small within waits), rfl⟩
      · intro waits
        have last : i = DatagramType.count args := Nat.succ_injective waits.sent_all
        subst last
        rw [UDPClient.waiting, (there.waits small).1]

theorem UDPClient.SendsAt.succeeded (there : s.SendsAt args n h) (confirmed : h = 2) :
    s.phase = .ended .SUCCESS := by
  cases there with
  | ended => rfl
  | _ => cases confirmed

/-- A timeout of a client that waits. -/
theorem UDPClient.failed_timeout (waiting : s.waiting = true) (uninit : ClientUninit) :
    (s.onRecvfrom args (.failed .EAGAIN) uninit).Failed := by
  obtain ⟨w, phase, n⟩ := s
  cases phase with
  | waitCONACC => exact ⟨.ERROR, rfl, by decide⟩
  | waitRCVD => exact ⟨.ERROR, rfl, by decide⟩
  | _ => cases waiting

theorem UDPClient.Failed.still (failed : s.Failed) (e : ClientEvent) :
    ¬ (timedPort args.serverAddress).may s e ∧ ¬ (timedPort args.serverAddress).times s e := by
  obtain ⟨w, phase, n⟩ := s
  obtain ⟨ret, rfl, -⟩ := failed
  cases e with
  | sendto r => exact ⟨fun may => Bool.noConfusion may.2, id⟩
  | recvfrom r uninit =>
      cases r with
      | failed errno => exact ⟨id, fun times => Bool.noConfusion times.2⟩
      | datagram src bytes => exact ⟨fun may => Bool.noConfusion may.2, id⟩

/-- **The client sends everything once.** -/
def udpSends (small : args.vec.occupiedSize.toNat < 2 ^ 32) :
    SendsOnce (udpClientHandler args) (UDPClient.timedPort args.serverAddress)
      (UDP.message args) (UDP.kind args) (DatagramType.count args) where
  At n h s := s.SendsAt args n h
  Failed s := s.Failed
  sends there sending := there.sends small sending
  hears there waiting may := there.hears small waiting may
  waits there waiting :=
    ⟨.recvfrom (.failed .EAGAIN) .zero, rfl, (there.waiting_iff small).mpr waiting⟩
  times := by
    intro n h s e there times
    cases e with
    | sendto r => cases times
    | recvfrom r uninit =>
        cases r with
        | datagram src bytes => cases times
        | failed errno =>
            obtain ⟨rfl, waiting⟩ := times
            exact ⟨(there.waiting_iff small).mp waiting, rfl,
              UDPClient.failed_timeout waiting uninit⟩
  ended := by
    intro s e there
    have phase : s.phase = .ended .SUCCESS := there.succeeded rfl
    have succeeded : DatagramType.UDP.succeeded s = true := by
      show s.phase.succeeded = true
      rw [phase]
      rfl
    exact DatagramType.UDP.not_may_of_succeeded succeeded e
  failed there := there.still _

end Client

/-! ## The server -/

/-- The server listens again, and has taken the first `n` packets in one more session. -/
structure UDPServer.HasTaken (s : UDPServer) (args : ClientArgs) (client : SockAddr)
    (before : UDPServer) (n : ℕ) : Prop where
  idle : s.mode = .idle
  session : ∃ session, s.ended = before.ended ++ [session] ∧ session.currClientAddr = client ∧
    session.conn.sessionId = args.sessionId ∧
      session.delivered = (List.range n).map (DatagramType.UDP.chunk args)

/-- The server has served this many messages. -/
inductive UDPServer.TakesAt (args : ClientArgs) (client : SockAddr) (before : UDPServer) :
    ℕ → UDPServer → Prop where
  | idle (idle : before.mode = .idle) : TakesAt args client before 0 before
  | session {i : ℕ} {s : UDPServer} (within : i ≤ DatagramType.count args)
      (there : s.AtPacket .UDP args client before i) : TakesAt args client before (i + 1) s

section Server

variable {args : ClientArgs} {client : SockAddr} {before s : UDPServer} {b i j : ℕ}

/-- A packet that is not the next one ends the session. -/
theorem udpDataReceiveBody_missing {session : UDPSession} {sessionId packageId : UInt64}
    {payload : List UInt8} (own : sessionId = session.conn.sessionId)
    (other : packageId ≠ session.currPackageId) (clientAddress : SockAddr)
    (uninit : ServerUninit) :
    udpDataReceiveBody session clientAddress uninit (dataBytes sessionId packageId payload) =
      (⟨.returned session, clientAddress⟩,
        [sendRJT .dataReceive clientAddress session.conn.sessionId packageId]) := by
  subst own
  simp only [udpDataReceiveBody, checkIfCorrectDATAPacket, DataInfo.receive_dataBytes, ne_eq,
    not_true_eq_false, if_false, other, not_false_eq_true, if_true, reduceCtorEq]

/-- A session that is over has taken the packets before the one that it is at. -/
theorem UDPServer.hasTaken_of_returned {session : UDPSession}
    (ended : s.ended = before.ended) (own : session.currClientAddr = client)
    (agrees : session.Agrees (DatagramType.UDP.cut args))
    (small : args.vec.occupiedSize.toNat < 2 ^ 32) (within : i ≤ DatagramType.count args)
    (current : session.currPackageId = UInt64.ofNat i) (clientAddress : SockAddr) :
    (s.afterUDP ⟨.returned session, clientAddress⟩).HasTaken args client before i := by
  have few : i < 2 ^ 64 := by
    have bound := DatagramType.count_lt small
    omega
  have delivered := agrees.delivered
  rw [current, UInt64.toNat_ofNat_of_lt' few, DatagramType.cut_chunk] at delivered
  exact ⟨rfl, session, congrArg (· ++ [session]) ended, own,
    agrees.sessionId.trans (DatagramType.UDP.cut_sessionId args), delivered⟩

variable (args) in
/-- What the client hears for packet `i`. -/
theorem UDP.map_final (within : i < DatagramType.count args) :
    (DatagramType.final args (i + 1)).map (UDP.kind args) =
      Volley.replies (DatagramType.count args) (i + 1) := by
  have one : Volley.promised (DatagramType.count args) (i + 1) = 1 :=
    Volley.promised_of_within (Nat.succ_pos i) within
  rw [Volley.replies, one, DatagramType.final]
  split
  · rename_i last
    have both : Volley.promised (DatagramType.count args) (i + 1 + 1) = 2 :=
      Volley.promised_eq_two_iff.mpr (last ▸ Nat.lt_succ_self _)
    have confirmed : UDP.kind args (initRCVD args.sessionId).store = 1 :=
      UDP.kind_eq_one_iff.mpr rfl
    rw [both, List.map_singleton, confirmed]
    rfl
  · rename_i more
    have still : Volley.promised (DatagramType.count args) (i + 1 + 1) = 1 :=
      Volley.promised_of_within (Nat.succ_pos _) (Nat.lt_of_le_of_ne within more)
    rw [still]
    rfl

/-- The next message comes. -/
theorem UDPServer.TakesAt.serves (small : args.vec.occupiedSize.toNat < 2 ^ 32)
    (some_packets : 0 < DatagramType.count args) (there : TakesAt args client before b s)
    (within : b ≤ DatagramType.count args) {d : ServerEvent} (may : (timedPort client).may s d)
    (takes : (timedPort client).takes d = [UDP.message args b]) :
    ((timedPort client).puts (udpServerHandler.emit s d)).map (UDP.kind args) =
        Volley.replies (DatagramType.count args) b ∧
      TakesAt args client before (b + 1) (udpServerHandler.next s d) := by
  cases there with
  | idle idle =>
      obtain ⟨puts, there⟩ :=
        ((UDPServer.follows_conn (t := .UDP) client small idle).2 d may).2 takes
      have silent : DatagramType.final args 0 = [] := if_neg (Nat.ne_of_lt some_packets)
      rw [silent, ite_self] at puts
      have one : Volley.promised (DatagramType.count args) 1 = 1 :=
        Volley.promised_of_within Nat.one_pos some_packets
      have connected : UDP.kind args (initCONACC args.sessionId).store = 0 :=
        UDP.kind_eq_zero_iff.mpr rfl
      refine ⟨(congrArg _ puts).trans ?_, .session (Nat.zero_le _) there⟩
      rw [List.map_singleton, connected, Volley.replies, one]
      rfl
  | @session i s within' there =>
      obtain ⟨puts, there⟩ := ((UDPServer.follows_serve small within there).2 d may).2 takes
      have replied : (timedPort client).puts (udpServerHandler.emit s d) =
          DatagramType.final args (i + 1) := puts.trans (List.nil_append _)
      rw [replied]
      exact ⟨UDP.map_final args within, .session within there⟩

/-- Different packets have different ids. -/
theorem ofNat_ne_of_lt (small : args.vec.occupiedSize.toNat < 2 ^ 32) (earlier : i < j)
    (below : j < DatagramType.count args) : UInt64.ofNat j ≠ UInt64.ofNat i := by
  have few := DatagramType.count_lt small
  have fits : j < 2 ^ 64 := by omega
  intro same
  have numbers := congrArg UInt64.toNat same
  rw [UInt64.toNat_ofNat_of_lt' fits, UInt64.toNat_ofNat_of_lt' (Nat.lt_trans earlier fits)]
    at numbers
  exact Nat.ne_of_gt earlier numbers

/-- What the client hears of a reply that rejects. -/
theorem UDP.map_rejection {reply : Reply} (own : reply.dest = client)
    (rejects : UDP.kind args reply.bytes = 2) :
    ((UDPServer.timedPort client).puts [reply]).map (UDP.kind args) = [2] := by
  have heard : toClientBytes client [reply] = [reply.bytes] :=
    toClientBytes_own fun other member => (congrArg _ (List.mem_singleton.mp member)).trans own
  show (toClientBytes client [reply]).map _ = _
  rw [heard, List.map_singleton, rejects]

/-- A message comes when one before it is missing. -/
theorem UDPServer.TakesAt.rejects (small : args.vec.occupiedSize.toNat < 2 ^ 32)
    (there : TakesAt args client before (i + 1) s) (missing : i < j)
    (below : j < DatagramType.count args) {d : ServerEvent} (may : (timedPort client).may s d)
    (takes : (timedPort client).takes d = [UDP.message args (j + 1)]) :
    ((timedPort client).puts (udpServerHandler.emit s d)).map (UDP.kind args) = [2] ∧
      (udpServerHandler.next s d).HasTaken args client before i := by
  obtain ⟨uninit, rfl⟩ := UDPServer.recvfrom_of_takes may takes
  cases there with
  | @session i s within there =>
      obtain ⟨ended, session, mode, own, agrees, current⟩ :=
        there.waits (Nat.lt_trans missing below)
      have sessionId : args.sessionId = session.conn.sessionId :=
        ((DatagramType.UDP.cut_sessionId args).symm.trans agrees.sessionId.symm)
      have other : UInt64.ofNat j ≠ session.currPackageId := by
        rw [current]
        exact ofNat_ne_of_lt small missing below
      have pass := udpDataReceivePass_client session s.udpClientAddress uninit
        (fits_dataBytes args.sessionId (UInt64.ofNat j) (DatagramType.UDP.short_chunk args j))
        (dataBytes_ne_nil _ _ _)
      rw [udpDataReceiveBody_missing sessionId other, own, ← sessionId] at pass
      have rejected : udpServerHandler.step s
          (.recvfrom (.datagram client (UDP.message args (j + 1))) uninit .sent) =
            (s.afterUDP ⟨.returned session, client⟩,
              [sendRJT .dataReceive client args.sessionId (UInt64.ofNat j)]) := by
        simp only [udpServerHandler, UDPServer.step, mode, UDP.message, DatagramType.packet, pass]
      rw [Machine.emit, Machine.next, rejected]
      exact ⟨UDP.map_rejection rfl (UDP.kind_rjt _),
        UDPServer.hasTaken_of_returned ended own agrees small within current client⟩

/-- A packet comes when the server has given up. -/
theorem UDPServer.HasTaken.refuses (taken : s.HasTaken args client before i)
    {d : ServerEvent} (may : (timedPort client).may s d)
    (takes : (timedPort client).takes d = [UDP.message args (j + 1)]) :
    ((timedPort client).puts (udpServerHandler.emit s d)).map (UDP.kind args) = [2] ∧
      (udpServerHandler.next s d).HasTaken args client before i := by
  obtain ⟨uninit, rfl⟩ := UDPServer.recvfrom_of_takes may takes
  have refused : udpServerHandler.step s
      (.recvfrom (.datagram client (UDP.message args (j + 1))) uninit .sent) =
        (s, [sendCONRJT .serverHandler client args.sessionId]) := by
    simp only [udpServerHandler, UDPServer.step, taken.idle]
    exact s.onIdle_dataBytes client args.sessionId (UInt64.ofNat j)
      (DatagramType.UDP.short_chunk args j) uninit .sent
  rw [Machine.emit, Machine.next, refused]
  exact ⟨UDP.map_rejection rfl UDP.kind_conrjt, taken⟩

/-- A timeout ends the session. -/
theorem UDPServer.TakesAt.times (small : args.vec.occupiedSize.toNat < 2 ^ 32)
    (there : TakesAt args client before b s) (active : s.mode ≠ .idle) (uninit : ServerUninit)
    (conacc : SendTo) :
    ∃ i, b = i + 1 ∧ i < DatagramType.count args ∧
      udpServerHandler.emit s (.recvfrom (.failed .EAGAIN) uninit conacc) = [] ∧
      (udpServerHandler.next s (.recvfrom (.failed .EAGAIN) uninit conacc)).HasTaken args client
        before i := by
  cases there with
  | idle idle => exact absurd idle active
  | @session i s within there =>
      have below : i < DatagramType.count args :=
        Nat.lt_of_le_of_ne within fun last => active (there.served last).idle
      obtain ⟨ended, session, mode, own, agrees, current⟩ := there.waits below
      have returns : udpServerHandler.step s (.recvfrom (.failed .EAGAIN) uninit conacc) =
          (s.afterUDP ⟨.returned session, s.udpClientAddress⟩, []) := by
        simp only [udpServerHandler, UDPServer.step, mode]
        rfl
      refine ⟨i, rfl, below, ?_⟩
      rw [Machine.emit, Machine.next, returns]
      exact ⟨rfl, UDPServer.hasTaken_of_returned ended own agrees small within current _⟩

/-- In a session there can be a timeout. -/
theorem UDPServer.TakesAt.active (there : TakesAt args client before (i + 1) s)
    (below : i < DatagramType.count args) : s.mode ≠ .idle ∧ s.mode ≠ .finished := by
  cases there with
  | session within there =>
      obtain ⟨-, session, mode, -⟩ := there.waits below
      rw [mode]
      exact ⟨ServerMode.noConfusion, ServerMode.noConfusion⟩

/-- **The server takes the messages in order, or gives up.** -/
def udpTakes (small : args.vec.occupiedSize.toNat < 2 ^ 32)
    (some_packets : 0 < DatagramType.count args) (client : SockAddr) (before : UDPServer) :
    TakesOnce udpServerHandler (UDPServer.timedPort client) (UDP.message args) (UDP.kind args)
      (DatagramType.count args) where
  At b s := UDPServer.TakesAt args client before b s
  GivenUp b s := ∃ i, b = i + 1 ∧ s.HasTaken args client before i
  hears_one := @UDPServer.takes_one client
  serves there within may takes := there.serves small some_packets within may takes
  rejects {b m s d} there begun missing within may takes := by
    obtain ⟨i, rfl⟩ := Nat.exists_eq_succ_of_ne_zero (Nat.ne_of_gt begun)
    obtain ⟨j, rfl⟩ := Nat.exists_eq_succ_of_ne_zero (Nat.ne_of_gt (Nat.lt_trans begun missing))
    obtain ⟨replies, taken⟩ :=
      there.rejects small (Nat.lt_of_succ_lt_succ missing) within may takes
    exact ⟨replies, i, rfl, taken⟩
  refuses {b m s d} gone begun within may takes := by
    obtain ⟨i, rfl, taken⟩ := gone
    obtain ⟨j, rfl⟩ := Nat.exists_eq_succ_of_ne_zero (Nat.ne_of_gt begun)
    obtain ⟨replies, taken⟩ := taken.refuses may takes
    exact ⟨replies, i, rfl, taken⟩
  waits {b s} there begun within := by
    obtain ⟨i, rfl⟩ := Nat.exists_eq_succ_of_ne_zero (Nat.ne_of_gt begun)
    exact ⟨.recvfrom (.failed .EAGAIN) .zero .sent, rfl, there.active within⟩
  times := by
    intro b s d there times
    cases d with
    | catchInt => cases times
    | recvfrom r uninit conacc =>
        cases r with
        | datagram src bytes => cases times
        | failed errno =>
            obtain ⟨rfl, active, -⟩ := times
            obtain ⟨i, rfl, below, silent, taken⟩ := there.times small active uninit conacc
            exact ⟨Nat.succ_pos i, below, congrArg (toClientBytes client) silent, i, rfl, taken⟩
  gone := by
    rintro b s d ⟨i, -, taken⟩ times
    cases d with
    | catchInt => cases times
    | recvfrom r uninit conacc =>
        cases r with
        | datagram src bytes => cases times
        | failed errno => exact times.2.1 taken.idle

end Server

/-! ## Over a network with losses -/

/-- One step of the client, the server or a network that keeps the order and may lose anything. -/
abbrev UDP.LossyStep (args : ClientArgs) (client : SockAddr) :=
  Lossy.Step (udpClientHandler args) udpServerHandler (UDPClient.timedPort args.serverAddress)
    (UDPServer.timedPort client) (fun _ => True) (fun _ => True)

/-- The end of a transfer: the client has ended, in success exactly if nothing went wrong, and the
server listens again and has received first packets in one more session, or nothing. -/
structure UDP.Settled (args : ClientArgs) (client : SockAddr) (before : UDPServer)
    (s : Lossy UDPClient UDPServer (List UInt8) (List UInt8)) : Prop where
  ended : ∃ ret, s.left.phase = .ended ret ∧ (ret = .SUCCESS ↔ s.Faultless)
  idle : s.right.mode = .idle
  sessions : s.right.ended = before.ended ∨
    ∃ n ≤ DatagramType.count args, s.right.HasTaken args client before n
  served : s.Faultless → s.right.HasServed .UDP args client before
  toRight : s.toRight = []
  toLeft : s.Faultless → s.toLeft = []

section Settled

variable {args : ClientArgs} {client : SockAddr} {before s : UDPServer} {b : ℕ}

/-- What a server at rest has received. -/
theorem UDPServer.TakesAt.rests (there : TakesAt args client before b s)
    (rests : b = 0 ∨ b = DatagramType.count args + 1) :
    s.mode = .idle ∧ (s.ended = before.ended ∨
      ∃ n ≤ DatagramType.count args, s.HasTaken args client before n) := by
  cases there with
  | idle idle => exact ⟨idle, .inl rfl⟩
  | @session i s within there =>
      have last : i = DatagramType.count args := by omega
      have served := there.served last
      exact ⟨served.idle, .inr ⟨_, Nat.le_refl _, served.idle, served.session⟩⟩

theorem UDPServer.TakesAt.hasServed (there : TakesAt args client before b s)
    (all : b = DatagramType.count args + 1) : s.HasServed .UDP args client before := by
  cases there with
  | idle => exact absurd all.symm (Nat.succ_ne_zero _)
  | session within there => exact there.served (Nat.succ_injective all)

/-- **Without retransmission a transfer is all or nothing.** Every run comes to its end, where the
client has ended in success exactly if nothing was lost and nothing came too late. -/
theorem udp_transfer_succeeds_iff_faultless {server : UDPServer}
    (some_bytes : 0 < args.vec.occupiedSize) (small : args.vec.occupiedSize.toNat < 2 ^ 32)
    (idle : server.mode = .idle) (errno : Errno) :
    Inevitable (UDP.LossyStep args client) (UDP.Settled args client server)
      (.start (.start errno) server) := by
  have some_packets : 0 < DatagramType.count args := by
    rw [DatagramType.count, lt_packetCount_iff]
    exact UInt64.lt_iff_toNat_lt.mp some_bytes
  have knows : (WaitState.start errno).Knows args.serverAddress := .inl rfl
  refine (Lossy.volley_inevitable (udpSends small) (udpTakes small some_packets client server)
    (.sendCONN knows) (.idle idle)).mono ?_
  rintro s ⟨x, volleys, settled⟩
  have faultless : x.hopes = true ↔ s.Faultless :=
    (volleys.good.hopes_iff settled).trans volleys.faultless_iff.symm
  have confirmed (nothing : s.Faultless) := volleys.good.confirmed settled (faultless.mpr nothing)
  have rests : s.right.mode = .idle ∧ (s.right.ended = server.ended ∨
      ∃ n ≤ DatagramType.count args, s.right.HasTaken args client server n) := by
    cases serves : x.serves with
    | true => exact UDPServer.TakesAt.rests (volleys.serves serves) (settled.right serves)
    | false =>
        obtain ⟨n, served, taken⟩ := volleys.gone serves
        have within := (volleys.good.gone serves).2
        exact ⟨taken.idle, .inr ⟨n, by omega, taken⟩⟩
  refine ⟨?_, rests.1, rests.2, fun nothing => ?_, ?_, fun nothing => ?_⟩
  · cases hopes : x.hopes with
    | true =>
        have there : s.left.SendsAt args x.sent x.heard := volleys.hopes hopes
        exact ⟨.SUCCESS, there.succeeded (settled.left hopes),
          iff_of_true rfl (faultless.mp hopes)⟩
    | false =>
        obtain ⟨ret, ended, failed⟩ := volleys.failed hopes
        refine ⟨ret, ended, iff_of_false failed fun nothing => ?_⟩
        exact absurd (hopes.symm.trans (faultless.mpr nothing)) Bool.noConfusion
  · obtain ⟨serves, served, -⟩ := confirmed nothing
    exact UDPServer.TakesAt.hasServed (volleys.serves serves) served
  · rw [volleys.toRight, settled.toRight, List.map_nil]
  · obtain ⟨-, -, -, toLeft⟩ := confirmed nothing
    rw [← volleys.toLeft] at toLeft
    exact List.map_eq_nil_iff.mp toLeft

end Settled

/-- One byte at a fresh server. -/
theorem udp_transfer_succeeds_iff_faultless_oneByte :
    ∃ s, ReflTransGen (UDP.LossyStep oneByte oneByteClient)
      (.start (.start (.other 0)) .start) s ∧ UDP.Settled oneByte oneByteClient .start s :=
  (udp_transfer_succeeds_iff_faultless (by decide) (by decide) rfl (.other 0)).reaches

end Ppcb
