import Ppcb.Lib.Script
import Ppcb.DatagramClient
import Ppcb.SendTermination

/-!
# What a client and the server do when nothing is lost

On a network that delivers every datagram once and in order, and in time, a client and the
server do one thing after the other. What the client does is a script, `CONN`, `CONACC`, its
packets with their `ACC`s if there are any, and `RCVD` (`DatagramType.client_follows`), and so
is what the server does once it hears the `CONN` (`DatagramType.server_follows`).
-/

set_option autoImplicit false

namespace Ppcb

open ByteOrder CString Reactive

namespace DatagramType

/-- The client is blocked in `sendto`. -/
def sending : (t : DatagramType) → t.Client → Bool
  | UDP, s => match s.phase with
    | .sendCONN | .sendDATA _ _ => true
    | _ => false
  | UDPR, s => match s.phase with
    | .sendCONN | .sendDATA _ _ => true
    | _ => false

/-- The client is blocked in `recvfrom`. -/
def waiting : (t : DatagramType) → t.Client → Bool
  | UDP, s => s.waiting
  | UDPR, s => s.waiting

/-- The client is blocked in the `recvfrom` of `RCVD`. -/
def waitsRCVD : (t : DatagramType) → t.Client → Prop
  | UDP, s => s.phase = .waitRCVD
  | UDPR, s => s.phase = .waitRCVD

/-- Every `sendto` succeeds, and `recvfrom` returns the datagrams of the server. -/
def clientPort (t : DatagramType) (serverAddress : SockAddr) :
    Port t.Client ClientEvent Datagram (List UInt8) (List UInt8) where
  may s
    | .sendto r => r = .sent ∧ t.sending s = true
    | .recvfrom (.datagram src _) _ => src = serverAddress ∧ t.waiting s = true
    | .recvfrom (.failed _) _ => False
  takes
    | .recvfrom (.datagram _ bytes) _ => [bytes]
    | _ => []
  puts out := (out.filter (·.dest = serverAddress)).map Datagram.bytes

/-- The answers to packet `i` before the last one. -/
def acks : DatagramType → ClientArgs → ℕ → List (List UInt8)
  | UDP, _, _ => []
  | UDPR, args, i => [(initACC args.sessionId (UInt64.ofNat i)).store]

variable (t : DatagramType) (args : ClientArgs)

def conn : List UInt8 := (initCONN args.sessionId t.protocol args.vec.occupiedSize).store

/-- The bytes of packet `i`. -/
def packet (i : ℕ) : List UInt8 :=
  dataBytes args.sessionId (UInt64.ofNat i) (t.chunk args i)

def count : ℕ := packetCount args.vec.occupiedSize.toNat

/-- The payloads of all packets. -/
def chunks : List (List UInt8) := (List.range (count args)).map (t.chunk args)

/-- One pass of the sending loop. -/
def pass (i : ℕ) : List (Act (List UInt8) (List UInt8)) :=
  .put (t.packet args i) :: (t.acks args i).map .take

/-- What the client does before it waits for the `RCVD`. -/
def packetScript : List (Act (List UInt8) (List UInt8)) :=
  .put (t.conn args) :: .take (initCONACC args.sessionId).store ::
    (List.range (count args)).flatMap (t.pass args)

/-- What the client does. -/
def clientScript : List (Act (List UInt8) (List UInt8)) :=
  t.packetScript args ++ [.take (initRCVD args.sessionId).store]

/-- The last answer, when `n` packets were all. -/
def final (n : ℕ) : List (List UInt8) :=
  if n = count args then [(initRCVD args.sessionId).store] else []

/-- What the server does with packet `i`. -/
def serve (i : ℕ) : Act (List UInt8) (List UInt8) :=
  ⟨[t.packet args i], t.acks args i ++ final args (i + 1)⟩

/-- What the server does. -/
def serverScript : List (Act (List UInt8) (List UInt8)) :=
  ⟨[t.conn args], (initCONACC args.sessionId).store :: final args 0⟩ ::
    (List.range (count args)).map (t.serve args)

end DatagramType

/-! ## The client -/

section Client

variable {t : DatagramType} {args : ClientArgs} {done : t.Client → Prop}
  {script : List (Act (List UInt8) (List UInt8))} {s : t.Client} {bytes : List UInt8}

theorem DatagramType.sending_of_waiting (waiting : t.waiting s = true) : t.sending s = false := by
  cases t with
  | UDP =>
      obtain ⟨w, phase, n⟩ := s
      cases phase <;> first | rfl | cases waiting
  | UDPR =>
      obtain ⟨w, nbr, phase, n⟩ := s
      cases phase <;> first | rfl | cases waiting

/-- What a client that sends may do. -/
theorem DatagramType.sendto_of_may {serverAddress : SockAddr} (sending : t.sending s = true)
    {e : ClientEvent} (may : (t.clientPort serverAddress).may s e) : e = .sendto .sent := by
  cases e with
  | sendto r => exact congrArg _ may.1
  | recvfrom r uninit =>
      cases r with
      | failed errno => cases may
      | datagram src bytes =>
          have idle := DatagramType.sending_of_waiting may.2
          rw [sending] at idle
          cases idle

/-- What a client that waits may do. -/
theorem DatagramType.recvfrom_of_may {serverAddress : SockAddr} (waiting : t.waiting s = true)
    {e : ClientEvent} (may : (t.clientPort serverAddress).may s e) :
    ∃ bytes uninit, e = .recvfrom (.datagram serverAddress bytes) uninit := by
  cases e with
  | sendto r =>
      have idle := DatagramType.sending_of_waiting waiting
      rw [may.2] at idle
      cases idle
  | recvfrom r uninit =>
      cases r with
      | failed errno => cases may
      | datagram src bytes =>
          cases may.1
          exact ⟨bytes, uninit, rfl⟩

theorem DatagramType.puts_own (t : DatagramType) (serverAddress : SockAddr)
    (bytes : List UInt8) :
    (t.clientPort serverAddress).puts [⟨serverAddress, bytes⟩] = [bytes] := by
  have own : decide (serverAddress = serverAddress) = true := decide_eq_true rfl
  show (List.filter _ _).map _ = _
  rw [List.filter_cons, if_pos own]
  rfl

/-- A client that is about to send. -/
theorem follows_put (sending : t.sending s = true)
    (sent : (t.clientHandler args).emit s (.sendto .sent) = [⟨args.serverAddress, bytes⟩])
    (rest : (t.clientPort args.serverAddress).Follows (t.clientHandler args) done script
      ((t.clientHandler args).next s (.sendto .sent))) :
    (t.clientPort args.serverAddress).Follows (t.clientHandler args) done
      (.put bytes :: script) s := by
  refine ⟨⟨.sendto .sent, ⟨rfl, sending⟩, rfl⟩, fun e may => ?_⟩
  cases DatagramType.sendto_of_may sending may
  refine ⟨rfl, fun _ => ⟨?_, rest⟩⟩
  rw [sent]
  exact t.puts_own args.serverAddress bytes

/-- A client that waits for a datagram. -/
theorem follows_take (waiting : t.waiting s = true)
    (rest : ∀ uninit, (t.clientPort args.serverAddress).Follows (t.clientHandler args) done script
      ((t.clientHandler args).next s (.recvfrom (.datagram args.serverAddress bytes) uninit))) :
    (t.clientPort args.serverAddress).Follows (t.clientHandler args) done
      (.take bytes :: script) s := by
  refine ⟨⟨.recvfrom (.datagram args.serverAddress bytes) .zero, ⟨rfl, waiting⟩, rfl⟩,
    fun e may => ?_⟩
  obtain ⟨other, uninit, rfl⟩ := DatagramType.recvfrom_of_may waiting may
  refine ⟨rfl, fun takes => ?_⟩
  cases takes
  exact ⟨by cases t <;> rfl, rest uninit⟩

theorem follows_take_last (waiting : t.waiting s = true)
    (rest : ∀ uninit, done
      ((t.clientHandler args).next s (.recvfrom (.datagram args.serverAddress bytes) uninit))) :
    (t.clientPort args.serverAddress).Follows (t.clientHandler args) done [.take bytes] s :=
  follows_take waiting rest

end Client

section Loops

variable {args : ClientArgs}

/-- The client with retransmission is at packet `i`, or past the last one. -/
def UDPRClient.AtPacket (args : ClientArgs) (i : ℕ) (s : UDPRClient) : Prop :=
  ∃ loc data, s.phase = udprClientSendDATA args loc data ∧
    loc.filled = (UDPRSend.atPacket args i).filled ∧ s.wait.Knows args.serverAddress

theorem UDPRClient.follows_pass (small : args.vec.occupiedSize.toNat < 2 ^ 32) {i : ℕ}
    (below : i < DatagramType.count args) {s : UDPRClient} (there : s.AtPacket args i) :
    (DatagramType.UDPR.clientPort args.serverAddress).Follows (udprClientHandler args)
      (UDPRClient.AtPacket args (i + 1)) (DatagramType.UDPR.pass args i) s := by
  obtain ⟨wait, nbr, phase, acked⟩ := s
  obtain ⟨loc, data, rfl, same, knows⟩ := there
  rcases udprClientSendDATA_cases data same with ⟨-, built, equal, bytes⟩ | ⟨done, -⟩
  swap
  · exact absurd ((UDPRSend.hasMore_iff_lt small i).mpr below) done
  rw [equal]
  refine follows_put (t := .UDPR) rfl ?_
    (follows_take_last (t := .UDPR) rfl fun uninit => ?_)
  · show [(⟨args.serverAddress, built.sentBytes⟩ : Datagram)] = _
    rw [bytes]
    rfl
  · have acknowledged := UDPRClient.onRecvfrom_acc rfl knows nbr acked
      (UDPRSend.atPacket args i).filled built uninit
    rw [UDPRSend.filled_currPackageId, UDPRSend.currPackageId_atPacket] at acknowledged
    show UDPRClient.AtPacket args (i + 1) (UDPRClient.onRecvfrom args
      ⟨wait, nbr, .waitACC (UDPRSend.atPacket args i).filled built, acked⟩
      (.datagram args.serverAddress (initACC args.sessionId (UInt64.ofNat i)).store) uninit)
    rw [acknowledged]
    refine ⟨_, _, rfl, ?_, .inr (WaitState.learn_server knows)⟩
    rw [UDPRSend.atPacket_succ]

/-- A client behind its last packet waits for the `RCVD`. -/
theorem UDPRClient.AtPacket.waits (small : args.vec.occupiedSize.toNat < 2 ^ 32)
    {s : UDPRClient} (there : s.AtPacket args (DatagramType.count args)) :
    s.phase = .waitRCVD ∧ s.wait.Knows args.serverAddress := by
  obtain ⟨loc, data, phase, same, knows⟩ := there
  rcases udprClientSendDATA_cases data same with ⟨more, -⟩ | ⟨-, equal⟩
  · exact absurd ((UDPRSend.hasMore_iff_lt small _).mp more) (Nat.lt_irrefl _)
  · exact ⟨phase.trans equal, knows⟩

/-- After the last packet the client takes the `RCVD` and ends in success. -/
theorem UDPRClient.follows_final {s : UDPRClient} (phase : s.phase = .waitRCVD)
    (knows : s.wait.Knows args.serverAddress) :
    (DatagramType.UDPR.clientPort args.serverAddress).Follows (udprClientHandler args)
      (fun s => s.phase.succeeded = true) [.take (initRCVD args.sessionId).store] s := by
  obtain ⟨wait, nbr, _, acked⟩ := s
  cases phase
  refine follows_take_last (t := .UDPR) rfl fun uninit => ?_
  obtain ⟨fits, nonempty⟩ := fits_initRCVD args.sessionId
  have confirmed : udprClientHandleRCVD uninit 0 args.sessionId
      (.SUCCESS, (initRCVD args.sessionId).store) = some .SUCCESS :=
    (udprClientHandleRCVD_success_iff _).mpr rfl
  show (UDPRClient.onRecvfrom args ⟨wait, nbr, .waitRCVD, acked⟩
    (.datagram args.serverAddress (initRCVD args.sessionId).store) uninit).phase.succeeded = true
  rw [UDPRClient.onRecvfrom_server knows rfl fits nonempty]
  simp only [UDPRClient.onResponse, confirmed]
  rfl

/-- What the client does before it waits for the `RCVD`. -/
theorem UDPRClient.follows_packets (small : args.vec.occupiedSize.toNat < 2 ^ 32)
    (errno : Errno) :
    (DatagramType.UDPR.clientPort args.serverAddress).Follows (udprClientHandler args)
      (fun s => s.phase = .waitRCVD ∧ s.wait.Knows args.serverAddress)
      (DatagramType.UDPR.packetScript args) (.start errno) := by
  have knows : (WaitState.start errno).Knows args.serverAddress := .inl rfl
  refine follows_put (t := .UDPR) rfl rfl (follows_take (t := .UDPR) rfl fun uninit => ?_)
  have connected := UDPRClient.onRecvfrom_conacc knows 0 0 uninit
  refine Port.Follows.mono (Port.Follows.loop (I := UDPRClient.AtPacket args)
    (fun i s below there => UDPRClient.follows_pass small below there) ?_)
    fun s there => there.waits small
  show UDPRClient.AtPacket args 0 (UDPRClient.onRecvfrom args
    ⟨.start errno, 0, .waitCONACC, 0⟩
    (.datagram args.serverAddress (initCONACC args.sessionId).store) uninit)
  rw [connected]
  exact ⟨_, _, rfl, rfl, .inr (WaitState.learn_server knows)⟩

/-- The client without retransmission is at packet `i`, or past the last one. -/
def UDPClient.AtPacket (args : ClientArgs) (i : ℕ) (s : UDPClient) : Prop :=
  ∃ (before : UDPClient) (data : DATA), s = before.sendDATA args (UDPSend.atPacket args i) data ∧
    before.wait.Knows args.serverAddress

theorem UDPClient.follows_pass (small : args.vec.occupiedSize.toNat < 2 ^ 32) {i : ℕ}
    (below : i < DatagramType.count args) {s : UDPClient} (there : s.AtPacket args i) :
    (DatagramType.UDP.clientPort args.serverAddress).Follows (udpClientHandler args)
      (UDPClient.AtPacket args (i + 1)) (DatagramType.UDP.pass args i) s := by
  obtain ⟨before, data, rfl, knows⟩ := there
  rcases before.sendDATA_cases args i data with ⟨-, built, equal, bytes⟩ | ⟨done, -⟩
  swap
  · exact absurd ((UDPSend.hasMore_iff_lt small i).mpr below) done
  rw [equal]
  refine follows_put (t := .UDP) rfl ?_ ⟨_, _, rfl, knows⟩
  show [(⟨args.serverAddress, built.sentBytes⟩ : Datagram)] = _
  rw [bytes]
  rfl

/-- A client behind its last packet waits for the `RCVD`. -/
theorem UDPClient.AtPacket.waits (small : args.vec.occupiedSize.toNat < 2 ^ 32)
    {s : UDPClient} (there : s.AtPacket args (DatagramType.count args)) :
    s.phase = .waitRCVD ∧ s.wait.Knows args.serverAddress := by
  obtain ⟨before, data, rfl, knows⟩ := there
  rcases before.sendDATA_cases args (DatagramType.count args) data with ⟨more, -⟩ | ⟨-, equal⟩
  · exact absurd ((UDPSend.hasMore_iff_lt small _).mp more) (Nat.lt_irrefl _)
  · rw [equal]
    exact ⟨rfl, knows⟩

theorem UDPClient.follows_final {s : UDPClient} (phase : s.phase = .waitRCVD)
    (knows : s.wait.Knows args.serverAddress) :
    (DatagramType.UDP.clientPort args.serverAddress).Follows (udpClientHandler args)
      (fun s => s.phase.succeeded = true) [.take (initRCVD args.sessionId).store] s := by
  obtain ⟨wait, _, built⟩ := s
  cases phase
  refine follows_take_last (t := .UDP) rfl fun uninit => ?_
  obtain ⟨fits, nonempty⟩ := fits_initRCVD args.sessionId
  have confirmed : udpClientRCVDHandler args.sessionId uninit.rcvd
      (initRCVD args.sessionId).store = .SUCCESS := (udpClientRCVDHandler_success_iff _).mpr rfl
  have response := waitForServerResponse_server knows fits nonempty
  show (UDPClient.onRecvfrom args ⟨wait, .waitRCVD, built⟩
    (.datagram args.serverAddress (initRCVD args.sessionId).store) uninit).phase.succeeded = true
  simp only [UDPClient.onRecvfrom, UDPClient.waiting, if_true, response, UDPClient.onResponse,
    confirmed, ne_eq, not_true_eq_false, if_false]
  rfl

theorem UDPClient.follows_packets (small : args.vec.occupiedSize.toNat < 2 ^ 32)
    (errno : Errno) :
    (DatagramType.UDP.clientPort args.serverAddress).Follows (udpClientHandler args)
      (fun s => s.phase = .waitRCVD ∧ s.wait.Knows args.serverAddress)
      (DatagramType.UDP.packetScript args) (.start errno) := by
  have knows : (WaitState.start errno).Knows args.serverAddress := .inl rfl
  refine follows_put (t := .UDP) rfl rfl (follows_take (t := .UDP) rfl fun uninit => ?_)
  refine Port.Follows.mono (Port.Follows.loop (I := UDPClient.AtPacket args)
    (fun i s below there => UDPClient.follows_pass small below there) ?_)
    fun s there => there.waits small
  obtain ⟨fits, nonempty⟩ := fits_initCONACC args.sessionId
  have connected : udpClientCONACCHandler args.sessionId uninit.conacc
      (initCONACC args.sessionId).store = .SUCCESS :=
    (udpClientCONACCHandler_success_iff _).mpr rfl
  have response := waitForServerResponse_server knows fits nonempty
  show UDPClient.AtPacket args 0 (UDPClient.onRecvfrom args ⟨.start errno, .waitCONACC, 0⟩
    (.datagram args.serverAddress (initCONACC args.sessionId).store) uninit)
  simp only [UDPClient.onRecvfrom, UDPClient.waiting, if_true, response, UDPClient.onResponse,
    connected, ne_eq, not_true_eq_false, if_false]
  exact ⟨_, _, rfl, .inr (WaitState.learn_server knows)⟩

/-- **A client that starts does its script and ends in success.** -/
theorem DatagramType.client_follows (t : DatagramType)
    (small : args.vec.occupiedSize.toNat < 2 ^ 32) (errno : Errno) :
    (t.clientPort args.serverAddress).Follows (t.clientHandler args)
      (fun s => t.succeeded s = true) (t.clientScript args) (t.start errno) := by
  cases t with
  | UDP =>
      exact (UDPClient.follows_packets small errno).append
        fun s waits => UDPClient.follows_final waits.1 waits.2
  | UDPR =>
      exact (UDPRClient.follows_packets small errno).append
        fun s waits => UDPRClient.follows_final waits.1 waits.2

/-- Before the last act of its script the client waits for the `RCVD`. -/
theorem DatagramType.client_waits (t : DatagramType)
    (small : args.vec.occupiedSize.toNat < 2 ^ 32) (errno : Errno) :
    (t.clientPort args.serverAddress).Follows (t.clientHandler args) t.waitsRCVD
      (t.packetScript args) (t.start errno) := by
  cases t with
  | UDP => exact (UDPClient.follows_packets small errno).mono fun s waits => waits.1
  | UDPR => exact (UDPRClient.follows_packets small errno).mono fun s waits => waits.1

/-- A client that waits for the `RCVD` does nothing more unless something comes. -/
theorem DatagramType.waitsRCVD_rests {t : DatagramType} {s : t.Client} (waits : t.waitsRCVD s) :
    (t.clientPort args.serverAddress).Rests s := by
  have blocked : t.waiting s = true := by
    cases t with
    | UDP =>
        obtain ⟨wait, _, built⟩ := s
        cases waits
        rfl
    | UDPR =>
        obtain ⟨wait, nbr, _, acked⟩ := s
        cases waits
        rfl
  intro e may
  obtain ⟨bytes, uninit, rfl⟩ := DatagramType.recvfrom_of_may blocked may
  exact List.cons_ne_nil bytes []

/-- It has not ended in success. -/
theorem DatagramType.not_succeeded_of_waitsRCVD {t : DatagramType} {s : t.Client}
    (waits : t.waitsRCVD s) : t.succeeded s = false := by
  cases t with
  | UDP =>
      obtain ⟨wait, _, built⟩ := s
      cases waits
      rfl
  | UDPR =>
      obtain ⟨wait, nbr, _, acked⟩ := s
      cases waits
      rfl

/-- A client that has ended does nothing more. -/
theorem DatagramType.not_may_of_succeeded (t : DatagramType) {serverAddress : SockAddr}
    {s : t.Client} (ended : t.succeeded s = true) (e : ClientEvent) :
    ¬ (t.clientPort serverAddress).may s e := by
  have silent : t.sending s = false ∧ t.waiting s = false := by
    cases t with
    | UDP =>
        obtain ⟨w, phase, n⟩ := s
        cases phase <;> first | exact ⟨rfl, rfl⟩ | cases ended
    | UDPR =>
        obtain ⟨w, nbr, phase, n⟩ := s
        cases phase <;> first | exact ⟨rfl, rfl⟩ | cases ended
  intro may
  cases e with
  | sendto r => exact absurd (silent.1.symm.trans may.2) Bool.false_ne_true
  | recvfrom r uninit =>
      cases r with
      | failed errno => cases may
      | datagram src bytes => exact absurd (silent.2.symm.trans may.2) Bool.false_ne_true

end Loops

/-! ## The server -/

/-- What goes to the client. -/
def toClientBytes (client : SockAddr) (replies : List Reply) : List (List UInt8) :=
  (replies.filter (·.dest = client)).map Reply.bytes

theorem toClientBytes_own {client : SockAddr} {replies : List Reply}
    (own : ∀ reply ∈ replies, reply.dest = client) :
    toClientBytes client replies = replies.map Reply.bytes := by
  rw [toClientBytes, List.filter_eq_self.mpr (by simpa using own)]

/-- `recvfrom` returns the datagrams of the client, and the `sendto` of `CONACC` succeeds. -/
def serverPort (client : SockAddr) :
    Port UDPServer ServerEvent Reply (List UInt8) (List UInt8) where
  may s
    | .recvfrom (.datagram src _) _ conacc => src = client ∧ conacc = .sent ∧ s.mode ≠ .finished
    | .recvfrom (.failed _) _ _ => False
    | .catchInt => False
  takes
    | .recvfrom (.datagram _ bytes) _ _ => [bytes]
    | _ => []
  puts := toClientBytes client

section Serves

variable {client : SockAddr} {done : UDPServer → Prop}
  {script : List (Act (List UInt8) (List UInt8))} {s s' : UDPServer} {bytes : List UInt8}
  {replies : List Reply} {puts : List (List UInt8)}

/-- A server that hears the client and answers. -/
theorem follows_serves (running : s.mode ≠ .finished)
    (served : ∀ uninit, udpServerHandler.step s (.recvfrom (.datagram client bytes) uninit .sent) =
      (s', replies))
    (answers : toClientBytes client replies = puts) (rest : done s') :
    (serverPort client).Follows udpServerHandler done [⟨[bytes], puts⟩] s := by
  refine ⟨⟨.recvfrom (.datagram client bytes) .zero .sent, ⟨rfl, rfl, running⟩, rfl⟩,
    fun e may => ?_⟩
  cases e with
  | catchInt => cases may
  | recvfrom r uninit conacc =>
      cases r with
      | failed errno => cases may
      | datagram src other =>
          obtain ⟨rfl, rfl, -⟩ := may
          refine ⟨rfl, fun takes => ?_⟩
          cases takes
          rw [Machine.emit, Machine.next, served]
          exact ⟨answers, rest⟩

end Serves

/-- A server that listens does nothing unless it hears something. -/
theorem serverPort_rests (client : SockAddr) (s : UDPServer) : (serverPort client).Rests s := by
  intro e may
  cases e with
  | catchInt => cases may
  | recvfrom r uninit conacc =>
      cases r with
      | failed errno => cases may
      | datagram src bytes => exact List.cons_ne_nil _ _

/-- A session of the client that has accepted `n` packets is active. -/
def UDPServer.InSession (args : ClientArgs) (client : SockAddr) (n : ℕ) (s : UDPServer) :
    DatagramType → Prop
  | .UDP => ∃ session, s.mode = .udp session ∧ session.currClientAddr = client ∧
      session.Agrees (DatagramType.UDP.cut args) ∧ session.currPackageId = UInt64.ofNat n
  | .UDPR => ∃ session, s.mode = .udpr session ∧ session.currClientAddr = client ∧
      session.toUDPSession.Agrees (DatagramType.UDPR.cut args) ∧
        session.currPackageId = UInt64.ofNat n

/-- The server listens again, and has received everything in one more session. -/
structure UDPServer.HasServed (s : UDPServer) (t : DatagramType) (args : ClientArgs)
    (client : SockAddr) (before : UDPServer) : Prop where
  idle : s.mode = .idle
  session : ∃ session, s.ended = before.ended ++ [session] ∧ session.currClientAddr = client ∧
    session.conn.sessionId = args.sessionId ∧ session.delivered = t.chunks args

section Server

variable {t : DatagramType} {args : ClientArgs} {client : SockAddr}

theorem DatagramType.length_chunk (t : DatagramType)
    (small : args.vec.occupiedSize.toNat < 2 ^ 32) (i : ℕ) :
    (t.chunk args i).length =
      min (args.vec.occupiedSize.toNat - sendBuffSize * i) sendBuffSize := by
  cases t with
  | UDP => exact length_udpChunk_small small i
  | UDPR =>
      show (udprChunk args i).length = _
      rw [length_udprChunk, size32_eq small]

/-- How far a session is that has accepted `n` packets. -/
theorem UDPSession.Agrees.at_packet {session : UDPSession}
    (agrees : session.Agrees (t.cut args)) (small : args.vec.occupiedSize.toNat < 2 ^ 32) {n : ℕ}
    (current : session.currPackageId = UInt64.ofNat n) (within : n ≤ DatagramType.count args) :
    (session.bytesRecvd < session.conn.nbrOfBytesToBeSent ↔ n < DatagramType.count args) ∧
      (n = DatagramType.count args →
        session.bytesRecvd = session.conn.nbrOfBytesToBeSent ∧
          session.delivered = t.chunks args) := by
  have few : n < 2 ^ 64 := by
    have bound : DatagramType.count args ≤ args.vec.occupiedSize.toNat := by
      simp only [DatagramType.count, packetCount, sendBuffSize]
      omega
    omega
  have index : session.currPackageId.toNat = n := by
    rw [current, UInt64.toNat_ofNat_of_lt' few]
  have delivered : session.delivered = (List.range n).map (t.chunk args) := by
    rw [agrees.delivered, index, t.cut_chunk]
  have total : session.conn.nbrOfBytesToBeSent.toNat = args.vec.occupiedSize.toNat := by
    rw [agrees.total, t.cut_total]
  have bytes : session.bytesRecvd.toNat =
      min args.vec.occupiedSize.toNat (sendBuffSize * n) := by
    rw [agrees.bytesRecvd, delivered, length_chunks (t.length_chunk small)]
  constructor
  · rw [UInt64.lt_iff_toNat_lt, bytes, total, DatagramType.count, lt_packetCount_iff]
    omega
  · rintro rfl
    refine ⟨?_, delivered⟩
    rw [← UInt64.toNat_inj, bytes, total]
    exact Nat.min_eq_left (le_packetCount _)

/-- The server is in a session of the client that has accepted `n` packets, or it is done. -/
structure UDPServer.AtPacket (s : UDPServer) (t : DatagramType) (args : ClientArgs)
    (client : SockAddr) (before : UDPServer) (n : ℕ) : Prop where
  waits : n < DatagramType.count args → s.ended = before.ended ∧ s.InSession args client n t
  served : n = DatagramType.count args → s.HasServed t args client before

/-- What the receive loop sends at the end of its session. -/
def finalReplies (args : ClientArgs) (clientAddress : SockAddr) (n : ℕ) : List Reply :=
  if n = DatagramType.count args then [sendRCVD .dataReceive clientAddress args.sessionId] else []

theorem finalReplies_bytes (args : ClientArgs) (clientAddress : SockAddr) (n : ℕ) :
    (finalReplies args clientAddress n).map Reply.bytes = DatagramType.final args n := by
  rw [finalReplies, DatagramType.final]
  split <;> rfl

theorem finalReplies_dest (args : ClientArgs) (clientAddress : SockAddr) (n : ℕ) :
    ∀ reply ∈ finalReplies args clientAddress n, reply.dest = clientAddress := by
  intro reply member
  rw [finalReplies] at member
  split at member
  · rw [List.mem_singleton.mp member]
    rfl
  · cases member

/-- The test of the receive loop after `n` packets. -/
theorem UDPServer.afterUDP_at (s : UDPServer) (session : UDPSession) {before : UDPServer}
    (ended : s.ended = before.ended) (agrees : session.Agrees (DatagramType.UDP.cut args))
    (own : session.currClientAddr = client) (small : args.vec.occupiedSize.toNat < 2 ^ 32) {n : ℕ}
    (current : session.currPackageId = UInt64.ofNat n) (within : n ≤ DatagramType.count args)
    (clientAddress : SockAddr) :
    (s.afterUDP (udpDataReceiveLoop session clientAddress).1).AtPacket .UDP args client before n ∧
      (udpDataReceiveLoop session clientAddress).2 = finalReplies args clientAddress n := by
  obtain ⟨waits, whole⟩ := agrees.at_packet small current within
  rw [udpDataReceiveLoop, finalReplies]
  rcases Nat.lt_or_eq_of_le within with before_end | at_end
  · rw [if_pos (waits.mpr before_end), if_neg (Nat.ne_of_lt before_end)]
    exact ⟨⟨fun _ => ⟨ended, session, rfl, own, agrees, current⟩,
      fun same => absurd same (Nat.ne_of_lt before_end)⟩, rfl⟩
  · obtain ⟨all, delivered⟩ := whole at_end
    have spent : ¬ session.bytesRecvd < session.conn.nbrOfBytesToBeSent := by
      rw [waits]
      exact Nat.not_lt_of_ge (Nat.le_of_eq at_end.symm)
    have sessionId := agrees.sessionId
    rw [DatagramType.cut_sessionId] at sessionId
    rw [if_neg spent, if_pos all, if_pos at_end, sessionId]
    exact ⟨⟨fun below => absurd at_end (Nat.ne_of_lt below), fun _ =>
      ⟨rfl, session, congrArg (· ++ [session]) ended, own, sessionId, delivered⟩⟩, rfl⟩

theorem UDPServer.afterUDPR_at (s : UDPServer) (session : UDPRSession) {before : UDPServer}
    (ended : s.ended = before.ended)
    (agrees : session.toUDPSession.Agrees (DatagramType.UDPR.cut args))
    (own : session.currClientAddr = client) (small : args.vec.occupiedSize.toNat < 2 ^ 32) {n : ℕ}
    (current : session.currPackageId = UInt64.ofNat n) (within : n ≤ DatagramType.count args)
    (clientAddress : SockAddr) :
    (s.afterUDPR (udprDataReceiveLoop session clientAddress).1).AtPacket .UDPR args client
        before n ∧
      (udprDataReceiveLoop session clientAddress).2 = finalReplies args clientAddress n := by
  obtain ⟨waits, whole⟩ := agrees.at_packet small current within
  rw [udprDataReceiveLoop, finalReplies]
  rcases Nat.lt_or_eq_of_le within with before_end | at_end
  · rw [if_pos (waits.mpr before_end), if_neg (Nat.ne_of_lt before_end)]
    exact ⟨⟨fun _ => ⟨ended, session, rfl, own, agrees, current⟩,
      fun same => absurd same (Nat.ne_of_lt before_end)⟩, rfl⟩
  · obtain ⟨all, delivered⟩ := whole at_end
    have spent : ¬ session.bytesRecvd < session.conn.nbrOfBytesToBeSent := by
      rw [waits]
      exact Nat.not_lt_of_ge (Nat.le_of_eq at_end.symm)
    have sessionId := agrees.sessionId
    rw [DatagramType.cut_sessionId] at sessionId
    rw [if_neg spent, if_pos all, if_pos at_end, sessionId]
    exact ⟨⟨fun below => absurd at_end (Nat.ne_of_lt below), fun _ =>
      ⟨rfl, session.toUDPSession, congrArg (· ++ [session.toUDPSession]) ended, own,
        sessionId, delivered⟩⟩, rfl⟩

theorem DatagramType.short_chunk (t : DatagramType) (args : ClientArgs) (n : ℕ) :
    (t.chunk args n).length ≤ maxAllowedPacketSize := by
  rw [← t.cut_chunk]
  exact (t.cut args).short n

/-- A session that takes packet `n` is at the next one. -/
theorem UDPSession.Agrees.take {session : UDPSession} (agrees : session.Agrees (t.cut args))
    (own : session.currClientAddr = client) {n : ℕ} (few : n + 1 < 2 ^ 64)
    (current : session.currPackageId = UInt64.ofNat n) :
    (session.accept (t.chunk args n)).Agrees (t.cut args) ∧
      (session.accept (t.chunk args n)).currClientAddr = client ∧
        (session.accept (t.chunk args n)).currPackageId = UInt64.ofNat (n + 1) := by
  refine ⟨?_, ?_, ?_⟩
  · rw [← t.cut_chunk]
    exact (agrees.accept few current).1
  · rw [accept_currClientAddr, own]
  · rw [accept_currPackageId, current]
    simp

theorem UDPSession.Agrees.take_udpr {session : UDPRSession}
    (agrees : session.toUDPSession.Agrees (t.cut args)) (own : session.currClientAddr = client)
    {n : ℕ} (few : n + 1 < 2 ^ 64) (current : session.currPackageId = UInt64.ofNat n) :
    (session.accept (t.chunk args n)).toUDPSession.Agrees (t.cut args) ∧
      (session.accept (t.chunk args n)).currClientAddr = client ∧
        (session.accept (t.chunk args n)).currPackageId = UInt64.ofNat (n + 1) := by
  rw [UDPRSession.accept_toUDPSession]
  exact agrees.take own few current

/-- The session takes packet `n`. -/
theorem udpDataReceivePass_packet {session : UDPSession} (agrees : session.Agrees (t.cut args))
    (own : session.currClientAddr = client) {n : ℕ}
    (current : session.currPackageId = UInt64.ofNat n) (clientAddress : SockAddr)
    (uninit : ServerUninit) :
    udpDataReceivePass session clientAddress (.datagram client (t.packet args n)) uninit =
      udpDataReceiveLoop (session.accept (t.chunk args n)) client := by
  have accepted := udpDataReceiveBody_accept session session.currClientAddr uninit
    (t.short_chunk args n)
  have pass := udpDataReceivePass_client session clientAddress uninit
    (fits_dataBytes args.sessionId (UInt64.ofNat n) (t.short_chunk args n)) (dataBytes_ne_nil _ _ _)
  rw [agrees.sessionId, t.cut_sessionId, current] at accepted
  rwa [accepted, own] at pass

theorem udprDataReceivePass_packet {session : UDPRSession}
    (agrees : session.toUDPSession.Agrees (t.cut args)) (own : session.currClientAddr = client)
    {n : ℕ} (current : session.currPackageId = UInt64.ofNat n) (clientAddress : SockAddr)
    (uninit : ServerUninit) :
    udprDataReceivePass session clientAddress (.datagram client (t.packet args n)) uninit =
      ((udprDataReceiveLoop (session.accept (t.chunk args n)) client).1,
        sendACC .dataReceive client args.sessionId (UInt64.ofNat n) ::
          (udprDataReceiveLoop (session.accept (t.chunk args n)) client).2) := by
  have accepted := udprDataReceiveBody_accept session session.currClientAddr uninit
    (t.short_chunk args n)
  have pass := udprDataReceivePass_client session clientAddress uninit
    (fits_dataBytes args.sessionId (UInt64.ofNat n) (t.short_chunk args n)) (dataBytes_ne_nil _ _ _)
  rw [agrees.sessionId, t.cut_sessionId, current] at accepted
  rwa [accepted, own] at pass

theorem DatagramType.count_lt (small : args.vec.occupiedSize.toNat < 2 ^ 32) :
    DatagramType.count args < 2 ^ 63 := by
  simp only [DatagramType.count, packetCount, sendBuffSize]
  omega

/-- One pass of the receive loop over the next packet. -/
theorem UDPServer.follows_serve (small : args.vec.occupiedSize.toNat < 2 ^ 32)
    {before s : UDPServer} {n : ℕ} (below : n < DatagramType.count args)
    (there : s.AtPacket t args client before n) :
    (serverPort client).Follows udpServerHandler
      (fun s => s.AtPacket t args client before (n + 1)) [t.serve args n] s := by
  have few : n + 1 < 2 ^ 64 := by
    have bound := DatagramType.count_lt small
    omega
  cases t with
  | UDP =>
      obtain ⟨same, session, active, own, agrees, current⟩ := there.waits below
      obtain ⟨agrees', own', next⟩ := agrees.take own few current
      obtain ⟨there', replies⟩ := UDPServer.afterUDP_at s
        (session.accept (DatagramType.UDP.chunk args n)) same agrees' own' small next below client
      have served (uninit : ServerUninit) : udpServerHandler.step s
          (.recvfrom (.datagram client (DatagramType.UDP.packet args n)) uninit .sent) =
            (s.afterUDP
                (udpDataReceiveLoop (session.accept (DatagramType.UDP.chunk args n)) client).1,
              finalReplies args client (n + 1)) := by
        rw [← replies, ← udpDataReceivePass_packet agrees own current s.udpClientAddress uninit]
        simp only [udpServerHandler, UDPServer.step, active]
      refine follows_serves (by rw [active]; exact ServerMode.noConfusion) served ?_ there'
      rw [toClientBytes_own (finalReplies_dest args client (n + 1)), finalReplies_bytes]
      exact (List.nil_append _).symm
  | UDPR =>
      obtain ⟨same, session, active, own, agrees, current⟩ := there.waits below
      obtain ⟨agrees', own', next⟩ := UDPSession.Agrees.take_udpr agrees own few current
      obtain ⟨there', replies⟩ := UDPServer.afterUDPR_at s
        (session.accept (DatagramType.UDPR.chunk args n)) same agrees' own' small next below client
      have served (uninit : ServerUninit) : udpServerHandler.step s
          (.recvfrom (.datagram client (DatagramType.UDPR.packet args n)) uninit .sent) =
            (s.afterUDPR
                (udprDataReceiveLoop (session.accept (DatagramType.UDPR.chunk args n)) client).1,
              sendACC .dataReceive client args.sessionId (UInt64.ofNat n) ::
                finalReplies args client (n + 1)) := by
        have pass := udprDataReceivePass_packet agrees own current s.udprClientAddress uninit
        rw [replies] at pass
        simp only [udpServerHandler, UDPServer.step, active, pass]
      refine follows_serves (by rw [active]; exact ServerMode.noConfusion) served ?_ there'
      rw [toClientBytes_own, List.map_cons, finalReplies_bytes]
      · exact List.singleton_append.symm
      · intro reply member
        rcases List.mem_cons.mp member with rfl | member
        · rfl
        · exact finalReplies_dest args client (n + 1) reply member

/-- The replies of a session that opens go to the client if it declares some bytes, or was the
last to be heard. -/
def UDPServer.staticAddress (s : UDPServer) : DatagramType → SockAddr
  | .UDP => s.udpClientAddress
  | .UDPR => s.udprClientAddress

/-- The `RCVD` of a session without packets goes to the static address. -/
theorem toClientBytes_final (address : SockAddr) :
    toClientBytes client (finalReplies args address 0) =
      if address = client then DatagramType.final args 0 else [] := by
  split
  · rename_i same
    rw [toClientBytes_own, finalReplies_bytes]
    intro reply member
    rw [finalReplies_dest args address 0 reply member, same]
  · rename_i other
    rw [toClientBytes, List.filter_eq_nil_iff.mpr, List.map_nil]
    intro reply member
    rw [finalReplies_dest args address 0 reply member, decide_eq_true_eq]
    exact other

theorem DatagramType.final_of_pos (some_bytes : 0 < args.vec.occupiedSize) :
    DatagramType.final args 0 = [] := by
  have packets : 0 < DatagramType.count args := by
    rw [DatagramType.count, lt_packetCount_iff]
    exact UInt64.lt_iff_toNat_lt.mp some_bytes
  rw [DatagramType.final, if_neg (Nat.ne_of_lt packets)]

/-- How the idle server answers the `CONN`. The `RCVD` of a session without packets goes to the
static address. -/
theorem UDPServer.step_conn (client : SockAddr)
    (small : args.vec.occupiedSize.toNat < 2 ^ 32) {before : UDPServer}
    (idle : before.mode = .idle) : ∃ s : UDPServer,
      (∀ uninit, udpServerHandler.step before
          (.recvfrom (.datagram client (t.conn args)) uninit .sent) =
        (s, sendCONACC .serverHandler client args.sessionId ::
          finalReplies args (before.staticAddress t) 0)) ∧
      s.AtPacket t args client before 0 := by
  have known : t.protocol = udpProtocol ∨ t.protocol = udprProtocol := by
    cases t
    · exact .inl rfl
    · exact .inr rfl
  have heard (uninit : ServerUninit) : udpServerHandler.step before
      (.recvfrom (.datagram client (t.conn args)) uninit .sent) =
        ((before.openSession
            ⟨connId, args.sessionId, t.protocol, args.vec.occupiedSize⟩ client).1,
          sendCONACC .serverHandler client args.sessionId :: (before.openSession
            ⟨connId, args.sessionId, t.protocol, args.vec.occupiedSize⟩ client).2) := by
    simp only [udpServerHandler, UDPServer.step, idle]
    exact before.onIdle_conn client uninit args.sessionId args.vec.occupiedSize known
  obtain ⟨there, replies⟩ : (before.openSession
        ⟨connId, args.sessionId, t.protocol, args.vec.occupiedSize⟩ client).1.AtPacket t args
          client before 0 ∧
      (before.openSession ⟨connId, args.sessionId, t.protocol, args.vec.occupiedSize⟩ client).2 =
        finalReplies args (before.staticAddress t) 0 := by
    cases t with
    | UDP =>
        exact UDPServer.afterUDP_at before
          (.start ⟨connId, args.sessionId, udpProtocol, args.vec.occupiedSize⟩ client) rfl
          (UDPSession.agrees_start client rfl rfl) rfl small rfl (Nat.zero_le _) _
    | UDPR =>
        exact UDPServer.afterUDPR_at before
          (.start ⟨connId, args.sessionId, udprProtocol, args.vec.occupiedSize⟩ client) rfl
          (UDPSession.agrees_start client rfl rfl) rfl small rfl (Nat.zero_le _) _
  rw [replies] at heard
  exact ⟨_, heard, there⟩

/-- The idle server hears the `CONN`. -/
theorem UDPServer.follows_conn (client : SockAddr)
    (small : args.vec.occupiedSize.toNat < 2 ^ 32) {before : UDPServer}
    (idle : before.mode = .idle) :
    (serverPort client).Follows udpServerHandler
      (fun s => s.AtPacket t args client before 0)
      [⟨[t.conn args], (initCONACC args.sessionId).store ::
        if before.staticAddress t = client then DatagramType.final args 0 else []⟩] before := by
  obtain ⟨s, heard, there⟩ := UDPServer.step_conn (t := t) client small idle
  refine follows_serves (by rw [idle]; exact ServerMode.noConfusion) heard ?_ there
  rw [← toClientBytes_final]
  have own : decide ((sendCONACC .serverHandler client args.sessionId).dest = client) = true :=
    decide_eq_true rfl
  rw [toClientBytes, List.filter_cons, if_pos own, List.map_cons]
  rfl

/-- **An idle server that hears the client does its script**, and has received everything. -/
theorem DatagramType.server_follows (t : DatagramType)
    (small : args.vec.occupiedSize.toNat < 2 ^ 32) {before : UDPServer}
    (idle : before.mode = .idle)
    (heard : 0 < args.vec.occupiedSize ∨ before.staticAddress t = client) :
    (serverPort client).Follows udpServerHandler (fun s => s.HasServed t args client before)
      (t.serverScript args) before := by
  have conn := UDPServer.follows_conn (t := t) client small idle
  have answer : (if before.staticAddress t = client then DatagramType.final args 0 else []) =
      DatagramType.final args 0 := by
    rcases heard with some_bytes | same
    · rw [DatagramType.final_of_pos some_bytes, ite_self]
    · rw [if_pos same]
  rw [answer] at conn
  refine conn.append fun s there => ?_
  have loop := Port.Follows.loop
    (I := fun n (s : UDPServer) => s.AtPacket t args client before n)
    (fun n s below there => UDPServer.follows_serve small below there) there
  rw [← List.map_eq_flatMap] at loop
  exact loop.mono fun s there => there.served rfl

end Server

end Ppcb
