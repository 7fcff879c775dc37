import Ppcb.DatagramScripts

/-!
# Transfers over a network that loses nothing

A client and the idle server, each datagram delivered once, in order and in time. Whatever the
server has been through, and however the steps of the two follow each other, the transfer
completes, if the vector is not empty. The `RCVD` of an empty vector goes to the client whose
datagrams the receive loop heard last, so an empty vector is confirmed exactly to that one, and
any other client waits for an `RCVD` that went elsewhere (`datagram_transfer_completes_iff`).
-/

set_option autoImplicit false

namespace Ppcb

open ByteOrder CString Reactive Relation

namespace DatagramType

/-- One step of the client or the server. -/
abbrev TransferStep (t : DatagramType) (args : ClientArgs) (client : SockAddr) :=
  Joined.Step (t.clientHandler args) udpServerHandler (t.clientPort args.serverAddress)
    (serverPort client)

/-- The client has ended in success, the server has received everything and listens, and nothing
is on its way. -/
def Completed (t : DatagramType) (args : ClientArgs) (client : SockAddr) (before : UDPServer)
    (s : Joined t.Client UDPServer (List UInt8) (List UInt8)) : Prop :=
  t.succeeded s.left = true ∧ s.right.HasServed t args client before ∧ s.Pending [] []

/-- The server has served the session, and the client waits for an `RCVD` that went elsewhere. -/
structure Stalled (t : DatagramType) (args : ClientArgs) (client : SockAddr) (before : UDPServer)
    (s : Joined t.Client UDPServer (List UInt8) (List UInt8)) : Prop where
  waits : t.waitsRCVD s.left
  served : s.right.HasServed t args client before
  elsewhere : before.staticAddress t ≠ client
  /-- Such is the answer of the server to the `CONN`. -/
  answer : ∀ uninit, udpServerHandler.emit before
      (.recvfrom (.datagram client (t.conn args)) uninit .sent) =
    [sendCONACC .serverHandler client args.sessionId,
      sendRCVD .dataReceive (before.staticAddress t) args.sessionId]
  still : ∀ u, ¬ t.TransferStep args client s u

variable (t : DatagramType) (args : ClientArgs)

/-- From packet `i` on. -/
theorem meets_loop {i k : ℕ} (total : i + k = count args) :
    Meets ((List.range' i k).flatMap (t.pass args) ++ [.take (initRCVD args.sessionId).store])
      ((List.range' i k).map (t.serve args)) (final args i) [] := by
  induction k generalizing i with
  | zero =>
      rw [Nat.add_zero] at total
      rw [final, if_pos total]
      exact .take .finished
  | succ k ih =>
      have next := ih (show i + 1 + k = count args by omega)
      have answered := next.take_all (l := t.acks args i)
      rw [← List.nil_append (t.acks args i ++ _)] at answered
      rw [List.range'_succ, List.flatMap_cons, List.map_cons, final, if_neg (by omega), pass,
        List.cons_append, List.cons_append, List.append_assoc]
      exact .put (.answer answered)

/-- The client and the server can do their scripts together. -/
theorem meets : Meets (t.clientScript args) (t.serverScript args) [] [] := by
  have loop := t.meets_loop args (Nat.zero_add (count args))
  rw [← List.range_eq_range'] at loop
  have answered := loop.take (b := (initCONACC args.sessionId).store)
  rw [← List.nil_append (_ :: _)] at answered
  rw [clientScript, packetScript, List.cons_append, List.cons_append]
  exact .put (.answer answered)

variable {t args} {client : SockAddr} {server : UDPServer}

/-- At the start all of the scripts is left. -/
theorem meeting (errno : Errno) (small : args.vec.occupiedSize.toNat < 2 ^ 32)
    (idle : server.mode = .idle)
    (heard : 0 < args.vec.occupiedSize ∨ server.staticAddress t = client) :
    Joined.Meeting (t.clientHandler args) udpServerHandler (t.clientPort args.serverAddress)
      (serverPort client) (fun s => t.succeeded s = true)
      (fun s => s.HasServed t args client server) (t.clientScript args) (t.serverScript args)
      (.start (t.start errno) server) :=
  ⟨t.client_follows small errno, t.server_follows small idle heard, [], [], .start _ _,
    t.meets args⟩

/-- A client that has ended does nothing more, so it rests. -/
theorem clientPort_rests (s : t.Client) (ended : t.succeeded s = true) :
    (t.clientPort args.serverAddress).Rests s :=
  fun e may => absurd may (t.not_may_of_succeeded ended e)

/-- **A transfer that can be confirmed completes**, whatever the order of the steps. -/
theorem completes (errno : Errno) (small : args.vec.occupiedSize.toNat < 2 ^ 32)
    (idle : server.mode = .idle)
    (heard : 0 < args.vec.occupiedSize ∨ server.staticAddress t = client) :
    Inevitable (t.TransferStep args client) (t.Completed args client server)
      (.start (t.start errno) server) :=
  Joined.meet_inevitable clientPort_rests (fun s _ => serverPort_rests client s)
    (meeting errno small idle heard)

/-- A completed transfer has no step left. -/
theorem Completed.last {s u : Joined t.Client UDPServer (List UInt8) (List UInt8)}
    (completed : t.Completed args client server s) : ¬ t.TransferStep args client s u :=
  completed.2.2.still (clientPort_rests _ completed.1) (serverPort_rests client _)

/-- **Nothing more comes when the `RCVD` of an empty vector goes to another client.** -/
theorem stalls (errno : Errno) (small : args.vec.occupiedSize.toNat < 2 ^ 32)
    (idle : server.mode = .idle) (empty : ¬ 0 < args.vec.occupiedSize)
    (other : server.staticAddress t ≠ client) :
    Inevitable (t.TransferStep args client) (t.Stalled args client server)
      (.start (t.start errno) server) := by
  have nothing : count args = 0 := by
    refine Nat.eq_zero_of_not_pos fun packets => empty ?_
    rw [count, lt_packetCount_iff] at packets
    exact UInt64.lt_iff_toNat_lt.mpr packets
  have first := t.client_waits small errno
  rw [packetScript, nothing, List.range_zero, List.flatMap_nil] at first
  have conn := UDPServer.follows_conn (t := t) client small idle
  rw [if_neg other] at conn
  obtain ⟨_, heard, -⟩ := UDPServer.step_conn (t := t) client small idle
  rw [finalReplies, if_pos nothing.symm] at heard
  refine (Joined.meet_inevitable (fun _ => waitsRCVD_rests) (fun s _ => serverPort_rests client s)
    ⟨first, conn, [], [], .start _ _, ?_⟩).trans ?_
  · have answered : Meets [.take (initCONACC args.sessionId).store] []
        [(initCONACC args.sessionId).store] ([] : List (List UInt8)) := .take .finished
    rw [← List.nil_append [_]] at answered
    exact .put (.answer answered)
  · rintro s ⟨waits, there, pending⟩
    exact .now {
      waits
      served := there.served nothing.symm
      elsewhere := other
      answer := fun uninit => congrArg Prod.snd (heard uninit)
      still := fun u => pending.still (waitsRCVD_rests waits) (serverPort_rests client _) }

/-- A transfer does not complete and stall. -/
theorem not_completes_of_stalls {s : Joined t.Client UDPServer (List UInt8) (List UInt8)}
    (stalls : Inevitable (t.TransferStep args client) (t.Stalled args client server) s) :
    ¬ Inevitable (t.TransferStep args client) (t.Completed args client server) s := by
  intro completes
  obtain ⟨u, run, stalled⟩ := stalls.reaches
  have completed := (completes.along (fun _ _ completed => completed.last) run).stuck stalled.still
  exact absurd completed.1 (Bool.eq_false_iff.mp (not_succeeded_of_waitsRCVD stalled.waits))

end DatagramType

/-- **A transfer that loses nothing completes exactly if** the client sends some bytes or is the
one the receive loop has heard last. Otherwise the client waits for an `RCVD` that went
elsewhere. -/
theorem datagram_transfer_completes_iff {t : DatagramType} {args : ClientArgs}
    {client : SockAddr} {server : UDPServer} (small : args.vec.occupiedSize.toNat < 2 ^ 32)
    (idle : server.mode = .idle) (errno : Errno) :
    (Inevitable (t.TransferStep args client) (t.Completed args client server)
        (.start (t.start errno) server) ↔
      0 < args.vec.occupiedSize ∨ server.staticAddress t = client) ∧
    (Inevitable (t.TransferStep args client) (t.Stalled args client server)
        (.start (t.start errno) server) ↔
      ¬ 0 < args.vec.occupiedSize ∧ server.staticAddress t ≠ client) := by
  rw [← not_or]
  by_cases heard : 0 < args.vec.occupiedSize ∨ server.staticAddress t = client
  · have completes := DatagramType.completes errno small idle heard
    exact ⟨iff_of_true completes heard,
      iff_of_false (fun stalls => DatagramType.not_completes_of_stalls stalls completes)
        (not_not_intro heard)⟩
  · obtain ⟨empty, other⟩ := not_or.mp heard
    have stalls := DatagramType.stalls errno small idle empty other
    exact ⟨iff_of_false (DatagramType.not_completes_of_stalls stalls) heard,
      iff_of_true stalls heard⟩

/-- The first client of a server that sends one byte is confirmed. -/
theorem datagram_transfer_completes_iff_oneByte :
    Inevitable (DatagramType.UDPR.TransferStep oneByte ⟨1, 1⟩)
      (DatagramType.UDPR.Completed oneByte ⟨1, 1⟩ .start)
      (.start (DatagramType.UDPR.start (.other 0)) .start) :=
  (datagram_transfer_completes_iff (by decide) rfl (.other 0)).1.mpr (.inl (by decide))

end Ppcb
