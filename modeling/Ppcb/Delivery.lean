import Ppcb.Programs
import Ppcb.TCPService
import Ppcb.DatagramTransfer
import Ppcb.Transparency

/-!
# What arrives of the input

The client program with its arguments and its input, and a server that listens. When the network
loses nothing, keeps the order and is in time, the client ends in success for each type of
communication; only a TCP client whose last packet is not full may be reset, after the server has
confirmed its vector. The server has received the input exactly when no copy on the way into the
packets has met a byte behind a zero (`input_arrives_iff`). Otherwise something else has arrived,
and neither side notices.
-/

set_option autoImplicit false

namespace Ppcb

open ByteOrder CString History Reactive Relation

/-! ## The vector that was read -/

theorem totalSize_pieces (pieces : List Piece) :
    totalSize (pieces.map VecCall.pushBackStrToVec) = (pieces.map Piece.bytes).flatten.length := by
  rw [totalSize, List.length_flatten, List.map_map, List.map_map]
  rfl

/-- The vector holds as many bytes as were read. -/
theorem occupiedSize_read {pieces : List Piece} {vec : MyVec}
    (small : (pieces.map Piece.bytes).flatten.length < 2 ^ 32)
    (read : myVecReadStdin myVecInit (pieces.map Piece.bytes) = some vec) :
    vec.occupiedSize.toNat = (pieces.map Piece.bytes).flatten.length := by
  rw [← totalSize_pieces] at small ⊢
  rw [myVecReadStdin_eq_runAll] at read
  obtain ⟨capacity, content, holds, length, -⟩ :=
    vecCalls_track.inv_of_runAll (lt_trans small (by decide)) read
  rw [holds.occupied, length]

/-- Packets that are sent as long as there are some. -/
theorem Carries.iff_of_count {more : ℕ → Prop} {chunk : ℕ → List UInt8} {n : ℕ}
    (counts : ∀ i, more i ↔ i < n) (input : List UInt8) :
    Carries more chunk input ↔ ((List.range n).map chunk).flatten = input := by
  constructor
  · rintro ⟨k, counts', whole⟩
    have same : k = n := by
      refine Nat.le_antisymm (Nat.not_lt.mp fun less => ?_) (Nat.not_lt.mp fun less => ?_)
      · exact Nat.lt_irrefl n ((counts n).mp ((counts' n).mpr less))
      · exact Nat.lt_irrefl k ((counts' k).mp ((counts k).mpr less))
    rwa [same] at whole
  · intro whole
    exact ⟨n, counts, whole⟩

/-- **The payloads are the input exactly when no byte was lost on the way into the packets.** -/
theorem DatagramType.chunks_eq_iff (t : DatagramType) {pieces : List (List UInt8)}
    {serverAddress : SockAddr} {vec : MyVec} {sessionId : UInt64}
    (small : pieces.flatten.length < 2 ^ 32)
    (read : myVecReadStdin myVecInit pieces = some vec)
    (occupied : vec.occupiedSize.toNat = pieces.flatten.length) :
    (t.chunks ⟨serverAddress, vec, sessionId⟩).flatten = pieces.flatten ↔
      Transparent initVecSize.toNat [] pieces := by
  rw [← occupied] at small
  cases t with
  | UDP =>
      rw [← UDPSend.sendsInput_iff serverAddress sessionId (occupied ▸ small), UDPSend.SendsInput,
        read]
      simp only [Option.some.injEq, exists_eq_left']
      exact (Carries.iff_of_count (UDPSend.hasMore_iff_lt small) _).symm
  | UDPR =>
      rw [← UDPRSend.sendsInput_iff serverAddress sessionId (occupied ▸ small),
        UDPRSend.SendsInput, read]
      simp only [Option.some.injEq, exists_eq_left']
      exact (Carries.iff_of_count (UDPRSend.hasMore_iff_lt small) _).symm

/-! ## The client program -/

theorem bind_ok_iff {α β : Type} {first : Except Stop α} {next : α → Except Stop β} {b : β} :
    first >>= next = .ok b ↔ ∃ a, first = .ok a ∧ next a = .ok b := by
  cases first with
  | error stop =>
      constructor
      · intro done
        cases done
      · rintro ⟨a, impossible, -⟩
        cases impossible
  | ok a =>
      constructor
      · intro done
        exact ⟨a, rfl, done⟩
      · rintro ⟨a', same, done⟩
        cases same
        exact done

theorem readStdin_ok_iff {env : Environment} {vec : MyVec} : readStdin env = .ok vec ↔
    myVecReadStdin myVecInit (env.stdin.map Piece.bytes) = some vec ∧ env.stdinFails = false := by
  rw [readStdin]
  split
  · rename_i none_left
    rw [none_left]
    constructor
    · intro done
      cases done
    · rintro ⟨impossible, -⟩
      cases impossible
  · rename_i vec' whole
    rw [whole, Option.some.injEq]
    cases env.stdinFails with
    | true =>
        constructor
        · intro done
          cases done
        · rintro ⟨-, impossible⟩
          cases impossible
    | false =>
        constructor
        · intro done
          cases done
          exact ⟨rfl, rfl⟩
        · rintro ⟨same, -⟩
          rw [same]
          rfl

/-- **When the client program calls its handler**, and with what. -/
theorem ppcbClient_ok_iff {env : Environment} {argv : List Text} {type : CommunicationType}
    {args : ClientArgs} : ppcbClient env argv = .ok (type, args) ↔
      ∃ name protocol host port, argv = [name, protocol, host, port] ∧
        checkCommunicationType protocol = .ok type ∧
        ∃ number, portFromStrToUl env.einval port = .ok number ∧
          getServerAddress env host number = .ok args.serverAddress ∧
          initSocketFd env = .ok () ∧ readStdin env = .ok args.vec ∧
          args.sessionId = sessionIdOf env.randSignificant env.randLessSignificant := by
  constructor
  · intro starts
    unfold ppcbClient at starts
    split at starts
    · rename_i name protocol host port
      obtain ⟨type', check, starts⟩ := bind_ok_iff.mp starts
      obtain ⟨number, read_port, starts⟩ := bind_ok_iff.mp starts
      obtain ⟨serverAddress, found, starts⟩ := bind_ok_iff.mp starts
      obtain ⟨⟨⟩, opened, starts⟩ := bind_ok_iff.mp starts
      obtain ⟨vec, read, starts⟩ := bind_ok_iff.mp starts
      cases starts
      exact ⟨name, protocol, host, port, rfl, check, number, read_port, found, opened, read, rfl⟩
    · obtain ⟨_, -, starts⟩ := bind_ok_iff.mp starts
      cases starts
    · cases starts
  · rintro ⟨name, protocol, host, port, rfl, check, number, read_port, found, opened, read, id⟩
    refine bind_ok_iff.mpr ⟨type, check, bind_ok_iff.mpr ⟨number, read_port, bind_ok_iff.mpr
      ⟨args.serverAddress, found, bind_ok_iff.mpr ⟨(), opened, bind_ok_iff.mpr
        ⟨args.vec, read, ?_⟩⟩⟩⟩⟩
    rw [← id]

/-- When the server program calls its handler, and where it listens. -/
theorem serverMain_ok_iff {env : Environment} {argv : List Text} {type : CommunicationType}
    {bound : SockAddr} : serverMain env argv = .ok (type, bound) ↔
      ∃ name protocol port, argv = [name, protocol, port] ∧
        checkCommunicationType protocol = .ok type ∧
        ∃ number, portFromStrToUl env.einval port = .ok number ∧ initSocketFd env = .ok () ∧
          env.bind = true ∧ bound = ⟨0, htons number⟩ := by
  constructor
  · intro starts
    unfold serverMain at starts
    split at starts
    · rename_i name protocol port
      obtain ⟨type', check, starts⟩ := bind_ok_iff.mp starts
      obtain ⟨number, read_port, starts⟩ := bind_ok_iff.mp starts
      obtain ⟨⟨⟩, opened, starts⟩ := bind_ok_iff.mp starts
      split at starts
      · rename_i binds
        cases starts
        exact ⟨name, protocol, port, rfl, check, number, read_port, opened, binds, rfl⟩
      · cases starts
    · cases starts
  · rintro ⟨name, protocol, port, rfl, check, number, read_port, opened, binds, rfl⟩
    refine bind_ok_iff.mpr ⟨type, check, bind_ok_iff.mpr ⟨number, read_port, bind_ok_iff.mpr
      ⟨(), opened, ?_⟩⟩⟩
    rw [if_pos binds]

/-- A text is read as one port, whatever the library. -/
theorem portFromStrToUl_unique {einval einval' : Bool} {string : Text} {port port' : UInt16}
    (read : portFromStrToUl einval string = .ok port)
    (read' : portFromStrToUl einval' string = .ok port') : port = port' := by
  have value := ((portFromStrToUl_ok_iff einval string port).mp read).2.2
  have value' := ((portFromStrToUl_ok_iff einval' string port').mp read').2.2
  rw [strtoul_value einval einval', value'] at value
  exact UInt16.toNat_inj.mp value.symm

/-- **The programs, called with the same protocol and port, agree.** -/
theorem programs_agree {env env' : Environment} {name name' protocol host port : Text}
    {type type' : CommunicationType} {args : ClientArgs} {bound : SockAddr}
    (starts : ppcbClient env [name, protocol, host, port] = .ok (type, args))
    (listens : serverMain env' [name', protocol, port] = .ok (type', bound)) :
    type' = type ∧ args.serverAddress.sinPort = bound.sinPort := by
  obtain ⟨_, _, _, _, same, check, number, read_port, found, -⟩ := ppcbClient_ok_iff.mp starts
  obtain ⟨_, _, _, same', check', number', read_port', -, -, rfl⟩ := serverMain_ok_iff.mp listens
  cases same
  cases same'
  rw [check] at check'
  cases check'
  cases portFromStrToUl_unique read_port read_port'
  refine ⟨rfl, ?_⟩
  rw [getServerAddress] at found
  split at found
  · have address := Except.ok.inj found
    rw [← address]
  · cases found

/-! ## The client and the server -/

/-- What the two processes find: the memory of the client, its address, and the servers. -/
structure World where
  uninit : TCPClientUninit
  errno : Errno
  client : SockAddr
  tcpServer : TCPServer
  udpServer : UDPServer
  tcp_ready : TCPService.Ready tcpServer
  udp_idle : udpServer.mode = .idle

/-- Two processes: their states and steps, when the client has ended as it should and the server
listens, and what the server has received since the start. -/
structure System where
  State : Type
  step : State → State → Prop
  start : State
  Served : State → Prop
  received : State → List UInt8

def tcpSystem (args : ClientArgs) (world : World) : System where
  State := Connected TCPClient TCPServer UInt8
  step := TCPJob.ConnectionStep ⟨args, world.uninit⟩
  start := openConnection ⟨args, world.uninit⟩ world.tcpServer
  Served c := TransferOver c ∧ c.right.phase = .accept ∧ (c.left.phase = .ended .SUCCESS ∨
    c.left.phase = .ended .ERROR ∧ ¬ sendBuffSize ∣ args.vec.occupiedSize.toNat)
  received c := c.right.delivered.flatten

def datagramSystem (t : DatagramType) (args : ClientArgs) (world : World) : System where
  State := Joined t.Client UDPServer (List UInt8) (List UInt8)
  step := t.TransferStep args world.client
  start := .start (t.start world.errno) world.udpServer
  Served s := t.succeeded s.left = true ∧ s.right.mode = .idle ∧ s.Pending [] []
  received s := (s.right.ended.drop world.udpServer.ended.length).flatMap (·.delivered.flatten)

/-- The `switch` of the client program, and a server of the same type. -/
def CommunicationType.system : CommunicationType → ClientArgs → World → System
  | TCP => tcpSystem
  | UDP => datagramSystem .UDP
  | UDPR => datagramSystem .UDPR

section Delivery

variable {args : ClientArgs} (world : World) (small : args.vec.occupiedSize.toNat < 2 ^ 32)

include small

theorem tcpSystem_delivers : Inevitable (tcpSystem args world).step
    (fun s => (tcpSystem args world).Served s ∧
      (tcpSystem args world).received s = (DatagramType.UDP.chunks args).flatten)
    (tcpSystem args world).start := by
  have fits : TCPJob.Fits ⟨args, world.uninit⟩ := small
  refine (TCPJob.connection_inevitable fits world.tcp_ready).trans ?_
  rintro c ⟨ended, complete, -, listening⟩
  exact .now ⟨⟨ended, listening, complete.phase⟩, congrArg List.flatten complete.delivered⟩

theorem datagramSystem_delivers (t : DatagramType) (some_bytes : 0 < args.vec.occupiedSize) :
    Inevitable (datagramSystem t args world).step
      (fun s => (datagramSystem t args world).Served s ∧
        (datagramSystem t args world).received s = (t.chunks args).flatten)
      (datagramSystem t args world).start := by
  refine (DatagramType.completes world.errno small world.udp_idle (.inl some_bytes)).trans ?_
  rintro s ⟨succeeded, ⟨idle, session, ended, -, -, delivered⟩, pending⟩
  refine .now ⟨⟨succeeded, idle, pending⟩, ?_⟩
  show (s.right.ended.drop world.udpServer.ended.length).flatMap (·.delivered.flatten) = _
  rw [ended, List.drop_left, List.flatMap_singleton, delivered]

end Delivery

/-- **The input arrives exactly when no byte of it is lost on the way into the packets.** The
programs, called with the same protocol and port, agree, and client and server come to their end
in any case. -/
theorem input_arrives_iff {env env' : Environment} {name name' protocol host port : Text}
    {type type' : CommunicationType} {args : ClientArgs} {bound : SockAddr}
    (starts : ppcbClient env [name, protocol, host, port] = .ok (type, args))
    (listens : serverMain env' [name', protocol, port] = .ok (type', bound))
    (small : env.input.length < 2 ^ 32) (some_input : type = .TCP ∨ env.input ≠ [])
    (world : World) :
    type' = type ∧ args.serverAddress.sinPort = bound.sinPort ∧
      Inevitable (type.system args world).step
        (fun s => (type.system args world).Served s ∧
          ((type.system args world).received s = env.input ↔
            Transparent initVecSize.toNat [] (env.stdin.map Piece.bytes)))
        (type.system args world).start := by
  obtain ⟨agree, ports⟩ := programs_agree starts listens
  refine ⟨agree, ports, ?_⟩
  obtain ⟨-, -, -, -, -, -, -, -, -, -, read, -⟩ := ppcbClient_ok_iff.mp starts
  have read := (readStdin_ok_iff.mp read).1
  have occupied := occupiedSize_read small read
  have small' : args.vec.occupiedSize.toNat < 2 ^ 32 := occupied ▸ small
  have arrives (t : DatagramType) : (t.chunks args).flatten = env.input ↔
      Transparent initVecSize.toNat [] (env.stdin.map Piece.bytes) :=
    t.chunks_eq_iff small read occupied
  have some_bytes (nonempty : env.input ≠ []) : 0 < args.vec.occupiedSize := by
    rw [UInt64.lt_iff_toNat_lt, occupied]
    exact List.length_pos_of_ne_nil nonempty
  cases type with
  | TCP =>
      refine (tcpSystem_delivers world small').trans ?_
      rintro s ⟨served, received⟩
      exact .now ⟨served, (congrArg (· = env.input) received).to_iff.trans (arrives .UDP)⟩
  | UDP =>
      rcases some_input with impossible | nonempty
      · cases impossible
      refine (datagramSystem_delivers world small' .UDP (some_bytes nonempty)).trans ?_
      rintro s ⟨served, received⟩
      exact .now ⟨served, (congrArg (· = env.input) received).to_iff.trans (arrives .UDP)⟩
  | UDPR =>
      rcases some_input with impossible | nonempty
      · cases impossible
      refine (datagramSystem_delivers world small' .UDPR (some_bytes nonempty)).trans ?_
      rintro s ⟨served, received⟩
      exact .now ⟨served, (congrArg (· = env.input) received).to_iff.trans (arrives .UDPR)⟩

/-- The letter A, sent with retransmission. -/
theorem input_arrives_letter : ∃ args world s,
    ReflTransGen (CommunicationType.system .UDPR args world).step
      (CommunicationType.system .UDPR args world).start s ∧
    (CommunicationType.system .UDPR args world).received s = [65] := by
  let piece : Piece := ⟨[65], by decide, by decide⟩
  let env : Environment := ⟨false, fun _ => .ok 1, 0, 7, true, true, [piece], false⟩
  have small : env.input.length < 2 ^ 32 := by decide
  have transparent : Transparent initVecSize.toNat [] (env.stdin.map Piece.bytes) := by
    refine ⟨fun _ => trivial, by decide, by decide, fun i => ?_⟩
    apply zerosLast_of_ne_zero
    intro b member
    have member : b ∈ [(65 : UInt8)] := List.mem_of_mem_drop (List.mem_of_mem_take member)
    rw [List.mem_singleton.mp member]
    decide
  obtain ⟨vec, read, -⟩ := (UDPRSend.sendsInput_iff ⟨1, 1⟩ 7 small).mpr transparent
  have starts : ppcbClient env [⟨[99], by decide⟩, ⟨CommunicationType.UDPR.word, by decide⟩,
      ⟨[104], by decide⟩, .decimal 80] =
        .ok (.UDPR, ⟨⟨1, htons 80⟩, vec, sessionIdOf 0 7⟩) :=
    ppcbClient_ok_iff.mpr ⟨_, _, _, _, rfl, rfl, 80, (by decide), rfl, rfl,
      readStdin_ok_iff.mpr ⟨read, rfl⟩, rfl⟩
  have listens : serverMain env [⟨[115], by decide⟩, ⟨CommunicationType.UDPR.word, by decide⟩,
      .decimal 80] = .ok (.UDPR, ⟨0, htons 80⟩) :=
    serverMain_ok_iff.mpr ⟨_, _, _, rfl, rfl, 80, (by decide), rfl, rfl, rfl⟩
  have listening : TCPService.Ready .start := ⟨⟨[], rfl⟩, rfl⟩
  let world : World := ⟨.zero, .other 0, ⟨1, 1⟩, .start, .start, listening, rfl⟩
  obtain ⟨-, -, inevitable⟩ :=
    input_arrives_iff starts listens small (.inr (List.cons_ne_nil _ _)) world
  obtain ⟨s, run, -, arrives⟩ := inevitable.reaches
  exact ⟨_, world, s, run, arrives.mpr transparent⟩

end Ppcb
