import Ppcb.Lib.Duplex
import Ppcb.ClientSpec
import Ppcb.Sessions

/-!
# The client and the server together

One client and the server over a network that may lose, repeat, delay and reorder what
they send, but forges nothing (`network`). Whichever of the two protocols the client
speaks, all that matters of it is a `Sender`: it sends its `CONN` and its packets in
order, counts one as confirmed only on its `ACC`, and finishes only on a `RCVD`.

In every run in which the client sends fewer than `2 ^ 64` datagrams the joint system
refines the abstract transfer (`Sender.joint_run`), so its safety is the transfer's
(`Joint.delivered`, `Joint.confirmed`, `Joint.completed`).
-/

set_option autoImplicit false

namespace Ppcb

open ByteOrder CString Reactive Relation

/-- The network between the server and one client. -/
def network (serverAddress clientAddress : SockAddr) :
    Link ClientEvent ServerEvent Datagram Reply where
  toLeft
    | .recvfrom (.datagram src bytes) _, replies =>
        src = serverAddress ∧ ∃ reply ∈ replies, reply.dest = clientAddress ∧ reply.bytes = bytes
    | _, _ => True
  toRight
    | .recvfrom (.datagram src bytes) _ _, sent =>
        src = clientAddress ∧ ⟨serverAddress, bytes⟩ ∈ sent
    | _, _ => True

instance (serverAddress clientAddress : SockAddr) :
    ∀ e replies, Decidable ((network serverAddress clientAddress).toLeft e replies)
  | .recvfrom (.datagram src bytes) _, replies =>
      inferInstanceAs (Decidable (src = serverAddress ∧
        ∃ reply ∈ replies, reply.dest = clientAddress ∧ reply.bytes = bytes))
  | .recvfrom (.failed _) _, _ => inferInstanceAs (Decidable True)
  | .sendto _, _ => inferInstanceAs (Decidable True)

instance (serverAddress clientAddress : SockAddr) :
    ∀ e sent, Decidable ((network serverAddress clientAddress).toRight e sent)
  | .recvfrom (.datagram src bytes) _ _, sent =>
      inferInstanceAs (Decidable (src = clientAddress ∧ ⟨serverAddress, bytes⟩ ∈ sent))
  | .recvfrom (.failed _) _ _, _ => inferInstanceAs (Decidable True)
  | .catchInt, _ => inferInstanceAs (Decidable True)

/-- A short packet in the client's buffer is a reply of the server. -/
theorem network_arrived {serverAddress clientAddress : SockAddr} {e : ClientEvent}
    {replies : List Reply} {packet : List UInt8}
    (possible : (network serverAddress clientAddress).toLeft e replies)
    (received : e.buff = packet) (nonempty : packet ≠ [])
    (short : packet.length < responseBuffSize) : ∃ reply ∈ replies, reply.bytes = packet := by
  cases e with
  | sendto r => exact absurd received.symm nonempty
  | recvfrom r uninit =>
      cases r with
      | failed errno => exact absurd received.symm nonempty
      | datagram src bytes =>
          obtain ⟨-, reply, member, -, rfl⟩ := possible
          refine ⟨reply, member, ?_⟩
          rw [ClientEvent.buff] at received
          have length := congrArg List.length received
          rw [List.length_take] at length
          rwa [List.take_of_length_le (by omega)] at received

theorem network_fromServer {serverAddress clientAddress : SockAddr} {e : ClientEvent}
    {replies : List Reply} (possible : (network serverAddress clientAddress).toLeft e replies) :
    e.FromServer serverAddress := by
  cases e with
  | sendto r => trivial
  | recvfrom r uninit =>
      cases r with
      | failed errno => trivial
      | datagram src bytes => exact possible.1

/-- What reaches the server was offered. -/
theorem network_offered {cut : Cut} {serverAddress clientAddress : SockAddr} {e : ServerEvent}
    {sent : List Datagram} (possible : (network serverAddress clientAddress).toRight e sent)
    (offers : ∀ d ∈ sent, cut.Offer d.bytes) : e.Offered cut := by
  cases e with
  | catchInt => trivial
  | recvfrom r uninit conacc =>
      cases r with
      | failed errno => trivial
      | datagram src bytes => exact offers _ possible.2

/-! ## A client, as far as the transfer is concerned -/

/-- What one step of a client may do to its count of confirmed packets and to its end. -/
inductive Confirms (cut : Cut) (buff : List UInt8) : ℕ → Bool → ℕ → Bool → Prop where
  | none (confirmed : ℕ) (finished : Bool) :
      Confirms cut buff confirmed finished confirmed finished
  | acc (confirmed : ℕ) (finished : Bool) (unwrapped : confirmed < 2 ^ 64)
      (acc : buff = (initACC cut.sessionId (UInt64.ofNat confirmed)).store) :
      Confirms cut buff confirmed finished (confirmed + 1) finished
  | rcvd (confirmed : ℕ) (finished : Bool) (rcvd : buff = (initRCVD cut.sessionId).store) :
      Confirms cut buff confirmed finished confirmed true

/-- A client that sends the packets of one cut to the server, under one protocol. `traffic` is a
number of datagrams it must have sent by now. -/
structure Sender {σ : Type} (A : Machine σ ClientEvent Datagram) (cut : Cut)
    (serverAddress : SockAddr) where
  Ok : σ → Prop
  confirmed : σ → ℕ
  finished : σ → Bool
  traffic : σ → ℕ
  protocol : UInt8
  ok_next : ∀ s e, Ok s → Ok (A.next s e)
  traffic_next : ∀ s e, Ok s → traffic (A.next s e) ≤ traffic s + (A.emit s e).length
  sent : ∀ s e, Ok s → ∀ d ∈ A.emit s e, d.dest = serverAddress ∧
    (d.bytes = (initCONN cut.sessionId protocol cut.total).store ∨
      ∃ i, i + 1 ≤ traffic s ∧ d.bytes = dataBytes cut.sessionId (UInt64.ofNat i) (cut.chunk i))
  confirms : ∀ s e, Ok s → traffic s < 2 ^ 64 →
    Confirms cut e.buff (confirmed s) (finished s) (confirmed (A.next s e)) (finished (A.next s e))

namespace Sender

variable {σ : Type} {A : Machine σ ClientEvent Datagram} {cut : Cut}
  {serverAddress clientAddress : SockAddr} (sender : Sender A cut serverAddress)

/-- The transfer the joint state stands for. -/
def transfer (s : Duplex σ UDPServer Datagram Reply) : Transfer (List UInt8) :=
  ⟨s.right.received, sender.confirmed s.left, sender.finished s.left⟩

/-- What holds in every joint state: both sides follow the cut, what is in flight is
offered or justified, and the transfer got here by its own steps. -/
structure Joint (s : Duplex σ UDPServer Datagram Reply) : Prop where
  client : sender.Ok s.left
  traffic : sender.traffic s.left ≤ s.fromLeft.length
  sent : ∀ d ∈ s.fromLeft, cut.Offer d.bytes
  server : s.right.Agrees cut
  replies : ∀ reply ∈ s.fromRight, reply.Justified cut (sender.transfer s)
  refines : Transfer.Reachable cut.chunk cut.Complete .start (sender.transfer s)

variable {sender}

theorem Joint.right {s : Duplex σ UDPServer Datagram Reply} (joint : sender.Joint s)
    (e : ServerEvent) (possible : (network serverAddress clientAddress).toRight e s.fromLeft) :
    sender.Joint (s.rightStep udpServerHandler e) := by
  have offered := network_offered possible joint.sent
  have served := UDPServer.step_refines joint.server offered
  have moves := served.moves (sender.confirmed s.left) (sender.finished s.left)
  refine ⟨joint.client, joint.traffic, joint.sent, served.agrees, ?_, ?_⟩
  · intro reply member
    rcases List.mem_append.mp member with member | member
    · exact (joint.replies reply member).mono moves
    · exact served.replies reply member _ _
  · exact joint.refines.trans moves.to_reflTransGen

/-- A step of the client is a step of the transfer or none. -/
theorem Joint.left_moves {s : Duplex σ UDPServer Datagram Reply} (joint : sender.Joint s)
    (e : ClientEvent) (possible : (network serverAddress clientAddress).toLeft e s.fromRight)
    (small : s.fromLeft.length < 2 ^ 64) :
    cut.Moves (sender.transfer s) (sender.transfer (s.leftStep A e)) := by
  have confirms := sender.confirms s.left e joint.client (lt_of_le_of_lt joint.traffic small)
  show cut.Moves (sender.transfer s) ⟨s.right.received, sender.confirmed (A.next s.left e),
    sender.finished (A.next s.left e)⟩
  have same : sender.transfer s =
      ⟨s.right.received, sender.confirmed s.left, sender.finished s.left⟩ := rfl
  have justified := joint.replies
  rw [same] at justified ⊢
  generalize sender.confirmed s.left = confirmed at confirms justified ⊢
  generalize sender.finished s.left = finished at confirms justified ⊢
  generalize sender.confirmed (A.next s.left e) = confirmed' at confirms ⊢
  generalize sender.finished (A.next s.left e) = finished' at confirms ⊢
  cases confirms with
  | none => exact .refl
  | acc unwrapped acc =>
      obtain ⟨reply, member, bytes⟩ := network_arrived possible acc (by simp [initACC])
        (by rw [NumberedPacket.length_store]; decide)
      have accepted := (justified reply member).1 _ bytes
      rw [UInt64.toNat_ofNat_of_lt' unwrapped] at accepted
      exact .single (.confirmed _ accepted)
  | rcvd rcvd =>
      obtain ⟨reply, member, bytes⟩ := network_arrived possible rcvd (by simp [initRCVD])
        (by rw [SessionPacket.length_store]; decide)
      exact .single (.finished _ ((justified reply member).2 bytes))

theorem Joint.left {s : Duplex σ UDPServer Datagram Reply} (joint : sender.Joint s)
    (e : ClientEvent) (possible : (network serverAddress clientAddress).toLeft e s.fromRight)
    (small : (s.leftStep A e).fromLeft.length < 2 ^ 64) : sender.Joint (s.leftStep A e) := by
  have grown : (s.leftStep A e).fromLeft.length = s.fromLeft.length + (A.emit s.left e).length :=
    List.length_append
  have moves := joint.left_moves e possible (by omega)
  have behind := joint.traffic
  refine ⟨sender.ok_next s.left e joint.client, ?_, ?_, joint.server, ?_, ?_⟩
  · rw [grown]
    exact le_trans (sender.traffic_next s.left e joint.client) (Nat.add_le_add_right behind _)
  · intro d member
    rcases List.mem_append.mp member with member | member
    · exact joint.sent d member
    · rcases (sender.sent s.left e joint.client d member).2 with conn | ⟨i, id, data⟩
      · rw [conn]
        exact .conn sender.protocol
      · have some_sent : 0 < (A.emit s.left e).length := List.length_pos_of_mem member
        rw [data]
        exact .data i (by omega)
  · intro reply member
    exact (joint.replies reply member).mono moves
  · exact joint.refines.trans moves.to_reflTransGen

variable (sender)

/-- **The joint system refines the transfer**, in every run in which the client sends fewer
than `2 ^ 64` datagrams. -/
theorem joint_run {client : σ} {s : Duplex σ UDPServer Datagram Reply} (ok : sender.Ok client)
    (fresh : sender.traffic client = 0 ∧ sender.confirmed client = 0 ∧
      sender.finished client = false)
    (run : Duplex.Reachable A udpServerHandler (network serverAddress clientAddress)
      ⟨client, .start, [], []⟩ s)
    (within : s.fromLeft.length < 2 ^ 64) : sender.Joint s := by
  obtain ⟨silent, unconfirmed, unfinished⟩ := fresh
  refine run.invariant_within ?_ ?_ ?_ within
  · refine ⟨ok, Nat.le_of_eq silent, nofun, UDPServer.agrees_start, nofun, ?_⟩
    rw [transfer, unconfirmed, unfinished]
    exact .refl
  · intro s e joint possible small
    exact joint.left e possible small
  · intro s e joint possible _
    exact joint.right e possible

end Sender

/-! ## Safety of the joint system -/

section Safety

variable {σ : Type} {A : Machine σ ClientEvent Datagram} {cut : Cut} {serverAddress : SockAddr}
  {sender : Sender A cut serverAddress} {s : Duplex σ UDPServer Datagram Reply}

/-- What the transfer's safety says about the sessions. -/
theorem Sender.Joint.delivered (joint : sender.Joint s) :
    ∀ session ∈ s.right.sessions,
      session.delivered = (List.range session.currPackageId.toNat).map cut.chunk := by
  intro session member
  have inOrder := joint.refines.safe.inOrder session.delivered (List.mem_map_of_mem member)
  rwa [(joint.server.sessions session member).length_delivered] at inOrder

/-- A confirmed packet was accepted in some session. -/
theorem Sender.Joint.confirmed (joint : sender.Joint s) :
    ∀ i < sender.confirmed s.left, ∃ session ∈ s.right.sessions,
      session.conn.sessionId = cut.sessionId ∧ session.delivered[i]? = some (cut.chunk i) := by
  intro i below
  obtain ⟨delivered, member, longer⟩ := joint.refines.safe.confirmed i below
  obtain ⟨session, opened, rfl⟩ := List.mem_map.mp member
  have agrees := joint.server.sessions session opened
  refine ⟨session, opened, agrees.sessionId, ?_⟩
  rw [agrees.length_delivered] at longer
  rw [agrees.delivered, List.getElem?_map, List.getElem?_range longer]
  rfl

/-- A client that ended in success has a complete session. -/
theorem Sender.Joint.completed (joint : sender.Joint s)
    (finished : sender.finished s.left = true) : ∃ session ∈ s.right.sessions,
      session.conn.sessionId = cut.sessionId ∧
        session.delivered.flatten.length = cut.total.toNat := by
  obtain ⟨delivered, member, complete⟩ := joint.refines.safe.finished finished
  obtain ⟨session, opened, rfl⟩ := List.mem_map.mp member
  exact ⟨session, opened, (joint.server.sessions session opened).sessionId, complete⟩

end Safety

/-! ## Chunks of a vector -/

theorem chunks_within {args : ClientArgs} {chunk : ℕ → List UInt8}
    (sizes : ∀ i, (chunk i).length = min (size32 args - sendBuffSize * i) sendBuffSize) (k : ℕ) :
    ((List.range k).map chunk).flatten.length ≤ args.vec.occupiedSize.toNat := by
  rw [length_chunks sizes]
  exact le_trans (Nat.min_le_left _ _) (size32_le args)

/-! ## A small transfer -/

/-- Uninitialised memory that happens to be zero. -/
def ClientUninit.zero : ClientUninit := ⟨⟨0, 0⟩, ⟨0, 0, 0⟩, ⟨0, 0⟩, blankDATA⟩

instance : Inhabited ClientUninit := ⟨.zero⟩

def oneByteClient : SockAddr := ⟨2, 2⟩

/-- A datagram of the server reaches the client. -/
def toClient (bytes : List UInt8) : ClientEvent ⊕ ServerEvent :=
  .inl (.recvfrom (.datagram oneByte.serverAddress bytes) .zero)

/-- A datagram of the client reaches the server. -/
def toServer (bytes : List UInt8) : ClientEvent ⊕ ServerEvent :=
  .inr (.recvfrom (.datagram oneByteClient bytes) .zero .sent)

/-- The client's `sendto` succeeds. -/
def clientSends : ClientEvent ⊕ ServerEvent := .inl (.sendto .sent)

end Ppcb
