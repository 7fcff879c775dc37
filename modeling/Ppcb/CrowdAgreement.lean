import Ppcb.Lib.Crowd
import Ppcb.SharedServer
import Ppcb.DatagramClient

/-!
# Many clients and one server

Any number of clients, each of either datagram protocol, talk to one server over a network
that loses, repeats, delays and reorders, and strangers send it whatever they like but a
`CONN` under a client's session id (`Clientele.network`). Each client has the
agreement with the server that it would have alone (`udp_crowd_agreement`), under its own
protocol: the crowd keeps `Sender.Present` of every client's view.
-/

set_option autoImplicit false

namespace Ppcb

open ByteOrder CString Reactive Relation

/-! ## One client of the crowd -/

namespace Sender

variable {σ : Type} {A : Machine σ ClientEvent Datagram} {cut : Cut}
  {serverAddress : SockAddr} (sender : Sender A cut serverAddress)

/-- The client agrees with the server of which it sees its own sessions only, and nobody
else's session has its id. -/
structure Hosted (client : SockAddr) (s : Duplex σ UDPServer Datagram Reply) : Prop where
  joint : sender.Joint ⟨s.left, s.right.only client, s.fromLeft, s.fromRight⟩
  others : ∀ session ∈ s.right.sessions, session.currClientAddr ≠ client →
    session.conn.sessionId ≠ cut.sessionId

variable {sender} {client : SockAddr} {s : Duplex σ UDPServer Datagram Reply}

theorem Hosted.start {begin : σ} (ok : sender.Ok begin) (silent : sender.traffic begin = 0)
    (unconfirmed : sender.confirmed begin = 0) (unfinished : sender.finished begin = false) :
    sender.Hosted client ⟨begin, .start, [], []⟩ where
  joint := by
    refine ⟨ok, Nat.le_of_eq silent, nofun, UDPServer.agrees_start, nofun, ?_⟩
    rw [Sender.transfer, unconfirmed, unfinished]
    exact .refl
  others _ member := absurd member List.not_mem_nil

theorem Hosted.left (hosted : sender.Hosted client s) {e : ClientEvent}
    (possible : (network serverAddress client).toLeft e s.fromRight)
    (small : (s.leftStep A e).fromLeft.length < 2 ^ 64) :
    sender.Hosted client (s.leftStep A e) :=
  ⟨hosted.joint.left e possible small, hosted.others⟩

theorem Hosted.right (hosted : sender.Hosted client s) {e : ServerEvent}
    (among : e.Among cut client) : sender.Hosted client (s.rightStep udpServerHandler e) := by
  have accommodates := UDPServer.hosts_step ⟨hosted.joint.server, hosted.others⟩ among
  have moves := accommodates.refines.moves (sender.confirmed s.left) (sender.finished s.left)
  refine ⟨⟨hosted.joint.client, hosted.joint.traffic, hosted.joint.sent,
    accommodates.refines.agrees, ?_, hosted.joint.refines.trans moves.to_reflTransGen⟩,
    accommodates.others⟩
  intro reply member
  rcases List.mem_append.mp member with member | member
  · exact (hosted.joint.replies reply member).mono moves
  · exact accommodates.refines.replies reply member _ _

/-- A session belongs to the client exactly when it has its session id. -/
theorem Hosted.belongs (hosted : sender.Hosted client s) {session : UDPSession}
    (member : session ∈ s.right.sessions) :
    session.currClientAddr = client ↔ session.conn.sessionId = cut.sessionId := by
  refine ⟨fun own => ?_, fun id => ?_⟩
  · refine (hosted.joint.server.sessions session ?_).sessionId
    rw [UDPServer.sessions_only]
    exact List.mem_filter.mpr ⟨member, decide_eq_true own⟩
  · by_contra stranger
    exact hosted.others session member stranger id

theorem Hosted.mem_only (hosted : sender.Hosted client s) {session : UDPSession}
    (member : session ∈ s.right.sessions) (id : session.conn.sessionId = cut.sessionId) :
    session ∈ (s.right.only client).sessions := by
  rw [UDPServer.sessions_only]
  exact List.mem_filter.mpr ⟨member, decide_eq_true ((hosted.belongs member).mpr id)⟩

variable (sender)

/-- What holds of the view of a client in every run: it opens no session under another id or
another protocol, its sessions have its protocol, and it is hosted while it has sent fewer than
`2 ^ 64` datagrams. -/
structure Present (client : SockAddr) (s : Duplex σ UDPServer Datagram Reply) : Prop where
  ok : sender.Ok s.left
  opens : ∀ d ∈ s.fromLeft, ∀ sessionId, OpensSession sessionId d.bytes →
    sessionId = cut.sessionId ∧ protocolOf d.bytes = sender.protocol
  protocols : ∀ session ∈ s.right.sessions, session.currClientAddr = client →
    session.conn.protocolId = sender.protocol
  hosted : s.fromLeft.length < 2 ^ 64 → sender.Hosted client s

variable {sender}

theorem Present.left (present : sender.Present client s) {e : ClientEvent}
    (possible : (network serverAddress client).toLeft e s.fromRight) :
    sender.Present client (s.leftStep A e) where
  ok := sender.ok_next s.left e present.ok
  opens d member sessionId opens := by
    rcases List.mem_append.mp member with member | member
    · exact present.opens d member sessionId opens
    · obtain ⟨-, typeId, session⟩ := opens
      rcases (sender.sent s.left e present.ok d member).2 with conn | ⟨i, -, data⟩
      · rw [conn, store_initCONN, sessionOf_cons] at session
        rw [conn, store_initCONN, protocolOf_cons]
        exact ⟨session.symm, rfl⟩
      · rw [data, typeOf_dataBytes] at typeId
        cases typeId
  protocols := present.protocols
  hosted small := by
    refine (present.hosted ?_).left possible small
    exact Nat.lt_of_le_of_lt (List.IsPrefix.length_le (List.prefix_append _ _)) small

/-- A session of the client has its protocol, if what comes from its address is its own. -/
theorem Present.protocols_right (present : sender.Present client s) {e : ServerEvent}
    (own : ∀ bytes uninit conacc, e = .recvfrom (.datagram client bytes) uninit conacc →
      ∃ d ∈ s.fromLeft, d.bytes = bytes) :
    ∀ session ∈ (udpServerHandler.next s.right e).sessions, session.currClientAddr = client →
      session.conn.protocolId = sender.protocol := by
  rintro session member rfl
  rcases s.right.sessions_next e session member with
    ⟨earlier, member, same, conn⟩ | ⟨bytes, uninit, conacc, rfl, opens, protocol⟩
  · rw [← conn]
    exact present.protocols earlier member same
  · obtain ⟨d, sent, rfl⟩ := own bytes uninit conacc rfl
    exact protocol.trans (present.opens d sent _ opens).2

end Sender

/-! ## The crowd -/

/-- The clients of one server: each has an address and a session id of its own. -/
structure Clientele (ι : Type) where
  serverAddress : SockAddr
  type : ι → DatagramType
  vec : ι → MyVec
  sessionId : ι → UInt64
  address : ι → SockAddr
  errno : ι → Errno
  addresses : Function.Injective address
  sessionIds : Function.Injective sessionId

namespace Clientele

variable {ι : Type} (c : Clientele ι)

/-- The arguments of a client's handler. -/
def args (i : ι) : ClientArgs := ⟨c.serverAddress, c.vec i, c.sessionId i⟩

/-- The network between the server and its clients. A stranger can send the server anything,
but it does not know the session ids. -/
def network : CrowdLink ι ClientEvent ServerEvent Datagram Reply where
  toMember i := (Ppcb.network c.serverAddress (c.address i)).toLeft
  toShared
    | .recvfrom (.datagram src bytes) _ _, sent =>
        (∃ i, src = c.address i ∧ ⟨c.serverAddress, bytes⟩ ∈ sent i) ∨
          ∀ i, src ≠ c.address i ∧ ¬ OpensSession (c.sessionId i) bytes
    | _, _ => True

/-- Nobody has sent anything. -/
def start : Crowd (fun i => (c.type i).Client) UDPServer Datagram Reply where
  member i := (c.type i).start (c.errno i)
  shared := .start
  fromMember _ := []
  fromShared := []

variable [DecidableEq ι]

/-- A run of the clients and the server. -/
abbrev Run : Crowd (fun i => (c.type i).Client) UDPServer Datagram Reply →
    Crowd (fun i => (c.type i).Client) UDPServer Datagram Reply → Prop :=
  Crowd.Reachable (fun i => (c.type i).clientHandler (c.args i)) udpServerHandler c.network

variable {c} {s : Crowd (fun i => (c.type i).Client) UDPServer Datagram Reply}

omit [DecidableEq ι] in
/-- What reaches the server is an offer of the client, or comes from somebody who cannot open
its session. -/
theorem among {e : ServerEvent} (possible : c.network.toShared e s.fromMember)
    (opens : ∀ i, ∀ d ∈ s.fromMember i, ∀ sessionId, OpensSession sessionId d.bytes →
      sessionId = c.sessionId i)
    {i : ι} (offers : ∀ d ∈ s.fromMember i, ((c.type i).cut (c.args i)).Offer d.bytes) :
    e.Among ((c.type i).cut (c.args i)) (c.address i) := by
  cases e with
  | catchInt => trivial
  | recvfrom r uninit conacc =>
      cases r with
      | failed errno => trivial
      | datagram src bytes =>
          have id : ((c.type i).cut (c.args i)).sessionId = c.sessionId i :=
            (c.type i).cut_sessionId (c.args i)
          rcases possible with ⟨j, from_j, datagram⟩ | stranger
          · refine ⟨fun own => ?_, fun foreign opened => ?_⟩
            · rw [← c.addresses (own.symm.trans from_j)] at datagram
              exact offers _ datagram
            · rw [id] at opened
              rw [c.sessionIds (opens j _ datagram _ opened)] at foreign
              exact foreign from_j
          · obtain ⟨foreign, closed⟩ := stranger i
            refine ⟨fun own => absurd own foreign, fun _ opened => closed ?_⟩
            rwa [id] at opened

omit [DecidableEq ι] in
/-- A datagram from the address of a client was sent by it. -/
theorem own_datagram {e : ServerEvent} (possible : c.network.toShared e s.fromMember) {i : ι}
    {bytes : List UInt8} {uninit : ServerUninit} {conacc : SendTo}
    (heard : e = .recvfrom (.datagram (c.address i) bytes) uninit conacc) :
    ∃ d ∈ s.fromMember i, d.bytes = bytes := by
  subst heard
  rcases possible with ⟨j, same, datagram⟩ | stranger
  · rw [← c.addresses same] at datagram
    exact ⟨_, datagram, rfl⟩
  · exact absurd rfl (stranger i).1

/-- **Every client is present** in every run. -/
theorem present (run : c.Run c.start s) (i : ι) :
    ((c.type i).sender (c.args i)).Present (c.address i) (s.view i) := by
  refine Crowd.Reachable.views
    (I := fun i => ((c.type i).sender (c.args i)).Present (c.address i)) run ?_ ?_ ?_ i
  · intro i
    obtain ⟨ok, silent, unconfirmed, unfinished⟩ :=
      (c.type i).sender_start (c.args i) (c.errno i)
    exact ⟨ok, nofun, nofun, fun _ => .start ok silent unconfirmed unfinished⟩
  · intro s i e present possible
    exact (present i).left possible
  · intro s e present possible i
    refine ⟨(present i).ok, (present i).opens, (present i).protocols_right
      fun _ _ _ heard => own_datagram possible heard, fun small => ?_⟩
    have hosted := (present i).hosted small
    refine hosted.right (among possible (fun j d member sessionId opens => ?_) hosted.joint.sent)
    rw [((present j).opens d member sessionId opens).1]
    exact (c.type j).cut_sessionId (c.args j)

end Clientele

/-! ## Agreement -/

/-- **Many clients and one server agree.** Whatever the other clients and strangers do, the
sessions under a client's id are those that were opened from its address, they have its
protocol, each holds the client's first packets in order, a packet the client takes for
acknowledged was accepted in one of them, and a client that ended in success has a session with
all its bytes. -/
theorem udp_crowd_agreement {ι : Type} [DecidableEq ι] (c : Clientele ι)
    {s : Crowd (fun i => (c.type i).Client) UDPServer Datagram Reply} (run : c.Run c.start s)
    (i : ι) (fewer : (s.fromMember i).length < 2 ^ 64) :
    (∀ session ∈ s.shared.sessions,
      (session.currClientAddr = c.address i ↔ session.conn.sessionId = c.sessionId i) ∧
        (session.conn.sessionId = c.sessionId i →
          session.conn.protocolId = (c.type i).protocol ∧ session.delivered =
            (List.range session.currPackageId.toNat).map ((c.type i).chunk (c.args i)))) ∧
    (∀ k < (c.type i).acked (s.member i), ∃ session ∈ s.shared.sessions,
      session.conn.sessionId = c.sessionId i ∧
        session.delivered[k]? = some ((c.type i).chunk (c.args i) k)) ∧
    ((c.type i).succeeded (s.member i) = true → ∃ session ∈ s.shared.sessions,
      session.conn.sessionId = c.sessionId i ∧
        session.delivered.flatten.length = (c.vec i).occupiedSize.toNat) := by
  have present := Clientele.present run i
  have hosted := present.hosted fewer
  have id : ((c.type i).cut (c.args i)).sessionId = c.sessionId i :=
    (c.type i).cut_sessionId (c.args i)
  refine ⟨fun session member => ⟨?_, fun own => ?_⟩, ?_, fun success => ?_⟩
  · rw [← id]
    exact hosted.belongs member
  · rw [← DatagramType.cut_chunk, ← (c.type i).sender_protocol (c.args i)]
    rw [← id] at own
    exact ⟨present.protocols session member ((hosted.belongs member).mpr own),
      hosted.joint.delivered session (hosted.mem_only member own)⟩
  · intro k below
    rw [← (c.type i).sender_confirmed (c.args i)] at below
    obtain ⟨session, member, session_id, packet⟩ := hosted.joint.confirmed k below
    rw [DatagramType.cut_chunk] at packet
    exact ⟨session, UDPServer.mem_of_mem_only member, session_id.trans id, packet⟩
  · rw [← (c.type i).sender_finished (c.args i)] at success
    obtain ⟨session, member, session_id, whole⟩ := hosted.joint.completed success
    rw [DatagramType.cut_total] at whole
    exact ⟨session, UDPServer.mem_of_mem_only member, session_id.trans id, whole⟩

/-! ## Two clients -/

instance {ι : Type} [DecidableEq ι] (c : Clientele ι) :
    ∀ i e replies, Decidable (c.network.toMember i e replies) :=
  fun i e replies =>
    inferInstanceAs (Decidable ((network c.serverAddress (c.address i)).toLeft e replies))

instance {ι : Type} [Fintype ι] (c : Clientele ι) :
    ∀ e sent, Decidable (c.network.toShared e sent)
  | .recvfrom (.datagram src bytes) _ _, sent =>
      inferInstanceAs (Decidable ((∃ i, src = c.address i ∧ ⟨c.serverAddress, bytes⟩ ∈ sent i) ∨
        ∀ i, src ≠ c.address i ∧ ¬ OpensSession (c.sessionId i) bytes))
  | .recvfrom (.failed _) _ _, _ => .isTrue trivial
  | .catchInt, _ => .isTrue trivial

/-- Two clients that send one byte, the first with retransmission. -/
def twoClients : Clientele Bool where
  serverAddress := oneByte.serverAddress
  type first := if first then .UDPR else .UDP
  vec _ := oneByte.vec
  sessionId first := if first then 7 else 8
  address first := if first then oneByteClient else ⟨3, 3⟩
  errno _ := .other 0
  addresses := by decide
  sessionIds := by decide

/-- A datagram from an address reaches the server. -/
def fromAddress (src : SockAddr) (bytes : List UInt8) : (Bool × ClientEvent) ⊕ ServerEvent :=
  .inr (.recvfrom (.datagram src bytes) .zero .sent)

/-- A datagram of the server reaches a client. -/
def atClient (first : Bool) (bytes : List UInt8) : (Bool × ClientEvent) ⊕ ServerEvent :=
  .inl (first, .recvfrom (.datagram oneByte.serverAddress bytes) .zero)

/-- The second client and a stranger are heard in the middle of the first client's session. -/
def twoClientsEnd : Crowd (fun i => (twoClients.type i).Client) UDPServer Datagram Reply :=
  (Crowd.play (fun i => (twoClients.type i).clientHandler (twoClients.args i)) udpServerHandler
    twoClients.network twoClients.start
    [.inl (true, .sendto .sent), .inl (false, .sendto .sent),
      fromAddress oneByteClient (initCONN 7 udprProtocol 1).store,
      fromAddress ⟨3, 3⟩ (initCONN 8 udpProtocol 1).store,
      atClient true (initCONACC 7).store, atClient false (initCONRJT 8).store,
      .inl (true, .sendto .sent), fromAddress ⟨4, 4⟩ (dataBytes 7 0 [66]),
      fromAddress oneByteClient (dataBytes 7 0 [65]), atClient true (initACC 7 0).store,
      atClient true (initRCVD 7).store]).get (by decide +kernel)

/-- The byte of the first client arrives, and the client knows it. -/
theorem udp_crowd_agreement_twoClients : ∃ session ∈ twoClientsEnd.shared.sessions,
    session.conn.sessionId = 7 ∧ session.delivered.flatten.length = 1 :=
  (udp_crowd_agreement twoClients (Crowd.get_play_reachable _) true (by decide +kernel)).2.2
    (by decide +kernel)

end Ppcb
