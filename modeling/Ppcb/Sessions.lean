import Ppcb.ServerSpec
import Ppcb.Transfer

/-!
# The sessions of the server refine a transfer

A client that sends one file can offer the server only its `CONN` and the packets of one
sequence of chunks (`Cut.Offer`). While the server is offered nothing else, every
session of it agrees with that sequence, and every step of the server is a step of the
abstract transfer or none (`UDPServer.step_refines`). What it replies is true of the
transfer: an `ACC` names a packet that some session has accepted, and a `RCVD` is sent
only when some session is complete (`Reply.Justified`).
-/

set_option autoImplicit false

namespace Ppcb

open ByteOrder CString Reactive Relation

/-- The packets a client cuts its vector into: short chunks that together stay within the
announced size. -/
structure Cut where
  sessionId : UInt64
  total : UInt64
  chunk : ℕ → List UInt8
  short : ∀ i, (chunk i).length ≤ maxAllowedPacketSize
  within : ∀ k, ((List.range k).map chunk).flatten.length ≤ total.toNat

namespace Cut

/-- The announced number of bytes was delivered. -/
def Complete (cut : Cut) (delivered : List (List UInt8)) : Prop :=
  delivered.flatten.length = cut.total.toNat

/-- What the client can offer: its `CONN`, and packets whose ids do not wrap. -/
inductive Offer (cut : Cut) : List UInt8 → Prop where
  | conn (protocol : UInt8) : Offer cut (initCONN cut.sessionId protocol cut.total).store
  | data (i : ℕ) (small : i + 1 < 2 ^ 64) :
      Offer cut (dataBytes cut.sessionId (UInt64.ofNat i) (cut.chunk i))

/-- Steps of the transfer of this cut: one or none. -/
abbrev Moves (cut : Cut) : Transfer (List UInt8) → Transfer (List UInt8) → Prop :=
  ReflGen (Transfer.Step cut.chunk cut.Complete)

end Cut

theorem length_flatten_append (delivered : List (List UInt8)) (payload : List UInt8) :
    (delivered ++ [payload]).flatten.length = delivered.flatten.length + payload.length := by
  simp

/-! ## One session -/

/-- The counters and the delivered payloads of a session follow the cut. -/
structure UDPSession.Agrees (cut : Cut) (s : UDPSession) : Prop where
  sessionId : s.conn.sessionId = cut.sessionId
  total : s.conn.nbrOfBytesToBeSent = cut.total
  delivered : s.delivered = (List.range s.currPackageId.toNat).map cut.chunk
  bytesRecvd : s.bytesRecvd.toNat = s.delivered.flatten.length

section Session

variable {cut : Cut}

theorem UDPSession.Agrees.length_delivered {s : UDPSession} (agrees : s.Agrees cut) :
    s.delivered.length = s.currPackageId.toNat := by
  rw [agrees.delivered, List.length_map, List.length_range]

/-- Accepting the packet a session is at keeps it in agreement. -/
theorem UDPSession.Agrees.accept {s : UDPSession} (agrees : s.Agrees cut) {i : ℕ}
    (small : i + 1 < 2 ^ 64) (current : s.currPackageId = UInt64.ofNat i) :
    (s.accept (cut.chunk i)).Agrees cut ∧
      (s.accept (cut.chunk i)).delivered = s.delivered ++ [cut.chunk s.delivered.length] := by
  have index : s.currPackageId.toNat = i := by
    rw [current]
    exact UInt64.toNat_ofNat_of_lt' (Nat.lt_of_succ_lt small)
  have next : (s.currPackageId + 1).toNat = i + 1 := by
    rw [UInt64.toNat_add, index]
    exact Nat.mod_eq_of_lt small
  have grown : s.delivered ++ [cut.chunk i] = (List.range (i + 1)).map cut.chunk := by
    rw [agrees.delivered, index, List.range_succ, List.map_append, List.map_singleton]
  have bytes : s.delivered.flatten.length + (cut.chunk i).length ≤ cut.total.toNat := by
    rw [← length_flatten_append, grown]
    exact cut.within _
  refine ⟨⟨agrees.sessionId, agrees.total, ?_, ?_⟩, ?_⟩
  · rw [UDPSession.accept_delivered, UDPSession.accept_currPackageId, grown, next]
  · rw [UDPSession.accept_bytesRecvd, UDPSession.accept_delivered, length_flatten_append,
      UInt64.toNat_add, UInt32.toNat_toUInt64, toNat_payload (cut.short i), agrees.bytesRecvd]
    exact Nat.mod_eq_of_lt (lt_of_le_of_lt bytes cut.total.toNat_lt)
  · rw [UDPSession.accept_delivered, agrees.length_delivered, index]

/-- A session that still waits is not complete. -/
theorem UDPSession.Agrees.incomplete {s : UDPSession} (agrees : s.Agrees cut)
    (waiting : s.bytesRecvd < s.conn.nbrOfBytesToBeSent) : ¬ cut.Complete s.delivered := by
  intro complete
  rw [UInt64.lt_iff_toNat_lt, agrees.bytesRecvd, agrees.total, complete] at waiting
  exact lt_irrefl _ waiting

theorem UDPSession.Agrees.complete {s : UDPSession} (agrees : s.Agrees cut)
    (whole : s.bytesRecvd = s.conn.nbrOfBytesToBeSent) : cut.Complete s.delivered := by
  rw [Cut.Complete, ← agrees.bytesRecvd, whole, agrees.total]

end Session

/-! ## Replies that are true -/

section Replies

variable (cut : Cut)

/-- An `ACC` of the session names an accepted packet, a `RCVD` a complete session. -/
def Reply.Justified (t : Transfer (List UInt8)) (reply : Reply) : Prop :=
  (∀ p, reply.bytes = (initACC cut.sessionId p).store → t.Accepted p.toNat) ∧
    (reply.bytes = (initRCVD cut.sessionId).store → t.Completed cut.Complete)

variable {cut}

theorem Reply.Justified.mono {t t' : Transfer (List UInt8)} {reply : Reply}
    (justified : reply.Justified cut t) (moves : cut.Moves t t') : reply.Justified cut t' := by
  cases moves with
  | refl => exact justified
  | single step =>
      exact ⟨fun p acc => step.accepted_mono (justified.1 p acc),
        fun rcvd => step.completed_mono (justified.2 rcvd)⟩

theorem Reply.ConfirmsNothing.justified {t : Transfer (List UInt8)} {reply : Reply}
    (silent : reply.ConfirmsNothing) : reply.Justified cut t := by
  refine ⟨?_, ?_⟩
  · intro p acc
    exact absurd (by rw [acc, initACC, store_initNumbered, typeOf_cons]) silent.1
  · intro rcvd
    exact absurd (by rw [rcvd, initRCVD, store_initSession, typeOf_cons]) silent.2

theorem initACC_inj {s p p' : UInt64} (same : (initACC s p).store = (initACC s p').store) :
    p = p' := by
  have package := congrArg packageOf same
  simpa [initACC] using package

theorem Reply.justified_acc {t : Transfer (List UInt8)} {reply : Reply} {p : UInt64}
    (acc : reply.bytes = (initACC cut.sessionId p).store) (accepted : t.Accepted p.toNat) :
    reply.Justified cut t := by
  refine ⟨?_, ?_⟩
  · intro p' acc'
    rwa [← initACC_inj (acc.symm.trans acc')]
  · intro rcvd
    have types := congrArg typeOf (acc.symm.trans rcvd)
    simp [initACC, initRCVD, accId, rcvdId] at types

theorem Reply.justified_rcvd {t : Transfer (List UInt8)} {reply : Reply}
    (rcvd : reply.bytes = (initRCVD cut.sessionId).store) (completed : t.Completed cut.Complete) :
    reply.Justified cut t := by
  refine ⟨?_, fun _ => completed⟩
  intro p acc
  have types := congrArg typeOf (acc.symm.trans rcvd)
  simp [initACC, initRCVD, accId, rcvdId] at types

end Replies

/-! ## One pass over an offered datagram -/

section Pass

variable {cut : Cut}

/-- What a datagram is when the client offered it. -/
def RecvFrom.Offered (cut : Cut) : RecvFrom → Prop
  | .datagram _ bytes => cut.Offer bytes
  | .failed _ => True

/-- An offered packet that a session is at is the next chunk. -/
theorem RecvFrom.Offered.next {r : RecvFrom} (offered : r.Offered cut) {s p : UInt64}
    {payload : List UInt8} (packet : r.buff = dataBytes s p payload) :
    ∃ i, i + 1 < 2 ^ 64 ∧ p = UInt64.ofNat i ∧ payload = cut.chunk i := by
  have typeId := congrArg typeOf packet
  rw [typeOf_dataBytes] at typeId
  cases r with
  | failed errno => cases typeId
  | datagram src bytes =>
      cases offered with
      | conn protocol =>
          rw [buff, List.take_of_length_le (by simp [receiveBufforSize]), store_initCONN,
            typeOf_cons] at typeId
          cases typeId
      | data i small =>
          have short := cut.short i
          have fits : (dataBytes cut.sessionId (UInt64.ofNat i) (cut.chunk i)).length ≤
              receiveBufforSize := by
            rw [length_dataBytes]
            simp only [sizeofDataInfo, receiveBufforSize, maxAllowedPacketSize] at short ⊢
            omega
          rw [buff, List.take_of_length_le fits] at packet
          refine ⟨i, small, ?_, ?_⟩
          · rw [← packageOf_dataBytes s p payload, ← packet, packageOf_dataBytes]
          · rw [← drop_dataBytes s p payload, ← packet, drop_dataBytes]

/-- What a pass makes of a session: it stays, or it accepts its next chunk; and the
replies are true once it has. -/
structure Served (cut : Cut) (before after : UDPSession) (replies : List Reply) : Prop where
  agrees : after.Agrees cut
  progress : after.delivered = before.delivered ∨
    ¬ cut.Complete before.delivered ∧
      after.delivered = before.delivered ++ [cut.chunk before.delivered.length]
  replies : ∀ reply ∈ replies, ∀ t : Transfer (List UInt8), after.delivered ∈ t.received →
    reply.Justified cut t

/-- A loop that has read enough sends `RCVD`, and the session is complete. -/
theorem UDPSession.Agrees.justified_rcvd {s : UDPSession} (agrees : s.Agrees cut) {reply : Reply}
    (rcvd : reply.bytes = (initRCVD s.conn.sessionId).store ∧
      s.bytesRecvd = s.conn.nbrOfBytesToBeSent)
    {t : Transfer (List UInt8)} (member : s.delivered ∈ t.received) :
    reply.Justified cut t := by
  rw [agrees.sessionId] at rcvd
  exact Reply.justified_rcvd rcvd.1 ⟨_, member, agrees.complete rcvd.2⟩

/-- The locals of a loop that waits. -/
def UDPSession.Waits (s : UDPSession) : Prop := s.bytesRecvd < s.conn.nbrOfBytesToBeSent

theorem udpDataReceivePass_served {s : UDPSession} (agrees : s.Agrees cut) (waits : s.Waits)
    (clientAddress : SockAddr) {r : RecvFrom} (offered : r.Offered cut) (uninit : ServerUninit) :
    Served cut s (udpDataReceivePass s clientAddress r uninit).1.flow.session
        (udpDataReceivePass s clientAddress r uninit).2 ∧
      ∀ s', (udpDataReceivePass s clientAddress r uninit).1.flow = .waiting s' → s'.Waits := by
  rcases udpDataReceivePass_cases s clientAddress r uninit with
    ⟨src, payload, -, packet, accepted⟩ | ⟨same, silent⟩
  · obtain ⟨i, small, current, rfl⟩ := offered.next packet
    obtain ⟨agrees', delivered⟩ := agrees.accept small current
    obtain ⟨session, waiting, rcvd⟩ := udpDataReceiveLoop_cases (s.accept (cut.chunk i)) src
    rw [accepted]
    refine ⟨⟨?_, ?_, ?_⟩, ?_⟩
    · rwa [session]
    · rw [session]
      exact .inr ⟨agrees.incomplete waits, delivered⟩
    · intro reply member t received
      rw [session] at received
      exact agrees'.justified_rcvd (rcvd reply member) received
    · intro s' flow
      rw [flow] at session
      rw [show s' = s.accept (cut.chunk i) from session]
      exact waiting s' flow
  · refine ⟨⟨?_, ?_, ?_⟩, ?_⟩
    · rwa [same]
    · exact .inl (by rw [same])
    · intro reply member t _
      exact (silent reply member).justified
    · intro s' flow
      rw [flow] at same
      rwa [show s' = s from same]

/-- The locals of a waiting loop with retransmission: before the first packet the flag is
set. -/
def UDPRSession.Waits (s : UDPRSession) : Prop :=
  s.toUDPSession.Waits ∧ (s.isFirstDATAPacket = false → 0 < s.currPackageId.toNat)

theorem udprDataReceivePass_served {s : UDPRSession} (agrees : s.toUDPSession.Agrees cut)
    (waits : s.Waits) (clientAddress : SockAddr) {r : RecvFrom} (offered : r.Offered cut)
    (uninit : ServerUninit) :
    Served cut s.toUDPSession
        (udprDataReceivePass s clientAddress r uninit).1.flow.session.toUDPSession
        (udprDataReceivePass s clientAddress r uninit).2 ∧
      ∀ s', (udprDataReceivePass s clientAddress r uninit).1.flow = .waiting s' → s'.Waits := by
  rcases udprDataReceivePass_cases s clientAddress r uninit with
    ⟨src, payload, -, packet, accepted⟩ | ⟨⟨nbr, same⟩, silent⟩
  · obtain ⟨i, small, current, rfl⟩ := offered.next packet
    obtain ⟨agrees', delivered⟩ := agrees.accept small current
    obtain ⟨session, waiting, final⟩ := udprDataReceiveLoop_cases (s.accept (cut.chunk i)) src
    have longer : s.currPackageId.toNat <
        (s.toUDPSession.accept (cut.chunk i)).delivered.length := by
      rw [delivered, List.length_append, agrees.length_delivered, List.length_singleton]
      exact Nat.lt_succ_self _
    rw [accepted]
    refine ⟨⟨?_, ?_, ?_⟩, ?_⟩
    · rwa [session]
    · rw [session]
      exact .inr ⟨agrees.incomplete waits.1, delivered⟩
    · intro reply member t received
      rw [session] at received
      rcases List.mem_cons.mp member with rfl | member
      · refine Reply.justified_acc ?_ ⟨_, received, longer⟩
        rw [← agrees.sessionId]
        rfl
      · rcases final reply member with silent | rcvd
        · exact silent.justified
        · exact agrees'.justified_rcvd rcvd received
    · intro s' flow
      rw [flow] at session
      rw [show s' = s.accept (cut.chunk i) from session]
      refine ⟨waiting s' flow, fun _ => ?_⟩
      rw [UDPRSession.accept_toUDPSession, ← agrees'.length_delivered]
      exact lt_of_le_of_lt (Nat.zero_le _) longer
  · have core : (udprDataReceivePass s clientAddress r uninit).1.flow.session.toUDPSession =
        s.toUDPSession := by rw [same]
    refine ⟨⟨?_, ?_, ?_⟩, ?_⟩
    · rwa [core]
    · exact .inl (by rw [core])
    · intro reply member t received
      rw [core] at received
      rcases silent reply member with silent | ⟨notFirst, acc⟩
      · exact silent.justified
      · -- The packet before the current one was accepted in this session.
        have positive := waits.2 notFirst
        rw [agrees.sessionId] at acc
        refine Reply.justified_acc acc ⟨_, received, ?_⟩
        rw [agrees.length_delivered, UInt64.toNat_sub_of_le]
        · exact Nat.sub_lt positive Nat.one_pos
        · exact UInt64.le_iff_toNat_le.mpr positive
    · intro s' flow
      rw [flow] at same
      rw [show s' = { s with nbrOfRetransmits := nbr } from same]
      exact waits

end Pass

/-! ## The server -/

/-- The session that is active. -/
def ServerMode.current : ServerMode → List UDPSession
  | .udp s => [s]
  | .udpr s => [s.toUDPSession]
  | _ => []

/-- All sessions, in the order in which they were opened. -/
def UDPServer.sessions (s : UDPServer) : List UDPSession := s.ended ++ s.mode.current

/-- What the sessions have accepted. -/
def UDPServer.received (s : UDPServer) : List (List (List UInt8)) :=
  s.sessions.map UDPSession.delivered

def ServerMode.Waits : ServerMode → Prop
  | .udp s => s.Waits
  | .udpr s => s.Waits
  | _ => True

/-- Every session follows the cut, and an active one waits for more. -/
structure UDPServer.Agrees (cut : Cut) (s : UDPServer) : Prop where
  sessions : ∀ session ∈ s.sessions, session.Agrees cut
  mode : s.mode.Waits

def ServerEvent.Offered (cut : Cut) : ServerEvent → Prop
  | .recvfrom r _ _ => r.Offered cut
  | .catchInt => True

section Server

variable {cut : Cut}

theorem UDPServer.sessions_afterUDP (s : UDPServer) (receiving : Receiving UDPSession) :
    (s.afterUDP receiving).sessions = s.ended ++ [receiving.flow.session] := by
  obtain ⟨flow, clientAddress⟩ := receiving
  cases flow with
  | waiting session => rfl
  | returned session => exact List.append_nil _

theorem UDPServer.sessions_afterUDPR (s : UDPServer) (receiving : Receiving UDPRSession) :
    (s.afterUDPR receiving).sessions = s.ended ++ [receiving.flow.session.toUDPSession] := by
  obtain ⟨flow, clientAddress⟩ := receiving
  cases flow with
  | waiting session => rfl
  | returned session => exact List.append_nil _

theorem UDPServer.waits_afterUDP {s : UDPServer} {receiving : Receiving UDPSession}
    (waits : ∀ session, receiving.flow = .waiting session → session.Waits) :
    (s.afterUDP receiving).mode.Waits := by
  obtain ⟨flow, clientAddress⟩ := receiving
  cases flow with
  | waiting session => exact waits session rfl
  | returned session => trivial

theorem UDPServer.waits_afterUDPR {s : UDPServer} {receiving : Receiving UDPRSession}
    (waits : ∀ session, receiving.flow = .waiting session → session.Waits) :
    (s.afterUDPR receiving).mode.Waits := by
  obtain ⟨flow, clientAddress⟩ := receiving
  cases flow with
  | waiting session => exact waits session rfl
  | returned session => trivial

/-- What one step of the server does, as far as the transfer is concerned. -/
structure UDPServer.Refines (cut : Cut) (s s' : UDPServer) (replies : List Reply) : Prop where
  agrees : s'.Agrees cut
  moves : ∀ confirmed finished,
    cut.Moves ⟨s.received, confirmed, finished⟩ ⟨s'.received, confirmed, finished⟩
  replies : ∀ reply ∈ replies, ∀ confirmed finished,
    reply.Justified cut ⟨s'.received, confirmed, finished⟩

/-- A step that leaves the sessions alone and confirms nothing. -/
theorem UDPServer.Refines.quiet {s s' : UDPServer} {replies : List Reply} (before : s.Agrees cut)
    (same : s'.sessions = s.sessions) (waits : s'.mode.Waits)
    (silent : ∀ reply ∈ replies, reply.ConfirmsNothing) : UDPServer.Refines cut s s' replies where
  agrees := ⟨by rw [same]; exact before.sessions, waits⟩
  moves confirmed finished := by
    rw [UDPServer.received, UDPServer.received, same]
  replies reply member _ _ := (silent reply member).justified

/-- A session that was served, after the sessions that are over. -/
theorem UDPServer.Refines.served {s s' : UDPServer} {earlier : List UDPSession}
    {session after : UDPSession} {replies : List Reply} (before : s.Agrees cut)
    (current : s.sessions = earlier ++ [session]) (served : Served cut session after replies)
    (sessions : s'.sessions = earlier ++ [after]) (waits : s'.mode.Waits) :
    UDPServer.Refines cut s s' replies where
  agrees := by
    refine ⟨?_, waits⟩
    intro other member
    rw [sessions] at member
    rcases List.mem_append.mp member with member | member
    · exact before.sessions other (by rw [current]; exact List.mem_append_left _ member)
    · rw [List.mem_singleton.mp member]
      exact served.agrees
  moves confirmed finished := by
    simp only [UDPServer.received, current, sessions, List.map_append, List.map_singleton]
    rcases served.progress with same | ⟨incomplete, delivered⟩
    · rw [same]
    · rw [delivered]
      exact .single (.accepted _ _ _ rfl incomplete)
  replies reply member _ _ := by
    refine served.replies reply member _ ?_
    simp [UDPServer.received, sessions]

/-- A session that was opened, after the sessions that are over. -/
theorem UDPServer.Refines.opened {s s' : UDPServer} {session : UDPSession} {replies : List Reply}
    (before : s.Agrees cut) (fresh : session.Agrees cut) (empty : session.delivered = [])
    (sessions : s'.sessions = s.sessions ++ [session]) (waits : s'.mode.Waits)
    (justified : ∀ reply ∈ replies, ∀ t : Transfer (List UInt8), session.delivered ∈ t.received →
      reply.Justified cut t) : UDPServer.Refines cut s s' replies where
  agrees := by
    refine ⟨?_, waits⟩
    intro other member
    rw [sessions] at member
    rcases List.mem_append.mp member with member | member
    · exact before.sessions other member
    · rw [List.mem_singleton.mp member]
      exact fresh
  moves confirmed finished := by
    simp only [UDPServer.received, sessions, List.map_append, List.map_singleton, empty]
    exact .single (.opened _)
  replies reply member _ _ := by
    refine justified reply member _ ?_
    simp [UDPServer.received, sessions]

/-- A fresh session of the client agrees with its cut. -/
theorem UDPSession.agrees_start {conn : CONN} (client : SockAddr)
    (sessionId : conn.sessionId = cut.sessionId)
    (total : conn.nbrOfBytesToBeSent = cut.total) : (UDPSession.start conn client).Agrees cut where
  sessionId := sessionId
  total := total
  delivered := rfl
  bytesRecvd := rfl

theorem UDPServer.openSession_refines {s : UDPServer} (before : s.Agrees cut)
    (idle : s.mode = .idle) {conn : CONN} (client : SockAddr)
    (sessionId : conn.sessionId = cut.sessionId) (total : conn.nbrOfBytesToBeSent = cut.total) :
    UDPServer.Refines cut s (s.openSession conn client).1 (s.openSession conn client).2 := by
  have fresh := UDPSession.agrees_start client sessionId total
  have none_active : s.sessions = s.ended := by
    rw [UDPServer.sessions, idle]
    exact List.append_nil _
  simp only [UDPServer.openSession]
  split
  · obtain ⟨session, waiting, rcvd⟩ :=
      udpDataReceiveLoop_cases (.start conn client) s.udpClientAddress
    refine .opened before fresh rfl ?_ ?_ ?_
    · rw [UDPServer.sessions_afterUDP, session, none_active]
    · refine UDPServer.waits_afterUDP fun s' flow => ?_
      rw [flow] at session
      rw [show s' = .start conn client from session]
      exact waiting s' flow
    · intro reply member t received
      exact fresh.justified_rcvd (rcvd reply member) received
  split
  · obtain ⟨session, waiting, final⟩ :=
      udprDataReceiveLoop_cases (.start conn client) s.udprClientAddress
    refine .opened before fresh rfl ?_ ?_ ?_
    · rw [UDPServer.sessions_afterUDPR, session, none_active]
      rfl
    · refine UDPServer.waits_afterUDPR fun s' flow => ?_
      rw [flow] at session
      rw [show s' = .start conn client from session]
      exact ⟨waiting s' flow, fun notFirst => nomatch notFirst⟩
    · intro reply member t received
      rcases final reply member with silent | rcvd
      · exact silent.justified
      · exact fresh.justified_rcvd rcvd received
  · exact .quiet before rfl before.mode fun _ member => nomatch member

/-- The `CONN` a client offered carries its session and its size. -/
theorem RecvFrom.Offered.conn {r : RecvFrom} (offered : r.Offered cut) {uninit : CONN}
    (correct : (checkIfCorrectCONN r.buff uninit).1 = .SUCCESS) :
    (checkIfCorrectCONN r.buff uninit).2.sessionId = cut.sessionId ∧
      (checkIfCorrectCONN r.buff uninit).2.nbrOfBytesToBeSent = cut.total := by
  obtain ⟨sessionId, protocol, total, known, packet⟩ :=
    (checkIfCorrectCONN_success_iff _ _).mp correct
  rw [packet, checkIfCorrectCONN_initCONN uninit sessionId total known]
  have typeId := congrArg typeOf packet
  rw [store_initCONN, typeOf_cons] at typeId
  cases r with
  | failed errno => cases typeId
  | datagram src bytes =>
      cases offered with
      | conn protocol' =>
          rw [RecvFrom.buff, List.take_of_length_le (by simp [receiveBufforSize])] at packet
          have session := congrArg sessionOf packet
          have announced := congrArg totalOf packet
          rw [store_initCONN, store_initCONN, sessionOf_cons, sessionOf_cons] at session
          rw [store_initCONN, store_initCONN, totalOf_cons, totalOf_cons] at announced
          exact ⟨session.symm, announced.symm⟩
      | data i small =>
          rw [RecvFrom.buff, dataBytes_eq, receiveBufforSize, List.take_succ_cons, typeOf_cons]
            at typeId
          cases typeId

theorem UDPServer.onIdle_refines {s : UDPServer} (before : s.Agrees cut) (idle : s.mode = .idle)
    {r : RecvFrom} (offered : r.Offered cut) (uninit : ServerUninit) (conacc : SendTo) :
    UDPServer.Refines cut s (s.onIdle r uninit conacc).1 (s.onIdle r uninit conacc).2 := by
  obtain ⟨replies, returned⟩ := readDataToBuffer_cases ⟨0, 0⟩ none uninit r
  simp only [UDPServer.onIdle]
  split
  · rename_i buff success
    rcases returned _ _ success with ⟨-, rfl⟩ | impossible | impossible
    · split
      · refine .quiet before rfl before.mode ?_
        intro reply member
        cases List.mem_singleton.mp member
        exact (sendCONRJT_rejects _ _ _).confirmsNothing
      rename_i correct
      split
      · exact .quiet before rfl before.mode (by simp)
      · obtain ⟨sessionId, total⟩ := offered.conn (not_not.mp correct)
        have opened := UDPServer.openSession_refines before idle
          (readDataToBuffer ⟨0, 0⟩ none uninit r).clientAddress sessionId total
        refine ⟨opened.agrees, opened.moves, ?_⟩
        intro reply member confirmed finished
        rcases List.mem_cons.mp member with rfl | member
        · exact (sendCONACC_confirmsNothing _ _ _).justified
        · exact opened.replies reply member confirmed finished
    · cases impossible
    · cases impossible
  · split
    · refine .quiet before ?_ trivial (by simp)
      rw [UDPServer.sessions, UDPServer.sessions, idle]
      rfl
    · exact .quiet before rfl before.mode (by simp)
  · exact .quiet before rfl before.mode fun reply member => (replies reply member).confirmsNothing

/-- **Every step of the server is a step of the transfer or none**, and its replies are
true of the transfer after it. -/
theorem UDPServer.step_refines {s : UDPServer} (before : s.Agrees cut) {e : ServerEvent}
    (offered : e.Offered cut) :
    UDPServer.Refines cut s (udpServerHandler.next s e) (udpServerHandler.emit s e) := by
  obtain ⟨mode, udpClientAddress, udprClientAddress, finish, ended⟩ := s
  cases e with
  | catchInt => exact .quiet before rfl before.mode fun _ member => nomatch member
  | recvfrom r uninit conacc =>
      cases mode with
      | idle => exact UDPServer.onIdle_refines before rfl offered uninit conacc
      | finished => exact .quiet before rfl before.mode fun _ member => nomatch member
      | udp session =>
          obtain ⟨served, waits⟩ := udpDataReceivePass_served
            (before.sessions session (List.mem_append_right _ (List.mem_singleton_self _)))
            before.mode udpClientAddress offered uninit
          exact .served before rfl served (UDPServer.sessions_afterUDP _ _)
            (UDPServer.waits_afterUDP waits)
      | udpr session =>
          obtain ⟨served, waits⟩ := udprDataReceivePass_served
            (before.sessions session.toUDPSession
              (List.mem_append_right _ (List.mem_singleton_self _)))
            before.mode udprClientAddress offered uninit
          exact .served before rfl served (UDPServer.sessions_afterUDPR _ _)
            (UDPServer.waits_afterUDPR waits)

theorem UDPServer.agrees_start : UDPServer.start.Agrees cut where
  sessions _ member := nomatch member
  mode := trivial

end Server

end Ppcb
