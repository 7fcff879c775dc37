import Mathlib.Data.List.Chain
import Ppcb.Reception

/-!
# The books of a session with retransmission

Whatever arrives, the locals of `UDPR_data_receive` agree with the packets that were accepted
and with the replies that were sent (`Accounting`). Replies are read as notes: a `CONACC`, an
`ACC` with its id, or a `RCVD`. A session repeats `CONACC` for a while, then sends `ACC`s whose
ids start at 0 and rise by one at most, and then `RCVD`, exactly if the payloads come to the
declared size (`udpr_server_accounting`).
-/

set_option autoImplicit false

namespace Ppcb

open ByteOrder CString Reactive

/-! ## Notes -/

/-- A reply as far as it confirms something. -/
inductive Note where
  | conacc
  | acc (id : UInt64)
  | rcvd
deriving DecidableEq, Repr

def Reply.note (reply : Reply) : Option Note :=
  if typeOf reply.bytes = conaccId then some .conacc
  else if typeOf reply.bytes = accId then some (.acc (packageOf reply.bytes))
  else if typeOf reply.bytes = rcvdId then some .rcvd
  else none

/-- The replies as notes, in order. -/
def notes (replies : List Reply) : List Note := replies.filterMap Reply.note

section Notes

variable (origin : Origin) (address : SockAddr) (sessionId packageId : UInt64)

theorem notes_append (first second : List Reply) :
    notes (first ++ second) = notes first ++ notes second :=
  List.filterMap_append

theorem notes_singleton {reply : Reply} {note : Note} (noted : reply.note = some note) :
    notes [reply] = [note] := by
  rw [notes, List.filterMap_cons_some noted, List.filterMap_nil]

theorem notes_rejects {replies : List Reply} (rejects : ∀ reply ∈ replies, reply.Rejects) :
    notes replies = [] := by
  refine List.filterMap_eq_nil_iff.mpr fun reply member => ?_
  rcases rejects reply member with conrjt | rjt
  · rw [Reply.note, conrjt]
    rfl
  · rw [Reply.note, rjt]
    rfl

@[simp] theorem note_sendCONACC :
    (sendCONACC origin address sessionId).note = some .conacc := by
  rw [Reply.note, sendCONACC, initCONACC, store_initSession, typeOf_cons]
  rfl

@[simp] theorem note_sendACC :
    (sendACC origin address sessionId packageId).note = some (.acc packageId) := by
  rw [Reply.note, sendACC, initACC, store_initNumbered, typeOf_cons, packageOf_cons_nil]
  rfl

@[simp] theorem note_sendRCVD : (sendRCVD origin address sessionId).note = some .rcvd := by
  rw [Reply.note, sendRCVD, initRCVD, store_initSession, typeOf_cons]
  rfl

end Notes

/-! ## Ids of acknowledgements -/

/-- The ids of acknowledgements of `accepted` packets: they start at 0, never decrease, rise by
one at most, and belong to packets that were accepted. -/
structure AckIds (accepted : ℕ) (ids : List UInt64) : Prop where
  first : ∀ id ∈ ids.head?, id = 0
  rise : ids.IsChain fun id id' => id ≤ id' ∧ id'.toNat ≤ id.toNat + 1
  below : ∀ id ∈ ids, id.toNat + 1 ≤ accepted

namespace AckIds

variable {accepted : ℕ} {ids : List UInt64}

theorem nil : AckIds accepted [] := ⟨nofun, .nil, nofun⟩

theorem mono (acks : AckIds accepted ids) {more : ℕ} (le : accepted ≤ more) :
    AckIds more ids :=
  ⟨acks.first, acks.rise, fun id member => (acks.below id member).trans le⟩

/-- The next id is the last one again or the one after it. -/
theorem concat (acks : AckIds accepted ids) {id : UInt64} (below : id.toNat + 1 ≤ accepted)
    (start : ids = [] → id = 0)
    (next : ∀ last ∈ ids.getLast?, last ≤ id ∧ id.toNat ≤ last.toNat + 1) :
    AckIds accepted (ids ++ [id]) := by
  refine ⟨?_, ?_, ?_⟩
  · cases ids with
    | nil =>
        intro first head
        cases head
        exact start rfl
    | cons first rest => exact acks.first
  · refine acks.rise.append (.singleton id) ?_
    intro last isLast id' isFirst
    cases isFirst
    exact next last isLast
  · intro id' member
    rcases List.mem_append.mp member with earlier | new
    · exact acks.below id' earlier
    · rw [List.mem_singleton.mp new]
      exact below

end AckIds

/-! ## The books -/

/-- The locals agree with the packets that were accepted, and the packet that a retransmission
acknowledges is the last of them. -/
structure UDPRSession.Counts (s : UDPRSession) : Prop where
  first_iff : s.isFirstDATAPacket = true ↔ s.currPackageId = 0
  packets : s.currPackageId.toNat = s.delivered.length
  bytes : s.bytesRecvd.toNat = s.delivered.flatten.length
  repeats : s.isFirstDATAPacket = false →
    0 < s.currPackageId.toNat ∧ (s.currPackageId - 1).toNat + 1 = s.delivered.length

/-- The notes of a session that has sent no `RCVD`: `CONACC` again, and then `ACC`s, the last of
which is for the packet before the one the loop is at. -/
def UDPRSession.Posted (s : UDPRSession) (sent : List Note) : Prop :=
  ∃ (resent : ℕ) (ids : List UInt64),
    sent = List.replicate resent .conacc ++ ids.map .acc ∧ AckIds s.delivered.length ids ∧
      ids.getLast? = if s.isFirstDATAPacket = true then none else some (s.currPackageId - 1)

/-- The books of a session, at any time. `RCVD` is sent exactly if the payloads come to the
total, and it is the last reply. -/
structure Accounting (total : ℕ) (s : UDPRSession) (replies : List Reply) : Prop where
  counts : s.Counts
  posted : ∃ sent, s.Posted sent ∧ notes replies =
    sent ++ if s.delivered.flatten.length = total then [.rcvd] else []
  last : s.delivered.flatten.length = total →
    ∃ before reply, replies = before ++ [reply] ∧ reply.note = some .rcvd

namespace UDPRSession

variable {s : UDPRSession} {replies : List Reply} {total : ℕ}

theorem counts_start (conn : CONN) (client : SockAddr) : (start conn client).Counts where
  first_iff := iff_of_true rfl rfl
  packets := rfl
  bytes := rfl
  repeats := nofun

theorem posted_start (conn : CONN) (client : SockAddr) : (start conn client).Posted [] :=
  ⟨0, [], rfl, .nil, rfl⟩

/-- The counters move on by one packet. -/
theorem Counts.accept (counts : s.Counts) {payload : List UInt8}
    (small : payload.length ≤ maxAllowedPacketSize)
    (room : s.bytesRecvd.toNat + payload.length < 2 ^ 64)
    (few : (s.accept payload).delivered.length < 2 ^ 64) : (s.accept payload).Counts := by
  have length : (s.accept payload).delivered.length = s.delivered.length + 1 := by
    rw [accept_toUDPSession, UDPSession.accept_delivered, List.length_append,
      List.length_singleton]
  have packets : (s.accept payload).currPackageId.toNat = s.delivered.length + 1 := by
    rw [accept_toUDPSession, UDPSession.accept_currPackageId, UInt64.toNat_add, counts.packets]
    rw [length] at few
    exact Nat.mod_eq_of_lt few
  have before : (s.accept payload).currPackageId - 1 = s.currPackageId := by
    rw [accept_toUDPSession, UDPSession.accept_currPackageId, UInt64.add_sub_cancel]
  refine ⟨?_, ?_, ?_, ?_⟩
  · refine iff_of_false nofun fun zero => ?_
    rw [zero] at packets
    cases packets
  · rw [packets, length]
  · rw [accept_toUDPSession, UDPSession.accept_bytesRecvd, UDPSession.accept_delivered,
      UInt64.toNat_add, toNat_toUInt64_ofNat small, List.flatten_append, List.flatten_singleton,
      List.length_append, ← counts.bytes]
    exact Nat.mod_eq_of_lt room
  · intro _
    rw [before, packets, length, counts.packets]
    exact ⟨Nat.succ_pos _, rfl⟩

/-- An accepted packet is acknowledged. -/
theorem Posted.accept (counts : s.Counts) {sent : List Note} (posted : s.Posted sent)
    (payload : List UInt8) : (s.accept payload).Posted (sent ++ [.acc s.currPackageId]) := by
  obtain ⟨resent, ids, rfl, acks, last⟩ := posted
  have length : (s.accept payload).delivered.length = s.delivered.length + 1 := by
    rw [accept_toUDPSession, UDPSession.accept_delivered, List.length_append,
      List.length_singleton]
  refine ⟨resent, ids ++ [s.currPackageId], ?_, ?_, ?_⟩
  · rw [List.map_append, List.append_assoc]
    rfl
  · rw [length]
    refine (acks.mono (Nat.le_succ _)).concat (by rw [counts.packets]) ?_ ?_
    · intro none
      rw [none] at last
      cases first : s.isFirstDATAPacket with
      | true => exact counts.first_iff.mp first
      | false =>
          rw [first] at last
          cases last
    · intro id isLast
      cases first : s.isFirstDATAPacket with
      | true =>
          rw [first] at last
          rw [last] at isLast
          cases isLast
      | false =>
          rw [first] at last
          rw [last] at isLast
          cases isLast
          obtain ⟨positive, previous⟩ := counts.repeats first
          rw [UInt64.le_iff_toNat_le]
          have packets := counts.packets
          omega
  · rw [List.getLast?_concat, accept_toUDPSession, UDPSession.accept_currPackageId,
      UInt64.add_sub_cancel]
    rfl

/-- What is sent without a new packet repeats the last note, if it is one. -/
theorem Posted.again (counts : s.Counts) {sent : List Note} (posted : s.Posted sent)
    {more : List Reply} (repeats : s.Repeats more) : s.Posted (sent ++ notes more) := by
  obtain ⟨resent, ids, rfl, acks, last⟩ := posted
  rcases repeats with rejects | ⟨first, rfl⟩ | ⟨later, rfl⟩
  · rw [notes_rejects rejects, List.append_nil]
    exact ⟨resent, ids, rfl, acks, last⟩
  · rw [if_pos first] at last
    obtain rfl : ids = [] := List.getLast?_eq_none_iff.mp last
    refine ⟨resent + 1, [], ?_, acks, ?_⟩
    · rw [List.replicate_succ', List.map_nil, List.append_nil, List.append_nil,
        notes_singleton (note_sendCONACC _ _ _)]
    · rw [if_pos first]
      rfl
  · have notFirst : ¬ s.isFirstDATAPacket = true := Bool.eq_false_iff.mp later
    rw [if_neg notFirst] at last
    refine ⟨resent, ids ++ [s.currPackageId - 1], ?_, ?_, ?_⟩
    · rw [List.map_append, List.append_assoc, List.map_singleton,
        notes_singleton (note_sendACC _ _ _ _)]
    · refine acks.concat (counts.repeats later).2.le ?_ ?_
      · rintro rfl
        cases last
      · intro id isLast
        rw [last] at isLast
        cases isLast
        exact ⟨UInt64.le_refl _, Nat.le_succ _⟩
    · rw [List.getLast?_concat, if_neg notFirst]

/-- The counter of retransmissions is not in the books. -/
theorem Counts.retransmit (counts : s.Counts) (nbr : ℕ) :
    Counts { s with nbrOfRetransmits := nbr } :=
  ⟨counts.first_iff, counts.packets, counts.bytes, counts.repeats⟩

/-- The test of the loop closes the books, if the session is over. -/
theorem Posted.closes (counts : s.Counts) (posted : s.Posted (notes replies))
    (address : SockAddr) :
    Accounting s.conn.nbrOfBytesToBeSent.toNat s
      (replies ++ (udprDataReceiveLoop s address).2) := by
  have bytes := counts.bytes
  rw [udprDataReceiveLoop]
  split
  · rename_i less
    rw [UInt64.lt_iff_toNat_lt] at less
    refine ⟨counts, ⟨notes replies, posted, ?_⟩, fun full => ?_⟩
    · rw [if_neg (by omega), List.append_nil, List.append_nil]
    · omega
  split
  · rename_i full
    have total : s.delivered.flatten.length = s.conn.nbrOfBytesToBeSent.toNat := by
      rw [← bytes, full]
    refine ⟨counts, ⟨notes replies, posted, ?_⟩, fun _ => ⟨replies, _, rfl, note_sendRCVD _ _ _⟩⟩
    rw [if_pos total, notes_append, notes_singleton (note_sendRCVD _ _ _)]
  · rename_i other
    have partly : ¬ s.delivered.flatten.length = s.conn.nbrOfBytesToBeSent.toNat := by
      rw [← bytes, UInt64.toNat_inj]
      exact other
    refine ⟨counts, ⟨notes replies, posted, ?_⟩, fun full => absurd full partly⟩
    have rejects : ∀ reply ∈ [sendRJT .dataReceive address s.conn.sessionId s.currPackageId],
        reply.Rejects := by
      intro reply member
      cases List.mem_singleton.mp member
      exact sendRJT_rejects _ _ _ _
    rw [if_neg partly, notes_append, notes_rejects rejects]

/-- Open books are in order. -/
theorem Posted.accounting (counts : s.Counts) (posted : s.Posted (notes replies))
    (more : s.delivered.flatten.length < total) : Accounting total s replies := by
  refine ⟨counts, ⟨_, posted, ?_⟩, fun full => absurd full (Nat.ne_of_lt more)⟩
  rw [if_neg (Nat.ne_of_lt more), List.append_nil]

end UDPRSession

/-- Before the total the books are open. -/
theorem Accounting.isOpen {s : UDPRSession} {replies : List Reply} {total : ℕ}
    (accounting : Accounting total s replies)
    (more : s.delivered.flatten.length < total) : s.Posted (notes replies) := by
  obtain ⟨sent, posted, noted⟩ := accounting.posted
  rw [if_neg (Nat.ne_of_lt more), List.append_nil] at noted
  rwa [noted]

/-! ## Whole runs -/

/-- The books of a loop that waits or has returned, as long as there are fewer packets than
ids. -/
structure KeepsBooks (conn : CONN) (receiving : Receiving UDPRSession) (replies : List Reply) :
    Prop where
  waits : ∀ s, receiving.flow = .waiting s → s.bytesRecvd < conn.nbrOfBytesToBeSent
  books : receiving.flow.session.delivered.length < 2 ^ 64 →
    Accounting conn.nbrOfBytesToBeSent.toNat receiving.flow.session replies
  conn : receiving.flow.session.conn = conn

/-- The loop keeps the books that are open. -/
theorem keepsBooks_loop {s : UDPRSession} {replies : List Reply}
    (isOpen : s.delivered.length < 2 ^ 64 → s.Counts ∧ s.Posted (notes replies))
    (address : SockAddr) :
    KeepsBooks s.conn (udprDataReceiveLoop s address).1
      (replies ++ (udprDataReceiveLoop s address).2) := by
  obtain ⟨session, waits, -⟩ := udprDataReceiveLoop_cases s address
  refine ⟨fun s' waiting => ?_, ?_, by rw [session]⟩
  · have same : s' = s := by
      rw [waiting] at session
      exact session
    rw [same]
    exact waits s' waiting
  · rw [session]
    intro few
    obtain ⟨counts, posted⟩ := isOpen few
    exact posted.closes counts address

section Step

variable {s : UDPRSession} {replies : List Reply} {address : SockAddr}
  (keeps : KeepsBooks s.conn ⟨.waiting s, address⟩ replies)

include keeps

/-- While the loop waits its books are open. -/
theorem KeepsBooks.isOpen (few : s.delivered.length < 2 ^ 64) :
    s.Counts ∧ s.delivered.flatten.length < s.conn.nbrOfBytesToBeSent.toNat ∧
      s.Posted (notes replies) := by
  have accounting : Accounting s.conn.nbrOfBytesToBeSent.toNat s replies := keeps.books few
  have more : s.delivered.flatten.length < s.conn.nbrOfBytesToBeSent.toNat := by
    have less := keeps.waits s rfl
    rw [UInt64.lt_iff_toNat_lt] at less
    rw [← accounting.counts.bytes]
    exact less
  exact ⟨accounting.counts, more, accounting.isOpen more⟩

/-- A packet that is accepted keeps the books. -/
theorem KeepsBooks.accepts (declared : s.conn.nbrOfBytesToBeSent.toNat ≤
      2 ^ 64 - maxAllowedPacketSize) {payload : List UInt8}
    (small : payload.length ≤ maxAllowedPacketSize) (src : SockAddr) :
    KeepsBooks s.conn (udprDataReceiveLoop (s.accept payload) src).1
      (replies ++ sendACC .dataReceive src s.conn.sessionId s.currPackageId ::
        (udprDataReceiveLoop (s.accept payload) src).2) := by
  rw [List.append_cons]
  refine keepsBooks_loop (s := s.accept payload) (fun few' => ?_) src
  have few : s.delivered.length < 2 ^ 64 := by
    rw [UDPRSession.accept_toUDPSession, UDPSession.accept_delivered, List.length_append] at few'
    omega
  obtain ⟨counts, more, posted⟩ := keeps.isOpen few
  have room : s.bytesRecvd.toNat + payload.length < 2 ^ 64 := by
    have bytes := counts.bytes
    simp only [maxAllowedPacketSize] at declared small
    omega
  refine ⟨counts.accept small room few', ?_⟩
  rw [notes_append, notes_singleton (note_sendACC _ _ _ _)]
  exact posted.accept counts payload

/-- What is repeated keeps the books. -/
theorem KeepsBooks.repeats {receiving : Receiving UDPRSession} {more : List Reply} {nbr : ℕ}
    (session : receiving.flow.session = { s with nbrOfRetransmits := nbr })
    (repeats : s.Repeats more) : KeepsBooks s.conn receiving (replies ++ more) := by
  refine ⟨fun s' waiting => ?_, ?_, by rw [session]⟩
  · have same : s' = { s with nbrOfRetransmits := nbr } := by
      rw [waiting] at session
      exact session
    rw [same]
    exact keeps.waits s rfl
  · rw [session]
    intro few
    obtain ⟨counts, less, posted⟩ := keeps.isOpen few
    have again : UDPRSession.Posted { s with nbrOfRetransmits := nbr } (notes (replies ++ more)) := by
      rw [notes_append]
      exact posted.again counts repeats
    exact again.accounting (counts.retransmit nbr) less

end Step

/-- **One step keeps the books.** -/
theorem keepsBooks_next {conn : CONN}
    (declared : conn.nbrOfBytesToBeSent.toNat ≤ 2 ^ 64 - maxAllowedPacketSize)
    (receiving : Receiving UDPRSession) (replies : List Reply) (e : RecvFrom × ServerUninit)
    (keeps : KeepsBooks conn receiving replies) :
    KeepsBooks conn (udprDataReceive.next receiving e)
      (replies ++ udprDataReceive.emit receiving e) := by
  obtain ⟨flow, address⟩ := receiving
  cases flow with
  | returned s =>
      have silent : udprDataReceive.emit ⟨.returned s, address⟩ e = [] := rfl
      rw [silent, List.append_nil]
      exact keeps
  | waiting s =>
      obtain rfl : s.conn = conn := keeps.conn
      have next : udprDataReceive.next ⟨.waiting s, address⟩ e =
          (udprDataReceivePass s address e.1 e.2).1 := rfl
      have emit : udprDataReceive.emit ⟨.waiting s, address⟩ e =
          (udprDataReceivePass s address e.1 e.2).2 := rfl
      rw [next, emit]
      rcases udprDataReceivePass_repeats s address e.1 e.2 with
        ⟨src, payload, small, -, accepts⟩ | ⟨⟨nbr, session⟩, repeats⟩
      · rw [accepts]
        exact keeps.accepts declared small src
      · exact keeps.repeats session repeats

/-- **The books of a session are in order**, whatever the client and everybody else send, after
any run of the loop in which fewer than `2 ^ 64` packets were accepted. -/
theorem udpr_server_accounting (conn : CONN) (client clientAddress : SockAddr)
    (declared : conn.nbrOfBytesToBeSent.toNat ≤ 2 ^ 64 - maxAllowedPacketSize)
    (events : List (RecvFrom × ServerUninit)) :
    let start := udprDataReceiveLoop (.start conn client) clientAddress
    let s := (udprDataReceive.after start.1 events).flow.session
    s.delivered.length < 2 ^ 64 →
      Accounting conn.nbrOfBytesToBeSent.toNat s
        (start.2 ++ udprDataReceive.outputs start.1 events) := by
  intro start s few
  have posted : (UDPRSession.start conn client).Posted (notes []) :=
    UDPRSession.posted_start conn client
  have fresh : KeepsBooks conn start.1 start.2 :=
    keepsBooks_loop (fun _ => ⟨UDPRSession.counts_start conn client, posted⟩) clientAddress
  exact (Machine.history_after (keepsBooks_next declared) fresh events).books few

/-- A session of two packets, with a timeout before each of them. -/
theorem udpr_server_accounting_twoTimeouts :
    let conn : CONN := ⟨connId, 1, udprProtocol, 2⟩
    let client : SockAddr := ⟨1, 2⟩
    let events : List (RecvFrom × ServerUninit) :=
      [(.failed .EAGAIN, .zero), (.datagram client (dataBytes 1 0 [7]), .zero),
        (.failed .EAGAIN, .zero), (.datagram client (dataBytes 1 1 [8]), .zero)]
    let start := udprDataReceiveLoop (.start conn client) ⟨0, 0⟩
    Accounting 2 (udprDataReceive.after start.1 events).flow.session
        (start.2 ++ udprDataReceive.outputs start.1 events) ∧
      notes (start.2 ++ udprDataReceive.outputs start.1 events) =
        [.conacc, .acc 0, .acc 0, .acc 1, .rcvd] :=
  ⟨udpr_server_accounting ⟨connId, 1, udprProtocol, 2⟩ ⟨1, 2⟩ ⟨0, 0⟩ (by decide) _ (by decide),
    by decide⟩

end Ppcb
