import Ppcb.HeaderVerdicts

/-!
# Reactions that the received bytes decide

The connecting client takes a datagram for a `CONRJT` before it looks at its length
(`initConnection_decided`). Together with the checks of the server this gives, for each place
that copies a datagram over an uninitialised structure and reacts, the datagrams for which
nothing depends on bytes that were not received (`reactions_decided`).
-/

set_option autoImplicit false

namespace Ppcb

open ByteOrder CString Extension Reactive

/-! ## The connecting client -/

section Connecting

variable (sessionId : UInt64) {buff : List UInt8}

theorem udprClientInitConnection_rejected_iff (uninit : CONACC) :
    udprClientInitConnection sessionId uninit buff = .CONRJT_ERROR ↔
      uninit.receive buff = ⟨conrjtId, sessionId⟩ := by
  simp only [udprClientInitConnection, SessionPacket.ext_iff]
  split
  · exact iff_of_true rfl ‹_›
  · refine iff_of_false ?_ ‹_›
    split_ifs <;> decide

/-- Nine bytes fill the structure. -/
theorem initConnection_nine (nine : buff.length = 9) :
    (∀ p q, udprClientInitConnection sessionId p buff =
        udprClientInitConnection sessionId q buff) ∧
      ∀ p, udprClientInitConnection sessionId p buff = .CONRJT_ERROR ↔
        buff = (initCONRJT sessionId).store := by
  refine ⟨?_, ?_⟩
  · intro p q
    have same : p.receive buff = q.receive buff := by
      rw [SessionPacket.receive, SessionPacket.receive, sizeofCONACC,
        Kind.castBuffTo_overwrites (Nat.le_of_eq nine.symm) p.store q.store]
    simp only [udprClientInitConnection, same]
  · intro p
    rw [udprClientInitConnection_rejected_iff]
    constructor
    · intro rejected
      apply (p.received_eq_iff conrjtId).mp
      rw [rejected]
      exact ⟨rfl, rfl, nine⟩
    · rintro rfl
      exact SessionPacket.receive_init p conrjtId

/-- What the structure holds may complete a `CONRJT`, and what follows one is not seen. -/
theorem initConnection_rejected (begins : buff.take 9 <+: (initCONRJT sessionId).store) :
    udprClientInitConnection sessionId (initCONRJT sessionId) buff = .CONRJT_ERROR := by
  have size : (initCONRJT sessionId).store.length = 9 := SessionPacket.length_store _
  rw [udprClientInitConnection_rejected_iff, SessionPacket.receive, sizeofCONACC,
    castBuffTo_of_extends size begins, ntohSession_load size, initCONRJT, store_initSession,
    typeOf_cons, sessionOf_cons_nil]

theorem initConnection_not_rejected (other : ¬ buff.take 9 <+: (initCONRJT sessionId).store)
    (p : CONACC) : udprClientInitConnection sessionId p buff ≠ .CONRJT_ERROR := by
  rw [ne_eq, udprClientInitConnection_rejected_iff]
  intro rejected
  obtain ⟨length, begins⟩ := castBuffTo_extends buff p.length_store
  rw [SessionPacket.receive, ntohSession_load length] at rejected
  obtain ⟨type, session⟩ := SessionPacket.mk.inj rejected
  rw [eq_session_of_length length, type, session] at begins
  rw [initCONRJT, store_initSession] at other
  exact other begins

/-- A datagram of another length that is no `CONRJT` is an error. -/
theorem initConnection_error (length : buff.length ≠ 9) {p : CONACC}
    (notRejected : udprClientInitConnection sessionId p buff ≠ .CONRJT_ERROR) :
    udprClientInitConnection sessionId p buff = .ERROR := by
  simp only [udprClientInitConnection, sizeofCONACC, length, ne_eq, not_false_eq_true,
    if_true] at notRejected ⊢
  split at notRejected
  · exact absurd rfl notRejected
  · rename_i notCONRJT
    rw [if_neg notCONRJT]

/-- The client knows a `CONRJT` of its session by the received bytes alone, unless it receives
only the beginning of one, or one with more bytes behind it. -/
theorem initConnection_decided (buff : List UInt8) :
    ((∀ p q, udprClientInitConnection sessionId p buff =
        udprClientInitConnection sessionId q buff) ∧
      ∀ p, udprClientInitConnection sessionId p buff = .CONRJT_ERROR ↔
        buff = (initCONRJT sessionId).store) ↔
    buff.length = 9 ∨ ¬ buff.take 9 <+: (initCONRJT sessionId).store := by
  have size : (initCONRJT sessionId).store.length = 9 := SessionPacket.length_store _
  by_cases nine : buff.length = 9
  · exact iff_of_true (initConnection_nine sessionId nine) (.inl nine)
  · rw [or_iff_right nine]
    constructor
    · rintro ⟨-, rejects⟩ begins
      have whole := (rejects _).mp (initConnection_rejected sessionId begins)
      exact nine (whole ▸ size)
    · intro other
      have notRejected := initConnection_not_rejected sessionId other
      refine ⟨?_, ?_⟩
      · intro p q
        rw [initConnection_error sessionId nine (notRejected p),
          initConnection_error sessionId nine (notRejected q)]
      · intro p
        refine iff_of_false (notRejected p) ?_
        rintro rfl
        exact nine size

end Connecting

/-! ## Whole datagrams -/

/-- A datagram is read and, if `read_data_to_buffer` succeeds, handled. -/
def reactionTo {ρ : Type} (correctAddr : Option SockAddr) (src : SockAddr) (uninit : ServerUninit)
    (bytes : List UInt8) (handle : List UInt8 → ρ) : ReadData × Option ρ :=
  let read := readDataToBuffer ⟨0, 0⟩ correctAddr uninit (.datagram src bytes)
  match read.ret with
  | some (.SUCCESS, buff) => (read, some (handle buff))
  | _ => (read, none)

section Datagram

variable {correctAddr : Option SockAddr} {src : SockAddr} {bytes : List UInt8}

theorem reactionTo_own {ρ : Type} (own : correctAddr.getD src = src) (uninit : ServerUninit)
    (handle : List UInt8 → ρ) :
    reactionTo correctAddr src uninit bytes handle =
      if bytes.take receiveBufforSize = [] then (⟨src, [], some (.ERROR, [])⟩, none)
      else (⟨src, [], some (.SUCCESS, bytes.take receiveBufforSize)⟩,
        some (handle (bytes.take receiveBufforSize))) := by
  simp only [reactionTo, readDataToBuffer, own, ne_eq, not_true_eq_false, or_self, if_false,
    List.length_eq_zero_iff]
  by_cases empty : bytes.take receiveBufforSize = []
  · simp only [empty, if_true]
  · simp only [empty, if_false]

/-- An empty datagram is an error before any structure is used. -/
theorem reactionTo_own_iff {ρ π : Type} (own : correctAddr.getD src = src)
    {contents : ServerUninit → π} (any : ∀ p, ∃ uninit, contents uninit = p)
    (handle : π → List UInt8 → ρ) :
    (∀ u v, reactionTo correctAddr src u bytes (handle (contents u)) =
        reactionTo correctAddr src v bytes (handle (contents v))) ↔
      bytes.take receiveBufforSize = [] ∨
        ∀ p q, handle p (bytes.take receiveBufforSize) =
          handle q (bytes.take receiveBufforSize) := by
  simp only [reactionTo_own own]
  by_cases empty : bytes.take receiveBufforSize = []
  · simp only [empty, if_true, true_or, implies_true]
  · simp only [empty, if_false, false_or, Prod.mk.injEq, true_and, Option.some.injEq]
    constructor
    · intro same p q
      obtain ⟨u, rfl⟩ := any p
      obtain ⟨v, rfl⟩ := any q
      exact same u v
    · exact fun same u v => same _ _

/-- What holds of every datagram as long as a header does not notice where it was cut. -/
theorem cut_iff {P : List UInt8 → Prop} (long : ∀ l : List UInt8, 21 ≤ l.length → P l) {n : ℕ}
    (room : 21 ≤ n) : P (bytes.take n) ↔ P bytes := by
  rcases Nat.lt_or_ge bytes.length 21 with short | whole
  · rw [List.take_of_length_le (by omega)]
  · refine iff_of_true (long _ ?_) (long _ whole)
    rw [List.length_take]
    omega

end Datagram

theorem or_iff_or_of_not {p q r : Prop} (same : ¬ p → (q ↔ r)) : p ∨ q ↔ p ∨ r := by
  by_cases holds : p
  · exact iff_of_true (.inl holds) (.inl holds)
  · rw [or_iff_right holds, or_iff_right holds, same holds]

/-- **When nothing depends on bytes that were not received.** For the idle server, the answer to
a foreign sender, the checks of the two receive loops and the connecting client: the datagrams
to which the reaction is the same for all contents of the structures they are copied into. Of
the client they are those for which `CONRJT_ERROR` means a `CONRJT` of its session. -/
theorem reactions_decided (client : SockAddr) (conn : CONN) (currPackageId sessionId : UInt64)
    (isFirst : Bool) :
    (∀ src bytes,
      (∀ u v, reactionTo none src u bytes (idleReaction src u.conn) =
        reactionTo none src v bytes (idleReaction src v.conn)) ↔
      bytes = [] ∨ 9 ≤ bytes.length) ∧
    (∀ src bytes, src ≠ client →
      ((∀ u v, readDataToBuffer ⟨0, 0⟩ (some client) u (.datagram src bytes) =
        readDataToBuffer ⟨0, 0⟩ (some client) v (.datagram src bytes)) ↔
      bytes ≠ [] ∧ (typeOf bytes ≠ dataId ∨ 17 ≤ bytes.length))) ∧
    (∀ bytes,
      (∀ u v, reactionTo (some client) client u bytes
          (udpReaction client conn currPackageId u.dataInfo) =
        reactionTo (some client) client v bytes
          (udpReaction client conn currPackageId v.dataInfo)) ↔
      bytes = [] ∨ UDPDecided conn.sessionId currPackageId bytes) ∧
    (∀ bytes,
      (∀ u v, reactionTo (some client) client u bytes
          (udprReaction client conn currPackageId isFirst u.dataInfo) =
        reactionTo (some client) client v bytes
          (udprReaction client conn currPackageId isFirst v.dataInfo)) ↔
      bytes = [] ∨ ¬ UDPRUndecided conn.sessionId currPackageId bytes) ∧
    ∀ bytes, bytes ≠ [] →
      (((∀ p q, udprClientInitConnection sessionId p (bytes.take responseBuffSize) =
          udprClientInitConnection sessionId q (bytes.take responseBuffSize)) ∧
        ∀ p, udprClientInitConnection sessionId p (bytes.take responseBuffSize) =
          .CONRJT_ERROR ↔ bytes = (initCONRJT sessionId).store) ↔
      bytes.length = 9 ∨ ¬ bytes.take 9 <+: (initCONRJT sessionId).store) := by
  have room : 21 ≤ receiveBufforSize := by decide
  have undecided_short {l : List UInt8} (undecided : UDPRUndecided conn.sessionId currPackageId l) :
      l.length < 21 := by
    rcases undecided with ⟨short, -⟩ | ⟨⟨-, short⟩, -⟩ | ⟨⟨-, short⟩, -⟩ <;> omega
  refine ⟨?_, ?_, ?_, ?_, ?_⟩
  · intro src bytes
    rw [reactionTo_own_iff rfl (fun p => ⟨⟨p, ⟨0, 0, 0, 0⟩, ⟨0, 0, 0, 0⟩⟩, rfl⟩) (idleReaction src),
      idleReaction_decided src]
    apply cut_iff (P := fun l => l = [] ∨ 9 ≤ l.length) _ room
    exact fun l long => .inr (by omega)
  · intro src bytes foreign
    have read (u : ServerUninit) : readDataToBuffer ⟨0, 0⟩ (some client) u (.datagram src bytes) =
        ⟨src, answerForeign src u (bytes.take receiveBufforSize), none⟩ :=
      if_pos (SockAddr.ne_iff.mp foreign)
    simp only [read, ReadData.mk.injEq, true_and, and_true]
    rw [foreignReaction_decided src]
    apply cut_iff (P := fun l => l ≠ [] ∧ (typeOf l ≠ dataId ∨ 17 ≤ l.length)) _ room
    exact fun l long => ⟨List.length_pos_iff.mp (by omega), .inr (by omega)⟩
  · intro bytes
    rw [reactionTo_own_iff rfl (fun p => ⟨⟨⟨0, 0, 0, 0⟩, ⟨0, 0, 0, 0⟩, p⟩, rfl⟩)
      (udpReaction client conn currPackageId), udpReaction_decided client conn currPackageId]
    apply cut_iff (P := fun l => l = [] ∨ UDPDecided conn.sessionId currPackageId l) _ room
    exact fun l long => .inr ⟨by omega, fun short => by omega⟩
  · intro bytes
    rw [reactionTo_own_iff rfl (fun p => ⟨⟨⟨0, 0, 0, 0⟩, ⟨0, 0, 0, 0⟩, p⟩, rfl⟩)
        (udprReaction client conn currPackageId isFirst),
      or_iff_or_of_not (udprReaction_decided client conn currPackageId isFirst)]
    apply cut_iff (P := fun l => l = [] ∨ ¬ UDPRUndecided conn.sessionId currPackageId l) _ room
    exact fun l long => .inr fun undecided => by
      have := undecided_short undecided
      omega
  · intro bytes _
    have short : (initCONRJT sessionId).store.length < responseBuffSize := by
      rw [SessionPacket.length_store]
      decide
    have decided := initConnection_decided sessionId (bytes.take responseBuffSize)
    simp only [take_eq_iff short, List.take_take] at decided
    have nine : (bytes.take responseBuffSize).length = 9 ↔ bytes.length = 9 := by
      rw [List.length_take]
      simp only [responseBuffSize]
      omega
    rw [nine] at decided
    exact decided

/-- A datagram of one byte makes the idle server send a session id it never received. -/
theorem reactions_undecided_oneByte :
    ¬ ∀ (src : SockAddr) (bytes : List UInt8) (u v : ServerUninit),
      reactionTo none src u bytes (idleReaction src u.conn) =
        reactionTo none src v bytes (idleReaction src v.conn) := by
  intro same
  exact absurd (same ⟨3, 3⟩ [1] ⟨⟨0, 0, 0, 0⟩, ⟨0, 0, 0, 0⟩, ⟨0, 0, 0, 0⟩⟩
    ⟨⟨0, 1, 0, 0⟩, ⟨0, 0, 0, 0⟩, ⟨0, 0, 0, 0⟩⟩) (by decide)

end Ppcb
