import Ppcb.Lib.Extension
import Ppcb.HeaderCodec
import Ppcb.ExactAcceptance

/-!
# Bytes that were not received

A datagram shorter than a structure leaves the end of the structure as it was. A reaction that
reads the whole structure depends on the received bytes only if these decide it among all
contents of the structure that begin with them (`dataInfo_decides`, and its siblings for the
other structures).

For the idle server and for the answer to a foreign sender these are the datagrams that hold the
ids of the answer (`idleReaction_decided`, `foreignReaction_decided`).
-/

set_option autoImplicit false

namespace Ppcb

open ByteOrder CString Extension Reactive

/-! ## Structures under a datagram -/

section Contents

variable {buff : List UInt8} {ρ : Type}

/-- A structure keeps its size and begins with what was received. -/
theorem castBuffTo_extends (buff : List UInt8) {structPtr : List UInt8} {structSize : ℕ}
    (length : structPtr.length = structSize) :
    (castBuffTo structPtr structSize buff buff.length).length = structSize ∧
      buff.take structSize <+: castBuffTo structPtr structSize buff buff.length := by
  simp only [castBuffTo]
  split
  · rename_i short
    rw [List.take_length, List.take_of_length_le (Nat.le_of_lt short), List.length_append,
      List.length_drop]
    exact ⟨by omega, List.prefix_append _ _⟩
  · rw [List.length_take]
    exact ⟨by omega, List.prefix_refl _⟩

/-- Whatever has the size of the structure and begins with what was received may be in it. -/
theorem castBuffTo_of_extends {m : List UInt8} {structSize : ℕ} (length : m.length = structSize)
    (begins : buff.take structSize <+: m) : castBuffTo m structSize buff buff.length = m := by
  simp only [castBuffTo]
  split
  · rename_i short
    rw [List.take_of_length_le (Nat.le_of_lt short)] at begins
    rw [List.take_length]
    exact List.prefix_iff_eq_append.mp begins
  · apply begins.eq_of_length
    rw [List.length_take]
    omega

/-- A reaction to what a structure holds under a datagram, as a function of its bytes: all
contents of the structure give the same reaction exactly if the received bytes decide it. -/
theorem receive_decides {π : Type} {store : π → List UInt8} {structSize : ℕ} {receive : π → π}
    {fields : List UInt8 → π} (length_store : ∀ p, (store p).length = structSize)
    (stored : ∀ {m : List UInt8}, m.length = structSize → ∃ p, store p = m)
    (receives : ∀ p, receive p = fields (castBuffTo (store p) structSize buff buff.length))
    (react : π → ρ) :
    (∀ p q, react (receive p) = react (receive q)) ↔
      Decides structSize (buff.take structSize) fun m => react (fields m) := by
  constructor
  · intro same m m' length length' begins begins'
    obtain ⟨p, rfl⟩ := stored length
    obtain ⟨q, rfl⟩ := stored length'
    have equal := same p q
    rwa [receives, receives, castBuffTo_of_extends length begins,
      castBuffTo_of_extends length' begins'] at equal
  · intro decides p q
    obtain ⟨length, begins⟩ := castBuffTo_extends buff (length_store p)
    obtain ⟨length', begins'⟩ := castBuffTo_extends buff (length_store q)
    rw [receives, receives]
    exact decides length length' begins begins'

/-- The fields of a `DATA` header. -/
def headerOf (m : List UInt8) : DataInfo := ⟨typeOf m, sessionOf m, packageOf m, lengthOf m⟩

theorem ntohDataInfo_load {m : List UInt8} (length : m.length = 21) :
    ntohDataInfo (.load m) = headerOf m := by
  have read := Kind.read_dataInfo m (Nat.le_of_eq length.symm)
  rwa [castBuffTo_of_extends length (List.take_prefix 21 m)] at read

theorem ntohCONN_load {m : List UInt8} (length : m.length = 18) :
    ntohCONN (.load m) = ⟨typeOf m, sessionOf m, protocolOf m, totalOf m⟩ := by
  have read := Kind.read_conn m (Nat.le_of_eq length.symm)
  rwa [castBuffTo_of_extends length (List.take_prefix 18 m)] at read

theorem ntohSession_load {m : List UInt8} (length : m.length = 9) :
    ntohSession (.load m) = ⟨typeOf m, sessionOf m⟩ := by
  have read := Kind.read_session m (Nat.le_of_eq length.symm)
  rwa [castBuffTo_of_extends length (List.take_prefix 9 m)] at read

/-! What a structure in memory holds can be anything. -/

theorem dataInfo_stored {m : List UInt8} (length : m.length = 21) : ∃ p : DataInfo, p.store = m := by
  refine ⟨⟨typeOf m, htobe64 (sessionOf m), htobe64 (packageOf m), htobe32 (lengthOf m)⟩, ?_⟩
  have nothing : m.drop 21 = [] := List.drop_of_length_le (Nat.le_of_eq length)
  conv_rhs => rw [eq_data_of_le_length (Nat.le_of_eq length.symm), nothing]
  simp [DataInfo.store]

theorem conn_stored {m : List UInt8} (length : m.length = 18) : ∃ p : CONN, p.store = m := by
  refine ⟨⟨typeOf m, htobe64 (sessionOf m), protocolOf m, htobe64 (totalOf m)⟩, ?_⟩
  conv_rhs => rw [eq_conn_of_length length]
  simp [CONN.store]

theorem dataInfo_decides (buff : List UInt8) (react : DataInfo → ρ) :
    (∀ p q : DataInfo, react (p.receive buff) = react (q.receive buff)) ↔
      Decides 21 (buff.take 21) fun m => react (headerOf m) :=
  receive_decides DataInfo.length_store dataInfo_stored
    (fun p => ntohDataInfo_load (castBuffTo_extends buff p.length_store).1) react

theorem conn_decides (buff : List UInt8) (react : CONN → ρ) :
    (∀ p q : CONN, react (p.receive buff) = react (q.receive buff)) ↔
      Decides 18 (buff.take 18) fun m =>
        react ⟨typeOf m, sessionOf m, protocolOf m, totalOf m⟩ :=
  receive_decides CONN.length_store conn_stored
    (fun p => ntohCONN_load (castBuffTo_extends buff p.length_store).1) react

end Contents

/-! ## Which fields are decided -/

section Fields

variable {n : ℕ} {l : List UInt8}

theorem typeOf_begins {m : List UInt8} (received : 1 ≤ l.length) (begins : l <+: m) :
    typeOf m = typeOf l := by
  obtain ⟨rest, rfl⟩ := begins
  cases l with
  | nil => exact absurd received (by decide)
  | cons t l => rfl

theorem sessionOf_begins {m : List UInt8} (received : 9 ≤ l.length) (begins : l <+: m) :
    sessionOf m = sessionOf l := congrArg read64 (slice_of_begins received begins)

theorem decides_typeOf (received : 1 ≤ l.length) : Decides n l typeOf :=
  decides_of_value fun _ _ begins => typeOf_begins received begins

theorem decides_sessionOf (received : 9 ≤ l.length) : Decides n l sessionOf :=
  decides_of_value fun _ _ begins => sessionOf_begins received begins

theorem decides_packageOf (received : 17 ≤ l.length) : Decides n l packageOf :=
  (Decides.slice received).map read64

/-- A number of which a byte is missing is not decided. -/
theorem fill_word_ne (offset : ℕ) (inside : offset + 8 ≤ n) (missing : l.length < offset + 8) :
    read64 (((fill n l 0).drop offset).take 8) ≠ read64 (((fill n l 255).drop offset).take 8) := by
  have covered (b : UInt8) : offset + 8 ≤ (fill n l b).length := by
    rw [length_fill (by omega)]
    exact inside
  intro same
  apply fill_slice_ne (a := (0 : UInt8)) (b := 255) inside missing (by decide) (by decide)
  rw [← net64_read64 (length_slice (covered 0)), same, net64_read64 (length_slice (covered 255))]

end Fields

/-! ## The idle server -/

theorem sendCONRJT_injective (origin : Origin) (dest : SockAddr) :
    Function.Injective (sendCONRJT origin dest) := by
  intro s s' same
  simpa [sendCONRJT, initCONRJT] using congrArg (fun reply => sessionOf reply.bytes) same

theorem sendRJT_injective {origin : Origin} {dest : SockAddr} {s p s' p' : UInt64}
    (same : sendRJT origin dest s p = sendRJT origin dest s' p') : s = s' ∧ p = p' := by
  refine ⟨?_, ?_⟩
  · simpa [sendRJT, initRJT] using congrArg (fun reply => sessionOf reply.bytes) same
  · simpa [sendRJT, initRJT] using congrArg (fun reply => packageOf reply.bytes) same

/-- `check_if_correct_CONN` and, unless it succeeds, `send_CONRJT`. -/
def idleReaction (src : SockAddr) (uninit : CONN) (buff : List UInt8) : RetVal × List Reply :=
  let (ret, conn) := checkIfCorrectCONN buff uninit
  (ret, if ret ≠ .SUCCESS then [sendCONRJT .serverHandler src conn.sessionId] else [])

/-- What `check_if_correct_CONN` returns for these fields. -/
def connVerdict (length : ℕ) (conn : CONN) : RetVal :=
  if length ≠ sizeofCONN then .ERROR
  else if conn.packageTypeId ≠ connId then .ERROR
  else if conn.protocolId ≠ udpProtocol ∧ conn.protocolId ≠ udprProtocol then .ERROR
  else .SUCCESS

theorem checkIfCorrectCONN_eq (buff : List UInt8) (uninit : CONN) :
    checkIfCorrectCONN buff uninit =
      (connVerdict buff.length (uninit.receive buff), uninit.receive buff) := by
  simp only [checkIfCorrectCONN, connVerdict]
  split_ifs <;> rfl

/-- The idle server reads the session of its answer from the datagram if that reaches so far. -/
theorem idleReaction_decided (src : SockAddr) (buff : List UInt8) :
    (∀ p q, idleReaction src p buff = idleReaction src q buff) ↔ 9 ≤ buff.length := by
  simp only [idleReaction, checkIfCorrectCONN_eq]
  rw [conn_decides buff fun conn => (connVerdict buff.length conn,
    if connVerdict buff.length conn ≠ .SUCCESS then
      [sendCONRJT .serverHandler src conn.sessionId] else [])]
  rcases Nat.lt_or_ge buff.length 18 with short | whole
  · have rejected (conn : CONN) : connVerdict buff.length conn = .ERROR :=
      if_pos (Nat.ne_of_lt short)
    simp only [rejected, List.take_of_length_le (Nat.le_of_lt short)]
    constructor
    · intro decides
      by_contra missing
      have same := decides (length_fill (Nat.le_of_lt short) 0)
        (length_fill (Nat.le_of_lt short) 255) (begins_fill 0) (begins_fill 255)
      have sessions := sendCONRJT_injective _ _ (List.head_eq_of_cons_eq (congrArg Prod.snd same))
      exact fill_word_ne 1 (by decide) (Nat.lt_of_not_le missing) sessions
    · intro received
      exact (decides_sessionOf received).map fun sessionId =>
        (RetVal.ERROR, [sendCONRJT .serverHandler src sessionId])
  · refine iff_of_true (decides_of_length ?_) (by omega)
    rw [List.length_take]
    omega

/-! ## The answer to a foreign sender -/

/-- From one byte on the type is received, and with it all of `conn` that is used. -/
theorem answerForeign_eq (src : SockAddr) (uninit : ServerUninit) {buff : List UInt8}
    (nonempty : buff ≠ []) :
    answerForeign src uninit buff =
      if typeOf buff = connId then
        if sizeofCONN ≠ buff.length then []
        else [sendCONRJT .readDataToBuffer src (sessionOf buff)]
      else if typeOf buff = dataId then
        [sendRJT .readDataToBuffer src (uninit.dInfo.receive buff).sessionId
          (uninit.dInfo.receive buff).packageId]
      else [] := by
  have received : 1 ≤ buff.length := List.length_pos_iff.mpr nonempty
  simp only [answerForeign, uninit.conn.receive_packageTypeId received]
  by_cases whole : sizeofCONN = buff.length
  · rw [uninit.conn.receive_eq (Nat.le_of_eq whole)]
  · simp only [ne_eq, whole, not_false_eq_true, if_true]

/-- A foreign sender is answered from the datagram alone, unless it is empty or a `DATA` packet
too short to hold its id. -/
theorem foreignReaction_decided (src : SockAddr) (buff : List UInt8) :
    (∀ u v, answerForeign src u buff = answerForeign src v buff) ↔
      buff ≠ [] ∧ (typeOf buff ≠ dataId ∨ 17 ≤ buff.length) := by
  constructor
  · intro same
    have nonempty : buff ≠ [] := by
      rintro rfl
      have answered : (answerForeign src ⟨⟨4, 0, 0, 0⟩, ⟨0, 0, 0, 0⟩, ⟨0, 0, 0, 0⟩⟩ []).length = 1 :=
        rfl
      rw [same _ ServerUninit.zero] at answered
      cases answered
    refine ⟨nonempty, ?_⟩
    by_contra! short
    obtain ⟨type, missing⟩ := short
    have other : dataId ≠ connId := by decide
    have decides := (dataInfo_decides buff fun d =>
      sendRJT .readDataToBuffer src d.sessionId d.packageId).mp (by
        intro p q
        have equal := same ⟨⟨0, 0, 0, 0⟩, p, p⟩ ⟨⟨0, 0, 0, 0⟩, q, q⟩
        rw [answerForeign_eq src _ nonempty, answerForeign_eq src _ nonempty, type, if_neg other,
          if_neg other, if_pos rfl, if_pos rfl] at equal
        exact List.head_eq_of_cons_eq equal)
    rw [List.take_of_length_le (by omega)] at decides
    have fields := sendRJT_injective (decides (length_fill (by omega) 0)
      (length_fill (by omega) 255) (begins_fill 0) (begins_fill 255))
    exact fill_word_ne 9 (by decide) missing fields.2
  · rintro ⟨nonempty, decided⟩ u v
    rw [answerForeign_eq src u nonempty, answerForeign_eq src v nonempty]
    rcases decided with other | whole
    · rw [if_neg other, if_neg other]
    · rw [u.dInfo.receive_sessionId (by omega), u.dInfo.receive_packageId whole,
        v.dInfo.receive_sessionId (by omega), v.dInfo.receive_packageId whole]

end Ppcb
