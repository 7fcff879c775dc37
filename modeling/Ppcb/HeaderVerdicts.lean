import Ppcb.UnreceivedBytes

/-!
# What the receive loops make of a header that is not whole

`check_if_correct_DATA_packet` reads all fields of the header, also those a short datagram does
not reach. The loop without retransmission answers every packet it rejects with the id of the
packet, so only a header without its size can be decided (`udpReaction_decided`). The loop with
retransmission answers some with ids of its own and some not at all
(`udprReaction_decided`).
-/

set_option autoImplicit false

namespace Ppcb

open ByteOrder CString Extension Reactive

/-! ## The checks of the receive loops -/

/-- What `check_if_correct_DATA_packet` returns for these fields. -/
def dataVerdict (length : ℕ) (sessionId currPackageId : UInt64) (dInfo : DataInfo) : RetVal :=
  if dInfo.packageTypeId ≠ dataId then .WRONG_PACKAGE_TYPE_ID
  else if dInfo.sessionId ≠ sessionId then .WRONG_SESSION_ID
  else if dInfo.packageId ≠ currPackageId then .WRONG_PACKAGE_ID
  else if dInfo.nbrOfBytesInPacket.toNat > maxAllowedPacketSize then .ERROR
  else if length ≠ sizeofDataInfo + dInfo.nbrOfBytesInPacket.toNat then .WRONG_PACKAGE_SIZE
  else .SUCCESS

theorem checkIfCorrectDATAPacket_eq (buff : List UInt8) (conn : CONN) (dInfo : DataInfo)
    (currPackageId : UInt64) :
    checkIfCorrectDATAPacket buff conn dInfo currPackageId =
      (dataVerdict buff.length conn.sessionId currPackageId (dInfo.receive buff),
        dInfo.receive buff) := by
  simp only [checkIfCorrectDATAPacket, dataVerdict]
  split_ifs <;> rfl

/-- The check of `UDP_data_receive` and its `RJT`. -/
def udpReaction (client : SockAddr) (conn : CONN) (currPackageId : UInt64) (dataInfo : DataInfo)
    (buff : List UInt8) : RetVal × List Reply :=
  let (ret, dataInfo) := checkIfCorrectDATAPacket buff conn dataInfo currPackageId
  (ret, if ret ≠ .SUCCESS then
    [sendRJT .dataReceive client conn.sessionId dataInfo.packageId] else [])

/-- The check of `UDPR_data_receive` and `handle_ret_val`. -/
def udprReaction (client : SockAddr) (conn : CONN) (currPackageId : UInt64)
    (isFirstDATAPacket : Bool) (dataInfo : DataInfo) (buff : List UInt8) :
    RetVal × RetVal × List Reply :=
  let (ret, dataInfo) := checkIfCorrectDATAPacket buff conn dataInfo currPackageId
  (ret, handleRetVal ret client buff.length currPackageId dataInfo conn.sessionId
    isFirstDATAPacket)

/-- The header the loop is at, announcing as many bytes as are allowed. -/
def fullHeader (sessionId currPackageId : UInt64) : List UInt8 :=
  (dataHeader sessionId currPackageId 64000).store

section Header

variable (sessionId currPackageId : UInt64) (n : UInt32)

theorem dataHeader_split : (dataHeader sessionId currPackageId n).store =
    (dataId :: (net64 sessionId ++ net64 currPackageId)) ++ net32 n := by
  rw [store_dataHeader, List.cons_append, List.append_assoc]

theorem headerOf_dataHeader : headerOf (dataHeader sessionId currPackageId n).store =
    ⟨dataId, sessionId, currPackageId, n⟩ := by
  have size : lengthOf (dataHeader sessionId currPackageId n).store = n := by
    rw [store_dataHeader]
    simpa using lengthOf_cons dataId sessionId currPackageId n []
  rw [headerOf, size, store_dataHeader, typeOf_cons, sessionOf_cons, packageOf_cons]

variable {sessionId currPackageId} {buff m m' : List UInt8}

theorem eq_dataHeader (length : m.length = 21) (type : typeOf m = dataId) :
    m = (dataHeader (sessionOf m) (packageOf m) (lengthOf m)).store := by
  have nothing : m.drop 21 = [] := List.drop_of_length_le (Nat.le_of_eq length)
  conv_lhs => rw [eq_data_of_le_length (Nat.le_of_eq length.symm), nothing, type]
  rw [store_dataHeader, List.append_nil]

/-- Up to its last byte the full header could also announce more than is allowed. -/
theorem begins_tooLarge (short : buff.length < 21)
    (begins : buff <+: fullHeader sessionId currPackageId) :
    buff <+: (dataHeader sessionId currPackageId 64001).store := by
  have allowed : net32 64000 = [0, 0, 250] ++ [0] := by decide
  have tooLarge : net32 64001 = [0, 0, 250] ++ [1] := by decide
  rw [fullHeader, dataHeader_split, allowed, ← List.append_assoc] at begins
  rw [dataHeader_split, tooLarge, ← List.append_assoc]
  apply begins_exchange begins
  simp
  omega

/-- Bytes that leave open whether the size is allowed begin the full header. -/
theorem begins_fullHeader {n n' : UInt32} (received : 17 ≤ buff.length) (short : buff.length ≤ 21)
    (allowed : n.toNat ≤ maxAllowedPacketSize) (tooLarge : maxAllowedPacketSize < n'.toNat)
    (begins : buff <+: (dataHeader sessionId currPackageId n).store)
    (begins' : buff <+: (dataHeader sessionId currPackageId n').store) :
    buff <+: fullHeader sessionId currPackageId := by
  have cut (x : UInt32) (begins : buff <+: (dataHeader sessionId currPackageId x).store) :
      buff = (dataId :: (net64 sessionId ++ net64 currPackageId)) ++
        (net32 x).take (buff.length - 17) := by
    have front : (dataId :: (net64 sessionId ++ net64 currPackageId)).length = 17 := by simp
    have whole := List.prefix_iff_eq_take.mp begins
    rw [dataHeader_split, List.take_append, front, List.take_of_length_le (by omega)] at whole
    exact whole
  have alike := List.append_cancel_left ((cut n begins).symm.trans (cut n' begins'))
  have full : (net32 64000).take (buff.length - 17) = (net32 n).take (buff.length - 17) :=
    take_beBytes_between (by omega) n'.toNat_lt allowed (Nat.le_of_lt tooLarge) alike
  rw [cut n begins, ← full, fullHeader, dataHeader_split, List.prefix_append_right_inj]
  exact List.take_prefix _ _

end Header

section Verdict

variable {length : ℕ} {sessionId currPackageId : UInt64} {dInfo : DataInfo}

theorem dataVerdict_short (short : length < 21) :
    dataVerdict length sessionId currPackageId dInfo ≠ .SUCCESS := by
  have size : length ≠ sizeofDataInfo + dInfo.nbrOfBytesInPacket.toNat := by
    simp only [sizeofDataInfo]
    omega
  simp only [dataVerdict, if_pos size]
  split_ifs <;> decide

/-- Only the size is left to be judged. -/
theorem dataVerdict_size (dInfo : DataInfo) (short : length < 21) (type : dInfo.packageTypeId = dataId)
    (session : dInfo.sessionId = sessionId) (package : dInfo.packageId = currPackageId) :
    dataVerdict length sessionId currPackageId dInfo =
      if dInfo.nbrOfBytesInPacket.toNat > maxAllowedPacketSize then .ERROR
      else .WRONG_PACKAGE_SIZE := by
  have size : length ≠ sizeofDataInfo + dInfo.nbrOfBytesInPacket.toNat := by
    simp only [sizeofDataInfo]
    omega
  simp only [dataVerdict, type, session, package, ne_eq, not_true_eq_false, if_false, size,
    not_false_eq_true, if_true]

end Verdict

/-- The full header and the next one are judged differently. -/
theorem fullHeader_verdict_ne {length : ℕ} {sessionId currPackageId : UInt64}
    (short : length < 21) :
    dataVerdict length sessionId currPackageId (headerOf (fullHeader sessionId currPackageId)) ≠
      dataVerdict length sessionId currPackageId
        (headerOf (dataHeader sessionId currPackageId 64001).store) := by
  have allowed : ¬ (64000 : UInt32).toNat > maxAllowedPacketSize := by decide
  have tooLarge : (64001 : UInt32).toNat > maxAllowedPacketSize := by decide
  rw [fullHeader, headerOf_dataHeader, headerOf_dataHeader,
    dataVerdict_size ⟨dataId, sessionId, currPackageId, 64000⟩ short rfl rfl rfl, if_neg allowed,
    dataVerdict_size ⟨dataId, sessionId, currPackageId, 64001⟩ short rfl rfl rfl, if_pos tooLarge]
  decide

/-- Of a header that lacks part of the size, everything but the verdict on the size is decided;
that is decided unless the full header begins so. -/
theorem verdict_decided {sessionId currPackageId : UInt64} {buff : List UInt8}
    (received : 17 ≤ buff.length) (short : buff.length < 21)
    (decided : ¬ buff <+: fullHeader sessionId currPackageId) :
    Decides 21 buff fun m => dataVerdict buff.length sessionId currPackageId (headerOf m) := by
  intro m m' length length' begins begins'
  have type : typeOf m = typeOf m' := decides_typeOf (by omega) length length' begins begins'
  have session : sessionOf m = sessionOf m' :=
    decides_sessionOf (by omega) length length' begins begins'
  have package : packageOf m = packageOf m' :=
    decides_packageOf received length length' begins begins'
  by_cases expected : typeOf m = dataId ∧ sessionOf m = sessionId ∧ packageOf m = currPackageId
  · obtain ⟨isDATA, rfl, rfl⟩ := expected
    have header := eq_dataHeader length isDATA
    have header' := eq_dataHeader length' (type ▸ isDATA)
    rw [← session, ← package] at header'
    -- A size that is allowed and one that is not cannot begin alike here.
    have sizes : (lengthOf m).toNat > maxAllowedPacketSize ↔
        (lengthOf m').toNat > maxAllowedPacketSize := by
      constructor
      · intro tooLarge
        by_contra allowed
        exact decided (begins_fullHeader received (Nat.le_of_lt short) (Nat.le_of_not_lt allowed)
          tooLarge (header' ▸ begins') (header ▸ begins))
      · intro tooLarge
        by_contra allowed
        exact decided (begins_fullHeader received (Nat.le_of_lt short) (Nat.le_of_not_lt allowed)
          tooLarge (header ▸ begins) (header' ▸ begins'))
    have verdict := dataVerdict_size (headerOf m) short isDATA rfl rfl
    have verdict' := dataVerdict_size (headerOf m') short (type.symm.trans isDATA) session.symm
      package.symm
    exact verdict.trans ((if_congr sizes rfl rfl).trans verdict'.symm)
  · simp only [dataVerdict, headerOf, ← type, ← session, ← package]
    by_cases isDATA : typeOf m = dataId
    · by_cases own : sessionOf m = sessionId
      · have other : packageOf m ≠ currPackageId := fun same => expected ⟨isDATA, own, same⟩
        simp only [ne_eq, other, not_false_eq_true, if_true]
      · simp only [ne_eq, own, not_false_eq_true, if_true]
    · simp only [ne_eq, isDATA, not_false_eq_true, if_true]

/-- The datagrams for which the check of `UDP_data_receive` and its `RJT` are decided. -/
def UDPDecided (sessionId currPackageId : UInt64) (buff : List UInt8) : Prop :=
  17 ≤ buff.length ∧ ¬ (buff.length < 21 ∧ buff <+: fullHeader sessionId currPackageId)

theorem udpReaction_decided (client : SockAddr) (conn : CONN) (currPackageId : UInt64)
    (buff : List UInt8) :
    (∀ p q, udpReaction client conn currPackageId p buff =
        udpReaction client conn currPackageId q buff) ↔
      UDPDecided conn.sessionId currPackageId buff := by
  simp only [udpReaction, checkIfCorrectDATAPacket_eq]
  rw [dataInfo_decides buff fun d => (dataVerdict buff.length conn.sessionId currPackageId d,
    if dataVerdict buff.length conn.sessionId currPackageId d ≠ .SUCCESS then
      [sendRJT .dataReceive client conn.sessionId d.packageId] else [])]
  rcases Nat.lt_or_ge buff.length 21 with short | whole
  · have rejected (d : DataInfo) :
        dataVerdict buff.length conn.sessionId currPackageId d ≠ .SUCCESS :=
      dataVerdict_short short
    simp only [if_pos (rejected _), List.take_of_length_le (Nat.le_of_lt short)]
    constructor
    · intro decides
      refine ⟨?_, ?_⟩
      · by_contra missing
        have same := congrArg Prod.snd (decides (length_fill (Nat.le_of_lt short) 0)
          (length_fill (Nat.le_of_lt short) 255) (begins_fill 0) (begins_fill 255))
        exact fill_word_ne 9 (by decide) (Nat.lt_of_not_le missing)
          (sendRJT_injective (List.head_eq_of_cons_eq same)).2
      · rintro ⟨-, begins⟩
        have length (n : UInt32) :
            (dataHeader conn.sessionId currPackageId n).store.length = 21 :=
          DataInfo.length_store _
        have same := decides (length 64000) (length 64001) begins (begins_tooLarge short begins)
        exact fullHeader_verdict_ne short (Prod.mk.inj same).1
    · rintro ⟨received, decided⟩ m m' length length' begins begins'
      have verdicts := verdict_decided received short (fun begins => decided ⟨short, begins⟩)
        length length' begins begins'
      have package : packageOf m = packageOf m' :=
        decides_packageOf received length length' begins begins'
      exact Prod.ext verdicts
        (congrArg (fun id => [sendRJT .dataReceive client conn.sessionId id]) package)
  · refine iff_of_true (decides_of_length ?_) ⟨by omega, fun short => by omega⟩
    rw [List.length_take]
    omega

/-- The datagrams for which the check of `UDPR_data_receive` is not decided: the missing bytes
could complete the session, or a package id that is not behind the loop, or a size that is
allowed as well as one that is not. -/
def UDPRUndecided (sessionId currPackageId : UInt64) (buff : List UInt8) : Prop :=
  (buff.length < 9 ∧ buff <+: fullHeader sessionId currPackageId) ∨
  ((9 ≤ buff.length ∧ buff.length < 17) ∧ typeOf buff = dataId ∧ sessionOf buff = sessionId ∧
    currPackageId ≤ packageOf (fill 21 buff 255)) ∨
  ((17 ≤ buff.length ∧ buff.length < 21) ∧ buff <+: fullHeader sessionId currPackageId)

section UDPR

variable (client : SockAddr) (isFirst : Bool) {length : ℕ} {sessionId currPackageId : UInt64}
  {buff : List UInt8}

/-- The verdict on a header and what the loop with retransmission makes of it. -/
def udprVerdict (client : SockAddr) (isFirst : Bool) (length : ℕ) (sessionId currPackageId : UInt64)
    (d : DataInfo) : RetVal × RetVal × List Reply :=
  (dataVerdict length sessionId currPackageId d,
    handleRetVal (dataVerdict length sessionId currPackageId d) client length currPackageId d
      sessionId isFirst)

theorem udprVerdict_otherType {d : DataInfo} (type : d.packageTypeId ≠ dataId) :
    udprVerdict client isFirst length sessionId currPackageId d =
      (.WRONG_PACKAGE_TYPE_ID, handleRetVal .WRONG_PACKAGE_TYPE_ID client length currPackageId
        ⟨d.packageTypeId, 0, 0, 0⟩ sessionId isFirst) := by
  have verdict : dataVerdict length sessionId currPackageId d = .WRONG_PACKAGE_TYPE_ID :=
    if_pos type
  rw [udprVerdict, verdict]
  rfl

theorem udprVerdict_otherSession {d : DataInfo} (type : d.packageTypeId = dataId)
    (session : d.sessionId ≠ sessionId) :
    udprVerdict client isFirst length sessionId currPackageId d =
      (.WRONG_SESSION_ID, .ERROR, [sendRJT .dataReceive client sessionId currPackageId]) := by
  have verdict : dataVerdict length sessionId currPackageId d = .WRONG_SESSION_ID := by
    simp only [dataVerdict, type, ne_eq, not_true_eq_false, if_false, session, not_false_eq_true,
      if_true]
  rw [udprVerdict, verdict]
  rfl

theorem udprVerdict_otherPackage {d : DataInfo} (short : length < 21)
    (type : d.packageTypeId = dataId) (session : d.sessionId = sessionId)
    (package : d.packageId ≠ currPackageId) :
    udprVerdict client isFirst length sessionId currPackageId d =
      (.WRONG_PACKAGE_ID, .ERROR, if d.packageId < currPackageId then [] else
        [sendRJT .dataReceive client sessionId d.packageId]) := by
  have verdict : dataVerdict length sessionId currPackageId d = .WRONG_PACKAGE_ID := by
    simp only [dataVerdict, type, session, package, ne_eq, not_true_eq_false, if_false,
      not_false_eq_true, if_true]
  have size : length ≠ sizeofDataInfo + d.nbrOfBytesInPacket.toNat := by
    simp only [sizeofDataInfo]
    omega
  rw [udprVerdict, verdict]
  simp only [handleRetVal, if_pos size]
  split <;> rfl

theorem udprVerdict_expected {d : DataInfo} (short : length < 21)
    (type : d.packageTypeId = dataId) (session : d.sessionId = sessionId)
    (package : d.packageId = currPackageId) :
    udprVerdict client isFirst length sessionId currPackageId d =
      (dataVerdict length sessionId currPackageId d, .ERROR,
        [sendRJT .dataReceive client sessionId currPackageId]) := by
  have verdict := dataVerdict_size d short type session package
  rw [udprVerdict, verdict]
  split <;> rw [handleRetVal, package] <;> exact RetVal.noConfusion

/-- The verdict tells whether the package id is the expected one. -/
theorem udprVerdict_package_iff {d : DataInfo} (short : length < 21)
    (type : d.packageTypeId = dataId) (session : d.sessionId = sessionId) :
    (udprVerdict client isFirst length sessionId currPackageId d).1 = .WRONG_PACKAGE_ID ↔
      d.packageId ≠ currPackageId := by
  by_cases package : d.packageId = currPackageId
  · rw [udprVerdict_expected client isFirst short type session package,
      dataVerdict_size d short type session package]
    refine iff_of_false ?_ (not_not.mpr package)
    split <;> exact RetVal.noConfusion
  · rw [udprVerdict_otherPackage client isFirst short type session package]
    exact iff_of_true rfl package

/-- The session of a header is expected only if the bytes received of it are. -/
theorem session_of_begins {m : List UInt8} (short : buff.length ≤ 9) (length : m.length = 21)
    (begins : buff <+: m) (type : typeOf m = dataId) (session : sessionOf m = sessionId) :
    buff <+: fullHeader sessionId currPackageId := by
  rw [eq_dataHeader length type, session, store_dataHeader, ← List.cons_append] at begins
  rw [fullHeader, store_dataHeader, ← List.cons_append]
  apply begins_exchange begins
  simpa using short

/-- No package id that the missing bytes can complete is greater than the one with the greatest
bytes. -/
theorem packageOf_le_fill {m : List UInt8} (received : 9 ≤ buff.length) (short : buff.length ≤ 17)
    (length : m.length = 21) (begins : buff <+: m) :
    packageOf m ≤ packageOf (fill 21 buff 255) := by
  obtain ⟨rest, rfl⟩ := begins
  rw [List.length_append] at length
  have word : ((buff ++ rest).drop 9).take 8 = buff.drop 9 ++ rest.take (17 - buff.length) := by
    rw [List.drop_append_of_le_length received, List.take_append, List.length_drop,
      List.take_of_length_le (by rw [List.length_drop]; omega)]
    congr 2
    omega
  have filled : ((fill 21 buff 255).drop 9).take 8 =
      buff.drop 9 ++ List.replicate (rest.take (17 - buff.length)).length 255 := by
    rw [fill, List.drop_append_of_le_length received, List.take_append, List.length_drop,
      List.take_of_length_le (by rw [List.length_drop]; omega), List.take_replicate,
      List.length_take]
    congr 2
    omega
  have bound (l : List UInt8) (eight : l.length = 8) : beNat l < 2 ^ 64 := by
    simpa [eight] using beNat_lt l
  rw [packageOf, packageOf, UInt64.le_iff_toNat_le, read64, read64, UInt64.toNat_ofNat_of_lt',
    UInt64.toNat_ofNat_of_lt', word, filled]
  · exact beNat_le_fill _ _
  · apply bound
    rw [filled, List.length_append, List.length_drop, List.length_replicate, List.length_take]
    omega
  · apply bound
    rw [word, List.length_append, List.length_drop, List.length_take]
    omega

end UDPR

/-- The check of the loop with retransmission, before it is known what is received. -/
theorem udprReaction_eq (client : SockAddr) (conn : CONN) (currPackageId : UInt64) (isFirst : Bool)
    (p : DataInfo) (buff : List UInt8) :
    udprReaction client conn currPackageId isFirst p buff =
      udprVerdict client isFirst buff.length conn.sessionId currPackageId (p.receive buff) := by
  rw [udprReaction, checkIfCorrectDATAPacket_eq]
  rfl

section UDPRDecided

variable (client : SockAddr) (isFirst : Bool) {sessionId currPackageId : UInt64}
  {buff : List UInt8}

/-! The verdict is decided by the type, if it is another one, -/

theorem decided_otherType (one : 1 ≤ buff.length) (other : typeOf buff ≠ dataId) :
    Decides 21 buff fun m =>
      udprVerdict client isFirst buff.length sessionId currPackageId (headerOf m) := by
  refine decides_of_value (a := (.WRONG_PACKAGE_TYPE_ID, handleRetVal .WRONG_PACKAGE_TYPE_ID
    client buff.length currPackageId ⟨typeOf buff, 0, 0, 0⟩ sessionId isFirst)) ?_
  intro m _ begins
  have type : typeOf m = typeOf buff := typeOf_begins one begins
  rw [udprVerdict_otherType client isFirst (type ▸ other : typeOf m ≠ dataId)]
  simp only [headerOf, type]

section Data

variable (isDATA : typeOf buff = dataId)

include isDATA

/-! by the session, if it is or must become another one, -/

theorem decided_noSession (one : 1 ≤ buff.length) (noSession : buff.length < 9)
    (other : ¬ buff <+: fullHeader sessionId currPackageId) :
    Decides 21 buff fun m =>
      udprVerdict client isFirst buff.length sessionId currPackageId (headerOf m) := by
  apply decides_of_value
  intro m length begins
  have type : typeOf m = dataId := (typeOf_begins one begins).trans isDATA
  apply udprVerdict_otherSession client isFirst type
  intro session
  exact other (session_of_begins (Nat.le_of_lt noSession) length begins type session)

theorem decided_otherSession (hasSession : 9 ≤ buff.length) (other : sessionOf buff ≠ sessionId) :
    Decides 21 buff fun m =>
      udprVerdict client isFirst buff.length sessionId currPackageId (headerOf m) := by
  apply decides_of_value
  intro m _ begins
  have type : typeOf m = dataId := (typeOf_begins (by omega) begins).trans isDATA
  have same : sessionOf m = sessionOf buff := sessionOf_begins hasSession begins
  exact udprVerdict_otherSession client isFirst type fun session => other (same ▸ session)

/-! and in the own session by the package id. -/

variable (own : sessionOf buff = sessionId)

include own

theorem header_of_begins (hasSession : 9 ≤ buff.length) {m : List UInt8} (begins : buff <+: m) :
    (headerOf m).packageTypeId = dataId ∧ (headerOf m).sessionId = sessionId :=
  ⟨(typeOf_begins (by omega) begins).trans isDATA,
    (sessionOf_begins hasSession begins).trans own⟩

/-- Every package id that is still possible is behind the loop. -/
theorem decided_behind (hasSession : 9 ≤ buff.length) (noPackage : buff.length < 17)
    (behind : packageOf (fill 21 buff 255) < currPackageId) :
    Decides 21 buff fun m =>
      udprVerdict client isFirst buff.length sessionId currPackageId (headerOf m) := by
  have short : buff.length < 21 := Nat.lt_of_lt_of_le noPackage (by decide)
  apply decides_of_value
  intro m length begins
  obtain ⟨type, session⟩ := header_of_begins isDATA own hasSession begins
  have old : packageOf m < currPackageId := UInt64.lt_of_le_of_lt
    (packageOf_le_fill hasSession (Nat.le_of_lt noPackage) length begins) behind
  rw [udprVerdict_otherPackage client isFirst short type session (UInt64.ne_of_lt old)]
  exact congrArg (fun replies => (RetVal.WRONG_PACKAGE_ID, RetVal.ERROR, replies))
    (if_pos old)

/-- The package id is there, and so is what matters of the size. -/
theorem decided_hasPackage (hasPackage : 17 ≤ buff.length) (short : buff.length < 21)
    (size : ¬ buff <+: fullHeader sessionId currPackageId) :
    Decides 21 buff fun m =>
      udprVerdict client isFirst buff.length sessionId currPackageId (headerOf m) := by
  have hasSession : 9 ≤ buff.length := Nat.le_trans (by decide) hasPackage
  intro m m' length length' begins begins'
  obtain ⟨type, session⟩ := header_of_begins isDATA own hasSession begins
  obtain ⟨type', session'⟩ := header_of_begins isDATA own hasSession begins'
  have package : packageOf m = packageOf m' :=
    decides_packageOf hasPackage length length' begins begins'
  have verdict := verdict_decided hasPackage short size length length' begins begins'
  show udprVerdict _ _ _ _ _ (headerOf m) = udprVerdict _ _ _ _ _ (headerOf m')
  by_cases expected : packageOf m = currPackageId
  · have left := udprVerdict_expected client isFirst (d := headerOf m) short type session expected
    have right := udprVerdict_expected client isFirst (d := headerOf m') short type' session'
      (package ▸ expected)
    rw [left, right]
    exact Prod.ext verdict rfl
  · have left := udprVerdict_otherPackage client isFirst (d := headerOf m) short type session
      expected
    have right := udprVerdict_otherPackage client isFirst (d := headerOf m') short type' session'
      (package ▸ expected)
    rw [left, right]
    exact congrArg (fun id => (RetVal.WRONG_PACKAGE_ID, RetVal.ERROR,
      if id < currPackageId then [] else [sendRJT .dataReceive client sessionId id])) package

end Data

/-- Outside `UDPRUndecided` the received bytes decide the verdict. -/
theorem udprVerdict_decided (nonempty : buff ≠ []) (short : buff.length < 21)
    (decided : ¬ UDPRUndecided sessionId currPackageId buff) :
    Decides 21 buff fun m =>
      udprVerdict client isFirst buff.length sessionId currPackageId (headerOf m) := by
  have one : 1 ≤ buff.length := List.length_pos_iff.mpr nonempty
  simp only [UDPRUndecided, not_or] at decided
  obtain ⟨session, package, size⟩ := decided
  by_cases isDATA : typeOf buff = dataId
  swap
  · exact decided_otherType client isFirst one isDATA
  rcases Nat.lt_or_ge buff.length 9 with noSession | hasSession
  · exact decided_noSession client isFirst isDATA one noSession fun begins =>
      session ⟨noSession, begins⟩
  by_cases own : sessionOf buff = sessionId
  swap
  · exact decided_otherSession client isFirst isDATA hasSession own
  rcases Nat.lt_or_ge buff.length 17 with noPackage | hasPackage
  · refine decided_behind client isFirst isDATA own hasSession noPackage ?_
    by_contra ahead
    exact package ⟨⟨hasSession, noPackage⟩, isDATA, own, UInt64.not_lt.mp ahead⟩
  · exact decided_hasPackage client isFirst isDATA own hasPackage short fun begins =>
      size ⟨⟨hasPackage, short⟩, begins⟩

/-- The session can be completed to the expected one and to another one. -/
theorem undecided_noSession (one : 1 ≤ buff.length) (noSession : buff.length < 9)
    (begins : buff <+: fullHeader sessionId currPackageId) :
    ¬ Decides 21 buff fun m =>
      udprVerdict client isFirst buff.length sessionId currPackageId (headerOf m) := by
  intro decides
  have short : buff.length < 21 := Nat.lt_trans noSession (by decide)
  have isDATA : typeOf buff = dataId := by
    rw [← typeOf_begins one begins, fullHeader, store_dataHeader, typeOf_cons]
  have complete := udprVerdict_expected client isFirst
    (d := ⟨dataId, sessionId, currPackageId, 64000⟩) short rfl rfl rfl
  have session (b : UInt8) : sessionOf (fill 21 buff b) = sessionId := by
    by_contra other
    have same : udprVerdict _ _ _ _ _ _ = udprVerdict _ _ _ _ _ _ :=
      decides (DataInfo.length_store _) (length_fill (Nat.le_of_lt short) b) begins (begins_fill b)
    rw [headerOf_dataHeader, complete, dataVerdict_size _ short rfl rfl rfl] at same
    have type : (headerOf (fill 21 buff b)).packageTypeId = dataId :=
      (typeOf_begins one (begins_fill b)).trans isDATA
    rw [udprVerdict_otherSession client isFirst type other] at same
    have allowed : ¬ (64000 : UInt32).toNat > maxAllowedPacketSize := by decide
    rw [if_neg allowed] at same
    cases (Prod.mk.inj same).1
  exact fill_word_ne 1 (by decide) noSession ((session 0).trans (session 255).symm)

/-- The least and the greatest package id that are possible are judged differently. -/
theorem undecided_package (hasSession : 9 ≤ buff.length) (noPackage : buff.length < 17)
    (isDATA : typeOf buff = dataId) (own : sessionOf buff = sessionId)
    (ahead : currPackageId ≤ packageOf (fill 21 buff 255)) :
    ¬ Decides 21 buff fun m =>
      udprVerdict client isFirst buff.length sessionId currPackageId (headerOf m) := by
  intro decides
  have short : buff.length < 21 := Nat.lt_of_lt_of_le noPackage (by decide)
  have filled (b : UInt8) : (fill 21 buff b).length = 21 := length_fill (Nat.le_of_lt short) b
  have header (b : UInt8) : (headerOf (fill 21 buff b)).packageTypeId = dataId ∧
      (headerOf (fill 21 buff b)).sessionId = sessionId :=
    header_of_begins isDATA own hasSession (begins_fill b)
  have distinct : packageOf (fill 21 buff 0) ≠ packageOf (fill 21 buff 255) :=
    fill_word_ne 9 (by decide) noPackage
  have same : udprVerdict _ _ _ _ _ _ = udprVerdict _ _ _ _ _ _ :=
    decides (filled 0) (filled 255) (begins_fill 0) (begins_fill 255)
  have both : packageOf (fill 21 buff 0) ≠ currPackageId ↔
      packageOf (fill 21 buff 255) ≠ currPackageId := by
    refine Iff.trans (udprVerdict_package_iff client isFirst short (header 0).1
      (header 0).2).symm ?_
    rw [same]
    exact udprVerdict_package_iff client isFirst short (header 255).1 (header 255).2
  have other : packageOf (fill 21 buff 255) ≠ currPackageId := by
    intro expected
    have expected' := not_not.mp (mt both.mp (not_not.mpr expected))
    exact distinct (expected'.trans expected.symm)
  have greatest := udprVerdict_otherPackage client isFirst (d := headerOf (fill 21 buff 255)) short
    (header 255).1 (header 255).2 other
  have least := udprVerdict_otherPackage client isFirst (d := headerOf (fill 21 buff 0)) short
    (header 0).1 (header 0).2 (both.mpr other)
  rw [least, greatest] at same
  have replies := (Prod.mk.inj (Prod.mk.inj same).2).2
  have notBehind : ¬ (headerOf (fill 21 buff 255)).packageId < currPackageId :=
    UInt64.not_lt.mpr ahead
  rw [if_neg notBehind] at replies
  split at replies
  · cases replies
  · exact distinct (sendRJT_injective (List.head_eq_of_cons_eq replies)).2

/-- The size can be completed to one that is allowed and to one that is not. -/
theorem undecided_size (short : buff.length < 21)
    (begins : buff <+: fullHeader sessionId currPackageId) :
    ¬ Decides 21 buff fun m =>
      udprVerdict client isFirst buff.length sessionId currPackageId (headerOf m) := by
  intro decides
  have same := decides (DataInfo.length_store _) (DataInfo.length_store _) begins
    (begins_tooLarge short begins)
  exact fullHeader_verdict_ne short (Prod.mk.inj same).1

/-- In `UDPRUndecided` two completions of the header are judged differently. -/
theorem udprVerdict_undecided (nonempty : buff ≠ []) (short : buff.length < 21)
    (decides : Decides 21 buff fun m =>
      udprVerdict client isFirst buff.length sessionId currPackageId (headerOf m)) :
    ¬ UDPRUndecided sessionId currPackageId buff := by
  rintro (⟨noSession, begins⟩ | ⟨⟨hasSession, noPackage⟩, isDATA, own, ahead⟩ | ⟨-, begins⟩)
  · exact undecided_noSession client isFirst (List.length_pos_iff.mpr nonempty) noSession begins
      decides
  · exact undecided_package client isFirst hasSession noPackage isDATA own ahead decides
  · exact undecided_size client isFirst short begins decides

end UDPRDecided

/-- The loop with retransmission judges a datagram by its bytes alone exactly outside
`UDPRUndecided`. -/
theorem udprReaction_decided (client : SockAddr) (conn : CONN) (currPackageId : UInt64)
    (isFirst : Bool) {buff : List UInt8} (nonempty : buff ≠ []) :
    (∀ p q, udprReaction client conn currPackageId isFirst p buff =
        udprReaction client conn currPackageId isFirst q buff) ↔
      ¬ UDPRUndecided conn.sessionId currPackageId buff := by
  simp only [udprReaction_eq]
  rw [dataInfo_decides buff
    (udprVerdict client isFirst buff.length conn.sessionId currPackageId)]
  rcases Nat.lt_or_ge buff.length 21 with short | whole
  · rw [List.take_of_length_le (Nat.le_of_lt short)]
    exact ⟨udprVerdict_undecided client isFirst nonempty short,
      udprVerdict_decided client isFirst nonempty short⟩
  · refine iff_of_true (decides_of_length ?_) ?_
    · rw [List.length_take]
      omega
    · rintro (⟨short, -⟩ | ⟨⟨-, short⟩, -⟩ | ⟨⟨-, short⟩, -⟩) <;> omega

end Ppcb
