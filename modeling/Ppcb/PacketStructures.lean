import Ppcb.Lib.ByteOrder
import Ppcb.Lib.CString

/-!
# The packets and their bytes

The packed structures of `packet_structures.h`, the functions that fill them, the
functions that convert them to the order of the host, and `cast_buff_to`, which copies
a received datagram over a structure.

A structure holds its fields as they are in memory, so the `init` functions store
numbers in the network order and the `ntoh` functions convert them back. `store` are the
bytes of a structure in memory and `load` reads a structure from memory. The host
stores numbers least significant byte first.

A received datagram is read by `receive`: `cast_buff_to` followed by the `ntoh` function.
A field that lies within the received bytes is the field of the datagram
(`SessionPacket.receive_sessionId` and the others); a field beyond them keeps what the
structure held before.
-/

set_option autoImplicit false

namespace Ppcb

open ByteOrder CString

/-! ## Constants -/

def tcpProtocol : UInt8 := 1
def udpProtocol : UInt8 := 2
def udprProtocol : UInt8 := 3

def connId : UInt8 := 1
def conaccId : UInt8 := 2
def conrjtId : UInt8 := 3
def dataId : UInt8 := 4
def accId : UInt8 := 5
def rjtId : UInt8 := 6
def rcvdId : UInt8 := 7

def sendBuffSize : ℕ := 64000
def receiveBufforSize : ℕ := 64032
def responseBuffSize : ℕ := 200
def maxAllowedPacketSize : ℕ := 64000

/-- `MAX_RETRANSMITS` of `protconst.h`. -/
def maxRetransmits : ℕ := 8

/-- The values the functions return. -/
inductive RetVal where
  | SUCCESS
  | ERROR
  | WRONG_SESSION_ID
  | WRONG_PACKAGE_TYPE_ID
  | WRONG_PACKAGE_ID
  | WRONG_PACKAGE_SIZE
  | TIMEOUT_ERROR
  | RETRANSMISSION
  | CONRJT_ERROR
  | CONTINUE
deriving DecidableEq, Repr

/-! ## The structures -/

@[ext] structure CONN where
  packageTypeId : UInt8
  sessionId : UInt64
  protocolId : UInt8
  nbrOfBytesToBeSent : UInt64
deriving DecidableEq, Repr

/-- The common layout of `CONACC`, `CONRJT` and `RCVD`. -/
@[ext] structure SessionPacket where
  packageTypeId : UInt8
  sessionId : UInt64
deriving DecidableEq, Repr

/-- The common layout of `ACC` and `RJT`. -/
@[ext] structure NumberedPacket where
  packageTypeId : UInt8
  sessionId : UInt64
  packageId : UInt64
deriving DecidableEq, Repr

abbrev CONACC := SessionPacket
abbrev CONRJT := SessionPacket
abbrev RCVD := SessionPacket
abbrev ACC := NumberedPacket
abbrev RJT := NumberedPacket

/-- The header of a `DATA` packet, `DATA_INFO_t`. -/
@[ext] structure DataInfo where
  packageTypeId : UInt8
  sessionId : UInt64
  packageId : UInt64
  nbrOfBytesInPacket : UInt32
deriving DecidableEq, Repr

structure DATA extends DataInfo where
  seqOfBytes : List UInt8
deriving DecidableEq, Repr

def sizeofCONN : ℕ := 18
def sizeofCONACC : ℕ := 9
def sizeofCONRJT : ℕ := 9
def sizeofRCVD : ℕ := 9
def sizeofACC : ℕ := 17
def sizeofRJT : ℕ := 17
def sizeofDataInfo : ℕ := 21

/-! ## Structures in memory -/

namespace CONN

def store (p : CONN) : List UInt8 :=
  p.packageTypeId :: (mem64 p.sessionId ++ p.protocolId :: mem64 p.nbrOfBytesToBeSent)

def load (m : List UInt8) : CONN where
  packageTypeId := m.headD 0
  sessionId := load64 ((m.drop 1).take 8)
  protocolId := (m.drop 9).headD 0
  nbrOfBytesToBeSent := load64 ((m.drop 10).take 8)

@[simp] theorem length_store (p : CONN) : p.store.length = sizeofCONN := by
  simp [store, sizeofCONN]

end CONN

namespace SessionPacket

def store (p : SessionPacket) : List UInt8 :=
  p.packageTypeId :: mem64 p.sessionId

def load (m : List UInt8) : SessionPacket where
  packageTypeId := m.headD 0
  sessionId := load64 ((m.drop 1).take 8)

@[simp] theorem length_store (p : SessionPacket) : p.store.length = sizeofCONACC := by
  simp [store, sizeofCONACC]

end SessionPacket

namespace NumberedPacket

def store (p : NumberedPacket) : List UInt8 :=
  p.packageTypeId :: (mem64 p.sessionId ++ mem64 p.packageId)

def load (m : List UInt8) : NumberedPacket where
  packageTypeId := m.headD 0
  sessionId := load64 ((m.drop 1).take 8)
  packageId := load64 ((m.drop 9).take 8)

@[simp] theorem length_store (p : NumberedPacket) : p.store.length = sizeofACC := by
  simp [store, sizeofACC]

end NumberedPacket

namespace DataInfo

def store (p : DataInfo) : List UInt8 :=
  p.packageTypeId :: (mem64 p.sessionId ++ (mem64 p.packageId ++ mem32 p.nbrOfBytesInPacket))

def load (m : List UInt8) : DataInfo where
  packageTypeId := m.headD 0
  sessionId := load64 ((m.drop 1).take 8)
  packageId := load64 ((m.drop 9).take 8)
  nbrOfBytesInPacket := load32 ((m.drop 17).take 4)

@[simp] theorem length_store (p : DataInfo) : p.store.length = sizeofDataInfo := by
  simp [store, sizeofDataInfo]

end DataInfo

/-- The bytes of a whole `DATA` structure. -/
def DATA.store (p : DATA) : List UInt8 := p.toDataInfo.store ++ p.seqOfBytes

/-! ## Init functions -/

def initCONN (sessionId : UInt64) (protocolId : UInt8) (nbrOfBytes : UInt64) : CONN where
  packageTypeId := connId
  sessionId := htobe64 sessionId
  protocolId := protocolId
  nbrOfBytesToBeSent := htobe64 nbrOfBytes

/-- The common body of `init_CONACC`, `init_CONRJT` and `init_RCVD`. -/
def initSession (typeId : UInt8) (sessionId : UInt64) : SessionPacket where
  packageTypeId := typeId
  sessionId := htobe64 sessionId

def initCONACC (sessionId : UInt64) : CONACC := initSession conaccId sessionId
def initCONRJT (sessionId : UInt64) : CONRJT := initSession conrjtId sessionId
def initRCVD (sessionId : UInt64) : RCVD := initSession rcvdId sessionId

/-- The common body of `init_ACC` and `init_RJT`. -/
def initNumbered (typeId : UInt8) (sessionId packageId : UInt64) : NumberedPacket where
  packageTypeId := typeId
  sessionId := htobe64 sessionId
  packageId := htobe64 packageId

def initACC (sessionId packageId : UInt64) : ACC := initNumbered accId sessionId packageId
def initRJT (sessionId packageId : UInt64) : RJT := initNumbered rjtId sessionId packageId

/-- The header that `init_DATA` and `init_DATA_INFO` write. -/
def dataHeader (sessionId packageId : UInt64) (nbrOfBytes : UInt32) : DataInfo where
  packageTypeId := dataId
  sessionId := htobe64 sessionId
  packageId := htobe64 packageId
  nbrOfBytesInPacket := htobe32 nbrOfBytes

/-- The header is written before the size is checked, the bytes only after it. -/
def initDATA (data : DATA) (sessionId packageId : UInt64) (nbrOfBytes : UInt32)
    (bytesToSend : List UInt8) : RetVal × DATA :=
  let data := { data with toDataInfo := dataHeader sessionId packageId nbrOfBytes }
  if nbrOfBytes.toNat > sendBuffSize then
    (.ERROR, data)
  else
    (.SUCCESS, { data with
      seqOfBytes := strncpy bytesToSend nbrOfBytes.toNat ++ data.seqOfBytes.drop nbrOfBytes.toNat })

/-- The header alone; the size is checked after it is written. -/
def initDATAINFO (sessionId packageId : UInt64) (nbrOfBytes : UInt32) : RetVal × DataInfo :=
  let dataInfo := dataHeader sessionId packageId nbrOfBytes
  if nbrOfBytes.toNat > sendBuffSize then (.ERROR, dataInfo) else (.SUCCESS, dataInfo)

/-! ## Ntoh functions -/

def ntohCONN (p : CONN) : CONN :=
  { p with sessionId := be64toh p.sessionId, nbrOfBytesToBeSent := be64toh p.nbrOfBytesToBeSent }

/-- The common body of `ntoh_CONACC`, `ntoh_CONRJT` and `ntoh_RCVD`. -/
def ntohSession (p : SessionPacket) : SessionPacket :=
  { p with sessionId := be64toh p.sessionId }

def ntohCONACC (p : CONACC) : CONACC := ntohSession p
def ntohCONRJT (p : CONRJT) : CONRJT := ntohSession p
def ntohRCVD (p : RCVD) : RCVD := ntohSession p

/-- The common body of `ntoh_ACC` and `ntoh_RJT`. -/
def ntohNumbered (p : NumberedPacket) : NumberedPacket :=
  { p with sessionId := be64toh p.sessionId, packageId := be64toh p.packageId }

def ntohACC (p : ACC) : ACC := ntohNumbered p
def ntohRJT (p : RJT) : RJT := ntohNumbered p

def ntohDataInfo (p : DataInfo) : DataInfo :=
  { p with
    sessionId := be64toh p.sessionId
    packageId := be64toh p.packageId
    nbrOfBytesInPacket := be32toh p.nbrOfBytesInPacket }

/-! ## Receiving -/

/-- `cast_buff_to` on the memory of a structure: a datagram shorter than the structure
overwrites only its beginning. -/
def castBuffTo (structPtr : List UInt8) (structSize : ℕ) (buff : List UInt8)
    (bytesInBuff : ℕ) : List UInt8 :=
  if bytesInBuff < structSize then
    buff.take bytesInBuff ++ structPtr.drop bytesInBuff
  else
    buff.take structSize

/-- A received datagram copied over a `CONN`, in the order of the host. -/
def CONN.receive (p : CONN) (buff : List UInt8) : CONN :=
  ntohCONN (.load (castBuffTo p.store sizeofCONN buff buff.length))

/-- A received datagram copied over a `CONACC`, `CONRJT` or `RCVD`. -/
def SessionPacket.receive (p : SessionPacket) (buff : List UInt8) : SessionPacket :=
  ntohSession (.load (castBuffTo p.store sizeofCONACC buff buff.length))

/-- A received datagram copied over an `ACC` or `RJT`. -/
def NumberedPacket.receive (p : NumberedPacket) (buff : List UInt8) : NumberedPacket :=
  ntohNumbered (.load (castBuffTo p.store sizeofACC buff buff.length))

/-- A received datagram copied over a `DATA_INFO_t`. -/
def DataInfo.receive (p : DataInfo) (buff : List UInt8) : DataInfo :=
  ntohDataInfo (.load (castBuffTo p.store sizeofDataInfo buff buff.length))

/-! ## The fields of a datagram -/

/-- The first byte, the type of the packet. -/
def typeOf (buff : List UInt8) : UInt8 := buff.headD 0

def sessionOf (buff : List UInt8) : UInt64 := read64 ((buff.drop 1).take 8)

def packageOf (buff : List UInt8) : UInt64 := read64 ((buff.drop 9).take 8)

def lengthOf (buff : List UInt8) : UInt32 := read32 ((buff.drop 17).take 4)

/-- The protocol of a `CONN`. -/
def protocolOf (buff : List UInt8) : UInt8 := (buff.drop 9).headD 0

/-- The number of bytes a `CONN` announces. -/
def totalOf (buff : List UInt8) : UInt64 := read64 ((buff.drop 10).take 8)

section Fields

variable {structPtr buff : List UInt8} {structSize : ℕ}

/-- Bytes of the structure that the datagram covers are bytes of the datagram. -/
theorem castBuffTo_slice (offset width : ℕ) (inStruct : offset + width ≤ structSize)
    (received : offset + width ≤ buff.length) :
    ((castBuffTo structPtr structSize buff buff.length).drop offset).take width =
      (buff.drop offset).take width := by
  simp only [castBuffTo]
  split
  · have room : width ≤ (buff.drop offset).length := by
      rw [List.length_drop]
      omega
    rw [List.take_length, List.drop_append_of_le_length (by omega),
      List.take_append_of_le_length room]
  · rw [List.drop_take, List.take_take, Nat.min_eq_left (by omega)]

theorem castBuffTo_byte (offset : ℕ) (inStruct : offset + 1 ≤ structSize)
    (received : offset + 1 ≤ buff.length) :
    ((castBuffTo structPtr structSize buff buff.length).drop offset).headD 0 =
      (buff.drop offset).headD 0 := by
  have head : ∀ l : List UInt8, l.headD 0 = (l.take 1).headD 0 := by
    intro l
    cases l <;> rfl
  rw [head, castBuffTo_slice offset 1 inStruct received, ← head]

theorem length_slice {offset width : ℕ} (received : offset + width ≤ buff.length) :
    ((buff.drop offset).take width).length = width := by
  rw [List.length_take, List.length_drop]
  omega

theorem receive_word64 (offset : ℕ) (inStruct : offset + 8 ≤ structSize)
    (received : offset + 8 ≤ buff.length) :
    be64toh (load64
      (((castBuffTo structPtr structSize buff buff.length).drop offset).take 8)) =
      read64 ((buff.drop offset).take 8) := by
  rw [castBuffTo_slice offset 8 inStruct received, be64toh_load64 (length_slice received)]

end Fields

variable {buff : List UInt8}

namespace SessionPacket

theorem receive_packageTypeId (p : SessionPacket) (received : 1 ≤ buff.length) :
    (p.receive buff).packageTypeId = typeOf buff :=
  castBuffTo_byte 0 (by decide) received

theorem receive_sessionId (p : SessionPacket) (received : 9 ≤ buff.length) :
    (p.receive buff).sessionId = sessionOf buff :=
  receive_word64 1 (by decide) received

end SessionPacket

namespace NumberedPacket

theorem receive_packageTypeId (p : NumberedPacket) (received : 1 ≤ buff.length) :
    (p.receive buff).packageTypeId = typeOf buff :=
  castBuffTo_byte 0 (by decide) received

theorem receive_sessionId (p : NumberedPacket) (received : 9 ≤ buff.length) :
    (p.receive buff).sessionId = sessionOf buff :=
  receive_word64 1 (by decide) received

theorem receive_packageId (p : NumberedPacket) (received : 17 ≤ buff.length) :
    (p.receive buff).packageId = packageOf buff :=
  receive_word64 9 (by decide) received

end NumberedPacket

namespace DataInfo

theorem receive_packageTypeId (p : DataInfo) (received : 1 ≤ buff.length) :
    (p.receive buff).packageTypeId = typeOf buff :=
  castBuffTo_byte 0 (by decide) received

theorem receive_sessionId (p : DataInfo) (received : 9 ≤ buff.length) :
    (p.receive buff).sessionId = sessionOf buff :=
  receive_word64 1 (by decide) received

theorem receive_packageId (p : DataInfo) (received : 17 ≤ buff.length) :
    (p.receive buff).packageId = packageOf buff :=
  receive_word64 9 (by decide) received

theorem receive_nbrOfBytesInPacket (p : DataInfo) (received : 21 ≤ buff.length) :
    (p.receive buff).nbrOfBytesInPacket = lengthOf buff := by
  show be32toh (load32 (((castBuffTo _ _ buff buff.length).drop 17).take 4)) = _
  rw [castBuffTo_slice 17 4 (by decide) received, be32toh_load32 (length_slice received), lengthOf]

end DataInfo

/-- A datagram of the size of a `CONN` gives all its fields. -/
theorem CONN.receive_eq (p : CONN) (received : 18 ≤ buff.length) :
    p.receive buff = ⟨typeOf buff, sessionOf buff, protocolOf buff, totalOf buff⟩ := by
  have typeId : (p.receive buff).packageTypeId = typeOf buff :=
    castBuffTo_byte 0 (by decide) (by omega)
  have session : (p.receive buff).sessionId = sessionOf buff :=
    receive_word64 1 (by decide) (by omega)
  have protocol : (p.receive buff).protocolId = protocolOf buff :=
    castBuffTo_byte 9 (by decide) (by omega)
  have total : (p.receive buff).nbrOfBytesToBeSent = totalOf buff :=
    receive_word64 10 (by decide) (by omega)
  rw [← typeId, ← session, ← protocol, ← total]

/-- The type of a `CONN` is read from any datagram that is not empty. -/
theorem CONN.receive_packageTypeId (p : CONN) (received : 1 ≤ buff.length) :
    (p.receive buff).packageTypeId = typeOf buff :=
  castBuffTo_byte 0 (by decide) received

/-! ## What the packets look like on the wire -/

@[simp] theorem store_initSession (t : UInt8) (s : UInt64) :
    (initSession t s).store = t :: net64 s := by
  simp [initSession, SessionPacket.store]

@[simp] theorem store_initNumbered (t : UInt8) (s p : UInt64) :
    (initNumbered t s p).store = t :: (net64 s ++ net64 p) := by
  simp [initNumbered, NumberedPacket.store]

@[simp] theorem store_dataHeader (s p : UInt64) (n : UInt32) :
    (dataHeader s p n).store = dataId :: (net64 s ++ (net64 p ++ net32 n)) := by
  simp [dataHeader, DataInfo.store]

@[simp] theorem store_initCONN (s : UInt64) (protocol : UInt8) (n : UInt64) :
    (initCONN s protocol n).store = connId :: (net64 s ++ protocol :: net64 n) := by
  simp [initCONN, CONN.store]

@[simp] theorem typeOf_cons (t : UInt8) (l : List UInt8) : typeOf (t :: l) = t := rfl

@[simp] theorem sessionOf_cons (t : UInt8) (s : UInt64) (l : List UInt8) :
    sessionOf (t :: (net64 s ++ l)) = s := by
  simp [sessionOf, List.take_left']

@[simp] theorem sessionOf_cons_nil (t : UInt8) (s : UInt64) :
    sessionOf (t :: net64 s) = s := by
  simpa using sessionOf_cons t s []

@[simp] theorem packageOf_cons (t : UInt8) (s p : UInt64) (l : List UInt8) :
    packageOf (t :: (net64 s ++ (net64 p ++ l))) = p := by
  simp [packageOf, List.drop_left', List.take_left']

@[simp] theorem packageOf_cons_nil (t : UInt8) (s p : UInt64) :
    packageOf (t :: (net64 s ++ net64 p)) = p := by
  simpa using packageOf_cons t s p []

@[simp] theorem lengthOf_cons (t : UInt8) (s p : UInt64) (n : UInt32) (l : List UInt8) :
    lengthOf (t :: (net64 s ++ (net64 p ++ (net32 n ++ l)))) = n := by
  have skip : (net64 s ++ (net64 p ++ (net32 n ++ l))).drop 16 = net32 n ++ l := by
    rw [← List.append_assoc, List.drop_left' (by simp)]
  simp [lengthOf, skip, List.take_left']

@[simp] theorem protocolOf_cons (t : UInt8) (s : UInt64) (protocol : UInt8) (l : List UInt8) :
    protocolOf (t :: (net64 s ++ protocol :: l)) = protocol := by
  simp [protocolOf, List.drop_left']

@[simp] theorem totalOf_cons (t : UInt8) (s : UInt64) (protocol : UInt8) (n : UInt64) :
    totalOf (t :: (net64 s ++ protocol :: net64 n)) = n := by
  have skip : (net64 s ++ protocol :: net64 n).drop 9 = net64 n := by
    rw [show net64 s ++ protocol :: net64 n = (net64 s ++ [protocol]) ++ net64 n by simp,
      List.drop_left' (by simp)]
  have whole : (net64 n).take 8 = net64 n := List.take_of_length_le (by simp)
  simp [totalOf, skip, whole]

/-! ## Reading back what was written -/

/-- A session packet is read back, whatever follows it. -/
theorem SessionPacket.receive_wire (p : SessionPacket) (t : UInt8) (s : UInt64)
    (l : List UInt8) : p.receive (t :: (net64 s ++ l)) = ⟨t, s⟩ := by
  have long : 9 ≤ (t :: (net64 s ++ l)).length := by simp
  have typeId := p.receive_packageTypeId (le_trans (by decide) long)
  have session := p.receive_sessionId long
  rw [typeOf_cons] at typeId
  rw [sessionOf_cons] at session
  exact SessionPacket.ext typeId session

theorem NumberedPacket.receive_wire (p : NumberedPacket) (t : UInt8) (s i : UInt64)
    (l : List UInt8) : p.receive (t :: (net64 s ++ (net64 i ++ l))) = ⟨t, s, i⟩ := by
  have long : 17 ≤ (t :: (net64 s ++ (net64 i ++ l))).length := by simp; omega
  have typeId := p.receive_packageTypeId (le_trans (by decide) long)
  have session := p.receive_sessionId (le_trans (by decide) long)
  have package := p.receive_packageId long
  rw [typeOf_cons] at typeId
  rw [sessionOf_cons] at session
  rw [packageOf_cons] at package
  exact NumberedPacket.ext typeId session package

/-- The type and the session of a numbered packet are read from a session packet. -/
theorem NumberedPacket.receive_session (p : NumberedPacket) (t : UInt8) (s : UInt64) :
    (p.receive (t :: net64 s)).packageTypeId = t ∧ (p.receive (t :: net64 s)).sessionId = s := by
  have long : 9 ≤ (t :: net64 s).length := by simp
  refine ⟨?_, ?_⟩
  · rw [p.receive_packageTypeId (le_trans (by decide) long), typeOf_cons]
  · rw [p.receive_sessionId long, sessionOf_cons_nil]

theorem DataInfo.receive_wire (p : DataInfo) (t : UInt8) (s i : UInt64) (n : UInt32)
    (l : List UInt8) :
    p.receive (t :: (net64 s ++ (net64 i ++ (net32 n ++ l)))) = ⟨t, s, i, n⟩ := by
  have long : 21 ≤ (t :: (net64 s ++ (net64 i ++ (net32 n ++ l)))).length := by simp; omega
  have typeId := p.receive_packageTypeId (le_trans (by decide) long)
  have session := p.receive_sessionId (le_trans (by decide) long)
  have package := p.receive_packageId (le_trans (by decide) long)
  have size := p.receive_nbrOfBytesInPacket long
  rw [typeOf_cons] at typeId
  rw [sessionOf_cons] at session
  rw [packageOf_cons] at package
  rw [lengthOf_cons] at size
  exact DataInfo.ext typeId session package size

theorem CONN.receive_wire (p : CONN) (t : UInt8) (s : UInt64) (protocol : UInt8) (n : UInt64) :
    p.receive (t :: (net64 s ++ protocol :: net64 n)) = ⟨t, s, protocol, n⟩ := by
  rw [p.receive_eq (by simp), typeOf_cons, sessionOf_cons, protocolOf_cons, totalOf_cons]

/-- Nine bytes are a type and a session. -/
theorem eq_session_of_length (length : buff.length = 9) :
    buff = typeOf buff :: net64 (sessionOf buff) := by
  have read : net64 (sessionOf buff) = (buff.drop 1).take 8 :=
    net64_read64 (length_slice (by omega))
  cases buff with
  | nil => simp at length
  | cons t l =>
      have whole : l.take 8 = l := List.take_of_length_le (by simp at length; omega)
      simpa [whole] using read.symm

/-- Eighteen bytes are a type, a session, a protocol and a number of bytes. -/
theorem eq_conn_of_length (length : buff.length = 18) :
    buff = typeOf buff :: (net64 (sessionOf buff) ++ protocolOf buff :: net64 (totalOf buff)) := by
  have session : net64 (sessionOf buff) = (buff.drop 1).take 8 :=
    net64_read64 (length_slice (by omega))
  have total : net64 (totalOf buff) = (buff.drop 10).take 8 :=
    net64_read64 (length_slice (by omega))
  have whole : (buff.drop 10).take 8 = buff.drop 10 :=
    List.take_of_length_le (by simp [length])
  have protocol : protocolOf buff :: buff.drop 10 = buff.drop 9 := by
    rw [protocolOf, List.drop_eq_getElem_cons (show 9 < buff.length by omega)]
    rfl
  have rest : (buff.drop 1).take 8 ++ buff.drop 9 = buff.drop 1 := by
    conv_rhs => rw [← List.take_append_drop 8 (buff.drop 1), List.drop_drop]
  rw [session, total, whole, protocol, rest]
  cases buff with
  | nil => simp at length
  | cons t l => rfl

/-- Seventeen bytes are a type, a session and a package id. -/
theorem eq_numbered_of_length (length : buff.length = 17) :
    buff = typeOf buff :: (net64 (sessionOf buff) ++ net64 (packageOf buff)) := by
  have session : net64 (sessionOf buff) = (buff.drop 1).take 8 :=
    net64_read64 (length_slice (by omega))
  have package : net64 (packageOf buff) = (buff.drop 9).take 8 :=
    net64_read64 (length_slice (by omega))
  rw [session, package]
  cases buff with
  | nil => simp at length
  | cons t l =>
      have whole : (l.drop 8).take 8 = l.drop 8 :=
        List.take_of_length_le (by simp at length ⊢; omega)
      simp [whole]

/-- From twenty-one bytes on, a datagram is the header of a `DATA` packet and a payload. -/
theorem eq_data_of_le_length (length : 21 ≤ buff.length) :
    buff = typeOf buff :: (net64 (sessionOf buff) ++ (net64 (packageOf buff) ++
      (net32 (lengthOf buff) ++ buff.drop 21))) := by
  have session : net64 (sessionOf buff) = (buff.drop 1).take 8 :=
    net64_read64 (length_slice (by omega))
  have package : net64 (packageOf buff) = (buff.drop 9).take 8 :=
    net64_read64 (length_slice (by omega))
  have size : net32 (lengthOf buff) = (buff.drop 17).take 4 :=
    net32_read32 (length_slice (by omega))
  rw [session, package, size]
  cases buff with
  | nil => simp at length
  | cons t l =>
      have last : (l.drop 16).take 4 ++ l.drop 20 = l.drop 16 := by
        conv_rhs => rw [← List.take_append_drop 4 (l.drop 16), List.drop_drop]
      have middle : (l.drop 8).take 8 ++ l.drop 16 = l.drop 8 := by
        conv_rhs => rw [← List.take_append_drop 8 (l.drop 8), List.drop_drop]
      simp [last, middle]

end Ppcb
