import Ppcb.Lib.Codec
import Ppcb.PacketStructures

/-!
# The headers as an encoding

The seven kinds of packets, their numbers, sizes and fields as the protocol describes them
(`Kind.typeId`, `Kind.size`, `Kind.layout`), next to what the code does: the bytes of the
structure that the `init` function of a kind fills (`Kind.pack`), and the fields that
`cast_buff_to` and the `ntoh` function of a kind read from a buffer (`Kind.unpack`).

The `init` functions write the tagged encoding of their arguments (`Kind.pack_eq_tagged`), and
from as many bytes as the structure has the `ntoh` functions read its decoding, whatever
the structure held (`Kind.unpack_eq`).
-/

set_option autoImplicit false

namespace Ppcb

open ByteOrder

/-- The kinds of packets; of a `DATA` packet, the header. -/
inductive Kind where
  | CONN
  | CONACC
  | CONRJT
  | DATA
  | ACC
  | RJT
  | RCVD
deriving DecidableEq, Repr

namespace Kind

/-! ## The protocol -/

def typeId : Kind → UInt8
  | CONN => 1
  | CONACC => 2
  | CONRJT => 3
  | DATA => 4
  | ACC => 5
  | RJT => 6
  | RCVD => 7

def size : Kind → ℕ
  | CONN => 18
  | CONACC | CONRJT | RCVD => 9
  | DATA => 21
  | ACC | RJT => 17

/-- The session id, then for `CONN` the protocol and the number of bytes, for `DATA` the
package id and the number of bytes, for `ACC` and `RJT` the package id. -/
def Fields : Kind → Type
  | CONN => UInt64 × UInt8 × UInt64
  | CONACC | CONRJT | RCVD => UInt64
  | DATA => UInt64 × UInt64 × UInt32
  | ACC | RJT => UInt64 × UInt64

open Encoding in
/-- The fields one after the other, each most significant byte first. -/
def layout : (k : Kind) → Encoding UInt8 k.Fields
  | CONN => word64.pair ((symbol 0).pair word64)
  | CONACC | CONRJT | RCVD => word64
  | DATA => word64.pair (word64.pair word32)
  | ACC | RJT => word64.pair word64

theorem typeId_injective : Function.Injective typeId := by
  intro k l same
  cases k <;> cases l <;> first | rfl | exact absurd same (by decide)

theorem size_eq (k : Kind) : k.size = 1 + k.layout.width := by
  cases k <;> rfl

/-! ## The code -/

/-- The bytes of the structure that the `init` function of a kind fills. -/
def pack : (k : Kind) → k.Fields → List UInt8
  | CONN, (sessionId, protocolId, nbrOfBytes) =>
      (initCONN sessionId protocolId nbrOfBytes).store
  | CONACC, sessionId => (initCONACC sessionId).store
  | CONRJT, sessionId => (initCONRJT sessionId).store
  | DATA, (sessionId, packageId, nbrOfBytes) =>
      (initDATAINFO sessionId packageId nbrOfBytes).2.store
  | ACC, (sessionId, packageId) => (initACC sessionId packageId).store
  | RJT, (sessionId, packageId) => (initRJT sessionId packageId).store
  | RCVD, sessionId => (initRCVD sessionId).store

/-- `cast_buff_to` on the memory of a structure of a kind, then the `ntoh` function: the type
and the fields it leaves there. -/
def unpack (structPtr buff : List UInt8) : (k : Kind) → UInt8 × k.Fields
  | CONN =>
      let p := ntohCONN (.load (castBuffTo structPtr sizeofCONN buff buff.length))
      (p.packageTypeId, p.sessionId, p.protocolId, p.nbrOfBytesToBeSent)
  | CONACC =>
      let p := ntohCONACC (.load (castBuffTo structPtr sizeofCONACC buff buff.length))
      (p.packageTypeId, p.sessionId)
  | CONRJT =>
      let p := ntohCONRJT (.load (castBuffTo structPtr sizeofCONRJT buff buff.length))
      (p.packageTypeId, p.sessionId)
  | DATA =>
      let p := ntohDataInfo (.load (castBuffTo structPtr sizeofDataInfo buff buff.length))
      (p.packageTypeId, p.sessionId, p.packageId, p.nbrOfBytesInPacket)
  | ACC =>
      let p := ntohACC (.load (castBuffTo structPtr sizeofACC buff buff.length))
      (p.packageTypeId, p.sessionId, p.packageId)
  | RJT =>
      let p := ntohRJT (.load (castBuffTo structPtr sizeofRJT buff buff.length))
      (p.packageTypeId, p.sessionId, p.packageId)
  | RCVD =>
      let p := ntohRCVD (.load (castBuffTo structPtr sizeofRCVD buff buff.length))
      (p.packageTypeId, p.sessionId)

/-! ## The code is the encoding -/

theorem pack_eq_tagged (k : Kind) (fields : k.Fields) :
    k.pack fields = Encoding.tagged typeId layout ⟨k, fields⟩ := by
  cases k with
  | CONN => exact store_initCONN _ _ _
  | CONACC | CONRJT | RCVD => exact store_initSession _ _
  | ACC | RJT => exact store_initNumbered _ _ _
  | DATA =>
      have header : (initDATAINFO fields.1 fields.2.1 fields.2.2).2 =
          dataHeader fields.1 fields.2.1 fields.2.2 := by
        simp only [initDATAINFO]
        split <;> rfl
      show (initDATAINFO fields.1 fields.2.1 fields.2.2).2.store = _
      rw [header]
      exact store_dataHeader _ _ _

theorem length_pack (k : Kind) (fields : k.Fields) : (k.pack fields).length = k.size := by
  rw [pack_eq_tagged, Encoding.tagged, List.length_cons, Encoding.length_encode, size_eq,
    Nat.add_comm]

/-- What a structure held is overwritten by a buffer that is long enough. -/
theorem castBuffTo_overwrites {buff : List UInt8} {structSize : ℕ}
    (received : structSize ≤ buff.length) (structPtr structPtr' : List UInt8) :
    castBuffTo structPtr structSize buff buff.length =
      castBuffTo structPtr' structSize buff buff.length := by
  rw [castBuffTo, castBuffTo, if_neg (Nat.not_lt.mpr received), if_neg (Nat.not_lt.mpr received)]

section Read

variable (structPtr : List UInt8) {buff : List UInt8}

theorem read_conn (received : 18 ≤ buff.length) :
    ntohCONN (.load (castBuffTo structPtr 18 buff buff.length)) =
      ⟨typeOf buff, sessionOf buff, protocolOf buff, totalOf buff⟩ := by
  rw [castBuffTo_overwrites received structPtr (CONN.store ⟨0, 0, 0, 0⟩)]
  exact CONN.receive_eq _ received

theorem read_session (received : 9 ≤ buff.length) :
    ntohSession (.load (castBuffTo structPtr 9 buff buff.length)) =
      ⟨typeOf buff, sessionOf buff⟩ := by
  rw [castBuffTo_overwrites received structPtr (SessionPacket.store ⟨0, 0⟩)]
  exact SessionPacket.ext (SessionPacket.receive_packageTypeId _ (le_trans (by decide) received))
    (SessionPacket.receive_sessionId _ received)

theorem read_numbered (received : 17 ≤ buff.length) :
    ntohNumbered (.load (castBuffTo structPtr 17 buff buff.length)) =
      ⟨typeOf buff, sessionOf buff, packageOf buff⟩ := by
  rw [castBuffTo_overwrites received structPtr (NumberedPacket.store ⟨0, 0, 0⟩)]
  apply NumberedPacket.ext
  · exact NumberedPacket.receive_packageTypeId _ (le_trans (by decide) received)
  · exact NumberedPacket.receive_sessionId _ (le_trans (by decide) received)
  · exact NumberedPacket.receive_packageId _ received

theorem read_dataInfo (received : 21 ≤ buff.length) :
    ntohDataInfo (.load (castBuffTo structPtr 21 buff buff.length)) =
      ⟨typeOf buff, sessionOf buff, packageOf buff, lengthOf buff⟩ := by
  rw [castBuffTo_overwrites received structPtr (DataInfo.store ⟨0, 0, 0, 0⟩)]
  apply DataInfo.ext
  · exact DataInfo.receive_packageTypeId _ (le_trans (by decide) received)
  · exact DataInfo.receive_sessionId _ (le_trans (by decide) received)
  · exact DataInfo.receive_packageId _ (le_trans (by decide) received)
  · exact DataInfo.receive_nbrOfBytesInPacket _ received

end Read

/-- **From as many bytes as the structure has, the fields read are the decoding of the bytes
after the type, whatever the structure held.** -/
theorem unpack_eq (k : Kind) (structPtr : List UInt8) {buff : List UInt8}
    (received : k.size ≤ buff.length) :
    k.unpack structPtr buff = (typeOf buff, k.layout.decode (buff.drop 1)) := by
  have tail (n : ℕ) : (buff.drop 1).drop n = buff.drop (1 + n) := List.drop_drop
  cases k with
  | CONN =>
      simp only [unpack, sizeofCONN, read_conn structPtr received, layout, Encoding.pair, tail]
      rw [List.drop_drop]
      rfl
  | CONACC =>
      simp only [unpack, ntohCONACC, sizeofCONACC, read_session structPtr received]
      rfl
  | CONRJT =>
      simp only [unpack, ntohCONRJT, sizeofCONRJT, read_session structPtr received]
      rfl
  | RCVD =>
      simp only [unpack, ntohRCVD, sizeofRCVD, read_session structPtr received]
      rfl
  | ACC =>
      simp only [unpack, ntohACC, sizeofACC, read_numbered structPtr received, layout,
        Encoding.pair, tail]
      rfl
  | RJT =>
      simp only [unpack, ntohRJT, sizeofRJT, read_numbered structPtr received, layout,
        Encoding.pair, tail]
      rfl
  | DATA =>
      simp only [unpack, sizeofDataInfo, read_dataInfo structPtr received, layout, Encoding.pair,
        tail]
      rw [List.drop_drop]
      rfl

/-- The bytes of a packet are read back, whatever follows them. -/
theorem unpack_pack (k : Kind) (fields : k.Fields) (structPtr rest : List UInt8) :
    k.unpack structPtr (k.pack fields ++ rest) = (k.typeId, fields) := by
  have received : k.size ≤ (k.pack fields ++ rest).length := by
    rw [List.length_append, length_pack]
    exact Nat.le_add_right _ _
  have read : k.layout.decode (k.layout.encode fields ++ rest) = fields :=
    k.layout.decode_encode_append fields rest
  rw [unpack_eq k structPtr received, pack_eq_tagged]
  exact Prod.ext rfl read

/-- Bytes of the size and the type of a kind are a packet of that kind. -/
theorem pack_unpack (k : Kind) (structPtr : List UInt8) {bytes : List UInt8}
    (length : bytes.length = k.size) (type : typeOf bytes = k.typeId) :
    k.pack (k.unpack structPtr bytes).2 = bytes := by
  rw [unpack_eq k structPtr (Nat.le_of_eq length.symm), pack_eq_tagged]
  cases bytes with
  | nil =>
      rw [List.length_nil, size_eq] at length
      omega
  | cons t l =>
      have width : l.length = k.layout.width := by
        rw [List.length_cons, size_eq] at length
        omega
      have written : k.layout.encode (k.layout.decode l) = l := k.layout.encode_decode l width
      show k.typeId :: k.layout.encode (k.layout.decode l) = t :: l
      rw [written, ← type, typeOf_cons]

/-- Packets with the same bytes are of one kind and have the same fields. -/
theorem pack_injective : Function.Injective fun p : Σ k : Kind, k.Fields => p.1.pack p.2 := by
  intro p q same
  apply Encoding.tagged_injective typeId layout typeId_injective
  rw [← pack_eq_tagged, ← pack_eq_tagged]
  exact same

end Kind

/-- `init_DATA` writes the header of `init_DATA_INFO`, whatever it returns. -/
theorem initDATA_header (data : DATA) (sessionId packageId : UInt64) (nbrOfBytes : UInt32)
    (bytesToSend : List UInt8) :
    (initDATA data sessionId packageId nbrOfBytes bytesToSend).2.toDataInfo.store =
      Kind.DATA.pack (sessionId, packageId, nbrOfBytes) := by
  show _ = (initDATAINFO sessionId packageId nbrOfBytes).2.store
  simp only [initDATA, initDATAINFO]
  split <;> rfl

/-- **The headers on the wire.** The bytes of every packet are its type and its fields most
significant byte first, of the size of its kind; they are read back exactly, whatever follows
them and whatever the structure held; bytes of the right size and type are written again as
they were; and different packets have different bytes. -/
theorem header_codec :
    (∀ (k : Kind) (fields : k.Fields),
      k.pack fields = k.typeId :: k.layout.encode fields ∧ (k.pack fields).length = k.size) ∧
    (∀ (data : DATA) (sessionId packageId : UInt64) (nbrOfBytes : UInt32)
        (bytesToSend : List UInt8),
      (initDATA data sessionId packageId nbrOfBytes bytesToSend).2.toDataInfo.store =
        Kind.DATA.pack (sessionId, packageId, nbrOfBytes)) ∧
    (∀ (k : Kind) (fields : k.Fields) (structPtr rest : List UInt8),
      k.unpack structPtr (k.pack fields ++ rest) = (k.typeId, fields)) ∧
    (∀ (k : Kind) (structPtr bytes : List UInt8), bytes.length = k.size →
      typeOf bytes = k.typeId → k.pack (k.unpack structPtr bytes).2 = bytes) ∧
    Function.Injective fun p : Σ k : Kind, k.Fields => p.1.pack p.2 := by
  refine ⟨?_, initDATA_header, Kind.unpack_pack, ?_, Kind.pack_injective⟩
  · intro k fields
    exact ⟨k.pack_eq_tagged fields, k.length_pack fields⟩
  · intro k structPtr bytes length type
    exact k.pack_unpack structPtr length type

end Ppcb
