import Ppcb.Lib.Machine
import Ppcb.Common

/-!
# The TCP server

`server_TCP_lib.c` as a machine that rests at its system calls: in `accept`, or in a `read`
or `write` of a `readn` or `writen`. One event is one answer to the pending call; an answer
that the call cannot give changes nothing. `SIGINT` can arrive at any moment.

The static `conn` and `data_metainfo` survive from one connection to the next, and a read that
breaks off leaves them partly overwritten. The other static structures are filled before each
use, and the contents of `buff` and of `client_address` are never looked at.
-/

set_option autoImplicit false

namespace Ppcb

open ByteOrder CString Reactive

/-- The local variables of the receive loop. `accepted` is a history variable, the sizes of
the packets for which `curr_packet_id` moved on. Nothing reads it. -/
structure TCPSession where
  totalNbrOfBytesToBeSent : UInt64
  nbrOfBytesReceived : UInt64
  currPacketId : UInt64
  accepted : List UInt32
deriving DecidableEq, Repr

/-- The system call the server is at. -/
inductive TCPServerPhase where
  | accept
  | readCONN (got : List UInt8)
  | writeCONACC (left : List UInt8)
  | readDataInfo (loc : TCPSession) (got : List UInt8)
  | readData (loc : TCPSession) (got : List UInt8)
  | writeRJT (left : List UInt8)
  | writeRCVD (left : List UInt8)
  | finished
deriving DecidableEq, Repr

/-- `delivered` and `received` are history variables of the connection that is served, or was
served last: the payloads read, which the source would print, and whether it ended with
`RCVD`. Nothing reads them. -/
structure TCPServer where
  phase : TCPServerPhase
  conn : CONN
  dataMetainfo : DataInfo
  finish : Bool
  delivered : List (List UInt8)
  received : Bool
deriving DecidableEq, Repr

inductive TCPServerEvent where
  | accept (r : Connect)
  | read (r : Read)
  | write (r : Write)
  | catchInt
deriving DecidableEq, Repr

/-- What the client sees of the server: bytes, and the end of the connection. -/
inductive TCPOutput where
  | written (bytes : List UInt8)
  | closed
deriving DecidableEq, Repr

/-! ## The functions, after the call they make has returned -/

/-- The part of `TCP_handle_conn_init` after `readn`. -/
def tcpHandleConnInit (conn : CONN) (readLength : Option ℕ) : RetVal :=
  if readnErrorHandler readLength sizeofCONN ≠ .SUCCESS then .ERROR
  else if conn.packageTypeId ≠ connId then .ERROR
  else if conn.protocolId ≠ tcpProtocol then .ERROR
  else if readLength ≠ some sizeofCONN then .ERROR
  else .SUCCESS

/-- The part of `TCP_get_DATA_metainfo` after `readn`. -/
def tcpGetDATAMetainfo (dataMetainfo : DataInfo) (readLength : Option ℕ)
    (sessionId currPacketId : UInt64) : RetVal × DataInfo :=
  if readnErrorHandler readLength sizeofDataInfo ≠ .SUCCESS then (.ERROR, dataMetainfo)
  else
    let dataMetainfo := ntohDataInfo dataMetainfo
    if readLength ≠ some sizeofDataInfo then (.ERROR, dataMetainfo)
    else if dataMetainfo.packageTypeId ≠ dataId then (.ERROR, dataMetainfo)
    else if dataMetainfo.sessionId ≠ sessionId then (.ERROR, dataMetainfo)
    else if dataMetainfo.packageId ≠ currPacketId then (.ERROR, dataMetainfo)
    else if dataMetainfo.nbrOfBytesInPacket.toNat > maxAllowedPacketSize then
      (.ERROR, dataMetainfo)
    else (.SUCCESS, dataMetainfo)

/-- The part of `TCP_send_packet` after `writen`. -/
def tcpSendPacket (writtenLength : Option ℕ) (packetSize : ℕ) : RetVal :=
  match writtenLength with
  | none => .ERROR
  | some length =>
      if length < packetSize then .ERROR else if length = 0 then .ERROR else .SUCCESS

/-- The part of `TCP_read_data_to_buf` after `readn`. -/
def tcpReadDataToBuf (readBytes : Option ℕ) (nbrOfBytesInPacket : UInt32) : RetVal :=
  match readBytes with
  | none => .ERROR
  | some bytes => if bytes ≠ nbrOfBytesInPacket.toNat then .ERROR else .SUCCESS

/-! ## The server -/

namespace TCPServer

/-- Static variables start as zeros. -/
def start : TCPServer where
  phase := .accept
  conn := ⟨0, 0, 0, 0⟩
  dataMetainfo := ⟨0, 0, 0, 0⟩
  finish := false
  delivered := []
  received := false

/-- The call the server is blocked in, as far as the connection is concerned. -/
def call (s : TCPServer) : Call UInt8 :=
  match s.phase with
  | .accept => .closed
  | .readCONN got => .read (sizeofCONN - got.length)
  | .writeCONACC left => .write left
  | .readDataInfo _ got => .read (sizeofDataInfo - got.length)
  | .readData _ got => .read (s.dataMetainfo.nbrOfBytesInPacket.toNat - got.length)
  | .writeRJT left => .write left
  | .writeRCVD left => .write left
  | .finished => .closed

/-- `close` of the client's descriptor, and back to `accept`. -/
def close (s : TCPServer) : TCPServer × List TCPOutput := ({ s with phase := .accept }, [.closed])

/-- The answer of `accept`. -/
def onAccept (s : TCPServer) (r : Connect) : TCPServer :=
  match s.phase, r with
  | .accept, .connected =>
      { s with phase := .readCONN [], delivered := [], received := false }
  | .accept, .failed _ => if s.finish then { s with phase := .finished } else s
  | _, _ => s

/-- `TCP_handle_conn_init` has read what it could. -/
def connRead (s : TCPServer) (readLength : Option ℕ) (got : List UInt8) :
    TCPServer × List TCPOutput :=
  let conn := CONN.load (readOver s.conn.store got)
  if tcpHandleConnInit conn readLength ≠ .SUCCESS then
    { s with conn := conn }.close
  else
    let conn := ntohCONN conn
    ({ s with conn := conn, phase := .writeCONACC (initCONACC conn.sessionId).store }, [])

def handleRJTSending (s : TCPServer) (currPacketId : UInt64) : TCPServer :=
  { s with phase := .writeRJT (initRJT s.conn.sessionId currPacketId).store }

/-- The test of the receive loop, and the `RCVD` after it. -/
def receiveLoop (s : TCPServer) (loc : TCPSession) : TCPServer :=
  if loc.nbrOfBytesReceived < loc.totalNbrOfBytesToBeSent then
    { s with phase := .readDataInfo loc [] }
  else
    { s with phase := .writeRCVD (initRCVD s.conn.sessionId).store, received := true }

/-- `CONACC` has been sent, or not. -/
def conaccWritten (s : TCPServer) (writtenLength : Option ℕ) : TCPServer × List TCPOutput :=
  if tcpSendPacket writtenLength sizeofCONACC ≠ .SUCCESS then s.close
  else
    (s.receiveLoop
      { totalNbrOfBytesToBeSent := s.conn.nbrOfBytesToBeSent
        nbrOfBytesReceived := 0
        currPacketId := 0
        accepted := [] }, [])

/-- `TCP_read_data_to_buf` has read what it could. The id has already moved on. -/
def dataRead (s : TCPServer) (loc : TCPSession) (readBytes : Option ℕ) (got : List UInt8) :
    TCPServer :=
  if tcpReadDataToBuf readBytes s.dataMetainfo.nbrOfBytesInPacket ≠ .SUCCESS then
    s.handleRJTSending loc.currPacketId
  else
    { s with delivered := s.delivered ++ [got] }.receiveLoop loc

/-- `TCP_get_DATA_metainfo` has read what it could. -/
def dataInfoRead (s : TCPServer) (loc : TCPSession) (readLength : Option ℕ)
    (got : List UInt8) : TCPServer :=
  let (ret, dataMetainfo) := tcpGetDATAMetainfo
    (DataInfo.load (readOver s.dataMetainfo.store got)) readLength s.conn.sessionId
    loc.currPacketId
  let s := { s with dataMetainfo := dataMetainfo }
  if ret ≠ .SUCCESS then s.handleRJTSending loc.currPacketId
  else
    let received := loc.nbrOfBytesReceived + dataMetainfo.nbrOfBytesInPacket.toUInt64
    if received > loc.totalNbrOfBytesToBeSent then s.handleRJTSending loc.currPacketId
    else
      let loc := { loc with
        nbrOfBytesReceived := received
        currPacketId := loc.currPacketId + 1
        accepted := loc.accepted ++ [dataMetainfo.nbrOfBytesInPacket] }
      -- A packet that announces no bytes is read without a `read`.
      match readnLoop dataMetainfo.nbrOfBytesInPacket.toNat [] with
      | .blocked got => { s with phase := .readData loc got }
      | .returned readBytes got => s.dataRead loc readBytes got

/-- The answer of `read`. -/
def onRead (s : TCPServer) (r : Read) : TCPServer × List TCPOutput :=
  match s.phase with
  | .readCONN got =>
      match readnPass sizeofCONN got r with
      | .blocked got => ({ s with phase := .readCONN got }, [])
      | .returned readLength got => s.connRead readLength got
  | .readDataInfo loc got =>
      match readnPass sizeofDataInfo got r with
      | .blocked got => ({ s with phase := .readDataInfo loc got }, [])
      | .returned readLength got => (s.dataInfoRead loc readLength got, [])
  | .readData loc got =>
      match readnPass s.dataMetainfo.nbrOfBytesInPacket.toNat got r with
      | .blocked got => ({ s with phase := .readData loc got }, [])
      | .returned readBytes got => (s.dataRead loc readBytes got, [])
  | _ => (s, [])

/-- The bytes one call of `write` put on the connection. -/
def writtenBytes (left : List UInt8) : Write → List TCPOutput
  | .wrote k => [.written (left.take k)]
  | .failed _ => []

/-- The answer of `write`. The result of sending `RJT` or `RCVD` is not looked at. -/
def onWrite (s : TCPServer) (r : Write) : TCPServer × List TCPOutput :=
  match s.phase with
  | .writeCONACC left =>
      match writenPass sizeofCONACC left r with
      | .blocked left' => ({ s with phase := .writeCONACC left' }, writtenBytes left r)
      | .returned writtenLength =>
          let (s, closing) := s.conaccWritten writtenLength
          (s, writtenBytes left r ++ closing)
  | .writeRJT left =>
      match writenPass sizeofRJT left r with
      | .blocked left' => ({ s with phase := .writeRJT left' }, writtenBytes left r)
      | .returned _ => (s.close.1, writtenBytes left r ++ s.close.2)
  | .writeRCVD left =>
      match writenPass sizeofRCVD left r with
      | .blocked left' => ({ s with phase := .writeRCVD left' }, writtenBytes left r)
      | .returned _ => (s.close.1, writtenBytes left r ++ s.close.2)
  | _ => (s, [])

/-- One event. -/
def step (s : TCPServer) : TCPServerEvent → TCPServer × List TCPOutput
  | .accept r => (s.onAccept r, [])
  | .read r => if r.Answers s.call then s.onRead r else (s, [])
  | .write r => if r.Answers s.call then s.onWrite r else (s, [])
  | .catchInt => ({ s with finish := true }, [])

end TCPServer

/-- `TCP_server_handler`. -/
def tcpServerHandler : Machine TCPServer TCPServerEvent TCPOutput where
  step := TCPServer.step

/-- The server at its end of a connection. -/
def tcpServerProcess : Process TCPServer UInt8 where
  call := TCPServer.call
  onRead s bytes := tcpServerHandler.next s (.read (.data bytes))
  onWrite s k := tcpServerHandler.next s (.write (.wrote k))

end Ppcb
