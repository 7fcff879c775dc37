import Ppcb.Lib.Machine
import Ppcb.HelperFunc

/-!
# The UDP server

`server_UDP_lib.c` as a machine that rests in the `recvfrom` of `read_data_to_buffer`,
called from the idle loop of `UDP_server_handler` or from a receive loop. One event is one
answer of that `recvfrom`, with the contents of the structures that the source leaves
uninitialised and, for the idle loop, the answer of the `sendto` of `CONACC`. The other
calls of `sendto` are not checked by the source.

`UDP_data_receive` and `UDPR_data_receive` each keep a static `client_address`, the source
of the last datagram that call of `recvfrom` returned, which survives from one session
to the next.
-/

set_option autoImplicit false

namespace Ppcb

open Reactive

/-- The function that sends a reply. -/
inductive Origin where
  | readDataToBuffer
  | dataReceive
  | serverHandler
deriving DecidableEq, Repr

structure Reply where
  origin : Origin
  dest : SockAddr
  bytes : List UInt8
deriving DecidableEq, Repr

/-- What the uninitialised local structures hold when they are used: `conn` of the server
handler and of `read_data_to_buffer`, `d_info` of the latter, `data_info` of the receive
loops. -/
structure ServerUninit where
  conn : CONN
  dInfo : DataInfo
  dataInfo : DataInfo
deriving DecidableEq, Repr

section Send

variable (origin : Origin) (clientAddress : SockAddr) (sessionId packageId : UInt64)

def sendCONRJT : Reply := ⟨origin, clientAddress, (initCONRJT sessionId).store⟩
def sendCONACC : Reply := ⟨origin, clientAddress, (initCONACC sessionId).store⟩
def sendRJT : Reply := ⟨origin, clientAddress, (initRJT sessionId packageId).store⟩
def sendRCVD : Reply := ⟨origin, clientAddress, (initRCVD sessionId).store⟩
def sendACC : Reply := ⟨origin, clientAddress, (initACC sessionId packageId).store⟩

end Send

/-! ## Reading a datagram -/

/-- The answer to a datagram whose sender is not the client of the session. -/
def answerForeign (src : SockAddr) (uninit : ServerUninit) (buff : List UInt8) : List Reply :=
  let conn := uninit.conn.receive buff
  if conn.packageTypeId = connId then
    if sizeofCONN ≠ buff.length then []
    else [sendCONRJT .readDataToBuffer src conn.sessionId]
  else if conn.packageTypeId = dataId then
    let dInfo := uninit.dInfo.receive buff
    [sendRJT .readDataToBuffer src dInfo.sessionId dInfo.packageId]
  else []

/-- The result of one pass of the loop of `read_data_to_buffer`: what `*client_address`
holds, the replies, and the value returned with the bytes read; `none` is the
`continue`. -/
structure ReadData where
  clientAddress : SockAddr
  replies : List Reply
  ret : Option (RetVal × List UInt8)
deriving DecidableEq, Repr

/-- One pass of the loop of `read_data_to_buffer`. `correctAddr` is `none` when the caller
passes `client_address` itself, which `recvfrom` has just overwritten. -/
def readDataToBuffer (clientAddress : SockAddr) (correctAddr : Option SockAddr)
    (uninit : ServerUninit) : RecvFrom → ReadData
  | .failed errno =>
      { clientAddress := clientAddress
        replies := []
        ret := some (if errno = .EAGAIN then .TIMEOUT_ERROR else .ERROR, []) }
  | .datagram src bytes =>
      let buff := bytes.take receiveBufforSize
      let correct := correctAddr.getD src
      if src.sAddr ≠ correct.sAddr ∨ src.sinPort ≠ correct.sinPort then
        { clientAddress := src, replies := answerForeign src uninit buff, ret := none }
      else if buff.length = 0 then
        { clientAddress := src, replies := [], ret := some (.ERROR, []) }
      else
        { clientAddress := src, replies := [], ret := some (.SUCCESS, buff) }

def checkIfCorrectCONN (buff : List UInt8) (conn : CONN) : RetVal × CONN :=
  let conn := conn.receive buff
  if buff.length ≠ sizeofCONN then (.ERROR, conn)
  else if conn.packageTypeId ≠ connId then (.ERROR, conn)
  else if conn.protocolId ≠ udpProtocol ∧ conn.protocolId ≠ udprProtocol then (.ERROR, conn)
  else (.SUCCESS, conn)

def checkIfCorrectDATAPacket (buff : List UInt8) (conn : CONN) (dInfo : DataInfo)
    (currPackageId : UInt64) : RetVal × DataInfo :=
  let dInfo := dInfo.receive buff
  if dInfo.packageTypeId ≠ dataId then (.WRONG_PACKAGE_TYPE_ID, dInfo)
  else if dInfo.sessionId ≠ conn.sessionId then (.WRONG_SESSION_ID, dInfo)
  else if dInfo.packageId ≠ currPackageId then (.WRONG_PACKAGE_ID, dInfo)
  else if dInfo.nbrOfBytesInPacket.toNat > maxAllowedPacketSize then (.ERROR, dInfo)
  else if buff.length ≠ sizeofDataInfo + dInfo.nbrOfBytesInPacket.toNat then
    (.WRONG_PACKAGE_SIZE, dInfo)
  else (.SUCCESS, dInfo)

/-! ## The receive loops -/

/-- The parameters and local variables of `UDP_data_receive`. `delivered` is a history
variable, the payloads of the accepted packets, which the source would print. -/
structure UDPSession where
  conn : CONN
  currClientAddr : SockAddr
  bytesRecvd : UInt64
  currPackageId : UInt64
  delivered : List (List UInt8)
deriving DecidableEq, Repr

/-- The parameters and local variables of `UDPR_data_receive`. -/
structure UDPRSession extends UDPSession where
  nbrOfRetransmits : ℕ
  isFirstDATAPacket : Bool
deriving DecidableEq, Repr

def UDPSession.start (conn : CONN) (client : SockAddr) : UDPSession where
  conn := conn
  currClientAddr := client
  bytesRecvd := 0
  currPackageId := 0
  delivered := []

def UDPRSession.start (conn : CONN) (client : SockAddr) : UDPRSession where
  toUDPSession := .start conn client
  nbrOfRetransmits := 0
  isFirstDATAPacket := true

/-- The payload of an accepted packet, at `buff + sizeof(data_info)`. -/
def payloadOf (buff : List UInt8) (dataInfo : DataInfo) : List UInt8 :=
  (buff.drop sizeofDataInfo).take dataInfo.nbrOfBytesInPacket.toNat

/-- A receive loop is blocked in `recvfrom`, or has returned. -/
inductive Flow (σ : Type) where
  | waiting (s : σ)
  | returned (s : σ)
deriving DecidableEq, Repr

/-- A receive loop with its static `client_address`. -/
structure Receiving (σ : Type) where
  flow : Flow σ
  clientAddress : SockAddr
deriving DecidableEq, Repr

/-- The test of the loop of `UDP_data_receive`, and what follows the loop. -/
def udpDataReceiveLoop (s : UDPSession) (clientAddress : SockAddr) :
    Receiving UDPSession × List Reply :=
  if s.bytesRecvd < s.conn.nbrOfBytesToBeSent then
    (⟨.waiting s, clientAddress⟩, [])
  else if s.bytesRecvd = s.conn.nbrOfBytesToBeSent then
    (⟨.returned s, clientAddress⟩, [sendRCVD .dataReceive clientAddress s.conn.sessionId])
  else
    (⟨.returned s, clientAddress⟩, [])

/-- The body of the loop of `UDP_data_receive` after a datagram was read. -/
def udpDataReceiveBody (s : UDPSession) (clientAddress : SockAddr) (uninit : ServerUninit)
    (buff : List UInt8) : Receiving UDPSession × List Reply :=
  let (ret, dataInfo) := checkIfCorrectDATAPacket buff s.conn uninit.dataInfo s.currPackageId
  if ret ≠ .SUCCESS then
    (⟨.returned s, clientAddress⟩,
      [sendRJT .dataReceive clientAddress s.conn.sessionId dataInfo.packageId])
  else
    udpDataReceiveLoop
      { s with
        currPackageId := s.currPackageId + 1
        bytesRecvd := s.bytesRecvd + dataInfo.nbrOfBytesInPacket.toUInt64
        delivered := s.delivered ++ [payloadOf buff dataInfo] }
      clientAddress

/-- One pass of `UDP_data_receive` over an answer of `recvfrom`. -/
def udpDataReceivePass (s : UDPSession) (clientAddress : SockAddr) (r : RecvFrom)
    (uninit : ServerUninit) : Receiving UDPSession × List Reply :=
  let read := readDataToBuffer clientAddress (some s.currClientAddr) uninit r
  match read.ret with
  | none => (⟨.waiting s, read.clientAddress⟩, read.replies)
  | some (.SUCCESS, buff) => udpDataReceiveBody s read.clientAddress uninit buff
  | some _ => (⟨.returned s, read.clientAddress⟩, read.replies)

def doRetransmission (clientAddress : SockAddr) (conn : CONN) (isFirstDATAPacket : Bool)
    (nbrOfRetransmits : ℕ) (currPackageId : UInt64) : RetVal × ℕ × List Reply :=
  if nbrOfRetransmits + 1 > maxRetransmits then
    (.ERROR, nbrOfRetransmits + 1, [])
  else if isFirstDATAPacket then
    (.SUCCESS, nbrOfRetransmits + 1, [sendCONACC .dataReceive clientAddress conn.sessionId])
  else
    (.SUCCESS, nbrOfRetransmits + 1,
      [sendACC .dataReceive clientAddress conn.sessionId (currPackageId - 1)])

def handleRetVal (ret : RetVal) (clientAddress : SockAddr) (readBytes : ℕ)
    (currPackageId : UInt64) (dataInfo : DataInfo) (sessionId : UInt64)
    (isFirstDataPacket : Bool) : RetVal × List Reply :=
  match ret with
  | .WRONG_PACKAGE_TYPE_ID =>
      if dataInfo.packageTypeId = connId then
        if readBytes ≠ sizeofCONN then (.ERROR, [])
        else if isFirstDataPacket then (.CONTINUE, [])
        else (.ERROR, [])
      else (.ERROR, [])
  | .WRONG_SESSION_ID =>
      (.ERROR, [sendRJT .dataReceive clientAddress sessionId currPackageId])
  | .WRONG_PACKAGE_ID =>
      if dataInfo.packageId < currPackageId then
        if readBytes ≠ sizeofDataInfo + dataInfo.nbrOfBytesInPacket.toNat then (.ERROR, [])
        else (.CONTINUE, [])
      else (.ERROR, [sendRJT .dataReceive clientAddress sessionId dataInfo.packageId])
  | .SUCCESS => (.SUCCESS, [])
  | _ => (.ERROR, [sendRJT .dataReceive clientAddress sessionId dataInfo.packageId])

/-- The test of the loop of `UDPR_data_receive`, and what follows the loop. -/
def udprDataReceiveLoop (s : UDPRSession) (clientAddress : SockAddr) :
    Receiving UDPRSession × List Reply :=
  if s.bytesRecvd < s.conn.nbrOfBytesToBeSent then
    (⟨.waiting s, clientAddress⟩, [])
  else if s.bytesRecvd = s.conn.nbrOfBytesToBeSent then
    (⟨.returned s, clientAddress⟩, [sendRCVD .dataReceive clientAddress s.conn.sessionId])
  else
    (⟨.returned s, clientAddress⟩,
      [sendRJT .dataReceive clientAddress s.conn.sessionId s.currPackageId])

/-- The body of the loop of `UDPR_data_receive` after a datagram was read. -/
def udprDataReceiveBody (s : UDPRSession) (clientAddress : SockAddr) (uninit : ServerUninit)
    (buff : List UInt8) : Receiving UDPRSession × List Reply :=
  let (ret, dataInfo) := checkIfCorrectDATAPacket buff s.conn uninit.dataInfo s.currPackageId
  let (ret, replies) := handleRetVal ret clientAddress buff.length s.currPackageId dataInfo
    s.conn.sessionId s.isFirstDATAPacket
  match ret with
  | .ERROR => (⟨.returned s, clientAddress⟩, replies)
  | .CONTINUE => (⟨.waiting s, clientAddress⟩, replies)
  | _ =>
      let acknowledgement :=
        sendACC .dataReceive clientAddress s.conn.sessionId s.currPackageId
      let (receiving, final) := udprDataReceiveLoop
        { s with
          isFirstDATAPacket := false
          currPackageId := s.currPackageId + 1
          bytesRecvd := s.bytesRecvd + dataInfo.nbrOfBytesInPacket.toUInt64
          delivered := s.delivered ++ [payloadOf buff dataInfo] }
        clientAddress
      (receiving, replies ++ acknowledgement :: final)

/-- One pass of `UDPR_data_receive` over an answer of `recvfrom`. -/
def udprDataReceivePass (s : UDPRSession) (clientAddress : SockAddr) (r : RecvFrom)
    (uninit : ServerUninit) : Receiving UDPRSession × List Reply :=
  let read := readDataToBuffer clientAddress (some s.currClientAddr) uninit r
  match read.ret with
  | none => (⟨.waiting s, read.clientAddress⟩, read.replies)
  | some (.SUCCESS, buff) => udprDataReceiveBody s read.clientAddress uninit buff
  | some (.TIMEOUT_ERROR, _) =>
      -- The saved address is used here, not the static one.
      let (ret, nbr, replies) := doRetransmission s.currClientAddr s.conn s.isFirstDATAPacket
        s.nbrOfRetransmits s.currPackageId
      let s := { s with nbrOfRetransmits := nbr }
      if ret ≠ .SUCCESS then (⟨.returned s, read.clientAddress⟩, replies)
      else (⟨.waiting s, read.clientAddress⟩, replies)
  | some _ => (⟨.returned s, read.clientAddress⟩, read.replies)

/-- A receive loop as a machine: a loop that has returned takes no more events. -/
def receiver {σ : Type}
    (pass : σ → SockAddr → RecvFrom → ServerUninit → Receiving σ × List Reply) :
    Machine (Receiving σ) (RecvFrom × ServerUninit) Reply where
  step s e :=
    match s.flow with
    | .waiting session => pass session s.clientAddress e.1 e.2
    | .returned _ => (s, [])

/-- `UDP_data_receive`. -/
def udpDataReceive : Machine (Receiving UDPSession) (RecvFrom × ServerUninit) Reply :=
  receiver udpDataReceivePass

/-- `UDPR_data_receive`. -/
def udprDataReceive : Machine (Receiving UDPRSession) (RecvFrom × ServerUninit) Reply :=
  receiver udprDataReceivePass

/-! ## The server -/

inductive ServerMode where
  | idle
  | udp (s : UDPSession)
  | udpr (s : UDPRSession)
  | finished
deriving DecidableEq, Repr

/-- The server: where it is, the static variables of the receive loops, and the flag set
by the handler of `SIGINT`. `ended` is a history variable, the sessions that are over.
Nothing reads it. -/
structure UDPServer where
  mode : ServerMode
  udpClientAddress : SockAddr
  udprClientAddress : SockAddr
  finish : Bool
  ended : List UDPSession
deriving DecidableEq, Repr

inductive ServerEvent where
  | recvfrom (r : RecvFrom) (uninit : ServerUninit) (conacc : SendTo)
  | catchInt
deriving DecidableEq, Repr

namespace UDPServer

/-- Static variables start as zeros. -/
def start : UDPServer where
  mode := .idle
  udpClientAddress := ⟨0, 0⟩
  udprClientAddress := ⟨0, 0⟩
  finish := false
  ended := []

/-- A call of `UDP_data_receive` that waits or has returned. -/
def afterUDP (s : UDPServer) (receiving : Receiving UDPSession) : UDPServer :=
  match receiving.flow with
  | .waiting session =>
      { s with mode := .udp session, udpClientAddress := receiving.clientAddress }
  | .returned session =>
      { s with
        mode := .idle
        udpClientAddress := receiving.clientAddress
        ended := s.ended ++ [session] }

/-- A call of `UDPR_data_receive` that waits or has returned. -/
def afterUDPR (s : UDPServer) (receiving : Receiving UDPRSession) : UDPServer :=
  match receiving.flow with
  | .waiting session =>
      { s with mode := .udpr session, udprClientAddress := receiving.clientAddress }
  | .returned session =>
      { s with
        mode := .idle
        udprClientAddress := receiving.clientAddress
        ended := s.ended ++ [session.toUDPSession] }

/-- The `switch` on the protocol of a correct `CONN`. -/
def openSession (s : UDPServer) (conn : CONN) (client : SockAddr) : UDPServer × List Reply :=
  if conn.protocolId = udpProtocol then
    let (receiving, replies) := udpDataReceiveLoop (.start conn client) s.udpClientAddress
    (s.afterUDP receiving, replies)
  else if conn.protocolId = udprProtocol then
    let (receiving, replies) := udprDataReceiveLoop (.start conn client) s.udprClientAddress
    (s.afterUDPR receiving, replies)
  else (s, [])

/-- One pass of the loop of `UDP_server_handler` while no session is active. -/
def onIdle (s : UDPServer) (r : RecvFrom) (uninit : ServerUninit) (conacc : SendTo) :
    UDPServer × List Reply :=
  let read := readDataToBuffer ⟨0, 0⟩ none uninit r
  match read.ret with
  | some (.SUCCESS, buff) =>
      let (ret, conn) := checkIfCorrectCONN buff uninit.conn
      if ret ≠ .SUCCESS then
        (s, [sendCONRJT .serverHandler read.clientAddress conn.sessionId])
      else if sendtoWrapper conacc ≠ .SUCCESS then
        (s, [])
      else
        let (s, replies) := s.openSession conn read.clientAddress
        (s, sendCONACC .serverHandler read.clientAddress conn.sessionId :: replies)
  | some _ => if s.finish then ({ s with mode := .finished }, []) else (s, [])
  | none => (s, read.replies)

/-- One event. -/
def step (s : UDPServer) : ServerEvent → UDPServer × List Reply
  | .catchInt => ({ s with finish := true }, [])
  | .recvfrom r uninit conacc =>
      match s.mode with
      | .idle => s.onIdle r uninit conacc
      | .udp session =>
          let (receiving, replies) := udpDataReceivePass session s.udpClientAddress r uninit
          (s.afterUDP receiving, replies)
      | .udpr session =>
          let (receiving, replies) := udprDataReceivePass session s.udprClientAddress r uninit
          (s.afterUDPR receiving, replies)
      | .finished => (s, [])

end UDPServer

/-- `UDP_server_handler`. -/
def udpServerHandler : Machine UDPServer ServerEvent Reply where
  step := UDPServer.step

end Ppcb
