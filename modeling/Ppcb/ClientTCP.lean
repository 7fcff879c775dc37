import Ppcb.ClientUDP
import Ppcb.Common

/-!
# The TCP client

`client_TCP_lib.c` as a machine that rests at its system calls: `connect`, and the `read`
or `write` of a `readn` or `writen`. An answer that the pending call cannot give changes
nothing.

The sending loop builds its packets as the loop without retransmission does, but each
packet goes out as the whole `DATA` structure, whatever its length. The structure is not
initialised, so behind a short payload stands what the memory held before.
-/

set_option autoImplicit false

namespace Ppcb

open ByteOrder CString Reactive

def sizeofDATA : ℕ := 64021

/-- What the uninitialised local structures hold when they are used. -/
structure TCPClientUninit where
  conacc : CONACC
  rcvd : RCVD
  data : DATA
  whole : data.seqOfBytes.length = sendBuffSize

/-- The local variables of `TCP_client_send_DATA`. -/
abbrev TCPSend := UDPSend

/-- The system call the client is at. The handler returns nothing; `ended` says whether it
has come to its last line. -/
inductive TCPClientPhase where
  | connect
  | writeCONN (left : List UInt8)
  | readCONACC (got : List UInt8)
  | writeDATA (loc : TCPSend) (data : DATA) (left : List UInt8)
  | readRCVD (got : List UInt8)
  | ended (ret : RetVal)
deriving DecidableEq, Repr

structure TCPClient where
  phase : TCPClientPhase
  uninit : TCPClientUninit

inductive TCPClientEvent where
  | connect (r : Connect)
  | read (r : Read)
  | write (r : Write)
deriving DecidableEq, Repr

/-! ## The functions, after the call they make has returned -/

/-- The common body of `TCP_client_send_CONN` and `send_data_wrapper` after `writen`. -/
def tcpClientWritten (size : ℕ) : Option ℕ → RetVal
  | none => .ERROR
  | some length => if length ≠ size then .ERROR else .SUCCESS

def tcpClientSendCONN (writtenLength : Option ℕ) : RetVal :=
  tcpClientWritten sizeofCONN writtenLength

def sendDataWrapper (writtenLength : Option ℕ) : RetVal :=
  tcpClientWritten sizeofDATA writtenLength

/-- The common body of `check_CONACC` and `check_RCVD`. -/
def checkSession (typeId : UInt8) (sessionId : UInt64) (packet : SessionPacket) : RetVal :=
  if packet.packageTypeId ≠ typeId then .ERROR
  else if packet.sessionId ≠ sessionId then .ERROR
  else .SUCCESS

def checkCONACC (sessionId : UInt64) (conacc : CONACC) : RetVal :=
  checkSession conaccId sessionId conacc

def checkRCVD (sessionId : UInt64) (rcvd : RCVD) : RetVal :=
  checkSession rcvdId sessionId rcvd

/-! ## The client -/

namespace TCPClient

/-- Before `connect`. -/
def start (uninit : TCPClientUninit) : TCPClient where
  phase := .connect
  uninit := uninit

/-- The call the client is blocked in, as far as the connection is concerned. -/
def call (s : TCPClient) : Call UInt8 :=
  match s.phase with
  | .connect => .closed
  | .writeCONN left => .write left
  | .readCONACC got => .read (sizeofCONACC - got.length)
  | .writeDATA _ _ left => .write left
  | .readRCVD got => .read (sizeofRCVD - got.length)
  | .ended _ => .closed

section Step

variable (args : ClientArgs) (s : TCPClient)

/-- The answer of `connect`. -/
def onConnect : Connect → TCPClient
  | .connected =>
      { s with
        phase := .writeCONN (initCONN args.sessionId tcpProtocol args.vec.occupiedSize).store }
  | .failed _ => { s with phase := .ended .ERROR }

/-- The test of the loop of `TCP_client_send_DATA` and the building of the next packet. -/
def sendDATA (loc : TCPSend) (data : DATA) : TCPClient :=
  if loc.bytesSent.toUInt64 ≠ args.vec.occupiedSize then
    match loc.build args.vec args.sessionId data with
    | (.SUCCESS, loc, data) => { s with phase := .writeDATA loc data data.store }
    | _ => { s with phase := .ended .ERROR }
  else
    { s with phase := .readRCVD [] }

/-- `CONN` has been sent, or not. -/
def connWritten (writtenLength : Option ℕ) : TCPClient :=
  if tcpClientSendCONN writtenLength ≠ .SUCCESS then { s with phase := .ended .ERROR }
  else { s with phase := .readCONACC [] }

/-- A `DATA` packet has been sent, or not. -/
def dataWritten (loc : TCPSend) (data : DATA) (writtenLength : Option ℕ) : TCPClient :=
  if sendDataWrapper writtenLength ≠ .SUCCESS then { s with phase := .ended .ERROR }
  else s.sendDATA args loc data

/-- `readn` has read what it could of `CONACC`. -/
def conaccRead (readLength : Option ℕ) (got : List UInt8) : TCPClient :=
  if readnErrorHandler readLength sizeofCONACC ≠ .SUCCESS then
    { s with phase := .ended .ERROR }
  else
    let conacc := ntohCONACC (.load (readOver s.uninit.conacc.store got))
    if checkCONACC args.sessionId conacc ≠ .SUCCESS then { s with phase := .ended .ERROR }
    else s.sendDATA args (.start args.vec) s.uninit.data

/-- `readn` has read what it could of `RCVD`. -/
def rcvdRead (readLength : Option ℕ) (got : List UInt8) : TCPClient :=
  if readnErrorHandler readLength sizeofRCVD ≠ .SUCCESS then
    { s with phase := .ended .ERROR }
  else
    let rcvd := ntohRCVD (.load (readOver s.uninit.rcvd.store got))
    { s with phase := .ended (checkRCVD args.sessionId rcvd) }

/-- The answer of `read`. -/
def onRead (r : Read) : TCPClient :=
  match s.phase with
  | .readCONACC got =>
      match readnPass sizeofCONACC got r with
      | .blocked got => { s with phase := .readCONACC got }
      | .returned readLength got => s.conaccRead args readLength got
  | .readRCVD got =>
      match readnPass sizeofRCVD got r with
      | .blocked got => { s with phase := .readRCVD got }
      | .returned readLength got => s.rcvdRead args readLength got
  | _ => s

/-- The answer of `write`. -/
def onWrite (r : Write) : TCPClient :=
  match s.phase with
  | .writeCONN left =>
      match writenPass sizeofCONN left r with
      | .blocked left => { s with phase := .writeCONN left }
      | .returned writtenLength => s.connWritten writtenLength
  | .writeDATA loc data left =>
      match writenPass sizeofDATA left r with
      | .blocked left => { s with phase := .writeDATA loc data left }
      | .returned writtenLength => s.dataWritten args loc data writtenLength
  | _ => s

/-- The bytes one call of `write` put on the connection. -/
def writtenBytes : Write → List (List UInt8)
  | .wrote k =>
      match s.call with
      | .write left => [left.take k]
      | _ => []
  | .failed _ => []

/-- One event. -/
def step : TCPClientEvent → TCPClient × List (List UInt8)
  | .connect r => if s.phase = .connect then (s.onConnect args r, []) else (s, [])
  | .read r => if r.Answers s.call then (s.onRead args r, []) else (s, [])
  | .write r => if r.Answers s.call then (s.onWrite args r, s.writtenBytes r) else (s, [])

end Step

end TCPClient

/-- `TCP_client_handler`. -/
def tcpClientHandler (args : ClientArgs) : Machine TCPClient TCPClientEvent (List UInt8) where
  step := TCPClient.step args

/-- The client at its end of a connection. -/
def tcpClientProcess (args : ClientArgs) : Process TCPClient UInt8 where
  call := TCPClient.call
  onRead s bytes := (tcpClientHandler args).next s (.read (.data bytes))
  onWrite s k := (tcpClientHandler args).next s (.write (.wrote k))

end Ppcb
