import Ppcb.ClientUDPR

/-!
# The client without retransmission

`client_UDP_lib.c` as a machine, at the same system calls as the client with
retransmission. A failed call ends it. Its sending loop moves its counters before it
sends, and sends all packets before it waits for `RCVD`.
-/

set_option autoImplicit false

namespace Ppcb

open ByteOrder CString Reactive

/-- The local variables of `UDP_client_send_DATA`. -/
structure UDPSend where
  bytesLeft : UInt32
  bytesSent : UInt32
  startCpyPos : UInt64
  currPackageId : UInt64
deriving DecidableEq, Repr

inductive UDPPhase where
  | sendCONN
  | waitCONACC
  | sendDATA (loc : UDPSend) (data : DATA)
  | waitRCVD
  | ended (ret : RetVal)
deriving DecidableEq, Repr

/-- `built` is a history variable, the number of `DATA` packets built so far. Nothing
reads it. -/
structure UDPClient where
  wait : WaitState
  phase : UDPPhase
  built : ℕ
deriving DecidableEq, Repr

def UDPClient.start (errno : Errno) : UDPClient where
  wait := .start errno
  phase := .sendCONN
  built := 0

/-! ## The handlers -/

/-- The part of `UDP_client_CONACC_handler` after `wait_for_server_response`. -/
def udpClientCONACCHandler (sessionId : UInt64) (uninit : CONACC) (buff : List UInt8) : RetVal :=
  let conacc := uninit.receive buff
  if conacc.packageTypeId ≠ conaccId then .ERROR
  else if conacc.sessionId ≠ sessionId then .ERROR
  else if buff.length ≠ sizeofCONACC then .ERROR
  else .SUCCESS

/-- The part of `UDP_client_RCVD_handler` after `wait_for_server_response`. -/
def udpClientRCVDHandler (sessionId : UInt64) (uninit : RCVD) (buff : List UInt8) : RetVal :=
  let rcvd := uninit.receive buff
  if rcvd.packageTypeId ≠ rcvdId then .ERROR
  else if rcvd.sessionId ≠ sessionId then .ERROR
  else if buff.length ≠ sizeofRCVD then .ERROR
  else .SUCCESS

/-! ## The sending loop -/

/-- The locals at the start of `UDP_client_send_DATA`. -/
def UDPSend.start (vec : MyVec) : UDPSend where
  bytesLeft := vec.occupiedSize.toUInt32
  bytesSent := 0
  startCpyPos := 0
  currPackageId := 0

/-- The packet the loop builds, and the counters it moves before sending it. The short
branch does not move `start_cpy_pos`. -/
def UDPSend.build (vec : MyVec) (sessionId : UInt64) (loc : UDPSend) (data : DATA) :
    RetVal × UDPSend × DATA :=
  if loc.bytesLeft < sendBuffSize32 then
    let buff := strncpy (vec.buff.drop loc.startCpyPos.toNat) loc.bytesLeft.toNat
    let (ret, data) := initDATA data sessionId loc.currPackageId loc.bytesLeft buff
    (ret,
      { loc with
        bytesSent := loc.bytesSent + loc.bytesLeft
        bytesLeft := loc.bytesLeft - loc.bytesLeft
        currPackageId := loc.currPackageId + 1 },
      data)
  else
    let buff := strncpy (vec.buff.drop loc.startCpyPos.toNat) sendBuffSize
    let (ret, data) := initDATA data sessionId loc.currPackageId sendBuffSize32 buff
    (ret,
      { bytesSent := loc.bytesSent + sendBuffSize32
        bytesLeft := loc.bytesLeft - sendBuffSize32
        startCpyPos := loc.startCpyPos + sendBuffSize32.toUInt64
        currPackageId := loc.currPackageId + 1 },
      data)

namespace UDPClient

variable (args : ClientArgs)

/-- The test of the loop of `UDP_client_send_DATA` and the building of the next packet. -/
def sendDATA (s : UDPClient) (loc : UDPSend) (data : DATA) : UDPClient :=
  if loc.bytesSent.toUInt64 ≠ args.vec.occupiedSize then
    match loc.build args.vec args.sessionId data with
    | (.SUCCESS, loc, data) => { s with phase := .sendDATA loc data, built := s.built + 1 }
    | _ => { s with phase := .ended .ERROR }
  else
    { s with phase := .waitRCVD }

/-- The answer of `sendto`. -/
def onSendto (s : UDPClient) (r : SendTo) : UDPClient × List Datagram :=
  let s' : UDPClient := match r with
    | .sent => s
    | .failed errno => { s with wait := { s.wait with errno := errno } }
  match s.phase with
  | .sendCONN =>
      if sendtoWrapper r = .SUCCESS then
        ({ s' with phase := .waitCONACC },
          [⟨args.serverAddress,
            (initCONN args.sessionId udpProtocol args.vec.occupiedSize).store⟩])
      else
        ({ s' with phase := .ended .ERROR }, [])
  | .sendDATA loc data =>
      if sendtoWrapper r = .SUCCESS then
        (s'.sendDATA args loc data, [⟨args.serverAddress, data.sentBytes⟩])
      else
        ({ s' with phase := .ended .ERROR }, [])
  | _ => (s, [])

/-- A value returned by `wait_for_server_response`. -/
def onResponse (s : UDPClient) (uninit : ClientUninit) (response : RetVal × List UInt8) :
    UDPClient :=
  match s.phase with
  | .waitCONACC =>
      let ret := if response.1 ≠ .SUCCESS then .ERROR else
        udpClientCONACCHandler args.sessionId uninit.conacc response.2
      if ret ≠ .SUCCESS then { s with phase := .ended .ERROR }
      else s.sendDATA args (.start args.vec) uninit.data
  | .waitRCVD =>
      let ret := if response.1 ≠ .SUCCESS then .ERROR else
        udpClientRCVDHandler args.sessionId uninit.rcvd response.2
      { s with phase := .ended ret }
  | _ => s

/-- Whether the client is blocked in `recvfrom`. -/
def waiting (s : UDPClient) : Bool :=
  match s.phase with
  | .waitCONACC | .waitRCVD => true
  | _ => false

/-- The answer of `recvfrom`. -/
def onRecvfrom (s : UDPClient) (r : RecvFrom) (uninit : ClientUninit) : UDPClient :=
  if s.waiting then
    let (wait, response) := waitForServerResponse s.wait args.serverAddress.sinPort r
    match response with
    | none => { s with wait := wait }
    | some response => ({ s with wait := wait }).onResponse args uninit response
  else s

/-- One event. -/
def step (s : UDPClient) : ClientEvent → UDPClient × List Datagram
  | .sendto r => s.onSendto args r
  | .recvfrom r uninit => (s.onRecvfrom args r uninit, [])

end UDPClient

/-- `UDP_client_handler`. -/
def udpClientHandler (args : ClientArgs) : Machine UDPClient ClientEvent Datagram where
  step := UDPClient.step args

section Handler

variable (args : ClientArgs) (s : UDPClient)

@[simp] theorem UDPClient.next_sendto (r : SendTo) :
    (udpClientHandler args).next s (.sendto r) = (s.onSendto args r).1 := rfl

@[simp] theorem UDPClient.next_recvfrom (r : RecvFrom) (uninit : ClientUninit) :
    (udpClientHandler args).next s (.recvfrom r uninit) = s.onRecvfrom args r uninit := rfl

@[simp] theorem UDPClient.emit_sendto (r : SendTo) :
    (udpClientHandler args).emit s (.sendto r) = (s.onSendto args r).2 := rfl

@[simp] theorem UDPClient.emit_recvfrom (r : RecvFrom) (uninit : ClientUninit) :
    (udpClientHandler args).emit s (.recvfrom r uninit) = [] := rfl

end Handler

end Ppcb
