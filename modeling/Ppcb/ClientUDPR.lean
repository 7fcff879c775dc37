import Ppcb.Lib.Machine
import Ppcb.HelperFunc
import Ppcb.MyVec

/-!
# The client with retransmission

`client_UDPR_lib.c` as a machine. It rests at the system calls: before a `sendto`, or
blocked in the `recvfrom` of `wait_for_server_response`. One event is the answer to one
system call; an answer to a call that is not pending changes nothing.

Local structures that the source leaves uninitialised hold whatever the event says
(`ClientUninit`).
-/

set_option autoImplicit false

namespace Ppcb

open ByteOrder CString Reactive

/-- The arguments of the client's handlers. -/
structure ClientArgs where
  serverAddress : SockAddr
  vec : MyVec
  sessionId : UInt64

/-- What the uninitialised local structures hold when they are used. -/
structure ClientUninit where
  conacc : CONACC
  acc : ACC
  rcvd : RCVD
  data : DATA
deriving DecidableEq, Repr

inductive ClientEvent where
  | sendto (r : SendTo)
  | recvfrom (r : RecvFrom) (uninit : ClientUninit)
deriving DecidableEq, Repr

/-- The local variables of `UDPR_client_send_DATA`. -/
structure UDPRSend where
  bytesLeft : UInt32
  bytesSent : UInt32
  startCpyPos : UInt64
  shift : UInt64
  currPackageId : UInt64
  isBeforeFirstAcc : Bool
deriving DecidableEq, Repr

/-- The system call the client is at, with the local variables alive there. -/
inductive UDPRPhase where
  | sendCONN
  | waitCONACC
  | sendDATA (loc : UDPRSend) (data : DATA)
  | waitACC (loc : UDPRSend) (data : DATA)
  | waitRCVD
  | ended (ret : RetVal)
deriving DecidableEq, Repr

/-- `acked` is a history variable, the number of `DATA` packets acknowledged so far.
Nothing reads it. -/
structure UDPRClient where
  wait : WaitState
  nbrOfRetransmits : ℕ
  phase : UDPRPhase
  acked : ℕ
deriving DecidableEq, Repr

def UDPRClient.start (errno : Errno) : UDPRClient where
  wait := .start errno
  nbrOfRetransmits := 0
  phase := .sendCONN
  acked := 0

/-! ## The handlers, one received datagram at a time -/

/-- The part of `UDPR_client_init_connection` after `wait_for_server_response`. -/
def udprClientInitConnection (sessionId : UInt64) (uninit : CONACC) (buff : List UInt8) :
    RetVal :=
  let conacc := uninit.receive buff
  if conacc.packageTypeId = conrjtId ∧ conacc.sessionId = sessionId then .CONRJT_ERROR
  else if buff.length ≠ sizeofCONACC then .ERROR
  else if conacc.packageTypeId ≠ conaccId ∨ conacc.sessionId ≠ sessionId then .ERROR
  else .SUCCESS

/-- One pass of the loop of `UDPR_client_handle_RCVD` after `wait_for_server_response`
returned; `none` is the `continue`. -/
def udprClientHandleRCVD (uninit : ClientUninit) (currPackageId sessionId : UInt64) :
    RetVal × List UInt8 → Option RetVal
  | (.TIMEOUT_ERROR, _) => some .ERROR
  | (.ERROR, _) => some .ERROR
  | (_, buff) =>
      let rcvd := uninit.rcvd.receive buff
      if rcvd.packageTypeId = accId then
        if rcvd.sessionId = sessionId then
          let acc := uninit.acc.receive buff
          if buff.length ≠ sizeofACC then some .ERROR
          else if acc.packageId > currPackageId then some .ERROR
          else none
        else some .ERROR
      else if rcvd.packageTypeId ≠ rcvdId then some .ERROR
      else if rcvd.sessionId ≠ sessionId then some .ERROR
      else if buff.length ≠ sizeofRCVD then some .ERROR
      else some .SUCCESS

/-- Count a retransmission; past the limit it is an error. -/
def countRetransmit (nbrOfRetransmits : ℕ) : RetVal × ℕ :=
  (if nbrOfRetransmits + 1 > maxRetransmits then .ERROR else .RETRANSMISSION,
    nbrOfRetransmits + 1)

/-- One pass of the loop of `UDPR_client_handle_ACC` after `wait_for_server_response`
returned, with the counter it leaves; `none` is the `continue`. -/
def udprClientHandleACC (uninit : ACC) (nbrOfRetransmits : ℕ)
    (currPackageId sessionId : UInt64) (isBeforeFirstAcc : Bool) :
    RetVal × List UInt8 → Option (RetVal × ℕ)
  | (.TIMEOUT_ERROR, _) => some (countRetransmit nbrOfRetransmits)
  | (.ERROR, _) => some (.ERROR, nbrOfRetransmits)
  | (_, buff) =>
      let acc := uninit.receive buff
      if acc.packageTypeId = conaccId then
        if buff.length ≠ sizeofCONACC then some (.ERROR, nbrOfRetransmits)
        else if acc.sessionId = sessionId ∧ isBeforeFirstAcc then none
        else some (.ERROR, nbrOfRetransmits)
      else if acc.packageTypeId = rcvdId then
        if acc.sessionId ≠ sessionId then some (.ERROR, nbrOfRetransmits)
        else if buff.length ≠ sizeofRCVD then some (.ERROR, nbrOfRetransmits)
        else some (countRetransmit nbrOfRetransmits)
      else if acc.packageTypeId ≠ accId then some (.ERROR, nbrOfRetransmits)
      else if acc.sessionId ≠ sessionId then some (.ERROR, nbrOfRetransmits)
      else if buff.length ≠ sizeofACC then some (.ERROR, nbrOfRetransmits)
      else if acc.packageId < currPackageId then none
      else if acc.packageId > currPackageId then some (.ERROR, nbrOfRetransmits)
      else some (.SUCCESS, nbrOfRetransmits)

/-! ## The sending loop -/

/-- `SEND_BUFF_SIZE` as an argument of `init_DATA`. -/
def sendBuffSize32 : UInt32 := 64000

/-- The locals at the start of `UDPR_client_send_DATA`. -/
def UDPRSend.start (vec : MyVec) : UDPRSend where
  bytesLeft := vec.occupiedSize.toUInt32
  bytesSent := 0
  startCpyPos := 0
  shift := 0
  currPackageId := 0
  isBeforeFirstAcc := true

/-- The packet the loop builds, and the `shift` it sets. -/
def UDPRSend.build (vec : MyVec) (sessionId : UInt64) (loc : UDPRSend) (data : DATA) :
    RetVal × UDPRSend × DATA :=
  if loc.bytesLeft < sendBuffSize32 then
    let buff := strncpy (vec.buff.drop loc.startCpyPos.toNat) loc.bytesLeft.toNat
    let (ret, data) := initDATA data sessionId loc.currPackageId loc.bytesLeft buff
    (ret, { loc with shift := loc.bytesLeft.toUInt64 }, data)
  else
    let buff := strncpy (vec.buff.drop loc.startCpyPos.toNat) sendBuffSize
    let (ret, data) := initDATA data sessionId loc.currPackageId sendBuffSize32 buff
    (ret, { loc with shift := sendBuffSize32.toUInt64 }, data)

/-- The end of a pass whose packet was acknowledged. -/
def UDPRSend.advance (loc : UDPRSend) : UDPRSend :=
  { loc with
    isBeforeFirstAcc := false
    currPackageId := loc.currPackageId + 1
    bytesSent := loc.bytesSent + loc.shift.toUInt32
    bytesLeft := loc.bytesLeft - loc.shift.toUInt32
    startCpyPos := loc.startCpyPos + loc.shift }

/-- The test of the loop and the building of the next packet: the next system call. -/
def udprClientSendDATA (args : ClientArgs) (loc : UDPRSend) (data : DATA) : UDPRPhase :=
  if loc.bytesSent.toUInt64 < args.vec.occupiedSize then
    match loc.build args.vec args.sessionId data with
    | (.SUCCESS, loc, data) => .sendDATA loc data
    | _ => .ended .ERROR
  else
    .waitRCVD

/-- The bytes of a `DATA` packet given to `sendto`: the header and the payload. -/
def DATA.sentBytes (data : DATA) : List UInt8 :=
  data.store.take (sizeofDataInfo + (be32toh data.nbrOfBytesInPacket).toNat)

/-! ## The handler -/

namespace UDPRClient

variable (args : ClientArgs)

/-- The loop of `UDPR_client_handler` after an attempt to connect that failed. -/
def connectAgain (s : UDPRClient) : UDPRClient :=
  if s.nbrOfRetransmits + 1 > maxRetransmits then
    { s with nbrOfRetransmits := s.nbrOfRetransmits + 1, phase := .ended .ERROR }
  else
    { s with nbrOfRetransmits := s.nbrOfRetransmits + 1, phase := .sendCONN }

/-- The answer of `sendto`. -/
def onSendto (s : UDPRClient) (r : SendTo) : UDPRClient × List Datagram :=
  let s' : UDPRClient := match r with
    | .sent => s
    | .failed errno => { s with wait := { s.wait with errno := errno } }
  match s.phase with
  | .sendCONN =>
      if sendtoWrapper r = .SUCCESS then
        ({ s' with phase := .waitCONACC },
          [⟨args.serverAddress,
            (initCONN args.sessionId udprProtocol args.vec.occupiedSize).store⟩])
      else
        (s'.connectAgain, [])
  | .sendDATA loc data =>
      if sendtoWrapper r = .SUCCESS then
        ({ s' with phase := .waitACC loc data }, [⟨args.serverAddress, data.sentBytes⟩])
      else
        ({ s' with phase := .ended .ERROR }, [])
  | _ => (s, [])

/-- A value returned by `wait_for_server_response`. -/
def onResponse (s : UDPRClient) (uninit : ClientUninit) (response : RetVal × List UInt8) :
    UDPRClient :=
  match s.phase with
  | .waitCONACC =>
      let ret := if response.1 ≠ .SUCCESS then .ERROR else
        udprClientInitConnection args.sessionId uninit.conacc response.2
      match ret with
      | .SUCCESS => { s with phase := udprClientSendDATA args (.start args.vec) uninit.data }
      | .CONRJT_ERROR => { s with phase := .ended .CONRJT_ERROR }
      | _ => s.connectAgain
  | .waitACC loc data =>
      match udprClientHandleACC uninit.acc s.nbrOfRetransmits loc.currPackageId args.sessionId
          loc.isBeforeFirstAcc response with
      | none => s
      | some (.SUCCESS, nbr) =>
          { s with
            nbrOfRetransmits := nbr
            phase := udprClientSendDATA args loc.advance data
            acked := s.acked + 1 }
      | some (.RETRANSMISSION, nbr) =>
          { s with nbrOfRetransmits := nbr, phase := udprClientSendDATA args loc data }
      | some (_, nbr) => { s with nbrOfRetransmits := nbr, phase := .ended .ERROR }
  | .waitRCVD =>
      -- `last_package_idx` is still what it was initialised with.
      match udprClientHandleRCVD uninit 0 args.sessionId response with
      | none => s
      | some ret => { s with phase := .ended ret }
  | _ => s

/-- Whether the client is blocked in `recvfrom`. -/
def waiting (s : UDPRClient) : Bool :=
  match s.phase with
  | .waitCONACC | .waitACC _ _ | .waitRCVD => true
  | _ => false

/-- The answer of `recvfrom`. -/
def onRecvfrom (s : UDPRClient) (r : RecvFrom) (uninit : ClientUninit) : UDPRClient :=
  if s.waiting then
    let (wait, response) := waitForServerResponse s.wait args.serverAddress.sinPort r
    match response with
    | none => { s with wait := wait }
    | some response => ({ s with wait := wait }).onResponse args uninit response
  else s

/-- One event. -/
def step (s : UDPRClient) : ClientEvent → UDPRClient × List Datagram
  | .sendto r => s.onSendto args r
  | .recvfrom r uninit => (s.onRecvfrom args r uninit, [])

end UDPRClient

/-- `UDPR_client_handler`. -/
def udprClientHandler (args : ClientArgs) : Machine UDPRClient ClientEvent Datagram where
  step := UDPRClient.step args

section Handler

variable (args : ClientArgs) (s : UDPRClient)

@[simp] theorem UDPRClient.next_sendto (r : SendTo) :
    (udprClientHandler args).next s (.sendto r) = (s.onSendto args r).1 := rfl

@[simp] theorem UDPRClient.next_recvfrom (r : RecvFrom) (uninit : ClientUninit) :
    (udprClientHandler args).next s (.recvfrom r uninit) = s.onRecvfrom args r uninit := rfl

@[simp] theorem UDPRClient.emit_sendto (r : SendTo) :
    (udprClientHandler args).emit s (.sendto r) = (s.onSendto args r).2 := rfl

@[simp] theorem UDPRClient.emit_recvfrom (r : RecvFrom) (uninit : ClientUninit) :
    (udprClientHandler args).emit s (.recvfrom r uninit) = [] := rfl

end Handler

end Ppcb
