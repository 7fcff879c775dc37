import Ppcb.PacketStructures

/-!
# Addresses, system calls and waiting for the server

What `recvfrom` and `sendto` can come back with, `readn_error_handler`, and
`wait_for_server_response` of `helper_func.c`, one pass of its loop at a time. The error
messages go to `stderr` only and are left out.
-/

set_option autoImplicit false

namespace Ppcb

/-- The address and the port of a `sockaddr_in`. -/
structure SockAddr where
  sAddr : UInt32
  sinPort : UInt16
deriving DecidableEq, Repr

theorem SockAddr.ne_iff {a b : SockAddr} :
    a ≠ b ↔ a.sAddr ≠ b.sAddr ∨ a.sinPort ≠ b.sinPort := by
  cases a
  cases b
  simp only [ne_eq, SockAddr.mk.injEq, not_and_or]

inductive Errno where
  | EAGAIN
  | EINTR
  | other (code : ℕ)
deriving DecidableEq, Repr

/-- What one call of `recvfrom` comes back with. -/
inductive RecvFrom where
  | datagram (src : SockAddr) (bytes : List UInt8)
  | failed (errno : Errno)
deriving DecidableEq, Repr

/-- What one call of `sendto` comes back with. -/
inductive SendTo where
  | sent
  | failed (errno : Errno)
deriving DecidableEq, Repr

/-- A datagram handed to `sendto`. -/
structure Datagram where
  dest : SockAddr
  bytes : List UInt8
deriving DecidableEq, Repr

def sendtoWrapper : SendTo → RetVal
  | .sent => .SUCCESS
  | .failed _ => .ERROR

/-- What a returned `readn` is worth: `none` is a negative length. -/
def readnErrorHandler (readLength : Option ℕ) (dataSize : ℕ) : RetVal :=
  match readLength with
  | none => .ERROR
  | some length => if length = 0 then .ERROR else if length < dataSize then .ERROR else .SUCCESS

/-- The static `first_wait`, the caller's `real_server_s_addr`, and `errno`. -/
structure WaitState where
  firstWait : Bool
  realServerSAddr : UInt32
  errno : Errno
deriving DecidableEq, Repr

/-- The waiting state of a fresh process. -/
def WaitState.start (errno : Errno) : WaitState where
  firstWait := true
  realServerSAddr := 0
  errno := errno

/-- What `*received_length <= 0` returns. An empty datagram leaves `errno` as it was, so the
test reads whatever an earlier call left there. -/
def waitFailure (errno : Errno) : RetVal :=
  if errno = .EAGAIN then .TIMEOUT_ERROR else .ERROR

/-- Learn the address of the server from the first datagram. -/
def WaitState.learn (w : WaitState) (src : SockAddr) : WaitState :=
  if w.firstWait then { w with firstWait := false, realServerSAddr := src.sAddr } else w

/-- One pass of the loop: `none` is the `continue`, otherwise the value returned and the
bytes received. -/
def waitForServerResponse (w : WaitState) (serverPort : UInt16) :
    RecvFrom → WaitState × Option (RetVal × List UInt8)
  | .failed errno => ({ w with errno := errno }, some (waitFailure errno, []))
  | .datagram src bytes =>
      let buff := bytes.take responseBuffSize
      if buff.length = 0 then
        (w, some (waitFailure w.errno, []))
      else
        let w := w.learn src
        if src.sAddr ≠ w.realServerSAddr ∨ src.sinPort ≠ serverPort then
          (w, none)
        else
          (w, some (.SUCCESS, buff))

end Ppcb
