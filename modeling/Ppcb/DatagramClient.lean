import Ppcb.AgreementUDPR
import Ppcb.AgreementUDP

/-!
# The two clients that use datagrams

`ppcb_client.c` calls one of the handlers, as its first argument says. What the two have in
common is named here once for both, so that a result about one datagram client is a result
about either.
-/

set_option autoImplicit false

namespace Ppcb

open ByteOrder CString Reactive

/-- The types of communication that use datagrams. -/
inductive DatagramType where
  | UDP
  | UDPR
deriving DecidableEq, Repr

namespace DatagramType

/-- The `switch` of the client program on the type of communication. -/
abbrev Client : DatagramType → Type
  | UDP => UDPClient
  | UDPR => UDPRClient

def clientHandler : (t : DatagramType) → ClientArgs → Machine t.Client ClientEvent Datagram
  | UDP => udpClientHandler
  | UDPR => udprClientHandler

def start : (t : DatagramType) → Errno → t.Client
  | UDP => UDPClient.start
  | UDPR => UDPRClient.start

def chunk : DatagramType → ClientArgs → ℕ → List UInt8
  | UDP => udpChunk
  | UDPR => udprChunk

/-- The handler ended in success. -/
def succeeded : (t : DatagramType) → t.Client → Bool
  | UDP, s => s.phase.succeeded
  | UDPR, s => s.phase.succeeded

/-- The packets whose `ACC` has arrived. -/
def acked : (t : DatagramType) → t.Client → ℕ
  | UDP, _ => 0
  | UDPR, s => s.acked

/-- The protocol field of the `CONN`. -/
def protocol : DatagramType → UInt8
  | UDP => udpProtocol
  | UDPR => udprProtocol

def cut : DatagramType → ClientArgs → Cut
  | UDP => udpCut
  | UDPR => udprCut

def sender : (t : DatagramType) → (args : ClientArgs) →
    Sender (t.clientHandler args) (t.cut args) args.serverAddress
  | UDP => udpSender
  | UDPR => udprSender

variable (t : DatagramType) (args : ClientArgs)

theorem cut_sessionId : (t.cut args).sessionId = args.sessionId := by
  cases t <;> rfl

theorem cut_total : (t.cut args).total = args.vec.occupiedSize := by
  cases t <;> rfl

theorem cut_chunk : (t.cut args).chunk = t.chunk args := by
  cases t <;> rfl

theorem sender_finished (s : t.Client) : (t.sender args).finished s = t.succeeded s := by
  cases t <;> rfl

theorem sender_confirmed (s : t.Client) : (t.sender args).confirmed s = t.acked s := by
  cases t <;> rfl

theorem sender_protocol : (t.sender args).protocol = t.protocol := by
  cases t <;> rfl

theorem sender_start (errno : Errno) : (t.sender args).Ok (t.start errno) ∧
    (t.sender args).traffic (t.start errno) = 0 ∧
      (t.sender args).confirmed (t.start errno) = 0 ∧
        (t.sender args).finished (t.start errno) = false := by
  cases t <;> exact ⟨rfl, rfl, rfl, rfl⟩

end DatagramType

end Ppcb
