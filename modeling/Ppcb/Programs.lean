import Ppcb.Lib.Strtoul
import Ppcb.ClientUDPR
import Ppcb.Overrun

/-!
# The two programs

`main` of `ppcb_client.c` and of `server.c`, up to the handler that they call, with what they
take from `common.c` and `helper_func.c`. A program stops early in `fatal` or `syserr`, with the
format and the arguments of its message.

`port_from_str_to_ul` rejects what `strtoul` does not read whole. What it accepts are not only
the decimal numbers: white space and a sign may stand before the digits, a number below
`2 ^ 64` with a minus sign wraps round, and the empty text is port zero
(`port_from_str_to_ul_iff`).
-/

set_option autoImplicit false

namespace Ppcb

open CString

/-- A text from the command line: the bytes before the zero that ends it. -/
structure Text where
  bytes : List UInt8
  zero_free : 0 ∉ bytes

/-- Why a program ends before it calls its handler. In `overrun` a copy passes the end of the
vector, and nothing is known of what comes after it. -/
inductive Stop where
  | fatal (format : String) (args : List (List UInt8))
  | syserr (message : String)
  | overrun
deriving DecidableEq, Repr

/-- `communication_type`. -/
inductive CommunicationType where
  | TCP
  | UDP
  | UDPR
deriving DecidableEq, Repr

/-- The words `tcp`, `udp` and `udpr`. -/
def CommunicationType.word : CommunicationType → List UInt8
  | TCP => [116, 99, 112]
  | UDP => [117, 100, 112]
  | UDPR => [117, 100, 112, 114]

def checkCommunicationType (input : Text) : Except Stop CommunicationType :=
  if input.bytes = CommunicationType.TCP.word then .ok .TCP
  else if input.bytes = CommunicationType.UDP.word then .ok .UDP
  else if input.bytes = CommunicationType.UDPR.word then .ok .UDPR
  else .error (.fatal "given protocol type is not tcp nor udp nor udpr\n" [])

def uint16Max : UInt64 := 65535

/-- The test of `*endptr` meets the zero that ends the text when nothing is left. -/
def portFromStrToUl (einval : Bool) (string : Text) : Except Stop UInt16 :=
  let port := strtoul einval string.bytes
  if port.errno ∨ port.endptr.headD 0 ≠ 0 ∨ port.value > uint16Max then
    .error (.fatal "%s is not a valid port number" [string.bytes])
  else .ok port.value.toUInt16

/-- On a host with the other byte order than the network. -/
def htons (port : UInt16) : UInt16 := port <<< 8 ||| port >>> 8

/-- What the processes get from the system: whether `strtoul` sets `errno` for a text without
digits, what `getaddrinfo` finds, the two numbers of `rand`, whether `socket` and `bind`
succeed, and what `read` returns from the standard input before its end, or before it fails. -/
structure Environment where
  einval : Bool
  getaddrinfo : List UInt8 → Except (List UInt8) UInt32
  randSignificant : UInt32
  randLessSignificant : UInt32
  socket : Bool
  bind : Bool
  stdin : List Piece
  stdinFails : Bool

/-- The whole input. -/
def Environment.input (env : Environment) : List UInt8 := (env.stdin.map Piece.bytes).flatten

variable (env : Environment)

def getServerAddress (host : Text) (port : UInt16) : Except Stop SockAddr :=
  match env.getaddrinfo host.bytes with
  | .ok sAddr => .ok ⟨sAddr, htons port⟩
  | .error message => .error (.fatal "getaddrinfo: %s" [message])

def initSocketFd : Except Stop Unit :=
  if env.socket then .ok () else .error (.syserr "cannot create a socket")

def sessionIdOf (significant lessSignificant : UInt32) : UInt64 :=
  significant.toUInt64 <<< 32 ||| lessSignificant.toUInt64

def readStdin : Except Stop MyVec :=
  match myVecReadStdin myVecInit (env.stdin.map Piece.bytes) with
  | none => .error .overrun
  | some vec =>
      if env.stdinFails then
        .error (.fatal "my_vec_read_stdin - read func returned val < 0\n" [])
      else .ok vec

/-- `main` of the client, up to the call of the handler. -/
def ppcbClient (argv : List Text) : Except Stop (CommunicationType × ClientArgs) :=
  match argv with
  | [_, protocol, host, port] => do
      let typeOfComm ← checkCommunicationType protocol
      let port ← portFromStrToUl env.einval port
      let serverAddress ← getServerAddress env host port
      initSocketFd env
      let vec ← readStdin env
      .ok (typeOfComm, ⟨serverAddress, vec,
        sessionIdOf env.randSignificant env.randLessSignificant⟩)
  | [_, protocol, _] => do
      let _ ← checkCommunicationType protocol
      .error (.fatal "Not yet implemented" [])
  | _ =>
      .error (.fatal "usage: %s <protocol type> (<host> <port>) or <server address:port>"
        ((argv.take 1).map Text.bytes))

/-- `main` of the server, up to the call of the handler: the type of the server, and the address
it is bound to, where zero is `INADDR_ANY`. -/
def serverMain (argv : List Text) : Except Stop (CommunicationType × SockAddr) :=
  match argv with
  | [_, protocol, port] => do
      let typeOfServer ← checkCommunicationType protocol
      let port ← portFromStrToUl env.einval port
      initSocketFd env
      if env.bind then .ok (typeOfServer, ⟨0, htons port⟩)
      else .error (.syserr "binding socket with address unsuccesful")
  | _ =>
      .error (.fatal "usage of %s: <protocol type> <port number>\n"
        ((argv.take 1).map Text.bytes))

/-! ## Ports -/

/-- Of a text, `*endptr` is zero only at its end. -/
theorem Text.headD_endptr (einval : Bool) (string : Text) :
    (strtoul einval string.bytes).endptr.headD 0 = 0 ↔
      (strtoul einval string.bytes).endptr = [] := by
  have inside := (strtoul_endptr_suffix einval string.bytes).subset
  cases endptr : (strtoul einval string.bytes).endptr with
  | nil => exact iff_of_true rfl rfl
  | cons c rest =>
      rw [endptr] at inside
      refine iff_of_false ?_ (List.cons_ne_nil c rest)
      rintro rfl
      exact string.zero_free (inside List.mem_cons_self)

/-- A number that is no port is too large. -/
theorem toUInt16_eq_iff {value : UInt64} {port : UInt16} :
    ¬ value > uint16Max ∧ value.toUInt16 = port ↔ value.toNat = port.toNat := by
  have limit : uint16Max.toNat = 65535 := rfl
  have below := port.toNat_lt
  rw [gt_iff_lt, UInt64.lt_iff_toNat_lt, limit, ← UInt16.toNat_inj, UInt64.toNat_toUInt16]
  omega

/-- What is accepted. -/
theorem portFromStrToUl_ok_iff (einval : Bool) (string : Text) (port : UInt16) :
    portFromStrToUl einval string = .ok port ↔
      (strtoul einval string.bytes).errno = false ∧
        (strtoul einval string.bytes).endptr = [] ∧
          (strtoul einval string.bytes).value.toNat = port.toNat := by
  rw [portFromStrToUl, ← Text.headD_endptr, ← toUInt16_eq_iff]
  generalize strtoul einval string.bytes = read
  split
  · rename_i rejected
    refine iff_of_false (by intro accepted; cases accepted) ?_
    rintro ⟨errno, endptr, value, -⟩
    rcases rejected with set_now | rest | large
    · rw [errno] at set_now
      cases set_now
    · exact rest endptr
    · exact value large
  · rename_i accepted
    rw [not_or, not_or, not_not, Bool.not_eq_true] at accepted
    obtain ⟨errno, endptr, value⟩ := accepted
    rw [Except.ok.injEq]
    exact ⟨fun same => ⟨errno, endptr, value, same⟩, fun all => all.2.2.2⟩

/-- A numeral that is a port, perhaps on the other side of zero. -/
def IsPort (n : Numeral) (port : UInt16) : Prop :=
  n.value < 2 ^ 64 ∧
    if n.sign = .minus then (n.value + port.toNat) % 2 ^ 64 = 0 else n.value = port.toNat

/-- A port is accepted from a numeral exactly if it is one. -/
theorem numeral_isPort_iff (einval : Bool) (n : Numeral) (port : UInt16) :
    (strtoul einval n.text).errno = false ∧ (strtoul einval n.text).endptr = [] ∧
        (strtoul einval n.text).value.toNat = port.toNat ↔ IsPort n port := by
  have below := port.toNat_lt
  rw [Numeral.strtoul_text, IsPort]
  split
  · rename_i large
    refine iff_of_false (by rintro ⟨errno, -⟩; cases errno) ?_
    rintro ⟨small, -⟩
    exact absurd small (Nat.not_lt.mpr large)
  · rename_i small
    have value : (UInt64.ofNat n.value).toNat = n.value :=
      UInt64.toNat_ofNat_of_lt' (Nat.not_le.mp small)
    split
    · rename_i minus
      simp only [true_and]
      have size : UInt64.size = 2 ^ 64 := rfl
      rw [UInt64.toNat_neg, value, size]
      omega
    · simp only [true_and]
      rw [value]
      omega

/-- A number in decimal notation. -/
def Text.decimal (n : ℕ) : Text where
  bytes := CString.decimal n
  zero_free member := by
    have digit := isdigit_decimal n 0 member
    cases digit

/-- **The texts that are ports**: numerals, and the empty text where `strtoul` does not mind it.
Every port is read back from its decimal notation. -/
theorem port_from_str_to_ul_iff (einval : Bool) (port : UInt16) :
    (∀ string : Text, portFromStrToUl einval string = .ok port ↔
      string.bytes = [] ∧ einval = false ∧ port = 0 ∨
        ∃ n : Numeral, n.text = string.bytes ∧ IsPort n port) ∧
      portFromStrToUl einval (.decimal port.toNat) = .ok port := by
  have accepted (string : Text) : portFromStrToUl einval string = .ok port ↔
      string.bytes = [] ∧ einval = false ∧ port = 0 ∨
        ∃ n : Numeral, n.text = string.bytes ∧ IsPort n port := by
    rw [portFromStrToUl_ok_iff]
    constructor
    · rintro ⟨errno, whole, value⟩
      rcases (strtoul_endptr_nil_iff einval string.bytes).mp whole with empty | ⟨n, text⟩
      · rw [empty] at errno value
        exact .inl ⟨empty, errno, UInt16.toNat_inj.mp value.symm⟩
      · rw [← text] at errno whole value
        exact .inr ⟨n, text, (numeral_isPort_iff einval n port).mp ⟨errno, whole, value⟩⟩
    · rintro (⟨empty, errno, rfl⟩ | ⟨n, text, isPort⟩)
      · rw [empty]
        exact ⟨errno, rfl, rfl⟩
      · rw [← text]
        exact (numeral_isPort_iff einval n port).mpr isPort
  refine ⟨accepted, (accepted _).mpr (.inr ⟨.ofNat port.toNat, rfl, ?_, ?_⟩)⟩
  · rw [Numeral.value_ofNat]
    exact lt_trans port.toNat_lt (by decide)
  · rw [Numeral.value_ofNat]
    rfl

/-- White space and a plus sign do no harm, and a minus sign wraps round to port one. -/
example : portFromStrToUl false ⟨[32, 43, 56, 48], by decide⟩ = .ok 80 ∧
    portFromStrToUl false ⟨[45, 49, 56, 52, 52, 54, 55, 52, 52, 48, 55, 51, 55, 48, 57, 53, 53, 49,
      54, 49, 53], by decide⟩ = .ok 1 := by
  decide +kernel

end Ppcb
