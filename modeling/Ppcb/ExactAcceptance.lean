import Ppcb.ClientSpec
import Ppcb.Reception

/-!
# Exactly the expected packets are accepted

The server: a datagram passes `read_data_to_buffer` and `check_if_correct_DATA_packet` exactly
when the client of the session has sent the header the loop is at and a payload of the size it
announces (`data_accepted_iff`). What the receive buffer held before plays no part.

The clients: each of the four functions that wait for a confirmation, after any number of
datagrams it ignores, succeeds exactly when the next datagram of the server is the expected
confirmation (`confirmations_accepted`). Neither the end of a datagram that the buffer cut off
nor the old contents of a structure can pass for a part of it.
-/

set_option autoImplicit false

namespace Ppcb

open ByteOrder CString Reactive

/-- A string that is short of the bound after being cut at it was not cut. -/
theorem take_eq_iff {l m : List UInt8} {n : ℕ} (short : m.length < n) : l.take n = m ↔ l = m := by
  constructor
  · rintro rfl
    rw [List.length_take] at short
    exact (List.take_of_length_le (by omega)).symm
  · rintro rfl
    exact List.take_of_length_le (Nat.le_of_lt short)

/-! ## The server -/

/-- The receive buffer after `memset` and the `recvfrom` of a datagram. -/
def receiveBuffer (memory bytes : List UInt8) : List UInt8 :=
  let zeroed := List.replicate receiveBufforSize 0 ++ memory.drop receiveBufforSize
  let received := bytes.take receiveBufforSize
  received ++ zeroed.drop received.length

/-- `cast_buff_to` reads no byte of the buffer behind the received ones. -/
theorem castBuffTo_receiveBuffer (memory bytes structPtr : List UInt8) (structSize : ℕ) :
    castBuffTo structPtr structSize (receiveBuffer memory bytes)
        (bytes.take receiveBufforSize).length =
      castBuffTo structPtr structSize (bytes.take receiveBufforSize)
        (bytes.take receiveBufforSize).length := by
  simp only [castBuffTo, receiveBuffer]
  split
  · rw [List.take_left, List.take_length]
  · rw [List.take_append_of_le_length (by omega)]

/-- `read_data_to_buffer` over an answer of `recvfrom` and, if it succeeds,
`check_if_correct_DATA_packet`: the value of the latter. -/
def checkedDATA (clientAddress client : SockAddr) (uninit : ServerUninit) (conn : CONN)
    (currPackageId : UInt64) (r : RecvFrom) : Option RetVal :=
  match (readDataToBuffer clientAddress (some client) uninit r).ret with
  | some (.SUCCESS, buff) =>
      some (checkIfCorrectDATAPacket buff conn uninit.dataInfo currPackageId).1
  | _ => none

/-- A `DATA` packet of the protocol: the header, every field most significant byte first, and
as many bytes as it announces. -/
structure IsDATA (sessionId packageId : UInt64) (n : UInt32) (payload bytes : List UInt8) :
    Prop where
  fits : n.toNat ≤ maxAllowedPacketSize
  length : payload.length = n.toNat
  encoded : bytes = dataId :: (net64 sessionId ++ (net64 packageId ++ (net32 n ++ payload)))

theorem IsDATA.eq_dataBytes {sessionId packageId : UInt64} {n : UInt32}
    {payload bytes : List UInt8} (isDATA : IsDATA sessionId packageId n payload bytes) :
    bytes = dataBytes sessionId packageId payload := by
  rw [isDATA.encoded, dataBytes_eq, isDATA.length, UInt32.ofNat_toNat]

theorem isDATA_dataBytes (sessionId packageId : UInt64) {payload : List UInt8}
    (fits : payload.length ≤ maxAllowedPacketSize) :
    IsDATA sessionId packageId (UInt32.ofNat payload.length) payload
      (dataBytes sessionId packageId payload) where
  fits := by
    rw [toNat_payload fits]
    exact fits
  length := (toNat_payload fits).symm
  encoded := dataBytes_eq _ _ _

/-- The payload of a packet is in the buffer behind the header. -/
theorem IsDATA.inBuffer {sessionId packageId : UInt64} {n : UInt32}
    {payload bytes : List UInt8} (isDATA : IsDATA sessionId packageId n payload bytes)
    (memory : List UInt8) :
    ((receiveBuffer memory bytes).drop sizeofDataInfo).take n.toNat = payload := by
  have fits : payload.length ≤ maxAllowedPacketSize := by
    rw [isDATA.length]
    exact isDATA.fits
  have whole : bytes.take receiveBufforSize = dataBytes sessionId packageId payload := by
    rw [isDATA.eq_dataBytes]
    exact List.take_of_length_le (fits_dataBytes _ _ fits)
  have header : sizeofDataInfo ≤ (dataBytes sessionId packageId payload).length := by
    rw [length_dataBytes]
    exact Nat.le_add_right _ _
  simp only [receiveBuffer, whole]
  rw [List.drop_append_of_le_length header, drop_dataBytes, ← isDATA.length, List.take_left]

theorem checkedDATA_success_iff (clientAddress client src : SockAddr) (uninit : ServerUninit)
    (conn : CONN) (currPackageId : UInt64) (bytes : List UInt8) :
    checkedDATA clientAddress client uninit conn currPackageId (.datagram src bytes) =
        some .SUCCESS ↔
      src = client ∧ ∃ payload, payload.length ≤ maxAllowedPacketSize ∧
        bytes = dataBytes conn.sessionId currPackageId payload := by
  constructor
  · intro accepted
    simp only [checkedDATA] at accepted
    split at accepted
    · rename_i buff returned
      obtain ⟨_, same, rfl⟩ := readDataToBuffer_success returned
      cases same
      obtain ⟨payload, fits, equal⟩ :=
        (checkIfCorrectDATAPacket_success_iff _ _).mp (Option.some.inj accepted)
      exact ⟨rfl, payload, fits, eq_of_take_eq_dataBytes fits equal⟩
    · cases accepted
  · rintro ⟨rfl, payload, fits, rfl⟩
    simp only [checkedDATA, readDataToBuffer_client clientAddress src uninit
      (fits_dataBytes _ _ fits) (dataBytes_ne_nil _ _ _) (Option.getD_some),
      checkIfCorrectDATAPacket_dataBytes _ fits]

/-- **The check of the server accepts exactly the encodings**, and the payload of an accepted
datagram is in the buffer behind the header. No datagram shorter than the header or longer than
a whole packet is accepted, and what the buffer held before is never read. -/
theorem data_accepted_iff (clientAddress client src : SockAddr) (uninit : ServerUninit)
    (conn : CONN) (currPackageId : UInt64) (memory bytes : List UInt8) :
    (checkedDATA clientAddress client uninit conn currPackageId (.datagram src bytes) =
        some .SUCCESS ↔
      src = client ∧ ∃ n payload, IsDATA conn.sessionId currPackageId n payload bytes) ∧
    (∀ n payload, IsDATA conn.sessionId currPackageId n payload bytes →
      ((receiveBuffer memory bytes).drop sizeofDataInfo).take n.toNat = payload) ∧
    (checkedDATA clientAddress client uninit conn currPackageId (.datagram src bytes) =
        some .SUCCESS →
      sizeofDataInfo ≤ bytes.length ∧ bytes.length ≤ sizeofDataInfo + maxAllowedPacketSize) ∧
    ∀ (structPtr : List UInt8) (structSize : ℕ),
      castBuffTo structPtr structSize (receiveBuffer memory bytes)
          (bytes.take receiveBufforSize).length =
        castBuffTo structPtr structSize (bytes.take receiveBufforSize)
          (bytes.take receiveBufforSize).length := by
  have accepted_iff :=
    checkedDATA_success_iff clientAddress client src uninit conn currPackageId bytes
  refine ⟨accepted_iff.trans (and_congr_right fun _ => ?_), ?_, ?_,
    castBuffTo_receiveBuffer memory bytes⟩
  · constructor
    · rintro ⟨payload, fits, rfl⟩
      exact ⟨_, payload, isDATA_dataBytes _ _ fits⟩
    · rintro ⟨n, payload, isDATA⟩
      exact ⟨payload, by rw [isDATA.length]; exact isDATA.fits, isDATA.eq_dataBytes⟩
  · intro n payload isDATA
    exact isDATA.inBuffer memory
  · intro accepted
    obtain ⟨-, payload, fits, rfl⟩ := accepted_iff.mp accepted
    rw [length_dataBytes]
    exact ⟨Nat.le_add_right _ _, Nat.add_le_add_left fits _⟩

/-! ## The clients -/

section Client

variable {ρ : Type}

/-- A function that waits for the server in a loop, over a sequence of answers of `recvfrom`:
each is first judged by `wait_for_server_response`, and `none` of the handler is its
`continue`. -/
def listen (port : UInt16) (handle : ClientUninit → RetVal × List UInt8 → Option ρ) :
    WaitState → List (RecvFrom × ClientUninit) → WaitState × Option ρ
  | w, [] => (w, none)
  | w, (r, uninit) :: rest =>
      match waitForServerResponse w port r with
      | (w, none) => listen port handle w rest
      | (w, some response) =>
          match handle uninit response with
          | none => listen port handle w rest
          | some ret => (w, some ret)

/-- `wait_for_server_response` takes datagrams from there for those of the server. -/
def WaitState.Trusts (w : WaitState) (port : UInt16) (src : SockAddr) : Prop :=
  src.sAddr = (w.learn src).realServerSAddr ∧ src.sinPort = port

variable {port : UInt16} {handle : ClientUninit → RetVal × List UInt8 → Option ρ}

/-- What was ignored leaves no more than a waiting state behind. -/
theorem listen_append {w w' : WaitState} {before : List (RecvFrom × ClientUninit)}
    (ignored : listen port handle w before = (w', none))
    (rest : List (RecvFrom × ClientUninit)) :
    listen port handle w (before ++ rest) = listen port handle w' rest := by
  induction before generalizing w with
  | nil =>
      cases ignored
      rfl
  | cons e before ih =>
      obtain ⟨r, uninit⟩ := e
      simp only [List.cons_append, listen] at ignored ⊢
      cases response : waitForServerResponse w port r with
      | mk after answer =>
          simp only [response] at ignored ⊢
          cases answer with
          | none => exact ih ignored
          | some answer =>
              simp only at ignored ⊢
              cases handled : handle uninit answer with
              | none =>
                  simp only [handled] at ignored ⊢
                  exact ih ignored
              | some ret =>
                  simp only [handled] at ignored
                  cases ignored

end Client

/-- What a function that waits does with a datagram, when it gives up if waiting failed. -/
def afterWait (handler : List UInt8 → RetVal) (response : RetVal × List UInt8) : RetVal :=
  if response.1 ≠ .SUCCESS then .ERROR else handler response.2

/-- After any number of datagrams it ignores, the function succeeds on the next datagram of the
server exactly if that is the expected packet. -/
def AcceptsExactly (handle : ClientUninit → RetVal × List UInt8 → Option RetVal)
    (expected : List UInt8) : Prop :=
  ∀ (port : UInt16) (w w' : WaitState) (before : List (RecvFrom × ClientUninit)),
    listen port handle w before = (w', none) →
    ∀ (src : SockAddr) (bytes : List UInt8) (uninit : ClientUninit), w'.Trusts port src →
      ((listen port handle w (before ++ [(.datagram src bytes, uninit)])).2 = some .SUCCESS ↔
        bytes = expected)

/-- A datagram of the server is handed on, cut off at the end of the buffer; an empty one counts
as a failure to receive. -/
theorem waitForServerResponse_trusted {w : WaitState} {port : UInt16} {src : SockAddr}
    (trusted : w.Trusts port src) (bytes : List UInt8) :
    (waitForServerResponse w port (.datagram src bytes)).2 =
      if bytes = [] then some (waitFailure w.errno, [])
      else some (.SUCCESS, bytes.take responseBuffSize) := by
  obtain ⟨address, ports⟩ := trusted
  by_cases empty : bytes = []
  · subst empty
    rfl
  · have length : (bytes.take responseBuffSize).length ≠ 0 := by
      have nonempty : 0 < bytes.length := List.length_pos_iff.mpr empty
      rw [List.length_take]
      simp only [responseBuffSize]
      omega
    simp only [waitForServerResponse, length, if_false, ← address, ports, ne_eq, not_true_eq_false,
      or_self, empty]

/-- What is to be shown of a function that waits: which buffers it accepts, and that it accepts
nothing when waiting failed. -/
theorem acceptsExactly {handle : ClientUninit → RetVal × List UInt8 → Option RetVal}
    {expected : List UInt8} (short : expected.length < responseBuffSize)
    (nonempty : expected ≠ [])
    (accepts : ∀ uninit buff,
      handle uninit (.SUCCESS, buff) = some .SUCCESS ↔ buff = expected)
    (failed : ∀ uninit errno, handle uninit (waitFailure errno, []) ≠ some .SUCCESS) :
    AcceptsExactly handle expected := by
  intro port w w' before ignored src bytes uninit trusted
  have last : (listen port handle w' [(.datagram src bytes, uninit)]).2 =
      ((waitForServerResponse w' port (.datagram src bytes)).2).bind (handle uninit) := by
    simp only [listen]
    cases waitForServerResponse w' port (.datagram src bytes) with
    | mk after answer =>
        cases answer with
        | none => rfl
        | some answer =>
            simp only [Option.bind_some]
            cases handle uninit answer <;> rfl
  rw [listen_append ignored, last, waitForServerResponse_trusted trusted]
  by_cases empty : bytes = []
  · rw [if_pos empty, Option.bind_some]
    refine iff_of_false (failed uninit _) ?_
    rw [empty]
    exact fun same => nonempty same.symm
  · rw [if_neg empty, Option.bind_some, accepts, take_eq_iff short]

theorem waitFailure_ne (errno : Errno) : waitFailure errno ≠ .SUCCESS := by
  rw [waitFailure]
  split <;> decide

theorem afterWait_failed (handler : List UInt8 → RetVal) (errno : Errno) :
    some (afterWait handler (waitFailure errno, [])) ≠ some .SUCCESS := by
  rw [afterWait, if_pos (waitFailure_ne errno)]
  decide

/-- A confirmation of nine bytes. -/
theorem acceptsExactly_session {handler : ClientUninit → List UInt8 → RetVal} {t : UInt8}
    {sessionId : UInt64}
    (accepts : ∀ uninit buff,
      handler uninit buff = .SUCCESS ↔ buff = (initSession t sessionId).store) :
    AcceptsExactly (fun uninit response => some (afterWait (handler uninit) response))
      (initSession t sessionId).store := by
  apply acceptsExactly
  · rw [SessionPacket.length_store]
    decide
  · exact (fits_initSession t sessionId).2
  · intro uninit buff
    rw [Option.some.injEq, ← accepts uninit buff]
    rfl
  · exact fun uninit errno => afterWait_failed _ errno

/-- **The clients accept exactly the expected confirmation**, whatever was ignored before it,
however long the datagram is, and whatever the structure held that it is copied into. -/
theorem confirmations_accepted (sessionId currPackageId : UInt64) (nbrOfRetransmits : ℕ)
    (isBeforeFirstAcc : Bool) :
    AcceptsExactly (fun uninit response =>
        some (afterWait (udprClientInitConnection sessionId uninit.conacc) response))
      (initCONACC sessionId).store ∧
    AcceptsExactly (fun uninit response =>
        some (afterWait (udpClientCONACCHandler sessionId uninit.conacc) response))
      (initCONACC sessionId).store ∧
    AcceptsExactly (fun uninit response =>
        (udprClientHandleACC uninit.acc nbrOfRetransmits currPackageId sessionId
          isBeforeFirstAcc response).map Prod.fst)
      (initACC sessionId currPackageId).store ∧
    AcceptsExactly (fun uninit response =>
        udprClientHandleRCVD uninit currPackageId sessionId response)
      (initRCVD sessionId).store ∧
    AcceptsExactly (fun uninit response =>
        some (afterWait (udpClientRCVDHandler sessionId uninit.rcvd) response))
      (initRCVD sessionId).store := by
  refine ⟨?_, ?_, ?_, ?_, ?_⟩
  · apply acceptsExactly_session
    exact fun uninit _ => udprClientInitConnection_success_iff uninit.conacc
  · apply acceptsExactly_session
    exact fun uninit _ => udpClientCONACCHandler_success_iff uninit.conacc
  · apply acceptsExactly
    · rw [NumberedPacket.length_store]
      decide
    · exact (fits_initACC sessionId currPackageId).2
    · intro uninit buff
      rw [Option.map_eq_some_iff]
      constructor
      · rintro ⟨⟨ret, nbr⟩, accepted, rfl⟩
        exact ((udprClientHandleACC_success_iff _ _ _ _).mp accepted).1
      · intro expected
        exact ⟨(.SUCCESS, nbrOfRetransmits),
          (udprClientHandleACC_success_iff _ _ _ _).mpr ⟨expected, rfl⟩, rfl⟩
    · intro uninit errno
      rw [waitFailure]
      split
      · simp only [udprClientHandleACC, countRetransmit, Option.map_some]
        split <;> decide
      · simp [udprClientHandleACC]
  · apply acceptsExactly
    · rw [SessionPacket.length_store]
      decide
    · exact (fits_initRCVD sessionId).2
    · exact fun uninit buff => udprClientHandleRCVD_success_iff uninit
    · intro uninit errno
      rw [waitFailure]
      split <;> simp [udprClientHandleRCVD]
  · apply acceptsExactly_session
    exact fun uninit _ => udpClientRCVDHandler_success_iff uninit.rcvd

end Ppcb
