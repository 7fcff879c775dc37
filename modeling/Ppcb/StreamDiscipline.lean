import Ppcb.Lib.Channel
import Ppcb.ClientTCPSpec
import Ppcb.TCPTransfer
import Ppcb.ConnectionDiscipline
import Ppcb.ReliablePipe
import Ppcb.UnreceivedBytes

/-!
# What the TCP client does, whoever answers

The client at a connection of which nothing is known: any bytes may arrive, any `read` may find
the end of the stream or fail, and any `write` may take a part of its bytes or fail.

In every run the client writes the beginning of its stream, sends no packet before it has read
the `CONACC` of its session, and reads nothing behind an answer that is wrong
(`TCPClient.Keeps`). It comes to its last line in success exactly when what it has read is
`CONACC` and `RCVD`, and then its stream has been written to the end
(`tcp_client_discipline`).
-/

set_option autoImplicit false

namespace Ppcb

open ByteOrder CString Reactive

/-! ## One call of `read` or `write` -/

/-- `readn` reads on, has read all, or breaks off. -/
inductive ReadnPass (n : ℕ) (got : List UInt8) : List UInt8 → Readn → Prop where
  | more (bytes : List UInt8) (less : (got ++ bytes).length < n) :
      ReadnPass n got bytes (.blocked (got ++ bytes))
  | done (bytes : List UInt8) (all : (got ++ bytes).length = n) :
      ReadnPass n got bytes (.returned (some n) (got ++ bytes))
  | broken (readLength : Option ℕ) (short : ∀ k, readLength = some k → k < n) :
      ReadnPass n got [] (.returned readLength got)

/-- `writen` writes on, has written all, or breaks off. -/
inductive WritenPass (n : ℕ) (left : List UInt8) : List UInt8 → Writen → Prop where
  | more (k : ℕ) (less : k < left.length) :
      WritenPass n left (left.take k) (.blocked (left.drop k))
  | done : WritenPass n left left (.returned (some n))
  | broken (writtenLength : Option ℕ) (stopped : ∀ k, writtenLength = some k → k = 0) :
      WritenPass n left [] (.returned writtenLength)

theorem readnPass_spec {n : ℕ} {got : List UInt8} {r : Read} (short : got.length < n)
    (answers : r.Answers (.read (n - got.length))) :
    ReadnPass n got r.bytes (readnPass n got r) := by
  by_cases ended : r.Ended
  · obtain ⟨readLength, pass, partly⟩ := readnPass_ended n got ended
    have nothing : r.bytes = [] := by
      cases r with
      | data bytes => exact ended
      | failed errno => rfl
    rw [pass, nothing]
    exact .broken readLength fun k equal => (partly k equal).symm ▸ short
  · cases r with
    | failed errno => exact absurd trivial ended
    | data bytes =>
        have fits : bytes.length ≤ n - got.length := answers
        rcases Nat.lt_or_ge (got.length + bytes.length) n with less | enough
        · rw [readnPass_more ended less]
          exact .more bytes (by rwa [List.length_append])
        · have all : got.length + bytes.length = n := by omega
          rw [readnPass_done ended all]
          exact .done bytes (by rwa [List.length_append])

theorem writenPass_spec (n : ℕ) {left : List UInt8} {r : Write}
    (answers : r.Answers (.write left)) :
    WritenPass n left (r.taken left) (writenPass n left r) := by
  cases r with
  | failed errno => exact .broken none fun _ equal => nomatch equal
  | wrote k =>
      have fits : k ≤ left.length := answers
      by_cases zero : k = 0
      · subst zero
        exact .broken (some 0) fun _ equal => (Option.some.inj equal).symm
      · have some' := Nat.pos_of_ne_zero zero
        rcases Nat.lt_or_eq_of_le fits with less | all
        · rw [writenPass_more some' less]
          exact .more k less
        · rw [writenPass_done some' all]
          subst all
          rw [Write.taken, List.take_length]
          exact .done

/-- What was written and what is left are together what there was. -/
theorem taken_append_drop {written left whole : List UInt8} (before : written ++ left = whole)
    (k : ℕ) : written ++ left.take k ++ left.drop k = whole := by
  rw [List.append_assoc, List.take_append_drop, before]

/-! ## The client at its port -/

/-- How the client meets the connection. -/
def tcpClientPort : Port TCPClient TCPClientEvent (List UInt8) UInt8 UInt8 where
  may s
    | .connect _ => s.phase = .connect
    | .read r => r.Answers s.call
    | .write r => r.Answers s.call
  takes
    | .read r => r.bytes
    | _ => []
  puts := List.flatten

/-! ## The stream, packet by packet -/

section Stream

variable (args : ClientArgs)

/-- What the `DATA` structure holds after `k` packets from packet `i` on. -/
def dataAfter (i : ℕ) (data : DATA) : ℕ → DATA
  | 0 => data
  | k + 1 => builtDATA args (i + k) (dataAfter i data k)

variable {args}

theorem dataAfter_built (i : ℕ) (data : DATA) (k : ℕ) :
    dataAfter args (i + 1) (builtDATA args i data) k = dataAfter args i data (k + 1) := by
  induction k with
  | zero => rfl
  | succ k ih =>
      rw [dataAfter, ih, Nat.add_assoc, Nat.add_comm 1 k]
      rfl

/-- The stream grows at its end. -/
theorem dataStream_snoc (i k : ℕ) (data : DATA) :
    dataStream args i (k + 1) data =
      dataStream args i k data ++ (dataAfter args i data (k + 1)).store := by
  induction k generalizing i data with
  | zero =>
      rw [dataStream_succ, dataStream_zero, dataStream_zero, List.append_nil]
      rfl
  | succ k ih =>
      rw [dataStream_succ, ih, dataStream_succ, dataAfter_built, List.append_assoc]

variable (args) in
/-- What the client has written after its `CONN` and `k` packets. -/
def streamUpTo (uninit : TCPClientUninit) (k : ℕ) : List UInt8 :=
  (initCONN args.sessionId tcpProtocol args.vec.occupiedSize).store ++
    dataStream args 0 k uninit.data

theorem streamUpTo_succ (uninit : TCPClientUninit) (k : ℕ) :
    streamUpTo args uninit (k + 1) =
      streamUpTo args uninit k ++ (dataAfter args 0 uninit.data (k + 1)).store := by
  rw [streamUpTo, dataStream_snoc, ← List.append_assoc]
  rfl

theorem conn_prefix_streamUpTo (uninit : TCPClientUninit) (k : ℕ) :
    (initCONN args.sessionId tcpProtocol args.vec.occupiedSize).store <+:
      streamUpTo args uninit k :=
  List.prefix_append _ _

/-- **The loop that is over at packet `k` has written the whole stream**, and the counters held
the size. -/
theorem streamUpTo_over {k : ℕ} (earlier : ∀ i < k, UDPSend.HasMore args i)
    (done : ¬ UDPSend.HasMore args k) (uninit : TCPClientUninit) :
    args.vec.occupiedSize.toNat < 2 ^ 32 ∧ streamUpTo args uninit k = clientStream args uninit := by
  have reached : min (size32 args) (sendBuffSize * k) = args.vec.occupiedSize.toNat :=
    not_not.mp (mt (UDPSend.hasMore_iff k).mpr done)
  have small : args.vec.occupiedSize.toNat < 2 ^ 32 := by
    rw [← reached]
    exact lt_of_le_of_lt (Nat.min_le_left _ _) (size32_lt args)
  have last : k = packetCount args.vec.occupiedSize.toNat := by
    refine Nat.le_antisymm ?_ (Nat.not_lt.mp (mt (UDPSend.hasMore_iff_lt small k).mpr done))
    by_contra beyond
    have more := earlier _ (Nat.not_le.mp beyond)
    exact Nat.lt_irrefl _ ((UDPSend.hasMore_iff_lt small _).mp more)
  refine ⟨small, ?_⟩
  rw [last]
  rfl

end Stream

/-! ## What an answer of the server is -/

/-- A session packet that was read whole is the expected one, or is rejected. -/
theorem checkSession_iff (uninit : SessionPacket) (typeId : UInt8) (sessionId : UInt64)
    {got : List UInt8} (whole : got.length = 9) :
    checkSession typeId sessionId (ntohSession (.load (readOver uninit.store got))) = .SUCCESS ↔
      got = (initSession typeId sessionId).store := by
  have memory : readOver uninit.store got = got :=
    readOver_whole (whole.trans (SessionPacket.length_store _).symm)
  rw [memory, ntohSession_load whole, store_initSession]
  simp only [checkSession, ne_eq]
  constructor
  · intro success
    split at success
    · cases success
    split at success
    · cases success
    rw [eq_session_of_length whole, not_not.mp ‹¬ ¬ typeOf got = typeId›,
      not_not.mp ‹¬ ¬ sessionOf got = sessionId›]
  · rintro rfl
    rw [typeOf_cons, sessionOf_cons_nil]
    simp only [not_true_eq_false, if_false]

/-- Only a `writen` that returns the whole length succeeds. -/
theorem tcpClientWritten_success_iff (size : ℕ) (writtenLength : Option ℕ) :
    tcpClientWritten size writtenLength = .SUCCESS ↔ writtenLength = some size := by
  cases writtenLength with
  | none => simp [tcpClientWritten]
  | some length =>
      rw [tcpClientWritten]
      split
      · simp only [reduceCtorEq, Option.some.injEq, false_iff]
        assumption
      · simp only [Option.some.injEq, true_iff]
        exact not_not.mp ‹_›

namespace TCPClient

variable {args : ClientArgs} {s : TCPClient} {got : List UInt8}

theorem conaccRead_whole (whole : got.length = sizeofCONACC) :
    s.conaccRead args (some sizeofCONACC) got =
      if got = (initCONACC args.sessionId).store then
        s.sendDATA args (.atPacket args 0) s.uninit.data
      else { s with phase := .ended .ERROR } := by
  have length : readnErrorHandler (some sizeofCONACC) sizeofCONACC = .SUCCESS := by decide
  have verdict : checkCONACC args.sessionId
      (ntohCONACC (.load (readOver s.uninit.conacc.store got))) = .SUCCESS ↔
        got = (initCONACC args.sessionId).store :=
    checkSession_iff s.uninit.conacc conaccId args.sessionId whole
  by_cases own : got = (initCONACC args.sessionId).store
  · simp only [conaccRead, length, verdict.mpr own, ne_eq, not_true_eq_false, if_false, if_pos own]
    rfl
  · simp only [conaccRead, length, mt verdict.mp own, ne_eq, not_true_eq_false, not_false_eq_true,
      if_true, if_false, if_neg own]

theorem conaccRead_short {readLength : Option ℕ} (got : List UInt8)
    (short : ∀ k, readLength = some k → k < sizeofCONACC) :
    s.conaccRead args readLength got = { s with phase := .ended .ERROR } := by
  have bad : readnErrorHandler readLength sizeofCONACC ≠ .SUCCESS := by
    rw [ne_eq, readnErrorHandler_success_iff _ (by decide)]
    rintro ⟨k, equal, enough⟩
    exact Nat.lt_irrefl _ (lt_of_lt_of_le (short k equal) enough)
  rw [conaccRead, if_pos bad]

variable (args s) in
theorem rcvdRead_whole (whole : got.length = sizeofRCVD) :
    ∃ ret, s.rcvdRead args (some sizeofRCVD) got = { s with phase := .ended ret } ∧
      (ret = .SUCCESS ↔ got = (initRCVD args.sessionId).store) := by
  have length : readnErrorHandler (some sizeofRCVD) sizeofRCVD = .SUCCESS := by decide
  refine ⟨_, ?_, checkSession_iff s.uninit.rcvd rcvdId args.sessionId whole⟩
  simp only [rcvdRead, length, ne_eq, not_true_eq_false, if_false]
  rfl

theorem rcvdRead_short {readLength : Option ℕ} (got : List UInt8)
    (short : ∀ k, readLength = some k → k < sizeofRCVD) :
    s.rcvdRead args readLength got = { s with phase := .ended .ERROR } := by
  have bad : readnErrorHandler readLength sizeofRCVD ≠ .SUCCESS := by
    rw [ne_eq, readnErrorHandler_success_iff _ (by decide)]
    rintro ⟨k, equal, enough⟩
    exact Nat.lt_irrefl _ (lt_of_lt_of_le (short k equal) enough)
  rw [rcvdRead, if_pos bad]

/-! ## The invariant of the runs -/

/-- The client has written the beginning of its `CONN` and of the packets that it has. -/
def WritesStream (args : ClientArgs) (uninit : TCPClientUninit) (written : List UInt8) : Prop :=
  ∃ k, (∀ i < k, UDPSend.HasMore args i) ∧ written <+: streamUpTo args uninit k

/-- What a client that has ended without success has done. -/
structure Failed (args : ClientArgs) (uninit : TCPClientUninit) (read written : List UInt8) :
    Prop where
  stream : WritesStream args uninit written
  accepted : sizeofCONN < written.length ∨ sizeofCONACC < read.length →
    (initCONACC args.sessionId).store <+: read
  few : read.length ≤ sizeofCONACC + sizeofRCVD
  unconfirmed : read ≠ confirmations args.sessionId

/-- A loop that is over: every packet has been written. -/
def LoopOver (args : ClientArgs) (uninit : TCPClientUninit) (written : List UInt8) : Prop :=
  ∃ k, (∀ i < k, UDPSend.HasMore args i) ∧ ¬ UDPSend.HasMore args k ∧
    written = streamUpTo args uninit k

/-- What the client has read and written, by the call it is at. -/
def Keeps (args : ClientArgs) (uninit : TCPClientUninit) (s : TCPClient)
    (read written : List UInt8) : Prop :=
  s.uninit = uninit ∧
  match s.phase with
  | .connect => read = [] ∧ written = []
  | .writeCONN left =>
      read = [] ∧
        written ++ left = (initCONN args.sessionId tcpProtocol args.vec.occupiedSize).store
  | .readCONACC got =>
      got.length < sizeofCONACC ∧ read = got ∧
        written = (initCONN args.sessionId tcpProtocol args.vec.occupiedSize).store
  | .writeDATA loc data left => ∃ k, (∀ i < k + 1, UDPSend.HasMore args i) ∧
      loc = .atPacket args (k + 1) ∧ data = dataAfter args 0 uninit.data (k + 1) ∧
      read = (initCONACC args.sessionId).store ∧
      written ++ left = streamUpTo args uninit (k + 1)
  | .readRCVD got =>
      got.length < sizeofRCVD ∧ read = (initCONACC args.sessionId).store ++ got ∧
        LoopOver args uninit written
  | .ended ret =>
      ret = .SUCCESS ∧ read = confirmations args.sessionId ∧ LoopOver args uninit written ∨
        ret ≠ .SUCCESS ∧ Failed args uninit read written

variable {uninit : TCPClientUninit} {read written : List UInt8}

theorem LoopOver.writesStream (over' : LoopOver args uninit written) :
    WritesStream args uninit written := by
  obtain ⟨k, earlier, -, rfl⟩ := over'
  exact ⟨k, earlier, List.prefix_rfl⟩

theorem Keeps.fail (memory : s.uninit = uninit) (failed : Failed args uninit read written) :
    Keeps args uninit { s with phase := .ended .ERROR } read written :=
  ⟨memory, .inr ⟨RetVal.noConfusion, failed⟩⟩

/-- It ends before the `CONACC` has been accepted. -/
theorem Failed.early (part : written <+:
      (initCONN args.sessionId tcpProtocol args.vec.occupiedSize).store)
    (few : read.length ≤ sizeofCONACC) : Failed args uninit read written where
  stream := ⟨0, fun i below => absurd below (Nat.not_lt_zero i),
    part.trans (conn_prefix_streamUpTo uninit 0)⟩
  accepted := by
    rintro (more | more)
    · have bound := part.length_le
      rw [CONN.length_store] at bound
      exact absurd more (Nat.not_lt.mpr bound)
    · exact absurd more (Nat.not_lt.mpr few)
  few := Nat.le_add_right_of_le few
  unconfirmed := by
    rintro rfl
    rw [confirmations, List.length_append, SessionPacket.length_store] at few
    exact absurd few (by rw [SessionPacket.length_store]; decide)

/-- It ends after the `CONACC`, and what follows is not `RCVD`. -/
theorem Failed.late {answer : List UInt8} (stream : WritesStream args uninit written)
    (few : answer.length ≤ sizeofRCVD) (wrong : answer ≠ (initRCVD args.sessionId).store) :
    Failed args uninit ((initCONACC args.sessionId).store ++ answer) written where
  stream := stream
  accepted _ := List.prefix_append _ _
  few := by
    rw [List.length_append, SessionPacket.length_store]
    exact Nat.add_le_add_left few _
  unconfirmed both := wrong (List.append_cancel_left both)

/-- A part of `RCVD` is not `RCVD`. -/
theorem ne_rcvd_of_length {answer : List UInt8} (short : answer.length < sizeofRCVD) :
    answer ≠ (initRCVD args.sessionId).store := by
  rintro rfl
  rw [SessionPacket.length_store] at short
  exact Nat.lt_irrefl _ short

/-- It ends while it sends its packets. -/
theorem Failed.sending (stream : WritesStream args uninit written) :
    Failed args uninit (initCONACC args.sessionId).store written := by
  have failed : Failed args uninit ((initCONACC args.sessionId).store ++ []) written :=
    .late stream (Nat.zero_le _) (ne_rcvd_of_length (by decide))
  rwa [List.append_nil] at failed

/-- The loop keeps the invariant at packet `k`. -/
theorem keeps_sendDATA (memory : s.uninit = uninit) {k : ℕ}
    (earlier : ∀ i < k, UDPSend.HasMore args i) :
    Keeps args uninit (s.sendDATA args (.atPacket args k) (dataAfter args 0 uninit.data k))
      (initCONACC args.sessionId).store (streamUpTo args uninit k) := by
  rcases sendDATA_cases args (s := s) k (dataAfter args 0 uninit.data k) with
    ⟨more, equal⟩ | ⟨done, equal⟩ <;> rw [equal]
  · refine ⟨memory, k, fun i below => ?_, rfl, ?_, rfl, ?_⟩
    · rcases Nat.lt_succ_iff_lt_or_eq.mp below with below | rfl
      · exact earlier i below
      · exact more
    · rw [dataAfter, Nat.zero_add]
    · rw [streamUpTo_succ, dataAfter, Nat.zero_add]
  · exact ⟨memory, by decide, (List.append_nil _).symm, k, earlier, done, rfl⟩

/-! ## Steps keep the invariant -/

theorem keeps_onRead (keeps : Keeps args uninit s read written) {r : Read}
    (answers : r.Answers s.call) :
    Keeps args uninit (s.onRead args r) (read ++ r.bytes) written := by
  obtain ⟨memory, keeps⟩ := keeps
  obtain ⟨n, blocked⟩ := Read.exists_call answers
  rw [blocked] at answers
  rcases call_read blocked with ⟨got, phase, rfl⟩ | ⟨got, phase, rfl⟩ <;>
    simp only [phase] at keeps
  · obtain ⟨short, rfl, rfl⟩ := keeps
    have pass := readnPass_spec short answers
    simp only [onRead, phase]
    generalize readnPass sizeofCONACC read r = result at pass ⊢
    generalize r.bytes = bytes at pass ⊢
    cases pass with
    | more bytes less => exact ⟨memory, less, rfl, rfl⟩
    | done bytes all =>
        simp only [conaccRead_whole all]
        split
        · rename_i own
          rw [own, memory]
          exact keeps_sendDATA memory fun i below => absurd below (Nat.not_lt_zero i)
        · exact .fail memory (.early List.prefix_rfl (Nat.le_of_eq all))
    | broken readLength partly =>
        simp only [conaccRead_short read partly, List.append_nil]
        exact .fail memory (.early List.prefix_rfl (Nat.le_of_lt short))
  · obtain ⟨short, rfl, over'⟩ := keeps
    have stream := over'.writesStream
    have pass := readnPass_spec short answers
    simp only [onRead, phase, List.append_assoc]
    generalize readnPass sizeofRCVD got r = result at pass ⊢
    generalize r.bytes = bytes at pass ⊢
    cases pass with
    | more bytes less => exact ⟨memory, less, rfl, over'⟩
    | done bytes all =>
        obtain ⟨ret, read, success⟩ := s.rcvdRead_whole args all
        simp only [read]
        by_cases own : got ++ bytes = (initRCVD args.sessionId).store
        · refine ⟨memory, .inl ⟨success.mpr own, ?_, over'⟩⟩
          rw [own, confirmations]
        · exact ⟨memory, .inr ⟨mt success.mp own, .late stream (Nat.le_of_eq all) own⟩⟩
    | broken readLength partly =>
        simp only [rcvdRead_short got partly, List.append_nil]
        exact .fail memory (.late stream (Nat.le_of_lt short) (ne_rcvd_of_length short))

theorem keeps_onWrite (keeps : Keeps args uninit s read written) {left : List UInt8} {r : Write}
    (blocked : s.call = .write left) (answers : r.Answers (.write left)) :
    Keeps args uninit (s.onWrite args r) read (written ++ r.taken left) := by
  obtain ⟨memory, keeps⟩ := keeps
  rcases call_write blocked with phase | ⟨loc, data, phase⟩ <;> simp only [phase] at keeps
  · obtain ⟨rfl, stream⟩ := keeps
    have pass := writenPass_spec sizeofCONN answers
    simp only [onWrite, phase]
    generalize writenPass sizeofCONN left r = result at pass ⊢
    generalize r.taken left = bytes at pass ⊢
    cases pass with
    | more k less => exact ⟨memory, rfl, taken_append_drop stream k⟩
    | done =>
        have sent : tcpClientSendCONN (some sizeofCONN) = .SUCCESS := by decide
        simp only [connWritten, sent, ne_eq, not_true_eq_false, if_false]
        exact ⟨memory, by decide, rfl, stream⟩
    | broken writtenLength stopped =>
        have unsent : tcpClientSendCONN writtenLength ≠ .SUCCESS := fun success =>
          absurd (stopped _ ((tcpClientWritten_success_iff _ _).mp success)) (by decide)
        simp only [connWritten, unsent, ne_eq, not_false_eq_true, if_true, List.append_nil]
        exact .fail memory (.early ⟨left, stream⟩ (Nat.zero_le _))
  · obtain ⟨k, earlier, rfl, rfl, rfl, stream⟩ := keeps
    have pass := writenPass_spec sizeofDATA answers
    simp only [onWrite, phase]
    generalize writenPass sizeofDATA left r = result at pass ⊢
    generalize r.taken left = bytes at pass ⊢
    cases pass with
    | more k less => exact ⟨memory, _, earlier, rfl, rfl, rfl, taken_append_drop stream k⟩
    | done =>
        have sent : sendDataWrapper (some sizeofDATA) = .SUCCESS := by decide
        simp only [dataWritten, sent, ne_eq, not_true_eq_false, if_false, stream]
        exact keeps_sendDATA memory earlier
    | broken writtenLength stopped =>
        have unsent : sendDataWrapper writtenLength ≠ .SUCCESS := fun success =>
          absurd (stopped _ ((tcpClientWritten_success_iff _ _).mp success)) (by decide)
        simp only [dataWritten, unsent, ne_eq, not_false_eq_true, if_true, List.append_nil]
        exact .fail memory (.sending ⟨k + 1, earlier, left, stream⟩)

/-- **Every step keeps the invariant.** -/
theorem keeps_step (keeps : Keeps args uninit s read written) {e : TCPClientEvent}
    (may : tcpClientPort.may s e) :
    Keeps args uninit ((tcpClientHandler args).next s e) (read ++ tcpClientPort.takes e)
      (written ++ tcpClientPort.puts ((tcpClientHandler args).emit s e)) := by
  cases e with
  | connect r =>
      have phase : s.phase = .connect := may
      obtain ⟨memory, keeps⟩ := keeps
      simp only [phase] at keeps
      obtain ⟨rfl, rfl⟩ := keeps
      have next : (tcpClientHandler args).step s (.connect r) = (s.onConnect args r, []) :=
        if_pos phase
      simp only [Machine.next, Machine.emit, next]
      cases r with
      | connected => exact ⟨memory, rfl, rfl⟩
      | failed errno =>
          exact .fail memory (.early List.nil_prefix (Nat.zero_le _))
  | read r =>
      have answers : r.Answers s.call := may
      have next : (tcpClientHandler args).step s (.read r) = (s.onRead args r, []) := if_pos answers
      simp only [Machine.next, Machine.emit, next]
      have kept := keeps_onRead keeps answers
      rwa [← List.append_nil written] at kept
  | write r =>
      have answers : r.Answers s.call := may
      obtain ⟨left, blocked⟩ := Write.exists_call answers
      have next : (tcpClientHandler args).step s (.write r) =
          (s.onWrite args r, s.writtenBytes r) := if_pos answers
      have bytes : (s.writtenBytes r).flatten = r.taken left := by
        cases r with
        | wrote k =>
            rw [writtenBytes, blocked]
            exact List.append_nil _
        | failed errno => rfl
      rw [blocked] at answers
      simp only [Machine.next, Machine.emit, next]
      have kept := keeps_onWrite keeps blocked answers
      rw [← bytes, ← List.append_nil read] at kept
      exact kept

/-- **The invariant holds in every run.** -/
theorem keeps_run (run : tcpClientPort.Run (tcpClientHandler args) (.start uninit) s read written) :
    Keeps args uninit s read written :=
  run.invariant ⟨rfl, rfl, rfl⟩ fun _ _ _ _ keeps may => keeps_step keeps may

/-- What every client has done that has not ended in success. -/
theorem Keeps.failed (keeps : Keeps args uninit s read written)
    (running : s.phase ≠ .ended .SUCCESS) : Failed args uninit read written := by
  obtain ⟨-, keeps⟩ := keeps
  cases phase : s.phase with
  | connect =>
      simp only [phase] at keeps
      obtain ⟨rfl, rfl⟩ := keeps
      exact .early List.nil_prefix (Nat.zero_le _)
  | writeCONN left =>
      simp only [phase] at keeps
      obtain ⟨rfl, stream⟩ := keeps
      exact .early ⟨left, stream⟩ (Nat.zero_le _)
  | readCONACC got =>
      simp only [phase] at keeps
      obtain ⟨short, rfl, rfl⟩ := keeps
      exact .early List.prefix_rfl (Nat.le_of_lt short)
  | writeDATA loc data left =>
      simp only [phase] at keeps
      obtain ⟨k, earlier, -, -, rfl, stream⟩ := keeps
      exact .sending ⟨k + 1, earlier, left, stream⟩
  | readRCVD got =>
      simp only [phase] at keeps
      obtain ⟨short, rfl, over'⟩ := keeps
      exact .late over'.writesStream (Nat.le_of_lt short) (ne_rcvd_of_length short)
  | ended ret =>
      simp only [phase] at keeps
      rcases keeps with ⟨rfl, -⟩ | ⟨-, failed⟩
      · exact absurd phase running
      · exact failed

/-- What a client that has ended in success has done. -/
theorem Keeps.succeeded (keeps : Keeps args uninit s read written)
    (success : s.phase = .ended .SUCCESS) :
    read = confirmations args.sessionId ∧ LoopOver args uninit written := by
  obtain ⟨-, keeps⟩ := keeps
  simp only [success] at keeps
  rcases keeps with ⟨-, confirmed⟩ | ⟨failure, -⟩
  · exact confirmed
  · exact absurd rfl failure

/-- In every run the client writes the beginning of its stream. -/
theorem writesStream_run
    (run : tcpClientPort.Run (tcpClientHandler args) (.start uninit) s read written) :
    WritesStream args uninit written := by
  by_cases success : s.phase = .ended .SUCCESS
  · exact ((keeps_run run).succeeded success).2.writesStream
  · exact ((keeps_run run).failed success).stream

end TCPClient

/-- The client takes the calls of its process. -/
def tcpClientCarries (args : ClientArgs) :
    tcpClientPort.Carries (tcpClientHandler args) (tcpClientProcess args) where
  onRead bytes := .read (.data bytes)
  onWrite k := .write (.wrote k)
  reads := by
    intro s n bytes blocked fits
    have answers : (Read.data bytes).Answers s.call := Read.answers_data blocked fits
    have step : (tcpClientHandler args).step s (.read (.data bytes)) =
        (s.onRead args (.data bytes), []) := if_pos answers
    refine ⟨answers, rfl, rfl, ?_⟩
    rw [Machine.emit, step]
    rfl
  writes := by
    intro s left k blocked fits
    have answers : (Write.wrote k).Answers s.call := Write.answers_wrote blocked fits
    have call : s.call = .write left := blocked
    have step : (tcpClientHandler args).step s (.write (.wrote k)) =
        (s.onWrite args (.wrote k), s.writtenBytes (.wrote k)) := if_pos answers
    refine ⟨answers, rfl, rfl, ?_⟩
    rw [Machine.emit, step, TCPClient.writtenBytes, call]
    exact List.append_nil _

/-- **What the client does, whoever answers.** -/
theorem tcp_client_discipline {args : ClientArgs} {uninit : TCPClientUninit} {s : TCPClient}
    {read written : List UInt8}
    (run : tcpClientPort.Run (tcpClientHandler args) (.start uninit) s read written) :
    (∃ k, (∀ i < k, UDPSend.HasMore args i) ∧ written <+: streamUpTo args uninit k) ∧
    (sizeofCONN < written.length ∨ sizeofCONACC < read.length →
      (initCONACC args.sessionId).store <+: read) ∧
    read.length ≤ sizeofCONACC + sizeofRCVD ∧
    (s.phase = .ended .SUCCESS ↔ read = confirmations args.sessionId) ∧
    (s.phase = .ended .SUCCESS →
      args.vec.occupiedSize.toNat < 2 ^ 32 ∧ written = clientStream args uninit) := by
  have keeps := TCPClient.keeps_run run
  by_cases success : s.phase = .ended .SUCCESS
  · obtain ⟨rfl, k, earlier, done, rfl⟩ := keeps.succeeded success
    refine ⟨⟨k, earlier, List.prefix_rfl⟩, fun _ => List.prefix_append _ _, ?_,
      iff_of_true success rfl, fun _ => streamUpTo_over earlier done uninit⟩
    rw [confirmations, List.length_append, SessionPacket.length_store, SessionPacket.length_store]
    exact Nat.le_refl _
  · have failed := keeps.failed success
    exact ⟨failed.stream, failed.accepted, failed.few, iff_of_false success failed.unconfirmed,
      fun ended => absurd ended success⟩

/-- A client with one byte writes its `CONN` and a packet, and reads two answers. -/
theorem tcp_client_discipline_oneByte :
    ∃ s written, tcpClientPort.Run (tcpClientHandler oneByte) (.start .zero) s
        (confirmations oneByte.sessionId) written ∧
      s.phase = .ended .SUCCESS ∧ written = clientStream oneByte .zero := by
  have small : oneByte.vec.occupiedSize.toNat < 2 ^ 32 := by decide
  have listening : (tcpServerHandler.after .start []).phase = .accept := rfl
  have ends : Inevitable (TransferStep oneByte) TransferOver (connection oneByte .zero []) :=
    transfer_over small listening
  obtain ⟨c, connected, over'⟩ := ends.reaches
  obtain ⟨success, -⟩ := agreed_over small (transfer_agreed small listening connected) over'
  have connects : tcpClientPort.Run (tcpClientHandler oneByte) (.start .zero)
      (connection oneByte .zero []).left [] [] :=
    Port.Run.begin.step (TCPClientEvent.connect .connected) rfl
  obtain ⟨read, run⟩ := (tcpClientCarries oneByte).run_connected connected connects
  obtain ⟨-, -, -, confirmed, whole⟩ := tcp_client_discipline run
  rw [confirmed.mp success] at run
  exact ⟨_, _, run, success, (whole success).2⟩

end Ppcb
