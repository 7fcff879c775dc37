import Ppcb.ReceiversAgree

/-!
# What the accepted packets bring

A receiver counts the bytes of the packets it accepts (`Intake`). The counter rises with a
packet of some bytes that does not make it run over, and with no other
(`Intake.progress_accept_iff`). While all accepted packets are such, there are at most as many
as bytes were announced (`Counting.progresses_iff`).

None of the three receivers rejects a packet without bytes (`empty_packets_accepted`).
-/

set_option autoImplicit false

namespace Ppcb

open ByteOrder CString Reactive

/-! ## Counting -/

/-- What a receiver has taken in: the id it waits for, its counter of bytes, and the sizes of
the packets it has accepted. -/
structure Intake where
  id : UInt64
  bytes : UInt64
  sizes : List ℕ
deriving DecidableEq, Repr

namespace Intake

def empty : Intake := ⟨0, 0, []⟩

/-- A packet of `n` bytes is accepted. -/
def accept (i : Intake) (n : UInt32) : Intake :=
  ⟨i.id + 1, i.bytes + n.toUInt64, i.sizes ++ [n.toNat]⟩

/-- When the id moves on, it is for a packet of 1 to 64000 bytes, and the counter rises. -/
def Progress (before after : Intake) : Prop :=
  after.id ≠ before.id → ∃ n, after.sizes = before.sizes ++ [n] ∧ 1 ≤ n ∧
    n ≤ maxAllowedPacketSize ∧ before.bytes < after.bytes

/-- A packet of `n` bytes is not empty and does not make the counter run over. -/
def Takes (i : Intake) (n : ℕ) : Prop := 0 < n ∧ i.bytes.toNat + n < 2 ^ 64

/-- There are no more packets than bytes. -/
structure Bounded (total : UInt64) (i : Intake) : Prop where
  counted : i.sizes.length ≤ i.bytes.toNat
  within : i.sizes.length ≤ total.toNat

variable {i : Intake} {n : UInt32} {total : UInt64}

@[simp] theorem accept_bytes (i : Intake) (n : UInt32) :
    (i.accept n).bytes = i.bytes + n.toUInt64 := rfl

theorem Progress.refl (i : Intake) : i.Progress i := fun moved => absurd rfl moved

theorem bounded_empty (total : UInt64) : Bounded total empty := ⟨Nat.zero_le _, Nat.zero_le _⟩

theorem id_accept_ne (i : Intake) (n : UInt32) : (i.accept n).id ≠ i.id := by
  intro same
  have moved : i.id + 1 = i.id := same
  have zero : (1 : UInt64) = 0 := by
    calc (1 : UInt64) = i.id + 1 - i.id := by rw [UInt64.add_comm, UInt64.add_sub_cancel]
      _ = 0 := by rw [moved, UInt64.sub_self]
  exact absurd zero (by decide)

theorem bytes_accept (taken : i.Takes n.toNat) :
    (i.accept n).bytes.toNat = i.bytes.toNat + n.toNat := by
  rw [accept_bytes, UInt64.toNat_add, UInt32.toNat_toUInt64]
  exact Nat.mod_eq_of_lt taken.2

/-- **A packet makes progress** exactly when it is not empty and the counter can take it. -/
theorem progress_accept_iff (small : n.toNat ≤ maxAllowedPacketSize) :
    i.Progress (i.accept n) ↔ i.Takes n.toNat := by
  constructor
  · intro progress
    obtain ⟨m, sizes, some, -, rises⟩ := progress (id_accept_ne i n)
    have last : i.sizes ++ [n.toNat] = i.sizes ++ [m] := sizes
    obtain rfl : n.toNat = m := List.head_eq_of_cons_eq (List.append_cancel_left last)
    refine ⟨some, ?_⟩
    have bound := i.bytes.toNat_lt
    have sum : (i.accept n).bytes.toNat = (i.bytes.toNat + n.toNat) % 2 ^ 64 := by
      rw [accept_bytes, UInt64.toNat_add, UInt32.toNat_toUInt64]
    rw [UInt64.lt_iff_toNat_lt, sum] at rises
    simp only [maxAllowedPacketSize] at small
    omega
  · intro taken _
    refine ⟨n.toNat, rfl, taken.1, small, ?_⟩
    rw [UInt64.lt_iff_toNat_lt, bytes_accept taken]
    exact Nat.lt_add_of_pos_right taken.1

/-- One more packet, while the total is not reached. -/
theorem Bounded.accept (bounded : i.Bounded total) (more : i.bytes < total)
    (taken : i.Takes n.toNat) : (i.accept n).Bounded total := by
  have counted := bounded.counted
  have some := taken.1
  rw [UInt64.lt_iff_toNat_lt] at more
  have length : (i.accept n).sizes.length = i.sizes.length + 1 := List.length_append
  refine ⟨?_, ?_⟩
  · rw [length, bytes_accept taken]
    omega
  · rw [length]
    omega

end Intake

/-- A machine that accepts packets. `Accepts` is the state and the event in which it does so,
`Proper` what holds of the states it can be in. -/
structure Counting {State Event Output : Type*} (M : Machine State Event Output) where
  intake : State → Option Intake
  total : State → UInt64
  Accepts : State → Event → UInt32 → Prop
  Proper : State → Prop
  proper : ∀ s e, Proper s → Proper (M.next s e)
  accepted : ∀ s e n, Proper s → Accepts s e n → n.toNat ≤ maxAllowedPacketSize ∧
    ∃ i, intake s = some i ∧ i.bytes < total s ∧ intake (M.next s e) = some (i.accept n) ∧
      total (M.next s e) = total s
  opened : ∀ s e i, Proper s → intake s = none → intake (M.next s e) = some i → i = .empty
  kept : ∀ s e i i', Proper s → (∀ n, ¬ Accepts s e n) → intake s = some i →
    intake (M.next s e) = some i' → i' = i ∧ total (M.next s e) = total s

namespace Counting

variable {State Event Output : Type*} {M : Machine State Event Output} (K : Counting M)

/-- The step makes progress, if it accepts a packet. -/
def StepProgresses (s : State) (e : Event) : Prop :=
  ∀ i i', K.intake s = some i → K.intake (M.next s e) = some i' → i.Progress i'

/-- Every step of the run makes progress, if it accepts a packet, and no more packets are
accepted than bytes were announced. -/
def Progresses (s : State) (es : List Event) : Prop :=
  M.Along K.StepProgresses s es ∧
    ∀ i, K.intake (M.after s es) = some i → i.sizes.length ≤ (K.total (M.after s es)).toNat

/-- If the event brings a packet that will be accepted, it is not empty and does not make the
counter run over. -/
def NoneEmpty (s : State) (e : Event) : Prop :=
  ∀ n, K.Accepts s e n → ∀ i, K.intake s = some i → i.Takes n.toNat

/-- The invariant of the runs that make progress. -/
def Bounded (s : State) : Prop :=
  K.Proper s ∧ ∀ i, K.intake s = some i → i.Bounded (K.total s)

variable {K} {s : State} {e : Event}

theorem stepProgresses_iff (proper : K.Proper s) : K.StepProgresses s e ↔ K.NoneEmpty s e := by
  by_cases accepts : ∃ n, K.Accepts s e n
  · obtain ⟨n, accepts⟩ := accepts
    obtain ⟨small, i, before, -, after, -⟩ := K.accepted s e n proper accepts
    constructor
    · intro progress m accepts' j before'
      obtain rfl : i = j := Option.some.inj (before.symm.trans before')
      obtain ⟨small', i', before', -, after', -⟩ := K.accepted s e m proper accepts'
      obtain rfl : i = i' := Option.some.inj (before.symm.trans before')
      exact (Intake.progress_accept_iff small').mp (progress i _ before after')
    · intro some i' j before' after'
      obtain rfl : i = i' := Option.some.inj (before.symm.trans before')
      obtain rfl : i.accept n = j := Option.some.inj (after.symm.trans after')
      exact (Intake.progress_accept_iff small).mpr (some n accepts i before)
  · have none : ∀ n, ¬ K.Accepts s e n := fun n accepts' => accepts ⟨n, accepts'⟩
    refine iff_of_true ?_ fun n accepts' => absurd accepts' (none n)
    intro i i' before after
    obtain ⟨rfl, -⟩ := K.kept s e i i' proper none before after
    exact Intake.Progress.refl i'

/-- **A step keeps the bound.** -/
theorem bounded_next (bounded : K.Bounded s) (some' : K.NoneEmpty s e) :
    K.Bounded (M.next s e) := by
  obtain ⟨proper, within⟩ := bounded
  refine ⟨K.proper s e proper, ?_⟩
  intro i' after
  by_cases accepts : ∃ n, K.Accepts s e n
  · obtain ⟨n, accepts⟩ := accepts
    obtain ⟨-, i, before, more, after', same⟩ := K.accepted s e n proper accepts
    obtain rfl : i.accept n = i' := Option.some.inj (after'.symm.trans after)
    rw [same]
    exact (within i before).accept more (some' n accepts i before)
  · have none : ∀ n, ¬ K.Accepts s e n := fun n accepts' => accepts ⟨n, accepts'⟩
    cases before : K.intake s with
    | none =>
        obtain rfl := K.opened s e i' proper before after
        exact Intake.bounded_empty _
    | some i =>
        obtain ⟨rfl, same⟩ := K.kept s e i i' proper none before after
        rw [same]
        exact within i' before

/-- **A run makes progress** exactly when no packet it accepts is empty or makes the counter
run over. -/
theorem progresses_iff (start : K.Bounded s) (es : List Event) :
    K.Progresses s es ↔ M.Along K.NoneEmpty s es := by
  have same : M.Along K.StepProgresses s es ↔ M.Along K.NoneEmpty s es :=
    Machine.along_congr K.proper (fun _ _ proper => stepProgresses_iff proper) start.1 es
  constructor
  · intro progress
    exact same.mp progress.1
  · intro along
    have bounded := Machine.invariant_along (fun _ _ => bounded_next) start along
    exact ⟨same.mpr along, fun i after => (bounded.2 i after).within⟩

end Counting

/-! ## The receivers over UDP -/

/-- What the locals of the loop say about the packets so far. -/
def UDPSession.intake (s : UDPSession) : Intake :=
  ⟨s.currPackageId, s.bytesRecvd, s.delivered.map List.length⟩

theorem UDPSession.intake_accept (s : UDPSession) {payload : List UInt8}
    (fits : payload.length ≤ maxAllowedPacketSize) :
    (s.accept payload).intake = s.intake.accept (.ofNat payload.length) := by
  simp only [intake, Intake.accept, toNat_payload fits]
  congr 1
  exact List.map_append

namespace Reception

variable {σ : Type} (R : Reception σ)

/-- The loop waits, and the datagram is the packet it waits for. -/
def Accepts (s : Receiving σ) (e : RecvFrom × ServerUninit) (n : UInt32) : Prop :=
  ∃ session payload, s.flow = .waiting session ∧ payload.length ≤ maxAllowedPacketSize ∧
    e.1 = (R.session session).next payload ∧ n = .ofNat payload.length

/-- While the loop waits, the total is not reached. -/
def Waits (s : Receiving σ) : Prop :=
  ∀ session, s.flow = .waiting session →
    (R.session session).bytesRecvd < (R.session session).conn.nbrOfBytesToBeSent

variable {R} {s : Receiving σ} {e : RecvFrom × ServerUninit} {session : σ}

theorem next_waiting (waiting : s.flow = .waiting session) :
    (receiver R.pass).next s e = (R.pass session s.clientAddress e.1 e.2).1 := by
  simp only [Machine.next, receiver, waiting]

/-- The loop after the packet it waited for. -/
theorem next_accepts {payload : List UInt8} (waiting : s.flow = .waiting session)
    (fits : payload.length ≤ maxAllowedPacketSize)
    (expected : e.1 = (R.session session).next payload) :
    (receiver R.pass).next s e =
      (R.loop (R.accept session payload) (R.session session).currClientAddr).1 := by
  obtain ⟨replies, -, pass⟩ := R.passes session s.clientAddress e.2 payload fits
  rw [next_waiting waiting, expected, pass]

/-- Any other datagram leaves the session as it was. -/
theorem next_other (other : ∀ n, ¬ R.Accepts s e n) :
    R.session ((receiver R.pass).next s e).flow.session = R.session s.flow.session := by
  cases flow : s.flow with
  | waiting session =>
      rw [next_waiting flow]
      refine R.others session s.clientAddress e.2 e.1 ?_
      intro payload fits expected
      exact other _ ⟨session, payload, flow, fits, expected, rfl⟩
  | returned session => simp only [Machine.next, receiver, flow]

theorem waits_next (waits : R.Waits s) : R.Waits ((receiver R.pass).next s e) := by
  by_cases accepts : ∃ n, R.Accepts s e n
  · obtain ⟨n, session, payload, waiting, fits, expected, -⟩ := accepts
    intro session' waiting'
    rw [next_accepts waiting fits expected] at waiting'
    obtain ⟨same, less⟩ := R.loops (R.accept session payload) (R.session session).currClientAddr
    rw [waiting'] at same
    obtain rfl : session' = R.accept session payload := same
    exact less _ waiting'
  · intro session' waiting'
    have same := next_other fun n accepts' => accepts ⟨n, accepts'⟩
    rw [waiting'] at same
    have same' : R.session session' = R.session s.flow.session := same
    rw [same']
    cases flow : s.flow with
    | waiting session => exact waits session flow
    | returned session =>
        simp only [Machine.next, receiver, flow] at waiting'
        cases waiting'

variable (R) in
/-- A receive loop over UDP counts. -/
def counting : Counting (receiver R.pass) where
  intake s := some (R.session s.flow.session).intake
  total s := (R.session s.flow.session).conn.nbrOfBytesToBeSent
  Accepts := R.Accepts
  Proper := R.Waits
  proper _ _ waits := waits_next waits
  accepted := by
    intro s e n waits accepts
    obtain ⟨session, payload, waiting, fits, expected, rfl⟩ := accepts
    have here : s.flow.session = session := by
      rw [waiting]
      rfl
    have same : R.session ((receiver R.pass).next s e).flow.session =
        (R.session session).accept payload := by
      rw [next_accepts waiting fits expected, (R.loops _ _).1, R.session_accept]
    rw [toNat_payload fits, here, same, UDPSession.intake_accept _ fits]
    exact ⟨fits, _, rfl, waits session waiting, rfl, rfl⟩
  opened := by
    intro s e i _ none
    cases none
  kept := by
    intro s e i i' _ other before after
    rw [next_other other] at after ⊢
    exact ⟨Option.some.inj (after.symm.trans before), rfl⟩

theorem counting_start (R : Reception σ) (conn : CONN) (client address : SockAddr) :
    R.counting.Bounded (R.loop (R.start conn client) address).1 := by
  obtain ⟨same, less⟩ := R.loops (R.start conn client) address
  refine ⟨?_, ?_⟩
  · intro session waiting
    rw [waiting] at same
    obtain rfl : session = R.start conn client := same
    exact less _ waiting
  · intro i here
    obtain rfl := Option.some.inj here
    rw [same, R.session_start]
    exact Intake.bounded_empty _

end Reception

/-! ## The TCP server -/

/-- What the locals of the loop say about the packets so far. -/
def TCPSession.intake (loc : TCPSession) : Intake :=
  ⟨loc.currPacketId, loc.nbrOfBytesReceived, loc.accepted.map UInt32.toNat⟩

theorem TCPSession.intake_accept (loc : TCPSession) (n : UInt32) :
    (loc.accept n).intake = loc.intake.accept n := by
  simp only [intake, accept, Intake.accept, List.map_append, List.map_cons, List.map_nil]

namespace TCPServer

/-- The locals of the receive loop, while it runs. -/
def locals (s : TCPServer) : Option TCPSession :=
  match s.phase with
  | .readDataInfo loc _ => some loc
  | .readData loc _ => some loc
  | _ => none

/-- The bytes complete the header of the packet the server waits for. -/
def Accepts (s : TCPServer) (e : TCPServerEvent) (n : UInt32) : Prop :=
  ∃ loc got bytes, s.phase = .readDataInfo loc got ∧ e = .read (.data bytes) ∧
    got ++ bytes = (dataHeader s.conn.sessionId loc.currPacketId n).store ∧
    n.toNat ≤ maxAllowedPacketSize ∧
    loc.nbrOfBytesReceived + n.toUInt64 ≤ loc.totalNbrOfBytesToBeSent

/-- While the server reads a header, the header is not complete, and the total is not reached. -/
def Waits (s : TCPServer) : Prop :=
  ∀ loc got, s.phase = .readDataInfo loc got → got.length < sizeofDataInfo ∧
    loc.nbrOfBytesReceived < loc.totalNbrOfBytesToBeSent

variable {s s' : TCPServer} {loc : TCPSession} {got bytes : List UInt8} {e : TCPServerEvent}
  {n : UInt32}

/-- A server that is not in the receive loop, or waits there, with locals as they were. -/
def Keeps (s' : TCPServer) (loc : Option TCPSession) : Prop :=
  s'.Waits ∧ (s'.locals = none ∨ s'.locals = loc)

theorem keeps_of_none (none : s'.locals = none) (loc : Option TCPSession) : s'.Keeps loc := by
  refine ⟨?_, .inl none⟩
  intro loc' got phase
  rw [locals, phase] at none
  cases none

theorem keeps_receiveLoop (s : TCPServer) (loc : TCPSession) : (s.receiveLoop loc).Keeps loc := by
  rw [receiveLoop]
  split
  · rename_i less
    refine ⟨?_, .inr rfl⟩
    intro loc' got phase
    cases phase
    exact ⟨by decide, less⟩
  · exact keeps_of_none rfl _

theorem keeps_dataRead (s : TCPServer) (loc : TCPSession) (readBytes : Option ℕ)
    (got : List UInt8) : (s.dataRead loc readBytes got).Keeps loc := by
  rw [dataRead]
  split
  · exact keeps_of_none rfl _
  · exact keeps_receiveLoop _ loc

/-- The bytes of a header are read. -/
theorem next_header (waits : s.Waits) (phase : s.phase = .readDataInfo loc got)
    (whole : (got ++ bytes).length = sizeofDataInfo) :
    tcpServerHandler.next s (.read (.data bytes)) =
      let s : TCPServer :=
        { s with dataMetainfo := ⟨typeOf (got ++ bytes), sessionOf (got ++ bytes),
                   packageOf (got ++ bytes), lengthOf (got ++ bytes)⟩ }
      match loc.header s.conn.sessionId (got ++ bytes) with
      | none => s.handleRJTSending loc.currPacketId
      | some loc => s.atPayload loc := by
  obtain ⟨short, -⟩ := waits loc got phase
  have all := whole
  rw [List.length_append] at all
  have some : bytes ≠ [] := by
    rintro rfl
    rw [List.length_nil] at all
    omega
  have answers : (Read.data bytes).Answers s.call := by
    simp only [call, phase, Read.Answers]
    omega
  rw [next_read answers]
  simp only [onRead, phase, readnPass_done some all]
  refine (dataInfoRead_whole s loc whole).trans ?_
  cases header : loc.header s.conn.sessionId (got ++ bytes) with
  | none => simp only [header, phase]
  | some next => simp only [header, phase]

/-- **The packet that was waited for.** One without bytes is over with its header. -/
theorem locals_accepts (waits : s.Waits) (accepts : s.Accepts e n) :
    ∃ loc, s.locals = some loc ∧ loc.nbrOfBytesReceived < loc.totalNbrOfBytesToBeSent ∧
      (tcpServerHandler.next s e).locals = some (loc.accept n) ∧
      (tcpServerHandler.next s e).Waits := by
  obtain ⟨loc, got, bytes, phase, rfl, input, small, within⟩ := accepts
  obtain ⟨-, less⟩ := waits loc got phase
  have whole : (got ++ bytes).length = sizeofDataInfo := by
    rw [input]
    exact DataInfo.length_store _
  have header : loc.header s.conn.sessionId (got ++ bytes) = some (loc.accept n) :=
    (header_eq_some_iff whole).mpr ⟨n, small, within, input, rfl⟩
  have size : lengthOf (got ++ bytes) = n := by
    rw [input, store_dataHeader]
    simpa using lengthOf_cons dataId s.conn.sessionId loc.currPacketId n []
  refine ⟨loc, by rw [locals, phase], less, ?_⟩
  rw [next_header waits phase whole, size]
  simp only [header]
  rcases atPayload_cases
    { s with dataMetainfo := ⟨typeOf (got ++ bytes), sessionOf (got ++ bytes),
               packageOf (got ++ bytes), n⟩ } (loc.accept n) with
    ⟨empty, equal⟩ | ⟨-, equal⟩ <;> rw [equal]
  · have zero : n = 0 := UInt32.toNat_inj.mp empty
    have more : (loc.accept n).nbrOfBytesReceived < (loc.accept n).totalNbrOfBytesToBeSent := by
      have nothing : (0 : UInt32).toUInt64 = 0 := rfl
      rw [zero, TCPSession.accept_nbrOfBytesReceived, nothing, UInt64.add_zero]
      exact less
    have waiting := keeps_receiveLoop
      { s with
        dataMetainfo := ⟨typeOf (got ++ bytes), sessionOf (got ++ bytes),
          packageOf (got ++ bytes), n⟩
        delivered := s.delivered ++ [[]] } (loc.accept n)
    refine ⟨?_, waiting.1⟩
    rw [receiveLoop, if_pos more]
    rfl
  · refine ⟨rfl, ?_⟩
    intro loc' got' phase'
    cases phase'

/-- A header that is short, missing or not the next one. -/
theorem keeps_headerRead (waits : s.Waits) (phase : s.phase = .readDataInfo loc got) {r : Read}
    (answers : r.Answers s.call) (other : ∀ n, ¬ s.Accepts (.read r) n) :
    (tcpServerHandler.next s (.read r)).Keeps (some loc) := by
  obtain ⟨short, less⟩ := waits loc got phase
  by_cases ended : r.Ended
  · obtain ⟨length, pass, partly⟩ := readnPass_ended sizeofDataInfo got ended
    obtain ⟨info, rejected⟩ := s.dataInfoRead_short loc got
      fun k (equal : length = some k) => (partly k equal).symm ▸ short
    rw [next_read answers]
    simp only [onRead, phase, pass, rejected]
    exact keeps_of_none rfl _
  cases r with
  | failed errno => exact absurd trivial ended
  | data bytes =>
      have fits : bytes.length ≤ sizeofDataInfo - got.length := by
        simpa only [call, phase, Read.Answers] using answers
      rcases Nat.lt_or_ge (got.length + bytes.length) sizeofDataInfo with part | enough
      · rw [next_read answers]
        simp only [onRead, phase, readnPass_more ended part]
        refine ⟨?_, .inr rfl⟩
        intro loc' got' phase'
        cases phase'
        exact ⟨by rw [List.length_append]; exact part, less⟩
      · have whole : (got ++ bytes).length = sizeofDataInfo := by
          rw [List.length_append]
          omega
        rw [next_header waits phase whole]
        cases header : loc.header s.conn.sessionId (got ++ bytes) with
        | none =>
            simp only [header]
            exact keeps_of_none rfl _
        | some loc' =>
            obtain ⟨n, small, within, input, -⟩ := (header_eq_some_iff whole).mp header
            exact absurd ⟨loc, got, bytes, phase, rfl, input, small, within⟩ (other n)

/-- **Any other read** leaves the locals as they were, or the loop is over. -/
theorem keeps_read (waits : s.Waits) (r : Read) (other : ∀ n, ¬ s.Accepts (.read r) n) :
    (tcpServerHandler.next s (.read r)).Keeps s.locals := by
  by_cases answers : r.Answers s.call
  swap
  · rw [next_read_silent answers]
    exact ⟨waits, .inr rfl⟩
  cases phase : s.phase with
  | accept => rw [next_read answers, onRead, phase]; exact ⟨waits, .inr rfl⟩
  | writeCONACC left => rw [next_read answers, onRead, phase]; exact ⟨waits, .inr rfl⟩
  | writeRJT left => rw [next_read answers, onRead, phase]; exact ⟨waits, .inr rfl⟩
  | writeRCVD left => rw [next_read answers, onRead, phase]; exact ⟨waits, .inr rfl⟩
  | finished => rw [next_read answers, onRead, phase]; exact ⟨waits, .inr rfl⟩
  | readCONN got =>
      rw [next_read answers]
      simp only [onRead, phase]
      refine keeps_of_none ?_ _
      split
      · rfl
      · rw [connRead]
        split <;> rfl
  | readData loc got =>
      have here : s.locals = some loc := by rw [locals, phase]
      rw [next_read answers, here]
      simp only [onRead, phase]
      split
      · refine ⟨?_, .inr rfl⟩
        intro loc' got' phase'
        cases phase'
      · exact keeps_dataRead s loc _ _
  | readDataInfo loc got =>
      have here : s.locals = some loc := by rw [locals, phase]
      rw [here]
      exact keeps_headerRead waits phase answers other

/-- Only a write can open the receive loop, with fresh locals. -/
theorem keeps_write (waits : s.Waits) (r : Write) :
    (tcpServerHandler.next s (.write r)).Keeps s.locals ∨
      s.locals = none ∧ ∃ total, (tcpServerHandler.next s (.write r)).Keeps
        (some (.fresh total)) := by
  by_cases answers : r.Answers s.call
  swap
  · rw [next_write_silent answers]
    exact .inl ⟨waits, .inr rfl⟩
  rw [next_write answers]
  cases phase : s.phase with
  | accept => rw [onWrite, phase]; exact .inl ⟨waits, .inr rfl⟩
  | readCONN got => rw [onWrite, phase]; exact .inl ⟨waits, .inr rfl⟩
  | readDataInfo loc got => rw [onWrite, phase]; exact .inl ⟨waits, .inr rfl⟩
  | readData loc got => rw [onWrite, phase]; exact .inl ⟨waits, .inr rfl⟩
  | finished => rw [onWrite, phase]; exact .inl ⟨waits, .inr rfl⟩
  | writeRJT left =>
      refine .inl (keeps_of_none ?_ _)
      simp only [onWrite, phase]
      split <;> rfl
  | writeRCVD left =>
      refine .inl (keeps_of_none ?_ _)
      simp only [onWrite, phase]
      split <;> rfl
  | writeCONACC left =>
      simp only [onWrite, phase]
      split
      · exact .inl (keeps_of_none rfl _)
      · rw [conaccWritten]
        split
        · exact .inl (keeps_of_none rfl _)
        · refine .inr ⟨by rw [locals, phase], s.conn.nbrOfBytesToBeSent, ?_⟩
          exact keeps_receiveLoop s (.fresh s.conn.nbrOfBytesToBeSent)

/-- **Any other event** leaves the locals as they were, or ends the loop, or begins it. -/
theorem keeps_other (waits : s.Waits) (other : ∀ n, ¬ s.Accepts e n) :
    (tcpServerHandler.next s e).Keeps s.locals ∨
      s.locals = none ∧ ∃ total, (tcpServerHandler.next s e).Keeps (some (.fresh total)) := by
  cases e with
  | read r => exact .inl (keeps_read waits r other)
  | write r => exact keeps_write waits r
  | catchInt => exact .inl ⟨waits, .inr rfl⟩
  | accept r =>
      refine .inl ?_
      show (s.onAccept r).Keeps s.locals
      simp only [onAccept]
      split
      · exact keeps_of_none rfl _
      · split
        · exact keeps_of_none rfl _
        · exact ⟨waits, .inr rfl⟩
      · exact ⟨waits, .inr rfl⟩

theorem waits_next (waits : s.Waits) : (tcpServerHandler.next s e).Waits := by
  by_cases accepts : ∃ n, s.Accepts e n
  · obtain ⟨n, accepts⟩ := accepts
    obtain ⟨-, -, -, -, waits'⟩ := locals_accepts waits accepts
    exact waits'
  · rcases keeps_other waits fun n accepts' => accepts ⟨n, accepts'⟩ with keeps | ⟨-, _, keeps⟩
    · exact keeps.1
    · exact keeps.1

end TCPServer

/-- The TCP server counts. -/
def tcpCounting : Counting tcpServerHandler where
  intake s := s.locals.map TCPSession.intake
  total s := (s.locals.map TCPSession.totalNbrOfBytesToBeSent).getD 0
  Accepts := TCPServer.Accepts
  Proper := TCPServer.Waits
  proper _ _ waits := TCPServer.waits_next waits
  accepted := by
    intro s e n waits accepts
    obtain ⟨loc, before, less, after, -⟩ := TCPServer.locals_accepts waits accepts
    obtain ⟨-, -, -, -, -, -, small, -⟩ := accepts
    rw [before, after]
    exact ⟨small, loc.intake, rfl, less, congrArg some (loc.intake_accept n), rfl⟩
  opened := by
    intro s e i waits closed opens
    have none : s.locals = none := Option.map_eq_none_iff.mp closed
    have other : ∀ n, ¬ s.Accepts e n := by
      rintro n ⟨loc, got, bytes, phase, -⟩
      rw [TCPServer.locals, phase] at none
      cases none
    obtain ⟨loc, after, rfl⟩ := Option.map_eq_some_iff.mp opens
    rcases TCPServer.keeps_other waits other with ⟨-, same⟩ | ⟨-, total, -, same⟩
    · rw [none, or_self, after] at same
      cases same
    · rw [after] at same
      rcases same with same | same <;> cases same
      rfl
  kept := by
    intro s e i i' waits other before after
    obtain ⟨loc, open', rfl⟩ := Option.map_eq_some_iff.mp before
    obtain ⟨loc', open'', rfl⟩ := Option.map_eq_some_iff.mp after
    rcases TCPServer.keeps_other waits other with ⟨-, same⟩ | ⟨none, -⟩
    · rw [open', open''] at same ⊢
      rcases same with same | same <;> cases same
      exact ⟨rfl, rfl⟩
    · rw [open'] at none
      cases none

/-! ## The three receivers -/

/-- **Every accepted packet makes progress, provided that none is empty** and that the bytes
together stay below the bound of the counter. -/
theorem accepted_packets_progress_iff (conn : CONN) (client address : SockAddr)
    (datagrams : List (RecvFrom × ServerUninit)) (events : List TCPServerEvent) :
    (udpReception.counting.Progresses (udpDataReceiveLoop (.start conn client) address).1
        datagrams ↔
      udpDataReceive.Along udpReception.counting.NoneEmpty
        (udpDataReceiveLoop (.start conn client) address).1 datagrams) ∧
    (udprReception.counting.Progresses (udprDataReceiveLoop (.start conn client) address).1
        datagrams ↔
      udprDataReceive.Along udprReception.counting.NoneEmpty
        (udprDataReceiveLoop (.start conn client) address).1 datagrams) ∧
    (tcpCounting.Progresses .start events ↔
      tcpServerHandler.Along tcpCounting.NoneEmpty .start events) := by
  refine ⟨?_, ?_, ?_⟩
  · exact Counting.progresses_iff (Reception.counting_start udpReception conn client address) _
  · exact Counting.progresses_iff (Reception.counting_start udprReception conn client address) _
  · refine Counting.progresses_iff ⟨?_, ?_⟩ events
    · intro loc got phase
      cases phase
    · intro i none
      cases none

/-- One byte is announced, and two packets without bytes are accepted. -/
theorem empty_packets_accepted :
    ¬ udpReception.counting.Progresses
        (udpDataReceiveLoop (.start ⟨connId, 7, udpProtocol, 1⟩ ⟨0, 0⟩) ⟨0, 0⟩).1
        [(.datagram ⟨0, 0⟩ (dataBytes 7 0 []), .zero),
          (.datagram ⟨0, 0⟩ (dataBytes 7 1 []), .zero)] ∧
    ¬ udprReception.counting.Progresses
        (udprDataReceiveLoop (.start ⟨connId, 7, udprProtocol, 1⟩ ⟨0, 0⟩) ⟨0, 0⟩).1
        [(.datagram ⟨0, 0⟩ (dataBytes 7 0 []), .zero),
          (.datagram ⟨0, 0⟩ (dataBytes 7 1 []), .zero)] ∧
    ¬ tcpCounting.Progresses .start
        [.accept .connected, .read (.data (initCONN 7 tcpProtocol 1).store), .write (.wrote 9),
          .read (.data (dataHeader 7 0 0).store), .read (.data (dataHeader 7 1 0).store)] := by
  refine ⟨?_, ?_, ?_⟩
  · rintro ⟨-, bound⟩
    exact absurd (bound _ rfl) (by decide)
  · rintro ⟨-, bound⟩
    exact absurd (bound _ rfl) (by decide)
  · rintro ⟨-, bound⟩
    exact absurd (bound ⟨2, 0, [0, 0]⟩ (by decide)) (by decide)

end Ppcb
