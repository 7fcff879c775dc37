import Ppcb.Lib.StopAndWait
import Ppcb.DatagramScripts
import Ppcb.Staleness
import Ppcb.StrayData
import Ppcb.TrafficBound

/-!
# Retransmission makes up for losses

The protocol with retransmission is one of stop and wait: message `0` is the `CONN`, message
`i + 1` is packet `i`, and each is sent again after a timeout until its reply has come. The client
asks (`udprAsks`) and the server answers (`udprAnswers`).

So over a network that keeps the order and may lose anything the server receives everything, and
the client comes to an end, unless one side has run into more timeouts than it bears. The client
ends in success if the last `ACC` and the `RCVD` are not lost and the `RCVD` is waited for: they
are not sent again (`udpr_transfer_survives_loss`).
-/

set_option autoImplicit false

namespace Ppcb

open ByteOrder CString Reactive Relation

namespace UDPR

variable (args : ClientArgs)

/-- What the client sends, in order. -/
def message : ℕ → List UInt8
  | 0 => DatagramType.UDPR.conn args
  | i + 1 => DatagramType.UDPR.packet args i

/-- What the server replies: to each message, to all of them, and to a packet that comes later. -/
def reply : ℕ → List UInt8
  | 0 => (initCONACC args.sessionId).store
  | i + 1 =>
      if i < DatagramType.count args then (initACC args.sessionId (UInt64.ofNat i)).store
      else if i = DatagramType.count args then (initRCVD args.sessionId).store
      else (initCONRJT args.sessionId).store

variable {args}

theorem reply_acc {i : ℕ} (below : i < DatagramType.count args) :
    reply args (i + 1) = (initACC args.sessionId (UInt64.ofNat i)).store := if_pos below

theorem reply_rcvd :
    reply args (DatagramType.count args + 1) = (initRCVD args.sessionId).store := by
  rw [reply, if_neg (Nat.lt_irrefl _), if_pos rfl]

theorem reply_conrjt :
    reply args (DatagramType.count args + 2) = (initCONRJT args.sessionId).store := by
  rw [reply, if_neg (by omega), if_neg (by omega)]

variable (args)

/-- The last `ACC` and the `RCVD` are not lost. -/
def LostLeft (bytes : List UInt8) : Prop :=
  bytes ≠ (initACC args.sessionId (UInt64.ofNat (DatagramType.count args - 1))).store ∧
    bytes ≠ (initRCVD args.sessionId).store

theorem losable (some_packets : 0 < DatagramType.count args) (r : ℕ)
    (lost : LostLeft args (reply args r)) : Exchange.Losable (DatagramType.count args) r := by
  obtain ⟨acc, rcvd⟩ := lost
  constructor
  · rintro rfl
    obtain ⟨i, count⟩ := Nat.exists_eq_succ_of_ne_zero (Nat.ne_of_gt some_packets)
    refine acc ?_
    have last : reply args (i + 1) = (initACC args.sessionId (UInt64.ofNat i)).store :=
      reply_acc (by omega)
    rw [count, Nat.succ_sub_one]
    exact last
  · rintro rfl
    exact rcvd reply_rcvd

end UDPR

/-! ## The client -/

/-- The client may run into a timeout when it waits, but not for the `RCVD` if that comes in
time. -/
def UDPRClient.timedPort (inTime : Bool) (serverAddress : SockAddr) :
    TimedPort UDPRClient ClientEvent Datagram (List UInt8) (List UInt8) where
  toPort := DatagramType.UDPR.clientPort serverAddress
  times s
    | .recvfrom (.failed errno) _ =>
        errno = .EAGAIN ∧ s.waiting = true ∧ (inTime = true → s.phase ≠ .waitRCVD)
    | _ => False

/-- The client is at this message, about to send it or not, after `nbr` timeouts. -/
inductive UDPRClient.AsksAt (args : ClientArgs) : ℕ → Bool → ℕ → UDPRClient → Prop where
  | sendCONN {w : WaitState} {nbr acked : ℕ} (knows : w.Knows args.serverAddress) :
      AsksAt args 0 true nbr ⟨w, nbr, .sendCONN, acked⟩
  | waitCONACC {w : WaitState} {nbr acked : ℕ} (knows : w.Knows args.serverAddress) :
      AsksAt args 0 false nbr ⟨w, nbr, .waitCONACC, acked⟩
  | sendDATA {w : WaitState} {nbr acked i : ℕ} {built : DATA}
      (knows : w.Knows args.serverAddress) (below : i < DatagramType.count args)
      (bytes : built.sentBytes = DatagramType.UDPR.packet args i) :
      AsksAt args (i + 1) true nbr
        ⟨w, nbr, .sendDATA (UDPRSend.atPacket args i).filled built, acked⟩
  | waitACC {w : WaitState} {nbr acked i : ℕ} {built : DATA}
      (knows : w.Knows args.serverAddress) (below : i < DatagramType.count args) :
      AsksAt args (i + 1) false nbr
        ⟨w, nbr, .waitACC (UDPRSend.atPacket args i).filled built, acked⟩
  | waitRCVD {w : WaitState} {nbr acked : ℕ} (knows : w.Knows args.serverAddress) :
      AsksAt args (DatagramType.count args + 1) false nbr ⟨w, nbr, .waitRCVD, acked⟩
  | ended {w : WaitState} {nbr acked : ℕ} :
      AsksAt args (DatagramType.count args + 2) false nbr ⟨w, nbr, .ended .SUCCESS, acked⟩

section Client

variable {args : ClientArgs} {inTime : Bool} {w : WaitState} {nbr acked i : ℕ}

/-- The loop is at packet `i`, or past the last one. -/
theorem UDPRClient.asksAt_sendDATA (small : args.vec.occupiedSize.toNat < 2 ^ 32)
    (knows : w.Knows args.serverAddress) {loc : UDPRSend} (data : DATA)
    (same : loc.filled = (UDPRSend.atPacket args i).filled)
    (within : i ≤ DatagramType.count args) (acked : ℕ) :
    AsksAt args (i + 1) (decide (i < DatagramType.count args)) nbr
      ⟨w, nbr, udprClientSendDATA args loc data, acked⟩ := by
  rcases udprClientSendDATA_cases data same with ⟨more, built, phase, bytes⟩ | ⟨done, phase⟩
  · have below : i < DatagramType.count args := (UDPRSend.hasMore_iff_lt small i).mp more
    rw [phase, decide_eq_true below]
    exact .sendDATA knows below bytes
  · have spent : ¬ i < DatagramType.count args := mt (UDPRSend.hasMore_iff_lt small i).mpr done
    have last : i = DatagramType.count args := Nat.le_antisymm within (Nat.not_lt.mp spent)
    rw [phase, decide_eq_false spent, last]
    exact .waitRCVD knows

theorem UDPRClient.recvfrom_of_takes {s : UDPRClient} {serverAddress : SockAddr}
    (waiting : s.waiting = true) {e : ClientEvent} {bytes : List UInt8}
    (may : (timedPort inTime serverAddress).may s e)
    (takes : (timedPort inTime serverAddress).takes e = [bytes]) :
    ∃ uninit, e = .recvfrom (.datagram serverAddress bytes) uninit := by
  obtain ⟨other, uninit, rfl⟩ := DatagramType.recvfrom_of_may (t := .UDPR) waiting may
  cases takes
  exact ⟨uninit, rfl⟩

variable {a : ℕ} {s : UDPRClient} {e : ClientEvent}

theorem UDPRClient.AsksAt.sending (there : s.AsksAt args a true nbr) :
    DatagramType.UDPR.sending s = true := by
  cases there <;> rfl

theorem UDPRClient.AsksAt.waiting (there : s.AsksAt args a false nbr)
    (before : a ≤ DatagramType.count args + 1) : s.waiting = true := by
  cases there with
  | ended => exact absurd before (Nat.not_succ_le_self _)
  | _ => rfl

theorem UDPRClient.AsksAt.ne_waitRCVD (there : s.AsksAt args a false nbr)
    (within : a ≤ DatagramType.count args) : s.phase ≠ .waitRCVD := by
  cases there with
  | waitRCVD => exact absurd within (Nat.not_succ_le_self _)
  | _ => exact UDPRPhase.noConfusion

/-- A client that waits, but not for the `RCVD`, waits for a reply to a message. -/
theorem UDPRClient.AsksAt.le_count {w : Bool} (there : s.AsksAt args a w nbr)
    (waiting : s.waiting = true) (rcvd : s.phase ≠ .waitRCVD) : a ≤ DatagramType.count args := by
  cases there with
  | sendCONN => exact Nat.zero_le _
  | waitCONACC => exact Nat.zero_le _
  | sendDATA _ below => exact below
  | waitACC _ below => exact below
  | waitRCVD => exact absurd rfl rcvd
  | ended => cases waiting

/-- A client that may do something has not ended. -/
theorem UDPRClient.AsksAt.before (there : s.AsksAt args a false nbr)
    (may : (timedPort inTime args.serverAddress).may s e) : a ≤ DatagramType.count args + 1 := by
  cases there with
  | waitCONACC => exact Nat.zero_le _
  | waitACC _ below => exact Nat.le_succ_of_le below
  | waitRCVD => exact Nat.le_refl _
  | ended => exact absurd may (DatagramType.UDPR.not_may_of_succeeded rfl e)

theorem UDPRClient.AsksAt.succeeded {w : Bool} (there : s.AsksAt args a w nbr)
    (done : a = DatagramType.count args + 2) : s.phase = .ended .SUCCESS := by
  cases there with
  | ended => rfl
  | sendDATA _ below => omega
  | waitACC _ below => omega
  | _ => omega

/-- A message is sent. -/
theorem UDPRClient.AsksAt.sends (there : s.AsksAt args a true nbr) :
    (timedPort inTime args.serverAddress).puts ((udprClientHandler args).emit s (.sendto .sent)) =
        [UDPR.message args a] ∧
      ((udprClientHandler args).next s (.sendto .sent)).AsksAt args a false nbr := by
  cases there with
  | sendCONN knows => exact ⟨DatagramType.UDPR.puts_own _ _, .waitCONACC knows⟩
  | sendDATA knows below bytes =>
      refine ⟨?_, .waitACC knows below⟩
      rw [UDPR.message, ← bytes]
      exact DatagramType.UDPR.puts_own _ _

/-- The reply that the client waits for comes. -/
theorem UDPRClient.AsksAt.proceeds (small : args.vec.occupiedSize.toNat < 2 ^ 32)
    (there : s.AsksAt args a false nbr) (before : a ≤ DatagramType.count args + 1)
    (uninit : ClientUninit) :
    (s.onRecvfrom args (.datagram args.serverAddress (UDPR.reply args a)) uninit).AsksAt args
      (a + 1) (decide (a < DatagramType.count args)) nbr := by
  cases there with
  | waitCONACC knows =>
      rw [UDPR.reply, onRecvfrom_conacc knows]
      exact asksAt_sendDATA small (.inr (WaitState.learn_server knows)) _ rfl (Nat.zero_le _) _
  | @waitACC w nbr acked i built knows below =>
      have acknowledged := onRecvfrom_acc rfl knows nbr acked (UDPRSend.atPacket args i).filled
        built uninit
      rw [UDPRSend.filled_currPackageId, UDPRSend.currPackageId_atPacket] at acknowledged
      rw [UDPR.reply_acc below, acknowledged]
      exact asksAt_sendDATA small (.inr (WaitState.learn_server knows)) _
        (by rw [UDPRSend.atPacket_succ]) below _
  | @waitRCVD w nbr acked knows =>
      obtain ⟨fits, nonempty⟩ := fits_initRCVD args.sessionId
      have confirmed : udprClientHandleRCVD uninit 0 args.sessionId
          (.SUCCESS, (initRCVD args.sessionId).store) = some .SUCCESS :=
        (udprClientHandleRCVD_success_iff _).mpr rfl
      rw [UDPR.reply_rcvd, onRecvfrom_server knows rfl fits nonempty,
        decide_eq_false (Nat.not_succ_lt_self)]
      simp only [onResponse, confirmed]
      exact .ended
  | ended => exact absurd before (Nat.not_succ_le_self _)

/-- Packet ids below the last one are compared as numbers. -/
theorem ofNat_lt_succ (small : args.vec.occupiedSize.toNat < 2 ^ 32)
    (below : i < DatagramType.count args) : UInt64.ofNat i < UInt64.ofNat (i + 1) := by
  have few := DatagramType.count_lt small
  have next : i + 1 < 2 ^ 64 := by omega
  rw [UInt64.lt_iff_toNat_lt, UInt64.toNat_ofNat_of_lt' (Nat.lt_of_succ_lt next),
    UInt64.toNat_ofNat_of_lt' next]
  exact Nat.lt_succ_self i

/-- A client that waits for the `ACC` of packet `i` ignores what came before. -/
theorem UDPRClient.ignores_reply (small : args.vec.occupiedSize.toNat < 2 ^ 32)
    (knows : w.Knows args.serverAddress) (below : i < DatagramType.count args) (built : DATA) :
    UDPRClient.Ignores args ⟨w, nbr, .waitACC (UDPRSend.atPacket args i).filled built, acked⟩
      (UDPR.reply args i) := by
  cases i with
  | zero =>
      obtain ⟨fits, nonempty⟩ := fits_initCONACC args.sessionId
      refine (ignores_waitACC_iff knows fits nonempty).mpr fun uninit => ?_
      rw [udprClientHandleACC_conacc, UDPRSend.filled_isBeforeFirstAcc,
        UDPRSend.isBeforeFirstAcc_atPacket]
      rfl
  | succ i =>
      have earlier := Nat.lt_of_succ_lt below
      have behind : (UDPRPhase.waitACC (UDPRSend.atPacket args (i + 1)).filled built).Behind
          (UInt64.ofNat i) := by
        rw [UDPRPhase.Behind, UDPRSend.filled_currPackageId, UDPRSend.currPackageId_atPacket]
        exact ofNat_lt_succ small earlier
      rw [UDPR.reply_acc earlier]
      refine (ignores_acc_iff ?_ ?_ _).mpr behind
      · exact knows
      · trivial

/-- A reply to the message before comes again. -/
theorem UDPRClient.AsksAt.ignores (small : args.vec.occupiedSize.toNat < 2 ^ 32)
    (there : s.AsksAt args (a + 1) false nbr) (before : a + 1 ≤ DatagramType.count args)
    (uninit : ClientUninit) :
    (s.onRecvfrom args (.datagram args.serverAddress (UDPR.reply args a)) uninit).AsksAt args
      (a + 1) false nbr := by
  cases there with
  | @waitACC w nbr acked i built knows below =>
      have same : UDPRClient.onRecvfrom args
          ⟨w, nbr, .waitACC (UDPRSend.atPacket args a).filled built, acked⟩
          (.datagram args.serverAddress (UDPR.reply args a)) uninit =
            ⟨w.learn args.serverAddress, nbr, .waitACC (UDPRSend.atPacket args a).filled built,
              acked⟩ :=
        congrArg Prod.fst (ignores_reply small knows below built uninit)
      rw [same]
      exact .waitACC (.inr (WaitState.learn_server knows)) below
  | waitRCVD => exact absurd before (Nat.not_succ_le_self _)
  | ended => exact absurd before (by omega)

/-- A timeout of a client that waits for a reply to a message. -/
theorem UDPRClient.AsksAt.times (small : args.vec.occupiedSize.toNat < 2 ^ 32) {w : Bool}
    (there : s.AsksAt args a w nbr) (within : a ≤ DatagramType.count args)
    (waiting : s.waiting = true) (uninit : ClientUninit) :
    w = false ∧ (nbr < maxRetransmits →
      (s.onRecvfrom args (.failed .EAGAIN) uninit).AsksAt args a true (nbr + 1)) := by
  cases there with
  | sendCONN => cases waiting
  | sendDATA => cases waiting
  | ended => cases waiting
  | waitRCVD => exact absurd within (Nat.not_succ_le_self _)
  | waitCONACC knows =>
      refine ⟨rfl, fun few => ?_⟩
      have within : ¬ nbr + 1 > maxRetransmits := Nat.not_lt.mpr few
      rw [onRecvfrom_timeout waiting]
      show (connectAgain _).AsksAt args 0 true (nbr + 1)
      rw [connectAgain, if_neg within]
      exact .sendCONN knows
  | @waitACC w nbr acked i built knows below =>
      refine ⟨rfl, fun few => ?_⟩
      have within : ¬ nbr + 1 > maxRetransmits := Nat.not_lt.mpr few
      have knows' : { w with errno := .EAGAIN }.Knows args.serverAddress := knows
      have again : AsksAt args (i + 1) (decide (i < DatagramType.count args)) (nbr + 1)
          ⟨{ w with errno := .EAGAIN }, nbr + 1,
            udprClientSendDATA args (UDPRSend.atPacket args i).filled built, acked⟩ :=
        asksAt_sendDATA small knows' built (UDPRSend.filled_filled _) (Nat.le_of_lt below) acked
      rw [decide_eq_true below] at again
      rw [onRecvfrom_timeout waiting]
      simp only [onResponse, udprClientHandleACC, countRetransmit, if_neg within]
      exact again

variable (inTime) in
/-- **The client asks.** -/
def udprAsks (small : args.vec.occupiedSize.toNat < 2 ^ 32) :
    Asks (udprClientHandler args) (UDPRClient.timedPort inTime args.serverAddress)
      (UDPR.message args) (UDPR.reply args) (DatagramType.count args) maxRetransmits where
  At a w nbr s := s.AsksAt args a w nbr
  sends there := by
    refine ⟨⟨.sendto .sent, rfl, there.sending⟩, fun e may => ?_⟩
    rw [DatagramType.sendto_of_may there.sending may]
    exact ⟨rfl, there.sends⟩
  hears there before bytes :=
    ⟨.recvfrom (.datagram args.serverAddress bytes) .zero, ⟨rfl, there.waiting before⟩, rfl⟩
  hears_one there may := by
    have waiting : UDPRClient.waiting _ = true := there.waiting (there.before may)
    obtain ⟨bytes, uninit, rfl⟩ := DatagramType.recvfrom_of_may (t := .UDPR) waiting may
    exact ⟨bytes, rfl⟩
  proceeds there before may takes := by
    obtain ⟨uninit, rfl⟩ := UDPRClient.recvfrom_of_takes (there.waiting before) may takes
    exact ⟨rfl, there.proceeds small before uninit⟩
  ignores there before may takes := by
    have waiting := there.waiting (Nat.le_succ_of_le before)
    obtain ⟨uninit, rfl⟩ := UDPRClient.recvfrom_of_takes waiting may takes
    exact ⟨rfl, there.ignores small before uninit⟩
  ended there may := absurd (there.before may) (Nat.not_succ_le_self _)
  waits there within :=
    ⟨.recvfrom (.failed .EAGAIN) .zero, rfl, there.waiting (Nat.le_succ_of_le within),
      fun _ => there.ne_waitRCVD within⟩
  times := by
    intro a w nbr s e there within times
    cases e with
    | sendto r => cases times
    | recvfrom r uninit =>
        cases r with
        | datagram src bytes => cases times
        | failed errno =>
            obtain ⟨rfl, waiting, -⟩ := times
            obtain ⟨silent, next⟩ := there.times small within waiting uninit
            exact ⟨silent, fun few => ⟨rfl, next few⟩⟩

/-! ### The client after the last message -/

/-- A packet is sent again within the limit only. -/
theorem udprClientHandleACC_retransmission {uninit : ACC} {nbr nbr' : ℕ}
    {currPackageId sessionId : UInt64} {before : Bool} {response : RetVal × List UInt8}
    (handled : udprClientHandleACC uninit nbr currPackageId sessionId before response =
      some (.RETRANSMISSION, nbr')) : nbr' = nbr + 1 ∧ nbr < maxRetransmits := by
  have counted : some (countRetransmit nbr) = some (.RETRANSMISSION, nbr') →
      nbr' = nbr + 1 ∧ nbr < maxRetransmits := by
    intro same
    have counts := Option.some.inj same
    simp only [countRetransmit, Prod.mk.injEq] at counts
    refine ⟨counts.2.symm, ?_⟩
    by_contra exceeds
    rw [if_pos (Nat.lt_succ_of_le (Nat.not_lt.mp exceeds))] at counts
    cases counts.1
  simp only [udprClientHandleACC] at handled
  repeat' split at handled
  all_goals first
    | exact counted handled
    | cases handled

/-- The client is at the last packet, or behind it. It runs into a timeout at most `n` times. -/
inductive UDPRClient.ClosesAt (args : ClientArgs) : ℕ → Bool → UDPRClient → Prop where
  | sendDATA {w : WaitState} {nbr acked i : ℕ} {built : DATA}
      (last : DatagramType.count args = i + 1)
      (bytes : built.sentBytes = DatagramType.UDPR.packet args i) :
      ClosesAt args (maxRetransmits - nbr + 2) true
        ⟨w, nbr, .sendDATA (UDPRSend.atPacket args i).filled built, acked⟩
  | waitACC {w : WaitState} {nbr acked i : ℕ} {built : DATA}
      (last : DatagramType.count args = i + 1) :
      ClosesAt args (maxRetransmits - nbr + 2) false
        ⟨w, nbr, .waitACC (UDPRSend.atPacket args i).filled built, acked⟩
  | waitRCVD {w : WaitState} {nbr acked : ℕ} : ClosesAt args 1 false ⟨w, nbr, .waitRCVD, acked⟩
  | ended {w : WaitState} {nbr acked : ℕ} (ret : RetVal) :
      ClosesAt args 0 false ⟨w, nbr, .ended ret, acked⟩

theorem UDPRClient.AsksAt.closes (some_packets : 0 < DatagramType.count args) {w : Bool}
    (there : s.AsksAt args a w nbr) (last : DatagramType.count args ≤ a) :
    ∃ n w', s.ClosesAt args n w' := by
  cases there with
  | sendCONN => exact absurd some_packets (Nat.not_lt.mpr last)
  | waitCONACC => exact absurd some_packets (Nat.not_lt.mpr last)
  | sendDATA _ below bytes => exact ⟨_, _, .sendDATA (Nat.le_antisymm last below) bytes⟩
  | waitACC _ below => exact ⟨_, _, .waitACC (Nat.le_antisymm last below)⟩
  | waitRCVD => exact ⟨_, _, .waitRCVD⟩
  | ended => exact ⟨_, _, .ended _⟩

section Closes

variable {n : ℕ}

theorem UDPRClient.ClosesAt.sending (there : s.ClosesAt args n true) :
    DatagramType.UDPR.sending s = true := by
  cases there
  rfl

theorem UDPRClient.ClosesAt.waiting (there : s.ClosesAt args n false) (running : 0 < n) :
    s.waiting = true := by
  cases there with
  | waitACC => rfl
  | waitRCVD => rfl
  | ended ret => exact absurd running (Nat.lt_irrefl 0)

theorem UDPRClient.ClosesAt.running (there : s.ClosesAt args n false)
    (may : (timedPort inTime args.serverAddress).may s e) : 0 < n := by
  cases there with
  | waitACC => exact Nat.succ_pos _
  | waitRCVD => exact Nat.one_pos
  | ended ret =>
      cases e with
      | sendto r => cases may.2
      | recvfrom r uninit =>
          cases r with
          | failed errno => cases may
          | datagram src bytes => cases may.2

theorem UDPRClient.ClosesAt.ended_of_zero {w : Bool} (there : s.ClosesAt args n w)
    (zero : n = 0) : ∃ ret, s.phase = .ended ret := by
  cases there with
  | sendDATA => exact absurd zero (Nat.succ_ne_zero _)
  | waitACC => exact absurd zero (Nat.succ_ne_zero _)
  | waitRCVD => exact absurd zero Nat.one_ne_zero
  | ended ret => exact ⟨ret, rfl⟩

/-- The last packet is sent. -/
theorem UDPRClient.ClosesAt.sends (there : s.ClosesAt args n true) :
    (timedPort inTime args.serverAddress).puts ((udprClientHandler args).emit s (.sendto .sent)) =
        [UDPR.message args (DatagramType.count args)] ∧
      ((udprClientHandler args).next s (.sendto .sent)).ClosesAt args n false := by
  cases there with
  | sendDATA last bytes =>
      refine ⟨?_, .waitACC last⟩
      rw [last, UDPR.message, ← bytes]
      exact DatagramType.UDPR.puts_own _ _

/-- The last packet is built once more. -/
theorem UDPRClient.closesAt_again (small : args.vec.occupiedSize.toNat < 2 ^ 32)
    (last : DatagramType.count args = i + 1) (built : DATA) :
    ClosesAt args (maxRetransmits - nbr + 2) true
      ⟨w, nbr, udprClientSendDATA args (UDPRSend.atPacket args i).filled built, acked⟩ := by
  rcases udprClientSendDATA_cases built (UDPRSend.filled_filled (UDPRSend.atPacket args i)) with
    ⟨-, built, phase, bytes⟩ | ⟨done, -⟩
  · rw [phase]
    exact .sendDATA last bytes
  · have below : i < DatagramType.count args := by
      rw [last]
      exact Nat.lt_succ_self i
    exact absurd ((UDPRSend.hasMore_iff_lt small i).mpr below) done

/-- There is no packet behind the last one. -/
theorem UDPRClient.closesAt_advance (small : args.vec.occupiedSize.toNat < 2 ^ 32)
    (last : DatagramType.count args = i + 1) (built : DATA) :
    ClosesAt args 1 false
      ⟨w, nbr, udprClientSendDATA args (UDPRSend.atPacket args i).filled.advance built, acked⟩ := by
  have same : (UDPRSend.atPacket args i).filled.advance.filled =
      (UDPRSend.atPacket args (i + 1)).filled := by rw [UDPRSend.atPacket_succ]
  rcases udprClientSendDATA_cases built same with ⟨more, -⟩ | ⟨-, phase⟩
  · have below : i + 1 < DatagramType.count args := (UDPRSend.hasMore_iff_lt small _).mp more
    exact absurd below (last ▸ Nat.lt_irrefl _)
  · rw [phase]
    exact .waitRCVD

/-- Whatever the client is answered, it comes no further from its end. -/
theorem UDPRClient.ClosesAt.onResponse (small : args.vec.occupiedSize.toNat < 2 ^ 32)
    (there : s.ClosesAt args n false) (wait : WaitState) (uninit : ClientUninit)
    (response : RetVal × List UInt8) :
    ∃ m w, (({ s with wait := wait }).onResponse args uninit response).ClosesAt args m w ∧
      m + w.toNat ≤ n := by
  cases there with
  | @waitACC w nbr acked i built last =>
      simp only [UDPRClient.onResponse]
      cases handled : udprClientHandleACC uninit.acc nbr
        (UDPRSend.atPacket args i).filled.currPackageId args.sessionId
        (UDPRSend.atPacket args i).filled.isBeforeFirstAcc response with
      | none => exact ⟨_, _, .waitACC last, Nat.le_refl _⟩
      | some result =>
          obtain ⟨ret, nbr'⟩ := result
          cases ret with
          | SUCCESS =>
              exact ⟨_, _, closesAt_advance small last built, Nat.le_add_left 1 _⟩
          | RETRANSMISSION =>
              obtain ⟨rfl, few⟩ := udprClientHandleACC_retransmission handled
              refine ⟨_, _, closesAt_again small last built, ?_⟩
              rw [Bool.toNat_true]
              omega
          | _ => exact ⟨_, _, .ended _, Nat.zero_le _⟩
  | waitRCVD =>
      simp only [UDPRClient.onResponse]
      split
      · exact ⟨_, _, .waitRCVD, Nat.le_refl 1⟩
      · exact ⟨_, _, .ended _, Nat.zero_le 1⟩
  | ended ret => exact ⟨_, _, .ended ret, Nat.le_refl 0⟩

theorem UDPRClient.ClosesAt.onRecvfrom (small : args.vec.occupiedSize.toNat < 2 ^ 32)
    (there : s.ClosesAt args n false) (r : RecvFrom) (uninit : ClientUninit) :
    ∃ m w, (s.onRecvfrom args r uninit).ClosesAt args m w ∧ m + w.toNat ≤ n := by
  rcases s.onRecvfrom_cases r uninit with ⟨wait, same⟩ | ⟨wait, response, -, same⟩
  · rw [same]
    refine ⟨n, false, ?_, Nat.le_refl n⟩
    cases there with
    | waitACC last => exact .waitACC last
    | waitRCVD => exact .waitRCVD
    | ended ret => exact .ended ret
  · rw [same]
    exact there.onResponse small wait uninit response

/-- A timeout brings it nearer. -/
theorem UDPRClient.ClosesAt.times (small : args.vec.occupiedSize.toNat < 2 ^ 32) {w : Bool}
    (there : s.ClosesAt args n w) (waiting : s.waiting = true) (uninit : ClientUninit) :
    w = false ∧ ∃ m w', (s.onRecvfrom args (.failed .EAGAIN) uninit).ClosesAt args m w' ∧
      m < n := by
  cases there with
  | sendDATA => cases waiting
  | ended ret => cases waiting
  | waitRCVD =>
      rw [onRecvfrom_timeout waiting]
      exact ⟨rfl, _, _, .ended .ERROR, Nat.one_pos⟩
  | @waitACC w nbr acked i built last =>
      refine ⟨rfl, ?_⟩
      rw [onRecvfrom_timeout waiting]
      simp only [UDPRClient.onResponse, udprClientHandleACC, countRetransmit]
      by_cases exceeds : nbr + 1 > maxRetransmits
      · rw [if_pos exceeds]
        exact ⟨_, _, .ended .ERROR, Nat.succ_pos _⟩
      · rw [if_neg exceeds]
        refine ⟨_, _, closesAt_again small last built, ?_⟩
        omega

/-- **The client comes to its end** after the last message. -/
def udprCloses (small : args.vec.occupiedSize.toNat < 2 ^ 32) :
    Closes (udprClientHandler args) (UDPRClient.timedPort false args.serverAddress)
      (UDPR.message args (DatagramType.count args)) where
  At n w s := s.ClosesAt args n w
  sends there := by
    refine ⟨⟨.sendto .sent, rfl, there.sending⟩, fun e may => ?_⟩
    rw [DatagramType.sendto_of_may there.sending may]
    exact ⟨rfl, there.sends⟩
  hears there may := by
    have waiting : UDPRClient.waiting _ = true := there.waiting (there.running may)
    obtain ⟨bytes, uninit, rfl⟩ := DatagramType.recvfrom_of_may (t := .UDPR) waiting may
    exact ⟨⟨bytes, rfl⟩, rfl,
      there.onRecvfrom small (.datagram args.serverAddress bytes) uninit⟩
  waits there running :=
    ⟨.recvfrom (.failed .EAGAIN) .zero, rfl, there.waiting running, Bool.noConfusion⟩
  times := by
    intro n w s e there times
    cases e with
    | sendto r => cases times
    | recvfrom r uninit =>
        cases r with
        | datagram src bytes => cases times
        | failed errno =>
            obtain ⟨rfl, waiting, -⟩ := times
            obtain ⟨silent, next⟩ := there.times small waiting uninit
            exact ⟨silent, rfl, next⟩

end Closes

end Client

/-! ## The server -/

/-- A server in a session may run into a timeout. -/
def UDPServer.timedPort (client : SockAddr) :
    TimedPort UDPServer ServerEvent Reply (List UInt8) (List UInt8) where
  toPort := serverPort client
  times s
    | .recvfrom (.failed errno) _ _ => errno = .EAGAIN ∧ s.mode ≠ .idle ∧ s.mode ≠ .finished
    | _ => False

/-- The server has served this many messages, after `nbr` timeouts. -/
inductive UDPServer.AnswersAt (args : ClientArgs) (client : SockAddr) (before : UDPServer) :
    ℕ → ℕ → UDPServer → Prop where
  | idle (idle : before.mode = .idle) : AnswersAt args client before 0 0 before
  | session {i nbr : ℕ} {s : UDPServer} {session : UDPRSession}
      (below : i < DatagramType.count args) (ended : s.ended = before.ended)
      (mode : s.mode = .udpr session) (own : session.currClientAddr = client)
      (agrees : session.toUDPSession.Agrees (DatagramType.UDPR.cut args))
      (current : session.currPackageId = UInt64.ofNat i)
      (first : session.isFirstDATAPacket = decide (i = 0))
      (counted : session.nbrOfRetransmits = nbr) : AnswersAt args client before (i + 1) nbr s
  | served {nbr : ℕ} {s : UDPServer} (served : s.HasServed .UDPR args client before) :
      AnswersAt args client before (DatagramType.count args + 1) nbr s

section Server

variable {args : ClientArgs} {client : SockAddr} {before s : UDPServer} {i nbr : ℕ}

theorem UDPRSession.accept_nbrOfRetransmits (session : UDPRSession) (payload : List UInt8) :
    (session.accept payload).nbrOfRetransmits = session.nbrOfRetransmits := rfl

theorem UDPRSession.accept_isFirstDATAPacket (session : UDPRSession) (payload : List UInt8) :
    (session.accept payload).isFirstDATAPacket = false := rfl

/-- The test of the receive loop after `i` packets. -/
theorem UDPServer.answersAt_loop (small : args.vec.occupiedSize.toNat < 2 ^ 32)
    (ended : s.ended = before.ended) {session : UDPRSession}
    (own : session.currClientAddr = client)
    (agrees : session.toUDPSession.Agrees (DatagramType.UDPR.cut args))
    (current : session.currPackageId = UInt64.ofNat i)
    (first : session.isFirstDATAPacket = decide (i = 0))
    (within : i ≤ DatagramType.count args) (clientAddress : SockAddr) :
    AnswersAt args client before (i + 1) session.nbrOfRetransmits
        (s.afterUDPR (udprDataReceiveLoop session clientAddress).1) ∧
      (udprDataReceiveLoop session clientAddress).2 = finalReplies args clientAddress i := by
  obtain ⟨there, replies⟩ :=
    UDPServer.afterUDPR_at s session ended agrees own small current within clientAddress
  refine ⟨?_, replies⟩
  rcases Nat.lt_or_eq_of_le within with below | rfl
  · have waits : session.toUDPSession.Waits := (agrees.at_packet small current within).1.mpr below
    rw [udprDataReceiveLoop_waits _ waits]
    exact .session (s := s.afterUDPR ⟨.waiting session, clientAddress⟩) below ended rfl own
      agrees current first rfl
  · exact .served (there.served rfl)

theorem UDPServer.AnswersAt.hasServed {b : ℕ} (there : AnswersAt args client before b nbr s)
    (done : b = DatagramType.count args + 1) : s.HasServed .UDPR args client before := by
  cases there with
  | served served => exact served
  | session below => omega
  | idle => omega

/-- A server that does something in time takes one datagram. -/
theorem UDPServer.takes_one {s : UDPServer} {d : ServerEvent} (may : (timedPort client).may s d) :
    ∃ bytes, (timedPort client).takes d = [bytes] := by
  cases d with
  | catchInt => cases may
  | recvfrom r uninit conacc =>
      cases r with
      | failed errno => cases may
      | datagram src bytes => exact ⟨bytes, rfl⟩

theorem UDPServer.recvfrom_of_takes {d : ServerEvent} {bytes : List UInt8}
    (may : (timedPort client).may s d) (takes : (timedPort client).takes d = [bytes]) :
    ∃ uninit, d = .recvfrom (.datagram client bytes) uninit .sent := by
  cases d with
  | catchInt => cases may
  | recvfrom r uninit conacc =>
      cases r with
      | failed errno => cases may
      | datagram src other =>
          obtain ⟨rfl, rfl, -⟩ := may
          cases takes
          exact ⟨uninit, rfl⟩

theorem UDPR.map_answers (b : ℕ) : (Exchange.answers (DatagramType.count args) b).map
    (UDPR.reply args) = UDPR.reply args b :: DatagramType.final args b := by
  rw [Exchange.answers, DatagramType.final, List.map_cons]
  split
  · rw [List.map_singleton, UDPR.reply_rcvd]
  · rfl

variable (client) in
/-- The `CONN` comes. -/
theorem UDPServer.answersAt_conn (small : args.vec.occupiedSize.toNat < 2 ^ 32)
    (some_packets : 0 < DatagramType.count args) (idle : before.mode = .idle)
    (uninit : ServerUninit) :
    (udpServerHandler.step before
          (.recvfrom (.datagram client (UDPR.message args 0)) uninit .sent)).2 =
        [sendCONACC .serverHandler client args.sessionId] ∧
      AnswersAt args client before 1 0 (udpServerHandler.step before
        (.recvfrom (.datagram client (UDPR.message args 0)) uninit .sent)).1 := by
  have agrees : (UDPRSession.start (udprConn args) client).toUDPSession.Agrees
      (DatagramType.UDPR.cut args) := UDPSession.agrees_start client rfl rfl
  obtain ⟨there, replies⟩ :=
    UDPServer.answersAt_loop small rfl rfl agrees rfl rfl (Nat.zero_le _)
      before.udprClientAddress
  rw [finalReplies, if_neg (Nat.ne_of_lt some_packets)] at replies
  have heard : udpServerHandler.step before
      (.recvfrom (.datagram client (UDPR.message args 0)) uninit .sent) =
        (before.afterUDPR (udprDataReceiveLoop (.start (udprConn args) client)
            before.udprClientAddress).1,
          sendCONACC .serverHandler client args.sessionId :: (udprDataReceiveLoop
            (.start (udprConn args) client) before.udprClientAddress).2) := by
    simp only [udpServerHandler, UDPServer.step, idle]
    exact before.onIdle_conn client uninit args.sessionId args.vec.occupiedSize (.inr rfl)
  rw [heard, replies]
  exact ⟨rfl, there⟩

/-- The next message comes. -/
theorem UDPServer.AnswersAt.serves (small : args.vec.occupiedSize.toNat < 2 ^ 32)
    (some_packets : 0 < DatagramType.count args) {b : ℕ}
    (there : AnswersAt args client before b nbr s) (within : b ≤ DatagramType.count args)
    (uninit : ServerUninit) :
    toClientBytes client (udpServerHandler.emit s
          (.recvfrom (.datagram client (UDPR.message args b)) uninit .sent)) =
        (Exchange.answers (DatagramType.count args) b).map (UDPR.reply args) ∧
      AnswersAt args client before (b + 1) nbr (udpServerHandler.next s
        (.recvfrom (.datagram client (UDPR.message args b)) uninit .sent)) := by
  rw [Machine.emit, Machine.next, UDPR.map_answers]
  cases there with
  | idle idle =>
      obtain ⟨replies, there⟩ := answersAt_conn client small some_packets idle uninit
      rw [replies, DatagramType.final, if_neg (Nat.ne_of_lt some_packets),
        toClientBytes_own fun reply member => by rw [List.mem_singleton.mp member]; rfl]
      exact ⟨rfl, there⟩
  | @session i nbr s session below ended mode own agrees current first counted =>
      have few := DatagramType.count_lt small
      obtain ⟨agrees', own', next⟩ :=
        UDPSession.Agrees.take_udpr agrees own (by omega) current
      obtain ⟨there, replies⟩ := UDPServer.answersAt_loop small ended own' agrees' next
        (UDPRSession.accept_isFirstDATAPacket _ _) below client
      have pass := udprDataReceivePass_packet agrees own current s.udprClientAddress uninit
      rw [replies] at pass
      have served : udpServerHandler.step s
          (.recvfrom (.datagram client (UDPR.message args (i + 1))) uninit .sent) =
            (s.afterUDPR (udprDataReceiveLoop
                (session.accept (DatagramType.UDPR.chunk args i)) client).1,
              sendACC .dataReceive client args.sessionId (UInt64.ofNat i) ::
                finalReplies args client (i + 1)) := by
        simp only [udpServerHandler, UDPServer.step, mode, UDPR.message, pass]
      rw [UDPRSession.accept_nbrOfRetransmits, counted] at there
      rw [served, toClientBytes_own, List.map_cons, finalReplies_bytes, UDPR.reply_acc below]
      · exact ⟨rfl, there⟩
      · intro reply member
        rcases List.mem_cons.mp member with rfl | member
        · rfl
        · exact finalReplies_dest args client (i + 1) reply member
  | served => exact absurd within (Nat.not_succ_le_self _)

/-- The message before comes again. -/
theorem UDPServer.AnswersAt.ignores (small : args.vec.occupiedSize.toNat < 2 ^ 32) {b : ℕ}
    (there : AnswersAt args client before (b + 1) nbr s) (within : b + 1 ≤ DatagramType.count args)
    (uninit : ServerUninit) :
    toClientBytes client (udpServerHandler.emit s
          (.recvfrom (.datagram client (UDPR.message args b)) uninit .sent)) = [] ∧
      AnswersAt args client before (b + 1) nbr (udpServerHandler.next s
        (.recvfrom (.datagram client (UDPR.message args b)) uninit .sent)) := by
  cases there with
  | @session i nbr s session below ended mode own agrees current first counted =>
      have sessionId : session.conn.sessionId = args.sessionId :=
        agrees.sessionId.trans (DatagramType.UDPR.cut_sessionId args)
      have ignored : udpServerHandler.step s
          (.recvfrom (.datagram client (UDPR.message args b)) uninit .sent) =
            ({ s with udprClientAddress := client }, []) := by
        cases b with
        | zero =>
            rw [← own]
            exact (UDPServer.ignores_conn_iff mode _ _ _ uninit .sent).mpr first
        | succ k =>
            have stale : UInt64.ofNat k < session.currPackageId := by
              rw [current]
              exact ofNat_lt_succ small (Nat.lt_of_succ_lt below)
            have ignores := UDPServer.ignores_data mode stale
              (DatagramType.UDPR.short_chunk args k) uninit .sent
            rw [sessionId, own] at ignores
            exact ignores
      rw [Machine.emit, Machine.next, ignored]
      exact ⟨rfl, .session (s := { s with udprClientAddress := client }) below ended mode own
        agrees current first counted⟩
  | served => exact absurd within (Nat.not_succ_le_self _)

/-- An idle server rejects a `DATA` packet with the session id of the packet. -/
theorem UDPServer.onIdle_dataBytes (s : UDPServer) (src : SockAddr) (sessionId packageId : UInt64)
    {payload : List UInt8} (short : payload.length ≤ maxAllowedPacketSize) (uninit : ServerUninit)
    (conacc : SendTo) :
    s.onIdle (.datagram src (dataBytes sessionId packageId payload)) uninit conacc =
      (s, [sendCONRJT .serverHandler src sessionId]) := by
  have whole : (dataBytes sessionId packageId payload).length = sizeofDataInfo + payload.length :=
    length_dataBytes _ _ _
  have longer : (dataBytes sessionId packageId payload).length ≠ sizeofCONN := by
    rw [whole, sizeofDataInfo, sizeofCONN]
    omega
  have read : (uninit.conn.receive (dataBytes sessionId packageId payload)).sessionId =
      sessionId := by
    rw [CONN.receive_eq _ (by rw [whole, sizeofDataInfo]; omega), dataBytes_eq, sessionOf_cons]
  have own : (none : Option SockAddr).getD src = src := rfl
  simp only [onIdle, readDataToBuffer_client _ _ _ (fits_dataBytes _ _ short)
    (dataBytes_ne_nil _ _ _) own, checkIfCorrectCONN, if_pos longer, read]
  rfl

/-- A packet comes again when the session is over. -/
theorem UDPServer.AnswersAt.rejects
    (there : AnswersAt args client before (DatagramType.count args + 1) nbr s) (i : ℕ)
    (uninit : ServerUninit) :
    toClientBytes client (udpServerHandler.emit s
          (.recvfrom (.datagram client (UDPR.message args (i + 1))) uninit .sent)) =
        [UDPR.reply args (DatagramType.count args + 2)] ∧
      AnswersAt args client before (DatagramType.count args + 1) nbr (udpServerHandler.next s
        (.recvfrom (.datagram client (UDPR.message args (i + 1))) uninit .sent)) := by
  have served := there.hasServed rfl
  have rejected : udpServerHandler.step s
      (.recvfrom (.datagram client (UDPR.message args (i + 1))) uninit .sent) =
        (s, [sendCONRJT .serverHandler client args.sessionId]) := by
    simp only [udpServerHandler, UDPServer.step, served.idle]
    exact s.onIdle_dataBytes client args.sessionId (UInt64.ofNat i)
      (DatagramType.UDPR.short_chunk args i) uninit .sent
  rw [Machine.emit, Machine.next, rejected, UDPR.reply_conrjt,
    toClientBytes_own fun reply member => by rw [List.mem_singleton.mp member]; rfl]
  exact ⟨rfl, .served served⟩

/-- The session sends its last reply again. -/
theorem udprDataReceivePass_again {session : UDPRSession}
    (few : session.nbrOfRetransmits < maxRetransmits) (clientAddress : SockAddr)
    (uninit : ServerUninit) :
    udprDataReceivePass session clientAddress (.failed .EAGAIN) uninit =
      (⟨.waiting { session with nbrOfRetransmits := session.nbrOfRetransmits + 1 },
          clientAddress⟩,
        [if session.isFirstDATAPacket then
          sendCONACC .dataReceive session.currClientAddr session.conn.sessionId
        else sendACC .dataReceive session.currClientAddr session.conn.sessionId
          (session.currPackageId - 1)]) := by
  have within : ¬ session.nbrOfRetransmits + 1 > maxRetransmits := Nat.not_lt.mpr few
  simp only [udprDataReceivePass, readDataToBuffer, if_pos, doRetransmission, if_neg within]
  split <;> rfl

/-- It is the reply to message `i`. -/
theorem UDPR.reply_again (client : SockAddr) (below : i < DatagramType.count args) :
    toClientBytes client [if decide (i = 0) = true then
        sendCONACC .dataReceive client args.sessionId
      else sendACC .dataReceive client args.sessionId (UInt64.ofNat i - 1)] =
      [UDPR.reply args i] := by
  cases i with
  | zero =>
      rw [decide_eq_true rfl, if_pos rfl, toClientBytes_own fun reply member => by
        rw [List.mem_singleton.mp member]; rfl]
      rfl
  | succ k =>
      have package : UInt64.ofNat (k + 1) - 1 = UInt64.ofNat k := by simp
      rw [decide_eq_false (Nat.succ_ne_zero k), if_neg Bool.false_ne_true, package,
        UDPR.reply_acc (Nat.lt_of_succ_lt below), toClientBytes_own fun reply member => by
          rw [List.mem_singleton.mp member]; rfl]
      rfl

/-- A timeout in a session. -/
theorem UDPServer.AnswersAt.times {b : ℕ} (there : AnswersAt args client before b nbr s)
    (active : s.mode ≠ .idle) (uninit : ServerUninit) (conacc : SendTo) :
    ∃ m, b = m + 1 ∧ m + 1 ≤ DatagramType.count args ∧ (nbr < maxRetransmits →
      toClientBytes client (udpServerHandler.emit s
          (.recvfrom (.failed .EAGAIN) uninit conacc)) = [UDPR.reply args m] ∧
        AnswersAt args client before b (nbr + 1) (udpServerHandler.next s
          (.recvfrom (.failed .EAGAIN) uninit conacc))) := by
  cases there with
  | idle idle => exact absurd idle active
  | served served => exact absurd served.idle active
  | @session i nbr s session below ended mode own agrees current first counted =>
      refine ⟨i, rfl, below, fun few => ?_⟩
      have sessionId : session.conn.sessionId = args.sessionId :=
        agrees.sessionId.trans (DatagramType.UDPR.cut_sessionId args)
      subst counted
      have pass := udprDataReceivePass_again few s.udprClientAddress uninit
      rw [own, sessionId, first, current] at pass
      have repeated : udpServerHandler.step s (.recvfrom (.failed .EAGAIN) uninit conacc) =
          (s.afterUDPR
              (udprDataReceivePass session s.udprClientAddress (.failed .EAGAIN) uninit).1,
            (udprDataReceivePass session s.udprClientAddress (.failed .EAGAIN) uninit).2) := by
        simp only [udpServerHandler, UDPServer.step, mode]
      rw [Machine.emit, Machine.next, repeated, pass, UDPR.reply_again client below]
      exact ⟨rfl, .session (s := s.afterUDPR ⟨.waiting _, _⟩) below ended rfl own agrees current
        rfl rfl⟩

/-- **The server answers.** -/
def udprAnswers (small : args.vec.occupiedSize.toNat < 2 ^ 32)
    (some_packets : 0 < DatagramType.count args) (client : SockAddr) (before : UDPServer) :
    Answers udpServerHandler (UDPServer.timedPort client) (UDPR.message args) (UDPR.reply args)
      (DatagramType.count args) maxRetransmits where
  At b nbr s := UDPServer.AnswersAt args client before b nbr s
  hears_one := @UDPServer.takes_one client
  serves there within may takes := by
    obtain ⟨uninit, rfl⟩ := UDPServer.recvfrom_of_takes may takes
    exact there.serves small some_packets within uninit
  ignores there within may takes := by
    obtain ⟨uninit, rfl⟩ := UDPServer.recvfrom_of_takes may takes
    exact there.ignores small within uninit
  rejects there may takes := by
    obtain ⟨i, count⟩ := Nat.exists_eq_succ_of_ne_zero (Nat.ne_of_gt some_packets)
    rw [count] at takes
    obtain ⟨uninit, rfl⟩ := UDPServer.recvfrom_of_takes may takes
    exact there.rejects i uninit
  times := by
    intro b nbr s d there times
    cases d with
    | catchInt => cases times
    | recvfrom r uninit conacc =>
        cases r with
        | datagram src bytes => cases times
        | failed errno =>
            obtain ⟨rfl, active, -⟩ := times
            exact there.times active uninit conacc

end Server

/-! ## Over a network with losses -/

/-- One step of the client, the server or a network that keeps the order and may lose anything. -/
abbrev UDPR.LossyStep (args : ClientArgs) (client : SockAddr) :=
  Lossy.Step (udprClientHandler args) udpServerHandler
    (UDPRClient.timedPort false args.serverAddress) (UDPServer.timedPort client) (fun _ => True)
    (fun _ => True)

/-- One step if the last `ACC` and the `RCVD` are not lost, and the `RCVD` comes in time. -/
abbrev UDPR.SparingStep (args : ClientArgs) (client : SockAddr) :=
  Lossy.Step (udprClientHandler args) udpServerHandler
    (UDPRClient.timedPort true args.serverAddress) (UDPServer.timedPort client) (fun _ => True)
    (UDPR.LostLeft args)

/-- They are spared. -/
theorem UDPR.spares {args : ClientArgs} (small : args.vec.occupiedSize.toNat < 2 ^ 32)
    (some_packets : 0 < DatagramType.count args) :
    Lossy.Spares (udprAsks true small) (UDPR.LostLeft args) where
  losable := UDPR.losable args some_packets
  patient {a w i s e} there times := by
    cases e with
    | sendto r => cases times
    | recvfrom r uninit =>
        cases r with
        | datagram src bytes => cases times
        | failed errno =>
            obtain ⟨-, waiting, rcvd⟩ := times
            exact UDPRClient.AsksAt.le_count there waiting (rcvd rfl)

/-- **Retransmission makes up for losses.** In every run the server receives everything and the
client comes to its end, or one of the two has run into more timeouts than it bears. The client
ends in success unless the end of the exchange is lost. -/
theorem udpr_transfer_survives_loss {args : ClientArgs} {client : SockAddr} {server : UDPServer}
    (some_bytes : 0 < args.vec.occupiedSize) (small : args.vec.occupiedSize.toNat < 2 ^ 32)
    (idle : server.mode = .idle) (errno : Errno) :
    Inevitable (UDPR.LossyStep args client)
      (fun s => ((∃ ret, s.left.phase = .ended ret) ∧
          s.right.HasServed .UDPR args client server) ∨
        maxRetransmits < s.leftTimeouts ∨ maxRetransmits < s.rightTimeouts)
      (.start (.start errno) server) ∧
    Inevitable (UDPR.SparingStep args client)
      (fun s => (s.left.phase = .ended .SUCCESS ∧ s.right.HasServed .UDPR args client server) ∨
        maxRetransmits < s.leftTimeouts ∨ maxRetransmits < s.rightTimeouts)
      (.start (.start errno) server) := by
  have some_packets : 0 < DatagramType.count args := by
    rw [DatagramType.count, lt_packetCount_iff]
    exact UInt64.lt_iff_toNat_lt.mp some_bytes
  constructor
  · refine (Lossy.closed_inevitable (udprAsks false small)
      (udprAnswers small some_packets client server) (udprCloses small)
      (fun there last => UDPRClient.AsksAt.closes some_packets there last)
      (.sendCONN (.inl rfl)) (.idle idle)).mono ?_
    rintro s (⟨left, j, right⟩ | broken)
    · exact .inl ⟨UDPRClient.ClosesAt.ended_of_zero left rfl, right.hasServed rfl⟩
    · exact .inr broken
  · refine (Lossy.inevitable (udprAsks true small)
      (udprAnswers small some_packets client server) (UDPR.spares small some_packets)
      (.sendCONN (.inl rfl)) (.idle idle)).mono ?_
    rintro s (⟨⟨i, left⟩, j, right⟩ | broken)
    · exact .inl ⟨left.succeeded rfl, right.hasServed rfl⟩
    · exact .inr broken

/-- One byte at a fresh server. -/
theorem udpr_transfer_survives_loss_oneByte :
    ∃ s, ReflTransGen (UDPR.LossyStep oneByte oneByteClient)
      (.start (.start (.other 0)) .start) s ∧
      (((∃ ret, s.left.phase = .ended ret) ∧
          s.right.HasServed .UDPR oneByte oneByteClient .start) ∨
        maxRetransmits < s.leftTimeouts ∨ maxRetransmits < s.rightTimeouts) :=
  (udpr_transfer_survives_loss (by decide) (by decide) rfl (.other 0)).1.reaches

end Ppcb
