import Ppcb.Lib.Inevitable
import Ppcb.Budget
import Ppcb.PacketSequence

/-!
# How much the client with retransmission sends

Every datagram is the next one that is due or, after a retransmission was counted, the last one
again (`UDPRClient.next_spends`). So no more is sent than the `CONN` and the packets once each,
and `MAX_RETRANSMITS` datagrams beside them, whatever arrives and however often the counter is
shared between `CONN` and the packets. Once nothing but timeouts comes the client returns
(`udpr_client_traffic_bounded`).
-/

set_option autoImplicit false

namespace Ppcb

open ByteOrder CString Reactive Stutter

variable {args : ClientArgs}

/-- The client is still at work. -/
def UDPRClient.Runs (s : UDPRClient) : Prop := ∀ ret, s.phase ≠ .ended ret

/-! ## One step -/

/-- A packet is sent again only when that was counted. -/
theorem udprClientHandleACC_again {uninit : ACC} {nbr nbr' : ℕ} {currPackageId sessionId : UInt64}
    {before : Bool} {response : RetVal × List UInt8} {ret : RetVal}
    (handled : udprClientHandleACC uninit nbr currPackageId sessionId before response =
      some (ret, nbr')) : nbr ≤ nbr' ∧ (ret = .RETRANSMISSION → nbr' = nbr + 1) := by
  have counted : some (countRetransmit nbr) = some (ret, nbr') →
      nbr ≤ nbr' ∧ (ret = .RETRANSMISSION → nbr' = nbr + 1) := by
    intro same
    have counts := Option.some.inj same
    simp only [countRetransmit, Prod.mk.injEq] at counts
    exact ⟨counts.2 ▸ Nat.le_succ nbr, fun _ => counts.2.symm⟩
  simp only [udprClientHandleACC] at handled
  repeat' split at handled
  all_goals first
    | exact counted handled
    | cases handled
  all_goals exact ⟨Nat.le_refl nbr, RetVal.noConfusion⟩

namespace UDPRClient

theorem connectAgain_spends (s : UDPRClient) (running : s.connectAgain.Runs) :
    s.connectAgain.phase = .sendCONN ∧
      s.connectAgain.nbrOfRetransmits = s.nbrOfRetransmits + 1 := by
  refine ⟨?_, (connectAgain_counts s).1⟩
  simp only [Runs, connectAgain] at running ⊢
  split
  · rename_i exceeds
    rw [if_pos exceeds] at running
    exact absurd rfl (running .ERROR)
  · rfl

/-- What a client in this state should have sent without its retransmissions. -/
def due (s : UDPRClient) : ℕ := s.phase.traffic s.acked

theorem onResponse_spends (s : UDPRClient) (uninit : ClientUninit)
    (response : RetVal × List UInt8) (running : (s.onResponse args uninit response).Runs) :
    s.due + s.nbrOfRetransmits ≤
      (s.onResponse args uninit response).due +
        (s.onResponse args uninit response).nbrOfRetransmits := by
  obtain ⟨w, nbr, phase, acked⟩ := s
  cases phase with
  | waitCONACC =>
      simp only [onResponse] at running ⊢
      split at running
      · simp only [due, udprClientSendDATA_traffic]
        simp only [UDPRPhase.traffic]
        omega
      · exact absurd rfl (running _)
      · obtain ⟨phase, counted⟩ := connectAgain_spends _ running
        simp only [due, phase, counted, UDPRPhase.traffic]
        omega
  | waitACC loc data =>
      simp only [onResponse] at running ⊢
      split at running
      · exact Nat.le_refl _
      · rename_i handled
        have counted := (udprClientHandleACC_again handled).1
        simp only [due, udprClientSendDATA_traffic]
        simp only [UDPRPhase.traffic]
        omega
      · rename_i handled
        have counted := (udprClientHandleACC_again handled).2 rfl
        simp only [due, udprClientSendDATA_traffic, counted]
        simp only [UDPRPhase.traffic]
        omega
      · exact absurd rfl (running _)
  | waitRCVD =>
      simp only [onResponse] at running ⊢
      split at running
      · exact Nat.le_refl _
      · exact absurd rfl (running _)
  | sendCONN => exact Nat.le_refl _
  | sendDATA loc data => exact Nat.le_refl _
  | ended ret => exact Nat.le_refl _

theorem onSendto_spends (s : UDPRClient) (r : SendTo) (running : (s.onSendto args r).1.Runs) :
    s.due + (s.onSendto args r).2.length + s.nbrOfRetransmits ≤
      (s.onSendto args r).1.due + (s.onSendto args r).1.nbrOfRetransmits := by
  obtain ⟨w, nbr, phase, acked⟩ := s
  cases phase with
  | sendCONN =>
      cases r with
      | sent => exact Nat.le_refl _
      | failed errno =>
          obtain ⟨phase, counted⟩ := connectAgain_spends _ running
          show 0 + 0 + nbr ≤ UDPRPhase.traffic _ (connectAgain _).phase + (connectAgain _).nbrOfRetransmits
          rw [phase, counted]
          exact Nat.le_succ _
  | sendDATA loc data =>
      cases r with
      | sent => exact Nat.le_refl _
      | failed errno => exact absurd rfl (running .ERROR)
  | waitCONACC => exact Nat.le_refl _
  | waitACC loc data => exact Nat.le_refl _
  | waitRCVD => exact Nat.le_refl _
  | ended ret => exact Nat.le_refl _

/-- **What a step sends is due, or was counted.** -/
theorem next_spends (s : UDPRClient) (e : ClientEvent)
    (running : ((udprClientHandler args).next s e).Runs) :
    s.due + ((udprClientHandler args).emit s e).length + s.nbrOfRetransmits ≤
      ((udprClientHandler args).next s e).due +
        ((udprClientHandler args).next s e).nbrOfRetransmits := by
  cases e with
  | sendto r => exact s.onSendto_spends r running
  | recvfrom r uninit =>
      rw [next_recvfrom] at running ⊢
      rw [emit_recvfrom, List.length_nil, Nat.add_zero]
      rcases s.onRecvfrom_cases r uninit with ⟨w, passed⟩ | ⟨w, response, -, comes⟩
      · rw [passed]
        exact Nat.le_refl _
      · rw [comes] at running ⊢
        exact onResponse_spends _ uninit response running

end UDPRClient

/-- An ended client stays ended. -/
theorem UDPRMove.runs {buff : List UInt8} {p p' : UDPRPhase} {m : ℕ} {more : List Datagram}
    (move : UDPRMove args buff p p' m more) (running : ∀ ret, p' ≠ .ended ret) (ret : RetVal) :
    p ≠ .ended ret := by
  cases move with
  | stay => exact running ret
  | fail phase ret' before failure => exact before ret
  | _ => exact nofun

/-- A transition that ends the client sends nothing. -/
theorem UDPRMove.silent {buff : List UInt8} {p p' : UDPRPhase} {m : ℕ} {more : List Datagram}
    {ret : RetVal} (move : UDPRMove args buff p p' m more) (ended : p' = .ended ret) :
    more = [] := by
  cases move with
  | connect => cases ended
  | send => cases ended
  | _ => rfl

/-! ## A run -/

/-- The datagrams that were sent, without the repetitions. -/
def firstSent (out : List Datagram) : List (List UInt8) :=
  (out.map Datagram.bytes).destutter (· ≠ ·)

theorem UDPRPhase.Follows.firstSent {k : ℕ} {phase : UDPRPhase} {out : List Datagram}
    (follows : phase.Follows args k out) :
    ∃ n, phase.Sent k n ∧ firstSent out = (List.range n).map (script args) ∧
      ∀ i, i + 1 < n → UDPRSend.HasMore args i := by
  obtain ⟨-, n, sent, reads, earlier⟩ := follows
  exact ⟨n, sent, reads.collapsed fun i _ => script_succ_ne i, earlier⟩

theorem UDPRPhase.Sent.traffic_le {k n : ℕ} {phase : UDPRPhase} (sent : phase.Sent k n)
    (running : ∀ ret, phase ≠ .ended ret) : phase.traffic k ≤ n := by
  cases phase with
  | sendCONN => exact Nat.zero_le n
  | waitCONACC => exact Nat.le_of_eq sent.symm
  | sendDATA loc data =>
      simp only [Sent] at sent
      simp only [traffic]
      omega
  | waitACC loc data => exact Nat.le_of_eq sent.symm
  | waitRCVD => exact Nat.le_of_eq sent.symm
  | ended ret => exact absurd rfl (running ret)

/-- What a client has sent: nothing beside what is due and what was counted. -/
structure UDPRClient.Spent (args : ClientArgs) (s : UDPRClient) (out : List Datagram) :
    Prop where
  follows : s.phase.Follows args s.acked out
  counted : s.Counted
  spends : s.Runs → out.length ≤ s.due + s.nbrOfRetransmits
  within : out.length ≤ (firstSent out).length + maxRetransmits

theorem UDPRClient.Spent.next {s : UDPRClient} {out : List Datagram} (spent : s.Spent args out)
    (e : ClientEvent) :
    ((udprClientHandler args).next s e).Spent args
      (out ++ (udprClientHandler args).emit s e) := by
  obtain ⟨m, acked, move⟩ := s.step_move args e
  have follows : ((udprClientHandler args).next s e).phase.Follows args
      ((udprClientHandler args).next s e).acked (out ++ (udprClientHandler args).emit s e) := by
    rw [acked]
    exact move.follows spent.follows
  have counted : ((udprClientHandler args).next s e).Counted :=
    (next_counts s e).2 spent.counted
  have spends (running : ((udprClientHandler args).next s e).Runs) :
      (out ++ (udprClientHandler args).emit s e).length ≤
        ((udprClientHandler args).next s e).due +
          ((udprClientHandler args).next s e).nbrOfRetransmits := by
    have before := spent.spends (move.runs running)
    have here := s.next_spends e running
    rw [List.length_append]
    omega
  refine ⟨follows, counted, spends, ?_⟩
  by_cases running : ((udprClientHandler args).next s e).Runs
  · obtain ⟨n, sent, first, -⟩ := follows.firstSent
    have reached := sent.traffic_le running
    have limit := counted.within (running .ERROR)
    have all := spends running
    rw [first, List.length_map, List.length_range]
    simp only [due] at all
    omega
  · simp only [Runs, ne_eq, not_forall, not_not] at running
    obtain ⟨ret, ended⟩ := running
    rw [move.silent ended, List.append_nil]
    exact spent.within

variable (args) in
theorem UDPRClient.spent_after (errno : Errno) (es : List ClientEvent) :
    ((udprClientHandler args).after (.start errno) es).Spent args
      ((udprClientHandler args).outputs (.start errno) es) := by
  have fresh : (UDPRClient.start errno).Spent args [] :=
    ⟨⟨rfl, 0, .inl rfl, .nil, nofun⟩, fun exceeds => absurd exceeds (Nat.not_lt_zero _),
      fun _ => Nat.zero_le _, Nat.zero_le _⟩
  exact Machine.history_after (P := fun (s : UDPRClient) out => s.Spent args out)
    (fun s out e spent => spent.next e) fresh es

/-! ## How often -/

/-- What there is to send is all different. -/
theorem script_injective {i j : ℕ} (smallI : i ≤ 2 ^ 64) (smallJ : j ≤ 2 ^ 64)
    (same : script args i = script args j) : i = j := by
  cases i with
  | zero =>
      cases j with
      | zero => rfl
      | succ j => exact absurd same (script_zero_ne j)
  | succ i =>
      cases j with
      | zero => exact absurd same.symm (script_zero_ne i)
      | succ j =>
          have ids := congrArg packageOf same
          simp only [script, packetBytes, packageOf_dataBytes] at ids
          have numbers := congrArg UInt64.toNat ids
          rw [UInt64.toNat_ofNat_of_lt' smallI, UInt64.toNat_ofNat_of_lt' smallJ] at numbers
          rw [numbers]

/-- The datagrams without the repetitions are no more than there is to send. -/
theorem UDPRPhase.Follows.length_firstSent {k : ℕ} {phase : UDPRPhase} {out : List Datagram}
    (small : args.vec.occupiedSize.toNat < 2 ^ 32) (follows : phase.Follows args k out) :
    (Ppcb.firstSent out).length ≤ 1 + packetCount args.vec.occupiedSize.toNat := by
  obtain ⟨n, -, first, earlier⟩ := follows.firstSent
  rw [first, List.length_map, List.length_range]
  by_contra more
  have beyond := (UDPRSend.hasMore_iff_lt small _).mp (earlier (n - 2) (by omega))
  omega

theorem packetCount_le (n : ℕ) : packetCount n ≤ n := by
  rw [← Nat.not_lt, lt_packetCount_iff, sendBuffSize]
  omega

theorem UDPRPhase.Follows.nodup_firstSent {k : ℕ} {phase : UDPRPhase} {out : List Datagram}
    (small : args.vec.occupiedSize.toNat < 2 ^ 32) (follows : phase.Follows args k out) :
    (Ppcb.firstSent out).Nodup := by
  have few := follows.length_firstSent small
  have less := packetCount_le args.vec.occupiedSize.toNat
  obtain ⟨n, -, first, -⟩ := follows.firstSent
  rw [first, List.length_map, List.length_range] at few
  rw [first]
  refine List.Nodup.map_on ?_ List.nodup_range
  intro i within j within' same
  rw [List.mem_range] at within within'
  exact script_injective (by omega) (by omega) same

/-- No datagram is sent again more often than retransmissions may be counted. -/
theorem UDPRClient.Spent.count_le {s : UDPRClient} {out : List Datagram}
    (small : args.vec.occupiedSize.toNat < 2 ^ 32) (spent : s.Spent args out)
    (packet : List UInt8) :
    (out.map Datagram.bytes).count packet ≤ 1 + maxRetransmits := by
  have room := Stutter.count_le (List.destutter_sublist (· ≠ ·) (out.map Datagram.bytes))
    (spent.follows.nodup_firstSent small) packet
  have within := spent.within
  rw [List.length_map] at room
  simp only [firstSent] at within
  omega

/-! ## When nothing comes any more -/

/-- The calls until the next timeout, at most. -/
def UDPRPhase.callsLeft : UDPRPhase → ℕ
  | .sendCONN => 2
  | .waitCONACC => 1
  | .sendDATA _ _ => 2
  | .waitACC _ _ => 1
  | .waitRCVD => 1
  | .ended _ => 0

theorem udprClientSendDATA_callsLeft (loc : UDPRSend) (data : DATA) :
    (udprClientSendDATA args loc data).callsLeft ≤ 2 := by
  obtain ⟨built, equal, -⟩ := loc.build_eq args.vec args.sessionId data
  rw [udprClientSendDATA, equal]
  split
  · exact Nat.le_refl 2
  · exact Nat.le_succ 1

namespace UDPRClient

/-- A step when nothing but timeouts comes: `recvfrom` runs into its timeout, and `sendto`
answers as it likes. -/
inductive Starved (args : ClientArgs) (s : UDPRClient) : UDPRClient → Prop where
  | timeout (waits : s.waiting = true) (uninit : ClientUninit) :
      Starved args s ((udprClientHandler args).next s (.recvfrom (.failed .EAGAIN) uninit))
  | sendto (busy : s.waiting = false) (r : SendTo) :
      Starved args s ((udprClientHandler args).next s (.sendto r))

/-- What is left of the patience of a client. -/
def patience (s : UDPRClient) : ℕ :=
  3 * (maxRetransmits + 1 - s.nbrOfRetransmits) + s.phase.callsLeft

theorem onRecvfrom_timeout {s : UDPRClient} {uninit : ClientUninit} (waits : s.waiting = true) :
    s.onRecvfrom args (.failed .EAGAIN) uninit =
      ({ s with wait := { s.wait with errno := .EAGAIN } }).onResponse args uninit
        (.TIMEOUT_ERROR, []) := by
  rw [onRecvfrom, if_pos waits]
  rfl

/-- An attempt to connect costs more than the next one has calls. -/
theorem connectAgain_patience (s : UDPRClient) (within : ¬ maxRetransmits < s.nbrOfRetransmits)
    (phase : 1 ≤ s.phase.callsLeft) : s.connectAgain.patience < s.patience := by
  have counted := (connectAgain_counts s).1
  have few : s.connectAgain.phase.callsLeft ≤ 2 := by
    rw [connectAgain]
    split
    · exact Nat.zero_le 2
    · exact Nat.le_refl 2
  simp only [patience, counted]
  omega

/-- **Every step when nothing comes costs patience.** -/
theorem starved_lowers {s t : UDPRClient} (counted : s.Counted) (running : s.Runs)
    (step : s.Starved args t) : t.patience < s.patience := by
  have within : ¬ maxRetransmits < s.nbrOfRetransmits := counted.within (running .ERROR)
  obtain ⟨w, nbr, phase, acked⟩ := s
  cases step with
  | timeout waits uninit =>
      rw [next_recvfrom, onRecvfrom_timeout waits]
      cases phase with
      | waitCONACC =>
          exact connectAgain_patience _ within (Nat.le_refl 1)
      | waitACC loc data =>
          simp only [onResponse, udprClientHandleACC, countRetransmit]
          by_cases exceeds : nbr + 1 > maxRetransmits
          · simp only [if_pos exceeds, patience, UDPRPhase.callsLeft]
            omega
          · have few : (udprClientSendDATA args loc data).callsLeft ≤ 2 :=
              udprClientSendDATA_callsLeft loc data
            have waits : (UDPRPhase.waitACC loc data).callsLeft = 1 := rfl
            simp only [if_neg exceeds, patience, waits]
            omega
      | waitRCVD =>
          simp only [onResponse, udprClientHandleRCVD, patience, UDPRPhase.callsLeft]
          omega
      | sendCONN => cases waits
      | sendDATA loc data => cases waits
      | ended ret => cases waits
  | sendto busy r =>
      rw [next_sendto]
      cases phase with
      | sendCONN =>
          cases r with
          | sent => exact Nat.lt_succ_self _
          | failed errno => exact connectAgain_patience _ within (Nat.le_succ 1)
      | sendDATA loc data =>
          cases r with
          | sent => exact Nat.lt_succ_self _
          | failed errno =>
              exact Nat.add_lt_add_left (Nat.succ_pos 1) _
      | waitCONACC => cases busy
      | waitACC loc data => cases busy
      | waitRCVD => cases busy
      | ended ret => exact absurd rfl (running ret)

theorem Counted.starved {s t : UDPRClient} (counted : s.Counted) (step : s.Starved args t) :
    t.Counted := by
  cases step with
  | timeout waits uninit => exact (next_counts s _).2 counted
  | sendto busy r => exact (next_counts s _).2 counted

/-- **The handler returns when nothing but timeouts comes.** -/
theorem Counted.returns_when_starved {s : UDPRClient} (counted : s.Counted) :
    Inevitable (Starved args) (fun t => ∃ ret, t.phase = .ended ret) s := by
  refine Inevitable.of_measure (I := Counted) patience ?_ ?_ counted
  · intro t _ _
    cases waits : t.waiting with
    | true => exact ⟨_, .timeout waits .zero⟩
    | false => exact ⟨_, .sendto waits .sent⟩
  · intro t u counted running step
    exact ⟨counted.starved step,
      starved_lowers counted (fun ret ended => running ⟨ret, ended⟩) step⟩

end UDPRClient

/-! ## The bounds -/

/-- **What the client sends is bounded**, in all and for each packet, after whatever came; and
when nothing but timeouts comes any more, it returns. -/
theorem udpr_client_traffic_bounded (args : ClientArgs)
    (small : args.vec.occupiedSize.toNat < 2 ^ 32) (errno : Errno) (es : List ClientEvent) :
    ((udprClientHandler args).outputs (.start errno) es).length ≤
        1 + packetCount args.vec.occupiedSize.toNat + maxRetransmits ∧
      (∀ packet : List UInt8,
        (((udprClientHandler args).outputs (.start errno) es).map Datagram.bytes).count packet ≤
          1 + maxRetransmits) ∧
      Inevitable (UDPRClient.Starved args) (fun s => ∃ ret, s.phase = .ended ret)
        ((udprClientHandler args).after (.start errno) es) := by
  have spent := UDPRClient.spent_after args errno es
  refine ⟨?_, spent.count_le small, spent.counted.returns_when_starved⟩
  have few := spent.follows.length_firstSent small
  have within := spent.within
  omega

/-- A client with one byte that retransmits its `CONN` and then its packet until it gives up. -/
theorem udpr_client_traffic_bounded_oneByte :
    ((udprClientHandler oneByte).outputs (.start .EAGAIN) scatteredLosses).length ≤ 10 ∧
      (∀ packet : List UInt8,
        (((udprClientHandler oneByte).outputs (.start .EAGAIN) scatteredLosses).map
          Datagram.bytes).count packet ≤ 9) ∧
      Inevitable (UDPRClient.Starved oneByte) (fun s => ∃ ret, s.phase = .ended ret)
        ((udprClientHandler oneByte).after (.start .EAGAIN) scatteredLosses) :=
  udpr_client_traffic_bounded oneByte (by decide) .EAGAIN scatteredLosses

/-- It sends as much as it may. -/
example : ((udprClientHandler oneByte).outputs (.start .EAGAIN) scatteredLosses).length = 10 := by
  decide +kernel

end Ppcb
