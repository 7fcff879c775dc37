import Ppcb.Common

/-!
# `writen` and `readn` as a pipe

Whole calls of `writen` and `readn`, over every way the calls of `write` and `read` can go
(`Offer`). The calls alone decide what comes of them: how many bytes are moved before one of them
fails settles the value and the bytes handed over or taken (`writen_exact`, `readn_exact`). What
`writen` hands over is always the beginning of what it was given, and all of it exactly when it
returns its length. What `readn` takes from a stream is always the beginning of the stream, never
more than it was asked for, and less only at the end of the stream or after an error, so calls
that follow each other divide the stream among them (`readnCalls_partition`).
-/

set_option autoImplicit false

namespace Ppcb

open Reactive

/-- What a `read` can come back with: the next bytes of the stream, none only at its end. -/
def Read.Next (request : ℕ) (stream : List UInt8) : Read → Prop
  | .data bytes => bytes <+: stream ∧ bytes.length ≤ request ∧ (bytes = [] → stream = [])
  | .failed _ => True

/-- How one call of `read` or `write` goes: it moves so many bytes, as far as there are as many,
or fails. A `read` returns no bytes at the end of the stream only. -/
inductive Offer where
  | upTo (k : ℕ)
  | failed (errno : Errno)
deriving DecidableEq, Repr

namespace Offer

/-- What `write` comes back with. -/
def write (left : List UInt8) : Offer → Write
  | upTo k => .wrote (min k left.length)
  | failed errno => .failed errno

/-- What `read` comes back with. -/
def read (request : ℕ) (stream : List UInt8) : Offer → Read
  | upTo k => .data (stream.take (min (max k 1) request))
  | failed errno => .failed errno

/-- A `write` that returns no positive value. -/
def Stops : Offer → Prop
  | upTo k => k = 0
  | failed _ => True

/-- The value of a `write` that returns no positive value. -/
def stopValue : Offer → Option ℕ
  | upTo _ => some 0
  | failed _ => none

/-- The bytes that a `write` takes if there are as many. -/
def puts : Offer → ℕ
  | upTo k => k
  | failed _ => 0

/-- The bytes that a `read` takes if there are as many. -/
def gets : Offer → ℕ
  | upTo k => max k 1
  | failed _ => 0

/-- The answers on offer are all that a `write` can have. -/
theorem exists_write {left : List UInt8} {r : Write} :
    (∃ offer : Offer, offer.write left = r) ↔ r.Answers (.write left) := by
  constructor
  · rintro ⟨offer, rfl⟩
    cases offer with
    | upTo k => exact Nat.min_le_right k left.length
    | failed errno => trivial
  · intro answers
    cases r with
    | wrote k =>
        refine ⟨upTo k, ?_⟩
        rw [write, Nat.min_eq_left answers]
    | failed errno => exact ⟨failed errno, rfl⟩

/-- The answers on offer are all that a `read` can have. -/
theorem exists_read {request : ℕ} {stream : List UInt8} {r : Read} (positive : 0 < request) :
    (∃ offer : Offer, offer.read request stream = r) ↔ r.Next request stream := by
  constructor
  · rintro ⟨offer, rfl⟩
    cases offer with
    | upTo k =>
        refine ⟨List.take_prefix _ stream, ?_, ?_⟩
        · rw [List.length_take]
          omega
        · intro nothing
          rcases List.take_eq_nil_iff.mp nothing with zero | ended
          · omega
          · exact ended
    | failed errno => trivial
  · intro next
    cases r with
    | failed errno => exact ⟨failed errno, rfl⟩
    | data bytes =>
        obtain ⟨next, fits, atEnd⟩ := next
        refine ⟨upTo bytes.length, ?_⟩
        cases bytes with
        | nil => rw [atEnd rfl, read, List.take_nil]
        | cons b bytes =>
            have some' : 1 ≤ (b :: bytes).length := Nat.le_add_left 1 bytes.length
            rw [read, Nat.max_eq_left some', Nat.min_eq_left fits,
              ← List.prefix_iff_eq_take.mp next]

end Offer

/-! ## `writen` -/

/-- The bytes handed over by a `write`. -/
def Write.taken (left : List UInt8) : Write → List UInt8
  | .wrote k => left.take k
  | .failed _ => []

/-- The passes of `writen`, with the bytes handed over. -/
def writenRun (n : ℕ) : Writen → List Offer → Writen × List UInt8
  | .blocked left, offer :: offers =>
      let r := offer.write left
      let (s, taken) := writenRun n (writenPass n left r) offers
      (s, r.taken left ++ taken)
  | s, _ => (s, [])

/-- A whole call of `writen`. -/
def writen (bytes : List UInt8) (offers : List Offer) : Writen × List UInt8 :=
  writenRun bytes.length (writenLoop bytes.length bytes) offers

section Writen

variable {n : ℕ} {left : List UInt8}

@[simp] theorem writenRun_returned (v : Option ℕ) (offers : List Offer) :
    writenRun n (.returned v) offers = (.returned v, []) := by
  cases offers <;> rfl

@[simp] theorem writenRun_nil (s : Writen) : writenRun n s [] = (s, []) := by
  cases s <;> rfl

theorem writenRun_cons (offer : Offer) (offers : List Offer) :
    writenRun n (.blocked left) (offer :: offers) =
      ((writenRun n (writenPass n left (offer.write left)) offers).1,
        (offer.write left).taken left ++
          (writenRun n (writenPass n left (offer.write left)) offers).2) := rfl

/-- The bytes that calls of `write` take if there are as many. -/
def putsOf (offers : List Offer) : ℕ :=
  (offers.map Offer.puts).sum

@[simp] theorem putsOf_cons (offer : Offer) (offers : List Offer) :
    putsOf (offer :: offers) = offer.puts + putsOf offers := List.sum_cons

/-- Calls that take fewer bytes than there are leave the rest. -/
theorem writenRun_waits {before : List Offer} (running : ∀ offer ∈ before, ¬ offer.Stops)
    (less : putsOf before < left.length) :
    writenRun n (.blocked left) before =
      (.blocked (left.drop (putsOf before)), left.take (putsOf before)) := by
  induction before generalizing left with
  | nil => rfl
  | cons offer before ih =>
      cases offer with
      | failed errno => exact absurd trivial (running _ List.mem_cons_self)
      | upTo k =>
          have positive : 0 < k := Nat.pos_of_ne_zero (running _ List.mem_cons_self)
          rw [putsOf_cons, Offer.puts] at less ⊢
          have fits : min k left.length = k := by omega
          have rest : putsOf before < (left.drop k).length := by
            rw [List.length_drop]
            omega
          rw [writenRun_cons, Offer.write, fits, writenPass_more positive (by omega),
            ih (fun offer member => running offer (List.mem_cons_of_mem _ member)) rest,
            List.drop_drop, Write.taken, ← List.take_add]

/-- Calls that take as many bytes as there are hand all of them over. -/
theorem writenRun_whole {before : List Offer} (after : List Offer)
    (running : ∀ offer ∈ before, ¬ offer.Stops) (more : left ≠ [])
    (enough : left.length ≤ putsOf before) :
    writenRun n (.blocked left) (before ++ after) = (.returned (some n), left) := by
  induction before generalizing left with
  | nil => exact absurd (List.length_eq_zero_iff.mp (Nat.le_zero.mp enough)) more
  | cons offer before ih =>
      cases offer with
      | failed errno => exact absurd trivial (running _ List.mem_cons_self)
      | upTo k =>
          have positive : 0 < k := Nat.pos_of_ne_zero (running _ List.mem_cons_self)
          rw [putsOf_cons, Offer.puts] at enough
          rw [List.cons_append, writenRun_cons, Offer.write]
          rcases Nat.lt_or_ge k left.length with less | all
          · have rest : (left.drop k).length ≤ putsOf before := by
              rw [List.length_drop]
              omega
            rw [Nat.min_eq_left (Nat.le_of_lt less), writenPass_more positive less,
              ih (fun offer member => running offer (List.mem_cons_of_mem _ member))
                (drop_ne_nil less) rest]
            exact Prod.ext rfl (List.take_append_drop k left)
          · rw [Nat.min_eq_right all, writenPass_done (List.length_pos_iff.mpr more) rfl,
              writenRun_returned, Write.taken, List.take_length, List.append_nil]

/-- A call that takes nothing ends `writen` with its value. -/
theorem writenRun_stopped {offer : Offer} (after : List Offer) (stops : offer.Stops) :
    writenRun n (.blocked left) (offer :: after) = (.returned offer.stopValue, []) := by
  rw [writenRun_cons]
  cases offer with
  | failed errno => rw [Offer.write, writenPass, writenRun_returned]; rfl
  | upTo k =>
      obtain rfl : k = 0 := stops
      rw [Offer.write, Nat.zero_min, writenPass, if_pos rfl, writenRun_returned]
      rfl

/-- What was not stopped before goes on from there. -/
theorem writenRun_append {s : Writen} {before : List Offer} (after : List Offer)
    (waits : (writenRun n s before).1 = .blocked left) :
    writenRun n s (before ++ after) = ((writenRun n (.blocked left) after).1,
      (writenRun n s before).2 ++ (writenRun n (.blocked left) after).2) := by
  induction before generalizing s with
  | nil =>
      rw [writenRun_nil] at waits ⊢
      subst waits
      rfl
  | cons offer before ih =>
      cases s with
      | returned v =>
          rw [writenRun_returned] at waits
          cases waits
      | blocked left' =>
          rw [writenRun_cons] at waits
          rw [List.cons_append, writenRun_cons, writenRun_cons, ih waits, List.append_assoc]

/-- Some call is the first to stop, or none does. -/
theorem exists_first_stop (offers : List Offer) :
    (∀ offer ∈ offers, ¬ offer.Stops) ∨ ∃ before offer after,
      offers = before ++ offer :: after ∧ (∀ offer ∈ before, ¬ offer.Stops) ∧ offer.Stops := by
  induction offers with
  | nil => exact .inl (List.forall_mem_nil _)
  | cons offer offers ih =>
      by_cases stops : offer.Stops
      · exact .inr ⟨[], offer, offers, rfl, List.forall_mem_nil _, stops⟩
      rcases ih with running | ⟨before, last, after, rfl, running, stops'⟩
      · exact .inl (List.forall_mem_cons.mpr ⟨stops, running⟩)
      · exact .inr ⟨offer :: before, last, after, rfl,
          List.forall_mem_cons.mpr ⟨stops, running⟩, stops'⟩

/-- Every call that does not stop takes some bytes. -/
theorem length_le_putsOf {offers : List Offer} (running : ∀ offer ∈ offers, ¬ offer.Stops) :
    offers.length ≤ putsOf offers := by
  rw [putsOf, ← List.length_map Offer.puts]
  apply List.length_le_sum_of_one_le
  intro k taken
  obtain ⟨offer, member, rfl⟩ := List.mem_map.mp taken
  cases offer with
  | failed errno => exact absurd trivial (running _ member)
  | upTo k => exact Nat.pos_of_ne_zero (running _ member)

/-- A call of `writen` with nothing to write returns at once. -/
theorem writen_nil (offers : List Offer) : writen [] offers = (.returned (some 0), []) :=
  writenRun_returned (some 0) offers

theorem writen_of_ne_nil {bytes : List UInt8} (more : bytes ≠ []) (offers : List Offer) :
    writen bytes offers = writenRun bytes.length (.blocked bytes) offers := by
  rw [writen, writenLoop, if_pos (List.length_pos_iff.mpr more)]

/-- The calls of `write` alone decide what `writen` hands over and what it returns. What it hands
over is the beginning of what it was given, and all of it exactly if it returns its length. -/
structure WritenExact (bytes : List UInt8) (offers : List Offer) : Prop where
  /-- The calls take all the bytes before one of them stops. -/
  whole : ∀ before after, offers = before ++ after → (∀ offer ∈ before, ¬ offer.Stops) →
    bytes.length ≤ putsOf before → writen bytes offers = (.returned (some bytes.length), bytes)
  /-- A `write` that returns no positive value before that ends it with that value, and what was
  handed over is a proper prefix. -/
  stopped : ∀ before offer after, offers = before ++ offer :: after →
    (∀ offer ∈ before, ¬ offer.Stops) → offer.Stops → putsOf before < bytes.length →
    writen bytes offers = (.returned offer.stopValue, bytes.take (putsOf before)) ∧
      bytes.take (putsOf before) ≠ bytes
  /-- The calls take too little, and none of them stops. -/
  waits : (∀ offer ∈ offers, ¬ offer.Stops) → putsOf offers < bytes.length →
    writen bytes offers = (.blocked (bytes.drop (putsOf offers)), bytes.take (putsOf offers))
  returns_iff : (writen bytes offers).1 = .returned (some bytes.length) ↔
    ∃ before after, offers = before ++ after ∧ (∀ offer ∈ before, ¬ offer.Stops) ∧
      bytes.length ≤ putsOf before
  inOrder : (writen bytes offers).2 <+: bytes
  whole_iff : (writen bytes offers).1 = .returned (some bytes.length) ↔
    (writen bytes offers).2 = bytes
  finishes : (∀ offer ∈ offers, ¬ offer.Stops) → bytes.length ≤ offers.length →
    (writen bytes offers).1 = .returned (some bytes.length)

section Outcomes

variable {bytes : List UInt8} {before : List Offer}

theorem writen_whole (after : List Offer) (running : ∀ offer ∈ before, ¬ offer.Stops)
    (enough : bytes.length ≤ putsOf before) :
    writen bytes (before ++ after) = (.returned (some bytes.length), bytes) := by
  by_cases empty : bytes = []
  · rw [empty, writen_nil]
    rfl
  · rw [writen_of_ne_nil empty]
    exact writenRun_whole after running empty enough

theorem ne_nil_of_puts (less : putsOf before < bytes.length) : bytes ≠ [] :=
  List.length_pos_iff.mp (Nat.zero_lt_of_lt less)

theorem writen_waits (running : ∀ offer ∈ before, ¬ offer.Stops)
    (less : putsOf before < bytes.length) :
    writen bytes before =
      (.blocked (bytes.drop (putsOf before)), bytes.take (putsOf before)) := by
  rw [writen_of_ne_nil (ne_nil_of_puts less)]
  exact writenRun_waits running less

theorem writen_stopped {offer : Offer} (after : List Offer)
    (running : ∀ offer ∈ before, ¬ offer.Stops) (stops : offer.Stops)
    (less : putsOf before < bytes.length) :
    writen bytes (before ++ offer :: after) =
      (.returned offer.stopValue, bytes.take (putsOf before)) := by
  have waits : writenRun bytes.length (.blocked bytes) before = _ := writenRun_waits running less
  rw [writen_of_ne_nil (ne_nil_of_puts less), writenRun_append _ (congrArg Prod.fst waits), waits,
    writenRun_stopped after stops, List.append_nil]

/-- Fewer bytes than there are are not all of them. -/
theorem take_ne_self {k : ℕ} (less : k < bytes.length) : bytes.take k ≠ bytes := by
  intro same
  have lengths := congrArg List.length same
  rw [List.length_take] at lengths
  omega

/-- The value of a `write` that stops is not the length of bytes that are left. -/
theorem stopValue_ne (offer : Offer) (less : putsOf before < bytes.length) :
    offer.stopValue ≠ some bytes.length := by
  intro same
  cases offer with
  | failed errno => cases same
  | upTo k =>
      have zero : 0 = bytes.length := Option.some.inj same
      omega

end Outcomes

/-- The three ways a call of `writen` can go. -/
theorem writen_cases (bytes : List UInt8) (offers : List Offer) :
    (writen bytes offers = (.returned (some bytes.length), bytes) ∧
      ∃ before after, offers = before ++ after ∧ (∀ offer ∈ before, ¬ offer.Stops) ∧
        bytes.length ≤ putsOf before) ∨
    (∃ k, k < bytes.length ∧ ∃ v, v ≠ some bytes.length ∧
      writen bytes offers = (.returned v, bytes.take k)) ∨
    ∃ k, k < bytes.length ∧ ∃ left, writen bytes offers = (.blocked left, bytes.take k) := by
  rcases exists_first_stop offers with running | ⟨before, offer, after, rfl, running, stops⟩
  · rcases Nat.lt_or_ge (putsOf offers) bytes.length with less | enough
    · exact .inr (.inr ⟨_, less, _, writen_waits running less⟩)
    · left
      have whole := writen_whole [] running enough
      rw [List.append_nil] at whole
      exact ⟨whole, offers, [], (List.append_nil offers).symm, running, enough⟩
  · rcases Nat.lt_or_ge (putsOf before) bytes.length with less | enough
    · exact .inr (.inl ⟨_, less, _, stopValue_ne offer less,
        writen_stopped after running stops less⟩)
    · exact .inl ⟨writen_whole (offer :: after) running enough, before, offer :: after, rfl,
        running, enough⟩

theorem writen_exact (bytes : List UInt8) (offers : List Offer) : WritenExact bytes offers := by
  constructor
  · rintro before after rfl running enough
    exact writen_whole after running enough
  · rintro before offer after rfl running stops less
    exact ⟨writen_stopped after running stops less, take_ne_self less⟩
  · exact writen_waits
  · constructor
    · intro returned
      rcases writen_cases bytes offers with ⟨-, enough⟩ | ⟨k, -, v, other, same⟩ |
        ⟨k, -, left, same⟩
      · exact enough
      · rw [same] at returned
        exact absurd (Writen.returned.inj returned) other
      · rw [same] at returned
        cases returned
    · rintro ⟨before, after, rfl, running, enough⟩
      rw [writen_whole after running enough]
  · rcases writen_cases bytes offers with ⟨same, -⟩ | ⟨k, -, v, -, same⟩ | ⟨k, -, left, same⟩
    · rw [same]
    · rw [same]
      exact List.take_prefix k bytes
    · rw [same]
      exact List.take_prefix k bytes
  · rcases writen_cases bytes offers with ⟨same, -⟩ | ⟨k, less, v, other, same⟩ |
      ⟨k, less, left, same⟩
    · rw [same]
      exact iff_of_true rfl rfl
    · rw [same]
      exact iff_of_false (fun whole => other (Writen.returned.inj whole)) (take_ne_self less)
    · rw [same]
      exact iff_of_false Writen.noConfusion (take_ne_self less)
  · intro running enough
    have whole := writen_whole [] running (enough.trans (length_le_putsOf running))
    rw [List.append_nil] at whole
    rw [whole]

end Writen

/-! ## `readn` -/

/-- The bytes a `read` takes from the stream. -/
def Read.bytes : Read → List UInt8
  | .data bytes => bytes
  | .failed _ => []

/-- The bytes `readn` has put in place. -/
def Readn.got : Readn → List UInt8
  | .blocked got => got
  | .returned _ got => got

/-- The passes of `readn`, with the stream they leave. -/
def readnRun (n : ℕ) : Readn → List UInt8 → List Offer → Readn × List UInt8
  | .blocked got, stream, offer :: offers =>
      let r := offer.read (n - got.length) stream
      readnRun n (readnPass n got r) (stream.drop r.bytes.length) offers
  | s, stream, _ => (s, stream)

/-- A whole call of `readn`. -/
def readn (n : ℕ) (stream : List UInt8) (offers : List Offer) : Readn × List UInt8 :=
  readnRun n (readnLoop n []) stream offers

section Readn

variable {n : ℕ} {got stream : List UInt8}

@[simp] theorem readnRun_returned (v : Option ℕ) (got stream : List UInt8)
    (offers : List Offer) :
    readnRun n (.returned v got) stream offers = (.returned v got, stream) := by
  cases offers <;> rfl

theorem readnRun_cons (offer : Offer) (offers : List Offer) :
    readnRun n (.blocked got) stream (offer :: offers) =
      readnRun n (readnPass n got (offer.read (n - got.length) stream))
        (stream.drop (offer.read (n - got.length) stream).bytes.length) offers := rfl

/-- What `readn` has taken is in place in order, and is not more than it was asked for; it has
returned with less only at the end of the stream or after a `read` that failed. -/
structure Readn.Sound (n : ℕ) (whole : List UInt8) (s : Readn) (stream : List UInt8) : Prop where
  inOrder : s.got ++ stream = whole
  within : s.got.length ≤ n
  waits : ∀ got, s = .blocked got → got.length < n
  value : ∀ m got, s = .returned (some m) got → m = got.length ∧ (m < n → stream = [])

theorem readnLoop_sound {whole : List UInt8} (inOrder : got ++ stream = whole)
    (within : got.length ≤ n) : (readnLoop n got).Sound n whole stream := by
  rw [readnLoop]
  split
  · rename_i less
    refine ⟨inOrder, within, fun _ same => Readn.blocked.inj same ▸ less, ?_⟩
    intro m got' impossible
    cases impossible
  · rename_i all
    refine ⟨inOrder, within, fun _ waits => Readn.noConfusion waits, ?_⟩
    rintro m got' ⟨⟩
    exact ⟨rfl, fun less => absurd less all⟩

theorem readnPass_sound {whole : List UInt8} (sound : (Readn.blocked got).Sound n whole stream)
    (offer : Offer) :
    (readnPass n got (offer.read (n - got.length) stream)).Sound n whole
      (stream.drop (offer.read (n - got.length) stream).bytes.length) := by
  have less := sound.waits got rfl
  cases offer with
  | failed errno =>
      refine ⟨sound.inOrder, sound.within, fun _ waits => Readn.noConfusion waits, ?_⟩
      intro m got' impossible
      cases impossible
  | upTo k =>
      have fits : (stream.take (min (max k 1) (n - got.length))).length ≤ n - got.length := by
        rw [List.length_take]
        omega
      have parts : stream.take (min (max k 1) (n - got.length)) ++
          stream.drop (stream.take (min (max k 1) (n - got.length))).length = stream :=
        List.prefix_iff_eq_append.mp (List.take_prefix _ stream)
      simp only [Offer.read, Read.bytes, readnPass]
      split
      · rename_i nothing
        have ended : stream = [] := by
          have bound := nothing
          rw [List.length_take] at bound
          exact List.length_eq_zero_iff.mp (by omega)
        subst ended
        refine ⟨?_, sound.within, fun _ waits => Readn.noConfusion waits, ?_⟩
        · rw [List.drop_nil]
          exact sound.inOrder
        · rintro m got' ⟨⟩
          exact ⟨rfl, fun _ => List.drop_nil⟩
      · apply readnLoop_sound
        · rw [List.append_assoc, parts]
          exact sound.inOrder
        · rw [List.length_append]
          omega

theorem readnRun_sound {whole : List UInt8} {s : Readn} (sound : s.Sound n whole stream)
    (offers : List Offer) :
    (readnRun n s stream offers).1.Sound n whole (readnRun n s stream offers).2 := by
  induction offers generalizing s stream with
  | nil => cases s <;> exact sound
  | cons offer offers ih =>
      cases s with
      | returned v got =>
          rw [readnRun_returned]
          exact sound
      | blocked got =>
          rw [readnRun_cons]
          exact ih (readnPass_sound sound offer)

/-- The bytes that calls of `read` take if there are as many. -/
def getsOf (offers : List Offer) : ℕ :=
  (offers.map Offer.gets).sum

@[simp] theorem getsOf_cons (offer : Offer) (offers : List Offer) :
    getsOf (offer :: offers) = offer.gets + getsOf offers := List.sum_cons

/-- None of the calls comes at the end of the stream. -/
def BeforeEnd (stream : List UInt8) (offers : List Offer) : Prop :=
  ∀ earlier offer later, offers = earlier ++ offer :: later → getsOf earlier < stream.length

theorem BeforeEnd.ne_nil {offer : Offer} {offers : List Offer}
    (beforeEnd : BeforeEnd stream (offer :: offers)) : stream ≠ [] :=
  List.length_pos_iff.mp (beforeEnd [] offer offers rfl)

theorem BeforeEnd.tail {offer : Offer} {offers : List Offer}
    (beforeEnd : BeforeEnd stream (offer :: offers)) :
    BeforeEnd (stream.drop offer.gets) offers := by
  rintro earlier last later rfl
  have less := beforeEnd (offer :: earlier) last later rfl
  rw [getsOf_cons] at less
  rw [List.length_drop]
  omega

/-- A `read` that does not fail takes some bytes if there are any, and `readn` goes on if they
are too few. -/
theorem readnRun_upTo (k : ℕ) (offers : List Offer) (some' : stream ≠ [])
    (less : got.length + min (max k 1) stream.length < n) :
    readnRun n (.blocked got) stream (.upTo k :: offers) =
      readnRun n (.blocked (got ++ stream.take (max k 1))) (stream.drop (max k 1)) offers := by
  have positive : 0 < stream.length := List.length_pos_iff.mpr some'
  have taken : stream.take (min (max k 1) (n - got.length)) = stream.take (max k 1) := by
    rw [List.take_eq_take_iff]
    omega
  have dropped : stream.drop (stream.take (max k 1)).length = stream.drop (max k 1) := by
    rw [List.length_take, List.drop_eq_drop_iff]
    omega
  have nonempty : stream.take (max k 1) ≠ [] := by
    intro nothing
    rcases List.take_eq_nil_iff.mp nothing with zero | ended
    · omega
    · exact some' ended
  rw [readnRun_cons, Offer.read, taken, Read.bytes, dropped, readnPass_more nonempty]
  rwa [List.length_take]

/-- A `read` that does not fail takes no more bytes than are wanted. -/
theorem readnRun_last {k : ℕ} (offers : List Offer) (less : got.length < n)
    (enough : n ≤ got.length + max k 1) (long : n ≤ got.length + stream.length) :
    readnRun n (.blocked got) stream (.upTo k :: offers) =
      (.returned (some n) (got ++ stream.take (n - got.length)),
        stream.drop (n - got.length)) := by
  have taken : min (max k 1) (n - got.length) = n - got.length := by omega
  have length : (stream.take (n - got.length)).length = n - got.length := by
    rw [List.length_take]
    omega
  have nonempty : stream.take (n - got.length) ≠ [] := by
    apply List.ne_nil_of_length_pos
    omega
  rw [readnRun_cons, Offer.read, taken, Read.bytes, length,
    readnPass_done nonempty (by omega), readnRun_returned]

/-- A `read` at the end of the stream. -/
theorem readnRun_atEnd (k : ℕ) (offers : List Offer) :
    readnRun n (.blocked got) [] (.upTo k :: offers) = (.returned (some got.length) got, []) := by
  rw [readnRun_cons, Offer.read, List.take_nil, readnPass, if_pos List.length_nil,
    readnRun_returned, List.drop_nil]

/-- Calls that take fewer bytes than are wanted, none of them at the end of the stream. -/
theorem readnRun_waits {before : List Offer} (after : List Offer)
    (running : ∀ offer ∈ before, ∃ k, offer = .upTo k)
    (less : got.length + min (getsOf before) stream.length < n)
    (beforeEnd : BeforeEnd stream before) :
    readnRun n (.blocked got) stream (before ++ after) =
      readnRun n (.blocked (got ++ stream.take (getsOf before))) (stream.drop (getsOf before))
        after := by
  induction before generalizing got stream with
  | nil =>
      change _ = readnRun n (.blocked (got ++ [])) stream after
      rw [List.append_nil]
      rfl
  | cons offer before ih =>
      obtain ⟨k, rfl⟩ := running offer List.mem_cons_self
      have later := beforeEnd.tail
      rw [getsOf_cons, Offer.gets] at less
      rw [Offer.gets] at later
      have rest : (got ++ stream.take (max k 1)).length +
          min (getsOf before) (stream.drop (max k 1)).length < n := by
        rw [List.length_append, List.length_take, List.length_drop]
        omega
      rw [List.cons_append, readnRun_upTo k _ beforeEnd.ne_nil (by omega),
        ih (fun offer member => running offer (List.mem_cons_of_mem _ member)) rest later,
        List.append_assoc, ← List.take_add, List.drop_drop, getsOf_cons, Offer.gets]

/-- Calls that take as many bytes as are wanted from a stream that has as many. -/
theorem readnRun_whole {before : List Offer} (after : List Offer)
    (running : ∀ offer ∈ before, ∃ k, offer = .upTo k) (less : got.length < n)
    (enough : n ≤ got.length + getsOf before) (long : n ≤ got.length + stream.length) :
    readnRun n (.blocked got) stream (before ++ after) =
      (.returned (some n) (got ++ stream.take (n - got.length)),
        stream.drop (n - got.length)) := by
  induction before generalizing got stream with
  | nil => exact absurd enough (Nat.not_le.mpr less)
  | cons offer before ih =>
      obtain ⟨k, rfl⟩ := running offer List.mem_cons_self
      rw [getsOf_cons, Offer.gets] at enough
      rw [List.cons_append]
      rcases Nat.lt_or_ge (got.length + max k 1) n with less' | all
      · have some' : stream ≠ [] := by
          rintro rfl
          rw [List.length_nil] at long
          omega
        have length : (got ++ stream.take (max k 1)).length = got.length + max k 1 := by
          rw [List.length_append, List.length_take]
          omega
        have parts : n - got.length = max k 1 + (n - (got.length + max k 1)) := by omega
        rw [readnRun_upTo k _ some' (by omega),
          ih (fun offer member => running offer (List.mem_cons_of_mem _ member))
            (by omega) (by omega) (by rw [length, List.length_drop]; omega),
          length, List.append_assoc, parts, List.take_add, List.drop_drop]
      · exact readnRun_last _ less all long

/-- A call at the end of a stream that is shorter than what is wanted. -/
theorem readnRun_ended {before : List Offer} (k : ℕ) (after : List Offer)
    (running : ∀ offer ∈ before, ∃ k, offer = .upTo k)
    (short : got.length + stream.length < n) (enough : stream.length ≤ getsOf before) :
    readnRun n (.blocked got) stream (before ++ .upTo k :: after) =
      (.returned (some (got.length + stream.length)) (got ++ stream), []) := by
  induction before generalizing got stream with
  | nil =>
      obtain rfl : stream = [] := List.length_eq_zero_iff.mp (Nat.le_zero.mp enough)
      rw [List.nil_append, readnRun_atEnd, List.append_nil]
      rfl
  | cons offer before ih =>
      obtain ⟨k', rfl⟩ := running offer List.mem_cons_self
      rw [getsOf_cons, Offer.gets] at enough
      by_cases ended : stream = []
      · subst ended
        rw [List.cons_append, readnRun_atEnd, List.append_nil]
        rfl
      have lengths : (got ++ stream.take (max k' 1)).length + (stream.drop (max k' 1)).length =
          got.length + stream.length := by
        rw [List.length_append, List.length_take, List.length_drop]
        omega
      rw [List.cons_append, readnRun_upTo k' _ ended (by omega),
        ih (fun offer member => running offer (List.mem_cons_of_mem _ member)) (by omega)
          (by rw [List.length_drop]; omega),
        lengths, List.append_assoc, List.take_append_drop]

/-- A call that fails ends `readn`. -/
theorem readnRun_failed (errno : Errno) (after : List Offer) :
    readnRun n (.blocked got) stream (.failed errno :: after) = (.returned none got, stream) := by
  rw [readnRun_cons, Offer.read, readnPass, readnRun_returned]
  rfl

/-- Every call that does not fail takes some bytes. -/
theorem length_le_getsOf {offers : List Offer}
    (running : ∀ offer ∈ offers, ∃ k, offer = .upTo k) : offers.length ≤ getsOf offers := by
  rw [getsOf, ← List.length_map Offer.gets]
  apply List.length_le_sum_of_one_le
  intro k taken
  obtain ⟨offer, member, rfl⟩ := List.mem_map.mp taken
  obtain ⟨k, rfl⟩ := running offer member
  exact Nat.le_max_right k 1

/-- The calls of `read` alone decide what `readn` takes and what it returns. What it takes is the
beginning of the stream, never more than it was asked for. -/
structure ReadnExact (n : ℕ) (stream : List UInt8) (offers : List Offer) : Prop where
  /-- The calls take `n` bytes before one of them fails, and the stream has as many. -/
  takes : ∀ before after, offers = before ++ after → (∀ offer ∈ before, ∃ k, offer = .upTo k) →
    n ≤ getsOf before → n ≤ stream.length →
    readn n stream offers = (.returned (some n) (stream.take n), stream.drop n)
  /-- The stream is shorter, and a call comes at its end before one of them fails. -/
  endsAt : ∀ before k after, offers = before ++ .upTo k :: after →
    (∀ offer ∈ before, ∃ k, offer = .upTo k) →
    stream.length < n → stream.length ≤ getsOf before →
    readn n stream offers = (.returned (some stream.length) stream, [])
  /-- A call fails before that. -/
  failsAt : ∀ before errno after, offers = before ++ .failed errno :: after →
    (∀ offer ∈ before, ∃ k, offer = .upTo k) →
    min (getsOf before) stream.length < n → BeforeEnd stream before →
    readn n stream offers =
      (.returned none (stream.take (getsOf before)), stream.drop (getsOf before))
  /-- The calls take too little, and none of them fails. -/
  waits : (∀ offer ∈ offers, ∃ k, offer = .upTo k) →
    min (getsOf offers) stream.length < n → BeforeEnd stream offers →
    readn n stream offers =
      (.blocked (stream.take (getsOf offers)), stream.drop (getsOf offers))
  inOrder : (readn n stream offers).1.got ++ (readn n stream offers).2 = stream
  within : (readn n stream offers).1.got.length ≤ n
  /-- It returns `n` with the next `n` bytes in place, whatever was there before. -/
  whole : ∀ got, (readn n stream offers).1 = .returned (some n) got →
    got = stream.take n ∧ (readn n stream offers).2 = stream.drop n ∧
      ∀ memory, readOver memory got = stream.take n ++ memory.drop n
  /-- It returns less only if the stream ends there. -/
  ended : ∀ m got, (readn n stream offers).1 = .returned (some m) got → m ≠ n →
    m < n ∧ got = stream ∧ stream.length = m
  finishes : (∀ offer ∈ offers, ∃ k, offer = .upTo k) → n ≤ offers.length →
    ∃ got, (readn n stream offers).1 = .returned (some (min n stream.length)) got
  /-- `readn_error_handler` accepts the value exactly if it is `n`. -/
  judged : 0 < n → ∀ v got, (readn n stream offers).1 = .returned v got →
    (readnErrorHandler v n = .SUCCESS ↔ v = some n)

theorem readn_sound (n : ℕ) (stream : List UInt8) (offers : List Offer) :
    (readn n stream offers).1.Sound n stream (readn n stream offers).2 :=
  readnRun_sound (readnLoop_sound (List.nil_append stream) (Nat.zero_le n)) offers

/-- What it means that `readn` returned a length. -/
theorem readn_returned {offers : List Offer} {m : ℕ}
    (returned : (readn n stream offers).1 = .returned (some m) got) :
    m = got.length ∧ m ≤ n ∧ got ++ (readn n stream offers).2 = stream ∧
      (m < n → (readn n stream offers).2 = []) := by
  have sound := readn_sound n stream offers
  have inOrder := sound.inOrder
  have within := sound.within
  obtain ⟨rfl, ended⟩ := sound.value m got returned
  rw [returned] at inOrder within
  exact ⟨rfl, within, inOrder, ended⟩

theorem readn_of_pos (positive : 0 < n) (offers : List Offer) :
    readn n stream offers = readnRun n (.blocked []) stream offers := by
  have less : ([] : List UInt8).length < n := positive
  rw [readn, readnLoop, if_pos less]

section Outcomes

variable {before : List Offer}

theorem readn_takes (after : List Offer) (running : ∀ offer ∈ before, ∃ k, offer = .upTo k)
    (enough : n ≤ getsOf before) (long : n ≤ stream.length) :
    readn n stream (before ++ after) = (.returned (some n) (stream.take n), stream.drop n) := by
  rcases Nat.eq_zero_or_pos n with rfl | positive
  · exact readnRun_returned (some 0) [] stream _
  · rw [readn_of_pos positive]
    exact readnRun_whole after running positive (enough.trans (Nat.le_add_left _ 0))
      (long.trans (Nat.le_add_left _ 0))

theorem readn_endsAt (k : ℕ) (after : List Offer)
    (running : ∀ offer ∈ before, ∃ k, offer = .upTo k) (short : stream.length < n)
    (enough : stream.length ≤ getsOf before) :
    readn n stream (before ++ .upTo k :: after) =
      (.returned (some stream.length) stream, []) := by
  have ended : readnRun n (.blocked []) stream (before ++ .upTo k :: after) = _ :=
    readnRun_ended k after running
      (Nat.lt_of_le_of_lt (Nat.le_of_eq (Nat.zero_add _)) short) enough
  rw [readn_of_pos (Nat.zero_lt_of_lt short), ended, List.length_nil, Nat.zero_add,
    List.nil_append]

/-- `readn` is on its way after such calls. -/
theorem readn_waits (after : List Offer) (running : ∀ offer ∈ before, ∃ k, offer = .upTo k)
    (less : min (getsOf before) stream.length < n) (beforeEnd : BeforeEnd stream before) :
    readn n stream (before ++ after) =
      readnRun n (.blocked (stream.take (getsOf before))) (stream.drop (getsOf before)) after := by
  rw [readn_of_pos (Nat.zero_lt_of_lt less)]
  exact readnRun_waits after running (Nat.lt_of_le_of_lt (Nat.le_of_eq (Nat.zero_add _)) less)
    beforeEnd

/-- Without a `read` that fails, `readn` needs no more calls than bytes. -/
theorem readn_finishes {offers : List Offer} (running : ∀ offer ∈ offers, ∃ k, offer = .upTo k)
    (enough : n ≤ offers.length) :
    ∃ got, (readn n stream offers).1 = .returned (some (min n stream.length)) got := by
  rcases Nat.lt_or_ge stream.length n with short | long
  · rcases List.eq_nil_or_concat offers with rfl | ⟨before, last, rfl⟩
    · rw [List.length_nil] at enough
      omega
    rw [List.concat_eq_append] at running enough ⊢
    rw [List.length_append, List.length_singleton] at enough
    obtain ⟨k, rfl⟩ := running last (List.mem_append_right before (List.mem_singleton_self last))
    have running' : ∀ offer ∈ before, ∃ k, offer = .upTo k := fun offer member =>
      running offer (List.mem_append_left _ member)
    have bytes := length_le_getsOf running'
    rw [readn_endsAt k [] running' short (by omega), Nat.min_eq_right (Nat.le_of_lt short)]
    exact ⟨stream, rfl⟩
  · have whole := readn_takes [] running (enough.trans (length_le_getsOf running)) long
    rw [List.append_nil] at whole
    rw [whole, Nat.min_eq_left long]
    exact ⟨_, rfl⟩

end Outcomes

theorem readn_exact (n : ℕ) (stream : List UInt8) (offers : List Offer) :
    ReadnExact n stream offers := by
  constructor
  · rintro before after rfl
    exact readn_takes after
  · rintro before k after rfl
    exact readn_endsAt k after
  · rintro before errno after rfl running less beforeEnd
    rw [readn_waits _ running less beforeEnd]
    exact readnRun_failed errno after
  · intro running less beforeEnd
    have waits := readn_waits [] running less beforeEnd
    rw [List.append_nil] at waits
    rw [waits]
    rfl
  · exact (readn_sound n stream offers).inOrder
  · exact (readn_sound n stream offers).within
  · intro got returned
    obtain ⟨rfl, -, inOrder, -⟩ := readn_returned returned
    generalize (readn got.length stream offers).2 = rest at inOrder ⊢
    subst inOrder
    refine ⟨List.take_left.symm, List.drop_left.symm, ?_⟩
    intro memory
    rw [readOver]
    exact congrArg (· ++ memory.drop got.length) List.take_left.symm
  · intro m got returned other
    obtain ⟨rfl, within, inOrder, ended⟩ := readn_returned returned
    have less : got.length < n := Nat.lt_of_le_of_ne within other
    rw [ended less, List.append_nil] at inOrder
    subst inOrder
    exact ⟨less, rfl, rfl⟩
  · exact readn_finishes
  · intro positive v got returned
    cases v with
    | none => exact iff_of_false RetVal.noConfusion (Option.some_ne_none n).symm
    | some m =>
        have within := (readn_returned returned).2.1
        simp only [readnErrorHandler, Option.some.injEq]
        split
        · exact iff_of_false RetVal.noConfusion (by omega)
        split
        · exact iff_of_false RetVal.noConfusion (by omega)
        · exact iff_of_true rfl (by omega)

end Readn

/-! ## Calls that follow each other -/

/-- Calls of `readn` on one stream, one after the other. -/
def readnCalls : List (ℕ × List Offer) → List UInt8 → List Readn × List UInt8
  | [], stream => ([], stream)
  | (n, offers) :: calls, stream =>
      let (s, rest) := readn n stream offers
      let (ss, rest) := readnCalls calls rest
      (s :: ss, rest)

/-- Calls of `writen` on one stream, one after the other, and what the stream gets. -/
def writenCalls : List (List UInt8 × List Offer) → List Writen × List UInt8
  | [] => ([], [])
  | (bytes, offers) :: calls =>
      let (s, taken) := writen bytes offers
      let (ss, stream) := writenCalls calls
      (s :: ss, taken ++ stream)

/-- The stream is divided among the calls: each gets what follows the bytes of those before it. -/
theorem readnCalls_partition (calls : List (ℕ × List Offer)) (stream : List UInt8) :
    ((readnCalls calls stream).1.map Readn.got).flatten ++ (readnCalls calls stream).2 =
      stream := by
  induction calls generalizing stream with
  | nil => rfl
  | cons call calls ih =>
      obtain ⟨n, offers⟩ := call
      have first := (readn_sound n stream offers).inOrder
      have later := ih (readn n stream offers).2
      simp only [readnCalls, List.map_cons, List.flatten_cons, List.append_assoc]
      rw [later, first]

/-- A message at the front of the stream is what `readn` of its length gets, if no `read`
fails. -/
theorem readn_message {message later got : List UInt8} {offers : List Offer} {m : ℕ}
    (returned : (readn message.length (message ++ later) offers).1 = .returned (some m) got) :
    got = message ∧ (readn message.length (message ++ later) offers).2 = later := by
  have exact' := readn_exact message.length (message ++ later) offers
  have all : m = message.length := by
    by_contra other
    obtain ⟨less, -, ended⟩ := exact'.ended m got returned other
    rw [List.length_append] at ended
    omega
  subst all
  obtain ⟨taken, rest, -⟩ := exact'.whole got returned
  rw [taken, rest]
  exact ⟨List.take_left, List.drop_left⟩

/-- Messages written one after the other by calls that return their lengths are read one after
the other by calls that return no error. -/
theorem exchanges_exact (exchanges : List (List UInt8 × List Offer × List Offer))
    (later : List UInt8)
    (written : ∀ e ∈ exchanges, (writen e.1 e.2.1).1 = .returned (some e.1.length))
    (read : ∀ s ∈ (readnCalls (exchanges.map fun e => (e.1.length, e.2.2))
        ((writenCalls (exchanges.map fun e => (e.1, e.2.1))).2 ++ later)).1,
      ∃ m got, s = .returned (some m) got) :
    (readnCalls (exchanges.map fun e => (e.1.length, e.2.2))
        ((writenCalls (exchanges.map fun e => (e.1, e.2.1))).2 ++ later)).1.map Readn.got =
      exchanges.map Prod.fst ∧
    (readnCalls (exchanges.map fun e => (e.1.length, e.2.2))
        ((writenCalls (exchanges.map fun e => (e.1, e.2.1))).2 ++ later)).2 = later := by
  induction exchanges with
  | nil => exact ⟨rfl, rfl⟩
  | cons e exchanges ih =>
      obtain ⟨message, writes, reads⟩ := e
      have taken : (writen message writes).2 = message :=
        (writen_exact message writes).whole_iff.mp (written _ List.mem_cons_self)
      simp only [List.map_cons, writenCalls, readnCalls, taken, List.append_assoc,
        List.mem_cons, forall_eq_or_imp] at read ⊢
      obtain ⟨⟨m, got, returned⟩, read⟩ := read
      obtain ⟨front, rest⟩ := readn_message returned
      rw [rest] at read ⊢
      obtain ⟨gots, last⟩ := ih (fun e member => written e (List.mem_cons_of_mem _ member)) read
      rw [gots, returned]
      exact ⟨congrArg (· :: exchanges.map Prod.fst) front, last⟩

/-- **`writen` and `readn` are an exact, reliable pipe**, however the calls of `write` and `read`
go. -/
theorem reliable_pipe :
    (∀ left r, (∃ offer : Offer, offer.write left = r) ↔ r.Answers (.write left)) ∧
    (∀ request stream r, 0 < request →
      ((∃ offer : Offer, offer.read request stream = r) ↔ r.Next request stream)) ∧
    (∀ bytes offers, WritenExact bytes offers) ∧
    (∀ n stream offers, ReadnExact n stream offers) ∧
    (∀ calls stream, ((readnCalls calls stream).1.map Readn.got).flatten ++
      (readnCalls calls stream).2 = stream) ∧
    ∀ (exchanges : List (List UInt8 × List Offer × List Offer)) (later : List UInt8),
      (∀ e ∈ exchanges, (writen e.1 e.2.1).1 = .returned (some e.1.length)) →
      (∀ s ∈ (readnCalls (exchanges.map fun e => (e.1.length, e.2.2))
          ((writenCalls (exchanges.map fun e => (e.1, e.2.1))).2 ++ later)).1,
        ∃ m got, s = .returned (some m) got) →
      (readnCalls (exchanges.map fun e => (e.1.length, e.2.2))
          ((writenCalls (exchanges.map fun e => (e.1, e.2.1))).2 ++ later)).1.map Readn.got =
        exchanges.map Prod.fst ∧
      (readnCalls (exchanges.map fun e => (e.1.length, e.2.2))
          ((writenCalls (exchanges.map fun e => (e.1, e.2.1))).2 ++ later)).2 = later :=
  ⟨fun _ _ => Offer.exists_write, fun _ _ _ => Offer.exists_read, writen_exact, readn_exact,
    readnCalls_partition, exchanges_exact⟩

end Ppcb
