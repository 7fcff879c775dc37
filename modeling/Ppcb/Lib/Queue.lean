import Ppcb.Lib.Inevitable

/-!
# A server and a queue of jobs

A job visits a server. The visit begins with what the server is, takes steps of its own, and
when it is over, and no step is left, the server is free for the next job. The states of a
visit depend on its job.

When the visit of every job comes to a good end from every server that is ready, and leaves a
server that is ready, the whole queue comes to its end (`Serves.over_inevitable`), and in every
run the visits so far form a chain of good ends (`Serves.orderly`, `Serves.chain_visits`).
-/

set_option autoImplicit false

namespace Reactive

open Relation

universe u v w

/-- What visits are: their states and steps, how they begin, when they are over, and how they
leave the server. -/
structure Service (κ : Type u) (τ : Type v) where
  Visit : κ → Type w
  step (k : κ) : Visit k → Visit k → Prop
  opens (k : κ) : τ → Visit k
  Over (k : κ) : Visit k → Prop
  leaves (k : κ) : Visit k → τ
  quiet : ∀ {k : κ} {visit next : Visit k}, Over k visit → ¬ step k visit next

namespace Service

variable {κ : Type u} {τ : Type v} (S : Service.{u, v, w} κ τ)

/-- The visits that are over, the job at the server, and those that wait. -/
structure Queue where
  served : List ((k : κ) × S.Visit k)
  job : κ
  visit : S.Visit job
  waiting : List κ

/-- The first job begins. -/
def start (server : τ) (job : κ) (waiting : List κ) : S.Queue :=
  ⟨[], job, S.opens job server, waiting⟩

/-- A step of the visit, or the next job begins. -/
inductive Step : S.Queue → S.Queue → Prop where
  | work {served : List ((k : κ) × S.Visit k)} {job : κ} {visit visit' : S.Visit job}
      {waiting : List κ} (step : S.step job visit visit') :
      Step ⟨served, job, visit, waiting⟩ ⟨served, job, visit', waiting⟩
  | next {served : List ((k : κ) × S.Visit k)} {job job' : κ} {visit : S.Visit job}
      {waiting : List κ} (ended : S.Over job visit) :
      Step ⟨served, job, visit, job' :: waiting⟩
        ⟨served ++ [⟨job, visit⟩], job', S.opens job' (S.leaves job visit), waiting⟩

namespace Queue

variable {S}

/-- Nobody waits, and the last visit is over. -/
def Over (q : S.Queue) : Prop := q.waiting = [] ∧ S.Over q.job q.visit

/-- The visits so far, with the one at the server. -/
def visits (q : S.Queue) : List ((k : κ) × S.Visit k) := q.served ++ [⟨q.job, q.visit⟩]

/-- The server of the visit. -/
def server (q : S.Queue) : τ := S.leaves q.job q.visit

end Queue

/-- Visits one after the other, from the first server to the last, that all have ended as
`done` says. -/
inductive Chain (done : (k : κ) → τ → S.Visit k → Prop) (first : τ) :
    List ((k : κ) × S.Visit k) → τ → Prop where
  | nil : Chain done first [] first
  | concat {visits : List ((k : κ) × S.Visit k)} {server : τ} {k : κ} {visit : S.Visit k}
      (chain : Chain done first visits server) (ended : done k server visit) :
      Chain done first (visits ++ [⟨k, visit⟩]) (S.leaves k visit)

variable {S}

/-- **What each visit does to the server adds up.** -/
theorem Chain.invariant {done : (k : κ) → τ → S.Visit k → Prop} {first last : τ}
    {visits : List ((k : κ) × S.Visit k)} {I : List ((k : κ) × S.Visit k) → τ → Prop}
    (chain : S.Chain done first visits last) (start : I [] first)
    (kept : ∀ visits server k visit, I visits server → done k server visit →
      I (visits ++ [⟨k, visit⟩]) (S.leaves k visit)) :
    I visits last := by
  induction chain with
  | nil => exact start
  | concat _ ended ih => exact kept _ _ _ _ ih ended

variable (S)

/-- The visits of jobs that fit end as `done` says, from every server that is ready. -/
structure Serves (ready : τ → Prop) (fits : κ → Prop)
    (done : (k : κ) → τ → S.Visit k → Prop) : Prop where
  ends : ∀ {k : κ} {server : τ}, fits k → ready server →
    Inevitable (S.step k) (done k server) (S.opens k server)
  ended : ∀ {k : κ} {server : τ} {visit : S.Visit k}, done k server visit → S.Over k visit
  leaves : ∀ {k : κ} {server : τ} {visit : S.Visit k}, done k server visit →
    ready (S.leaves k visit)

namespace Serves

variable {S} {ready : τ → Prop} {fits : κ → Prop} {done : (k : κ) → τ → S.Visit k → Prop}

/-- The visit comes to its end, whoever waits. -/
theorem visit_inevitable (serves : S.Serves ready fits done) {job : κ} {server : τ}
    (fit : fits job) (now : ready server) (served : List ((k : κ) × S.Visit k))
    (waiting : List κ) :
    Inevitable S.Step (fun q => ∃ visit, q = ⟨served, job, visit, waiting⟩ ∧ done job server visit)
      ⟨served, job, S.opens job server, waiting⟩ := by
  have ends := serves.ends fit now
  generalize S.opens job server = visit at ends ⊢
  induction ends with
  | now ended => exact .now ⟨_, rfl, ended⟩
  | @later visit enabled _ ih =>
      obtain ⟨visit', first⟩ := enabled
      refine .later ⟨_, .work first⟩ fun q step => ?_
      cases step with
      | work step => exact ih _ step
      | next ended => exact absurd first (S.quiet ended)

/-- **The queue comes to its end.** -/
theorem over_inevitable (serves : S.Serves ready fits done) {waiting : List κ} {job : κ}
    {server : τ} (fit : ∀ k ∈ job :: waiting, fits k) (now : ready server)
    (served : List ((k : κ) × S.Visit k)) :
    Inevitable S.Step Queue.Over ⟨served, job, S.opens job server, waiting⟩ := by
  induction waiting generalizing job server served with
  | nil =>
      refine (serves.visit_inevitable (fit job List.mem_cons_self) now served []).trans ?_
      rintro _ ⟨visit, rfl, ended⟩
      exact .now ⟨rfl, serves.ended ended⟩
  | cons job' waiting ih =>
      refine (serves.visit_inevitable (fit job List.mem_cons_self) now served
        (job' :: waiting)).trans ?_
      rintro _ ⟨visit, rfl, ended⟩
      refine .later ⟨_, .next (serves.ended ended)⟩ fun q step => ?_
      cases step with
      | work step => exact absurd step (S.quiet (serves.ended ended))
      | next _ =>
          exact ih (fun k member => fit k (List.mem_cons_of_mem _ member)) (serves.leaves ended) _

/-- A visit that is over has ended as it should. -/
theorem done_of_over (serves : S.Serves ready fits done) {job : κ} {server : τ}
    (fit : fits job) (now : ready server) {visit : S.Visit job}
    (run : ReflTransGen (S.step job) (S.opens job server) visit) (ended : S.Over job visit) :
    done job server visit :=
  ((serves.ends fit now).along (fun _ _ reached step => S.quiet (serves.ended reached) step)
    run).stuck fun _ => S.quiet ended

/-- The jobs in their order, a chain of visits that are over, and a run of the one at the
server. -/
def Orderly (done : (k : κ) → τ → S.Visit k → Prop) (ready : τ → Prop) (first : τ)
    (jobs : List κ) (q : S.Queue) : Prop :=
  jobs = q.served.map Sigma.fst ++ q.job :: q.waiting ∧
    ∃ server, S.Chain done first q.served server ∧ ready server ∧
      ReflTransGen (S.step q.job) (S.opens q.job server) q.visit

/-- **A step of the queue keeps the order.** -/
theorem orderly_step (serves : S.Serves ready fits done) {first : τ} {jobs : List κ}
    (fit : ∀ k ∈ jobs, fits k) {q q' : S.Queue} (orderly : Orderly done ready first jobs q)
    (step : S.Step q q') : Orderly done ready first jobs q' := by
  obtain ⟨order, server, chain, now, run⟩ := orderly
  cases step with
  | work step => exact ⟨order, server, chain, now, run.tail step⟩
  | @next served job job' visit waiting over_now =>
      have member : job ∈ jobs := by
        rw [order]
        exact List.mem_append_right _ List.mem_cons_self
      have ended := serves.done_of_over (fit job member) now run over_now
      refine ⟨?_, _, .concat chain ended, serves.leaves ended, .refl⟩
      rw [order, List.map_append, List.append_assoc]
      rfl

/-- Every run of the queue keeps the order. -/
theorem orderly (serves : S.Serves ready fits done) {server : τ} {job : κ} {waiting : List κ}
    (fit : ∀ k ∈ job :: waiting, fits k) (now : ready server) {q : S.Queue}
    (run : ReflTransGen S.Step (S.start server job waiting) q) :
    Orderly done ready server (job :: waiting) q := by
  induction run with
  | refl => exact ⟨rfl, server, .nil, now, .refl⟩
  | tail _ step ih => exact serves.orderly_step fit ih step

/-- When the queue is over, all visits have ended as they should, and the server is ready. -/
theorem chain_visits (serves : S.Serves ready fits done) {first : τ} {jobs : List κ}
    (fit : ∀ k ∈ jobs, fits k) {q : S.Queue} (orderly : Orderly done ready first jobs q)
    (over_now : q.Over) : jobs = q.visits.map Sigma.fst ∧
      S.Chain done first q.visits q.server ∧ ready q.server := by
  obtain ⟨order, server, chain, now, run⟩ := orderly
  obtain ⟨nobody, ended⟩ := over_now
  rw [nobody] at order
  have member : q.job ∈ jobs := by
    rw [order]
    exact List.mem_append_right _ List.mem_cons_self
  have done_now := serves.done_of_over (fit q.job member) now run ended
  refine ⟨?_, .concat chain done_now, serves.leaves done_now⟩
  rw [order, Queue.visits, List.map_append]
  rfl

end Serves

end Service

end Reactive
