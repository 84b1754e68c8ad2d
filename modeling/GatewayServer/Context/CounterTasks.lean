import GatewayServer.Context.AsyncContext
import GatewayServer.Lib.Run
import Mathlib.Data.Set.Card

/-!
# Counting the tasks

A task is counted when it is posted and taken off the counter when it has returned. Whatever the
order of the steps, it is waiting, running or ended, and it is run once. But a task that throws is
never taken off, and from then on the counter is too high.

## Main definitions

* `AsyncContext.At` — where a task is
* `AsyncContext.Accounts` — every task is at one place, and the counter is right
* `AsyncContext.ReturnsNormally` — a task does not end with an exception

## Main results

* `Tracked.step` — what every step keeps
* `counter_eq` — what the counter counts
* `accounts_iff` — when the counter is right
-/

namespace GatewayServer

open Lib

/-- What becomes of a task. -/
inductive TaskPlace where
  | waiting
  | running
  | ended
  deriving DecidableEq, Repr

namespace AsyncContext

variable {ι κ α : Type} {q t : AsyncContext ι κ α}

/-- A task waits from the moment it is counted until a thread begins to run it. -/
def At (q : AsyncContext ι κ α) (job : Job α) : TaskPlace → Prop
  | .waiting => (∃ t, q.posting t = some job) ∨ job ∈ q.waiting
  | .running => ∃ i, (q.threads i).job = some job
  | .ended => job ∈ q.ended.map Prod.fst

/-- How many tasks have ended in the one way or the other. -/
def countEnded (q : AsyncContext ι κ α) (result : TaskEnd) : ℕ :=
  q.ended.countP fun e => e.2 = result

/-- A handler that is taken no longer waits. -/
theorem waiting_eraseIdx {n : ℕ} {job : Job α} (hn : q.waiting[n]? = some job) :
    (q.waiting.eraseIdx n : Multiset (Job α)) + {job} = q.waiting := by
  obtain ⟨hlt, rfl⟩ := List.getElem?_eq_some_iff.mp hn
  rw [add_comm, Multiset.singleton_add, Multiset.cons_coe, Multiset.coe_eq_coe]
  exact List.getElem_cons_eraseIdx_perm hlt

section Tasks

variable [Fintype ι]

/-- The tasks that threads run. -/
def running (q : AsyncContext ι κ α) : Multiset (Job α) := contents fun i => (q.threads i).job

theorem running_start : (start : AsyncContext ι κ α).running = 0 := contents_none

/-- A thread exchanges its task for the one at its new point. -/
theorem running_goto [DecidableEq ι] (i : ι) (point : PoolPoint α) :
    (q.goto i point).running + (q.threads i).job.elim 0 ({·}) =
      q.running + point.job.elim 0 ({·}) := by
  have hjob : (fun j => ((q.goto i point).threads j).job) =
      Function.update (fun j => (q.threads j).job) i point.job := by
    funext j
    by_cases hj : j = i
    · rw [hj, Function.update_self, threads_goto_self]
    · rw [Function.update_of_ne hj, threads_goto_of_ne hj]
  rw [running, hjob, contents_update, running]

theorem mem_running {job : Job α} : job ∈ q.running ↔ q.At job .running := mem_contents

variable [Fintype κ]

/-- The tasks that are waiting or running. -/
def unended (q : AsyncContext ι κ α) : Multiset (Job α) :=
  contents q.posting + q.waiting + q.running

theorem mem_waiting {job : Job α} :
    job ∈ contents q.posting + (q.waiting : Multiset (Job α)) ↔ q.At job .waiting := by
  simp [At, mem_contents]

theorem mem_unended {job : Job α} :
    job ∈ q.unended ↔ q.At job .waiting ∨ q.At job .running := by
  rw [unended, Multiset.mem_add, mem_waiting, mem_running]

/-- Every posted task is waiting, running or ended, and nothing else; none is run twice; no thread
has left `runThread`; and the counter is the number of tasks that are waiting or running. -/
structure Accounts (q : AsyncContext ι κ α) : Prop where
  place : ∀ job ∈ q.posted, ∃! place, q.At job place
  once : q.begun.Nodup
  inLoop : ∀ i, (q.threads i).inLoop = true
  counter : q.counter.counter =
    UInt64.ofNat {job | q.At job .waiting ∨ q.At job .running}.ncard

/-- A task that ends before the destructor is called returns. -/
def ReturnsNormally (q : AsyncContext ι κ α) : ContextLabel ι κ α → Prop
  | .ended i .threw => q.destructor = .before → ¬ q.InTask i
  | _ => True

/-- Up to the destructor the exceptions have not made a difference to the counter. -/
def NoneThrown (q : AsyncContext ι κ α) : Prop :=
  q.destructor = .before → UInt64.ofNat (q.countEnded .threw) = 0

/-! ## What every step keeps -/

/-- Every task is at one place, and those that have returned are taken off the counter. -/
structure Tracked (q : AsyncContext ι κ α) : Prop where
  numbered : q.posted.map Job.number = List.range q.posted.length
  posted : (q.posted : Multiset (Job α)) = contents q.posting + q.waiting + q.begun
  begun : (q.begun : Multiset (Job α)) = q.running + (q.ended.map Prod.fst : List (Job α))
  counter : q.counter.counter + UInt64.ofNat (q.countEnded .returned) =
    UInt64.ofNat q.posted.length
  inLoop : q.destructor = .before → ∀ i, (q.threads i).inLoop = true

theorem tracked_start : (start : AsyncContext ι κ α).Tracked where
  numbered := rfl
  posted := by simp [start]
  begun := by
    rw [running_start]
    rfl
  counter := rfl
  inLoop _ _ := rfl

namespace Tracked

variable [DecidableEq ι] (h : q.Tracked)
include h

/-- Nothing is posted or run, and no task changes its place. -/
theorem goto {i : ι} {point : PoolPoint α} (hjob : point.job = (q.threads i).job)
    (hpoint : point.inLoop = true ∨ q.destructor ≠ .before) : (q.goto i point).Tracked := by
  have hrunning : (q.goto i point).running = q.running := by
    have hgoto := running_goto (q := q) i point
    rw [hjob] at hgoto
    exact Multiset.add_left_inj.mp hgoto
  refine ⟨h.numbered, h.posted, ?_, h.counter, ?_⟩
  · rw [hrunning]
    exact h.begun
  · intro hdestructor
    exact inLoop_goto (hpoint.resolve_right fun hne => hne hdestructor) (h.inLoop hdestructor)

/-- A task is counted, and has yet to be passed on. -/
theorem counts [DecidableEq κ] {t : ι ⊕ κ} (task : α) (ht : q.posting t = none) :
    Tracked { q with
      counter := q.counter.startTask
      posted := q.posted ++ [⟨q.posted.length, task⟩]
      posting := Function.update q.posting t (some ⟨q.posted.length, task⟩) } where
  numbered := by
    rw [List.map_append, h.numbered, List.length_append, List.length_singleton, List.range_succ]
    rfl
  posted := by
    rw [← Multiset.coe_add, h.posted, contents_put ht, Multiset.coe_singleton]
    abel
  begun := h.begun
  counter := by
    show q.counter.counter + UInt64.ofNat 1 + UInt64.ofNat (q.countEnded .returned) = _
    rw [List.length_append, List.length_singleton, UInt64.ofNat_add, ← h.counter]
    ac_rfl
  inLoop := h.inLoop

/-- A task that was counted begins to wait in `io_context_`. -/
theorem posts [DecidableEq κ] {t : ι ⊕ κ} {job : Job α} (ht : q.posting t = some job) :
    Tracked { q with
      posting := Function.update q.posting t none
      waiting := q.waiting ++ [job] } := by
  have hmoved : contents (Function.update q.posting t none) + (q.waiting ++ [job] : List (Job α)) =
      contents q.posting + q.waiting := by
    rw [← contents_take ht, ← Multiset.coe_add, Multiset.coe_singleton]
    abel
  refine ⟨h.numbered, ?_, h.begun, h.counter, h.inLoop⟩
  rw [hmoved]
  exact h.posted

/-- A thread begins to run a task. -/
theorem takes {i : ι} {n : ℕ} {job : Job α} (hi : q.threads i = .polling)
    (hn : q.waiting[n]? = some job) :
    Tracked ({ q with
      waiting := q.waiting.eraseIdx n
      begun := q.begun ++ [job] }.goto i (.running job)) := by
  have hrunning : (q.goto i (.running job)).running = q.running + {job} := by
    have hgoto := running_goto (q := q) i (.running job)
    rw [hi] at hgoto
    simpa [PoolPoint.job] using hgoto
  refine ⟨h.numbered, ?_, ?_, h.counter, ?_⟩
  · show (q.posted : Multiset (Job α)) = contents q.posting + (q.waiting.eraseIdx n) +
      (q.begun ++ [job] : List (Job α))
    rw [h.posted, ← waiting_eraseIdx hn, ← Multiset.coe_add, Multiset.coe_singleton]
    abel
  · show ((q.begun ++ [job] : List (Job α)) : Multiset (Job α)) =
      (q.goto i (.running job)).running + (q.ended.map Prod.fst : List (Job α))
    rw [hrunning, ← Multiset.coe_add, h.begun, Multiset.coe_singleton]
    abel
  · intro hdestructor
    exact inLoop_goto rfl (h.inLoop hdestructor)

/-- A task ends, and its thread goes on in the loop. -/
theorem ends {i : ι} {point : PoolPoint α} {job : Job α} {result : TaskEnd}
    {counter : CounterTasks} (hi : (q.threads i).job = some job) (hpoint : point.job = none)
    (hloop : point.inLoop = true)
    (hcounter : counter.counter + UInt64.ofNat (if result = .returned then 1 else 0) =
      q.counter.counter) :
    Tracked ({ q with counter, ended := q.ended ++ [(job, result)] }.goto i point) := by
  have hrunning : (q.goto i point).running + {job} = q.running := by
    have hgoto := running_goto (q := q) i point
    rw [hi, hpoint] at hgoto
    simpa using hgoto
  refine ⟨h.numbered, h.posted, ?_, ?_, ?_⟩
  · show (q.begun : Multiset (Job α)) = (q.goto i point).running +
      ((q.ended ++ [(job, result)]).map Prod.fst : List (Job α))
    rw [h.begun, ← hrunning, List.map_append, ← Multiset.coe_add]
    simp only [List.map_cons, List.map_nil, Multiset.coe_singleton]
    abel
  -- what is taken off the counter has returned
  · show counter.counter +
      UInt64.ofNat ((q.ended ++ [(job, result)]).countP fun e => e.2 = .returned) =
        UInt64.ofNat q.posted.length
    rw [List.countP_append, List.countP_singleton, UInt64.ofNat_add, ← h.counter, ← hcounter,
      countEnded]
    simp only [decide_eq_true_eq]
    ac_rfl
  · intro hdestructor
    exact inLoop_goto hloop (h.inLoop hdestructor)

omit [DecidableEq ι] in
theorem destroys {point : PoolDestructor} (hpoint : point ≠ .before) :
    Tracked { q with destructor := point } where
  numbered := h.numbered
  posted := h.posted
  begun := h.begun
  counter := h.counter
  inLoop hbefore := absurd hbefore hpoint

/-- Every step keeps track of the tasks. -/
theorem moves [DecidableEq κ] {l : ContextLabel ι κ α} (hmoves : q.Moves l t) : t.Tracked := by
  cases hmoves with
  | stays l _ => exact h
  | counts t task _ ht => exact h.counts task ht
  | posts t job ht => exact h.posts ht
  | takes i n job hi hn => exact h.takes hi hn
  | returns i job hi => exact h.goto (by rw [hi]; rfl) (.inl rfl)
  | throws i job hi _ =>
    exact h.ends (by rw [hi]; rfl) rfl rfl (UInt64.add_zero _)
  | uncounts i job hi =>
    exact h.ends (by rw [hi]; rfl) rfl rfl (UInt64.sub_add_cancel _ _)
  | retries i hi => exact h.goto (by rw [hi]; rfl) (.inl rfl)
  | leaves i hi hdestructor => exact h.goto (by rw [hi]; rfl) (.inr hdestructor)
  | destroys point hpoint => exact h.destroys hpoint

end Tracked

/-! ## Where the tasks are -/

namespace Tracked

variable (h : q.Tracked)
include h

theorem posted_nodup : q.posted.Nodup := by
  have hnumbers : (q.posted.map Job.number).Nodup := h.numbered ▸ List.nodup_range
  exact hnumbers.of_map _

/-- All that is posted waits, runs or has ended. -/
theorem posted_eq : (q.posted : Multiset (Job α)) =
    (contents q.posting + q.waiting) + (q.running + (q.ended.map Prod.fst : List (Job α))) := by
  rw [h.posted, h.begun]

theorem begun_nodup : q.begun.Nodup := by
  have hnodup := Multiset.coe_nodup.mpr h.posted_nodup
  rw [h.posted] at hnodup
  exact Multiset.coe_nodup.mp (Multiset.nodup_add.mp hnodup).2.1

/-- A task is at one place, and at no other. -/
theorem place {job : Job α} (hjob : job ∈ q.posted) : ∃! place, q.At job place := by
  have hnodup := Multiset.coe_nodup.mpr h.posted_nodup
  rw [h.posted_eq] at hnodup
  obtain ⟨-, hbegun, hdisjoint⟩ := Multiset.nodup_add.mp hnodup
  -- a task is posted once, so what waits, what runs and what has ended are disjoint
  have hwaiting (hjob : q.At job .waiting) :
      job ∉ q.running + (q.ended.map Prod.fst : List (Job α)) :=
    Multiset.disjoint_left.mp hdisjoint (mem_waiting.mpr hjob)
  have hrunning (hjob : q.At job .running) : ¬ q.At job .ended :=
    Multiset.disjoint_left.mp (Multiset.nodup_add.mp hbegun).2.2 (mem_running.mpr hjob)
  rw [Multiset.mem_add, mem_running, not_or] at hwaiting
  have hplace : q.At job .waiting ∨ q.At job .running ∨ q.At job .ended := by
    have hmem : job ∈ (q.posted : Multiset (Job α)) := hjob
    rw [h.posted_eq] at hmem
    rcases Multiset.mem_add.mp hmem with hat | hat
    · exact .inl (mem_waiting.mp hat)
    · exact .inr ((Multiset.mem_add.mp hat).imp_left mem_running.mp)
  rcases hplace with hat | hat | hat
  · refine ⟨.waiting, hat, ?_⟩
    intro place hother
    cases place with
    | waiting => rfl
    | running => exact absurd hother (hwaiting hat).1
    | ended => exact absurd hother (hwaiting hat).2
  · refine ⟨.running, hat, ?_⟩
    intro place hother
    cases place with
    | waiting => exact absurd hat (hwaiting hother).1
    | running => rfl
    | ended => exact absurd hother (hrunning hat)
  · refine ⟨.ended, hat, ?_⟩
    intro place hother
    cases place with
    | waiting => exact absurd hat (hwaiting hother).2
    | running => exact absurd hat (hrunning hother)
    | ended => rfl

/-- How many tasks are waiting or running. -/
theorem ncard_unended : {job | q.At job .waiting ∨ q.At job .running}.ncard = q.unended.card := by
  have hnodup := Multiset.coe_nodup.mpr h.posted_nodup
  rw [h.posted_eq, ← add_assoc] at hnodup
  have hunended : q.unended.Nodup := (Multiset.nodup_add.mp hnodup).1
  have hset : {job | q.At job .waiting ∨ q.At job .running} =
      ((⟨q.unended, hunended⟩ : Finset (Job α)) : Set (Job α)) := by
    ext job
    exact mem_unended.symm
  rw [hset, Set.ncard_coe_finset, Finset.card_mk]

/-- The counter is the number of tasks that are waiting, running, or have ended with an
exception. -/
theorem counter_eq :
    q.counter.counter = UInt64.ofNat (q.unended.card + q.countEnded .threw) := by
  have hended : q.ended.length = q.countEnded .returned + q.countEnded .threw := by
    rw [countEnded, countEnded, List.length_eq_countP_add_countP fun e => e.2 = .returned]
    congr 2
    funext e
    cases e.2 <;> rfl
  have hposted : q.posted.length =
      q.unended.card + q.countEnded .threw + q.countEnded .returned := by
    have hcard := congrArg Multiset.card h.posted_eq
    simp only [Multiset.coe_card, Multiset.card_add, List.length_map] at hcard
    simp only [unended, Multiset.card_add, Multiset.coe_card]
    omega
  -- both sides of the invariant count the tasks that have returned
  have hcounter := h.counter
  rw [hposted, UInt64.ofNat_add (_ + _)] at hcounter
  exact (UInt64.add_left_inj _).mp hcounter

/-- Before the destructor is called, only the exceptions make the counter wrong. -/
theorem accounts_iff_thrown (hdestructor : q.destructor = .before) :
    q.Accounts ↔ UInt64.ofNat (q.countEnded .threw) = 0 := by
  constructor
  · intro haccounts
    have hcounter := haccounts.counter
    rw [h.ncard_unended, h.counter_eq, UInt64.ofNat_add] at hcounter
    exact UInt64.add_eq_left.mp hcounter
  · intro hthrown
    refine ⟨fun _ => h.place, h.begun_nodup, h.inLoop hdestructor, ?_⟩
    rw [h.ncard_unended, h.counter_eq, UInt64.ofNat_add, hthrown, UInt64.add_zero]

end Tracked

section Runs

variable [DecidableEq ι] [DecidableEq κ]

omit [Fintype ι] [Fintype κ] in
/-- A task that throws makes the counter wrong, and nothing else does. -/
theorem Moves.noneThrown_iff {l : ContextLabel ι κ α} (hmoves : q.Moves l t)
    (hnone : q.NoneThrown) : t.NoneThrown ↔ q.ReturnsNormally l := by
  cases hmoves with
  | stays l hl =>
    refine iff_of_true hnone ?_
    cases l with
    | ended i result =>
      cases result with
      | returned => trivial
      | threw => exact fun _ => hl i rfl
    | _ => trivial
  | counts t task _ ht => exact iff_of_true hnone trivial
  | posts t job ht => exact iff_of_true hnone trivial
  | takes i n job hi hn => exact iff_of_true hnone trivial
  | returns i job hi => exact iff_of_true hnone trivial
  | throws i job hi hposting =>
    have hcount : ({ q with
        ended := q.ended ++ [(job, TaskEnd.threw)] }.goto i .catching).countEnded .threw =
          q.countEnded .threw + 1 := by
      simp [countEnded, goto]
    have hin : q.InTask i := ⟨job, hi, hposting⟩
    rw [NoneThrown, hcount, UInt64.ofNat_add]
    -- in `UInt64` a number and its successor are not both zero
    constructor
    · intro hright hdestructor
      have hone := hright hdestructor
      rw [hnone hdestructor] at hone
      exact absurd hone (by decide)
    · intro hok hdestructor
      exact absurd hin (hok hdestructor)
  | uncounts i job hi =>
    refine iff_of_true ?_ trivial
    -- a task that has returned is not one of those that threw
    have hcount : ({ q with
        counter := q.counter.endTask
        ended := q.ended ++ [(job, TaskEnd.returned)] }.goto i .polling).countEnded .threw =
          q.countEnded .threw := by
      simp [countEnded, goto]
    rw [NoneThrown, hcount]
    exact hnone
  | retries i hi => exact iff_of_true hnone trivial
  | leaves i hi hdestructor => exact iff_of_true hnone trivial
  | destroys point hpoint => exact iff_of_true (fun hbefore => absurd hbefore hpoint) trivial

theorem tracked_foldl (labels : List (ContextLabel ι κ α)) :
    (labels.foldl step (start : AsyncContext ι κ α)).Tracked :=
  List.foldlRecOn labels step tracked_start fun q h l _ => h.moves (q.step_moves l)

/-- Before the destructor is called, every task is at one place and the counter is right in every
state of a run exactly when no task has ended with an exception. -/
theorem accounts_iff (labels : List (ContextLabel ι κ α)) :
    (∀ before, before <+: labels →
        (before.foldl step start).destructor = .before → (before.foldl step start).Accounts) ↔
      Along step ReturnsNormally start labels := by
  have hnone : (∀ before, before <+: labels → (before.foldl step start).NoneThrown) ↔
      Along step ReturnsNormally start labels := by
    apply forall_prefix_iff_along (J := Tracked) (I := NoneThrown)
    · intro q l h
      exact h.moves (q.step_moves l)
    · intro q l _ hnone
      exact (q.step_moves l).noneThrown_iff hnone
    · exact tracked_start
    · exact fun _ => rfl
  rw [← hnone]
  refine forall_congr' fun before => imp_congr_right fun _ => ?_
  exact imp_congr_right fun hdestructor => (tracked_foldl before).accounts_iff_thrown hdestructor

end Runs

/-- A task is posted, taken by a thread, and throws. -/
def taskThrows (i : ι) : List (ContextLabel ι Unit String) :=
  [.runAsync (.inr ()) "task", .post (.inr ()), .takes i 0, .ended i .threw]

theorem not_accounts_taskThrows :
    let q := (taskThrows (0 : Fin 4)).foldl step start
    q.destructor = .before ∧ ¬ q.Accounts ∧ q.unended.card = 0 ∧ q.counter.counter = 1 := by
  intro q
  have hcounter : q.counter.counter = 1 := by decide
  have hunended : q.unended.card = 0 := by decide
  refine ⟨by decide, ?_, hunended, hcounter⟩
  intro haccounts
  have hzero := haccounts.counter
  rw [(tracked_foldl (taskThrows 0)).ncard_unended, hcounter, hunended] at hzero
  exact absurd hzero (by decide)

end Tasks

end AsyncContext

end GatewayServer
