import GatewayServer.Common.ThreadSafeQueue
import GatewayServer.Lib.Places
import Mathlib.Data.Fintype.Sum

/-!
# The context and its pool

`AsyncContext` with the `WorkersPool` that it owns: any number of threads run `runThread`, and
tasks are posted by other threads and by the tasks themselves. Of `io_context` it is only used that
each handler is run by one call of `run`, in whichever order, and that an exception leaves `run`
with the other handlers still waiting.

## Main definitions

* `CounterTasks` — the tasks that have been counted and have not been taken off
* `PoolPoint`, `PoolDestructor` — where a thread of the pool and the destructor stand
* `AsyncContext`, `AsyncContext.step` — the pool with its threads, and what happens around it
* `AsyncContext.Moves` — all that can happen

## Main results

* `step_moves` — nothing else happens
-/

namespace GatewayServer

open Lib

/-- `CounterTasks`. -/
structure CounterTasks where
  counter : UInt64
  deriving DecidableEq, Repr

namespace CounterTasks

def startTask (c : CounterTasks) : CounterTasks := ⟨c.counter + 1⟩

def endTask (c : CounterTasks) : CounterTasks := ⟨c.counter - 1⟩

end CounterTasks

/-- Where a thread stands in `runThread`. -/
inductive PoolPoint (α : Type) where
  /-- In `io_context_.run()`, without a task. -/
  | polling
  /-- In `Func()`. -/
  | running (job : Job α)
  /-- Back from `Func()`, before `counter_.endTask()`. -/
  | ending (job : Job α)
  /-- In the `catch`, with the exception of a task. -/
  | catching
  /-- Out of the loop. -/
  | left

namespace PoolPoint

variable {α : Type}

/-- The task whose handler a thread runs. -/
def job : PoolPoint α → Option (Job α)
  | .running job | .ending job => some job
  | _ => none

/-- The points of the loop. -/
def inLoop : PoolPoint α → Bool
  | .left => false
  | _ => true

end PoolPoint

/-- Where the destructor of the pool stands. -/
inductive PoolDestructor where
  /-- It has not been called. -/
  | before
  /-- `work_` is reset. -/
  | stopping
  /-- `io_context_.stop()` has been called. -/
  | joining
  | joined
  deriving DecidableEq, Repr

/-- An `AsyncContext` whose pool has the threads `ι`, with other threads `κ` and tasks `α`. -/
structure AsyncContext (ι κ α : Type) where
  /-- All tasks that have been passed to `WorkersPool::post`. -/
  posted : List (Job α)
  /-- The tasks that a thread has counted and not yet passed to `io_context_.post`. -/
  posting : ι ⊕ κ → Option (Job α)
  /-- The handlers in `io_context_`. -/
  waiting : List (Job α)
  threads : ι → PoolPoint α
  /-- The tasks that threads have begun to run. -/
  begun : List (Job α)
  ended : List (Job α × TaskEnd)
  counter : CounterTasks
  destructor : PoolDestructor

/-- What happens around the pool. -/
inductive ContextLabel (ι κ α : Type) where
  /-- A thread calls `runAsync`, from outside or in a task, and counts the task. -/
  | runAsync (t : ι ⊕ κ) (task : α)
  /-- It passes the task to `io_context_.post`. -/
  | post (t : ι ⊕ κ)
  /-- `run` in a thread goes on to one of the handlers. -/
  | takes (i : ι) (n : ℕ)
  /-- The task of a thread ends. -/
  | ended (i : ι) (result : TaskEnd)
  /-- A thread takes its next step outside of a task. -/
  | thread (i : ι)
  /-- The destructor takes its next step. -/
  | destroy
  deriving DecidableEq, Repr

namespace AsyncContext

variable {ι κ α : Type}

/-- A pool whose threads have just been started. -/
def start : AsyncContext ι κ α where
  posted := []
  posting _ := none
  waiting := []
  threads _ := .polling
  begun := []
  ended := []
  counter := ⟨0⟩
  destructor := .before

/-- `io_context_.stop()` has been called. -/
def stopped (q : AsyncContext ι κ α) : Bool :=
  match q.destructor with
  | .before | .stopping => false
  | .joining | .joined => true

/-- A thread of the pool posts in a task, and every other thread when it wants to. -/
def canPost (q : AsyncContext ι κ α) : ι ⊕ κ → Bool
  | .inl i =>
    match q.threads i with
    | .running _ => true
    | _ => false
  | .inr _ => true

section Steps

variable [DecidableEq ι]

/-- A thread goes to another point. -/
def goto (q : AsyncContext ι κ α) (i : ι) (point : PoolPoint α) : AsyncContext ι κ α :=
  { q with threads := Function.update q.threads i point }

/-- A thread of the pool begins with a handler that waits. -/
def takeTask (q : AsyncContext ι κ α) (i : ι) (n : ℕ) : AsyncContext ι κ α :=
  match q.threads i, q.waiting[n]? with
  | .polling, some job =>
    -- a context that is stopped runs no more handlers
    if q.stopped then q
    else { q with waiting := q.waiting.eraseIdx n, begun := q.begun ++ [job] }.goto i (.running job)
  | _, _ => q

/-- `Func()` ends. When it throws, the exception leaves the handler and `run`, and `endTask` is not
called. -/
def endTask (q : AsyncContext ι κ α) (i : ι) (result : TaskEnd) : AsyncContext ι κ α :=
  match q.threads i, q.posting (.inl i) with
  | .running job, none =>
    match result with
    | .returned => q.goto i (.ending job)
    | .threw => { q with ended := q.ended ++ [(job, TaskEnd.threw)] }.goto i .catching
  | _, _ => q

variable [Fintype ι]

/-- `run` returns when the context is stopped, and also without `work_` when there is nothing left
to do. -/
def runReturns (q : AsyncContext ι κ α) : Bool :=
  q.stopped || q.destructor ≠ .before && q.waiting.isEmpty && decide (∀ i, (q.threads i).job.isNone)

/-- A thread takes a step of `runThread`. -/
def threadStep (q : AsyncContext ι κ α) (i : ι) : AsyncContext ι κ α :=
  match q.threads i with
  | .polling => if q.runReturns then q.goto i .left else q
  | .running _ => q
  | .ending job =>
    { q with
      counter := q.counter.endTask
      ended := q.ended ++ [(job, TaskEnd.returned)] }.goto i .polling
  -- the loop calls `run` again
  | .catching => q.goto i .polling
  | .left => q

variable [DecidableEq κ]

/-- `runAsync` up to `counter_.startTask()`. Once the context is being destroyed, `weakCtx.lock()`
does not find it. -/
def runAsync (q : AsyncContext ι κ α) (t : ι ⊕ κ) (task : α) : AsyncContext ι κ α :=
  if q.destructor = .before ∧ q.canPost t ∧ (q.posting t).isNone then
    { q with
      counter := q.counter.startTask
      posted := q.posted ++ [⟨q.posted.length, task⟩]
      posting := Function.update q.posting t (some ⟨q.posted.length, task⟩) }
  else q

/-- The handler of a task is passed to `io_context_.post`. -/
def post (q : AsyncContext ι κ α) (t : ι ⊕ κ) : AsyncContext ι κ α :=
  match q.posting t with
  | none => q
  | some job =>
    { q with
      posting := Function.update q.posting t none
      waiting := q.waiting ++ [job] }

variable [Fintype κ]

/-- The destructor takes a step. It is called when no `runAsync` has the context any more. -/
def destroy (q : AsyncContext ι κ α) : AsyncContext ι κ α :=
  match q.destructor with
  | .before => if ∀ t, (q.posting t).isNone then { q with destructor := .stopping } else q
  | .stopping => { q with destructor := .joining }
  | .joining =>
    if ∀ i, (q.threads i).inLoop = false then { q with destructor := .joined } else q
  | .joined => q

def step (q : AsyncContext ι κ α) : ContextLabel ι κ α → AsyncContext ι κ α
  | .runAsync t task => q.runAsync t task
  | .post t => q.post t
  | .takes i n => q.takeTask i n
  | .ended i result => q.endTask i result
  | .thread i => q.threadStep i
  | .destroy => q.destroy

end Steps

/-! ## All that can happen -/

/-- A thread is in a task, and not in a `runAsync` of it. -/
def InTask (q : AsyncContext ι κ α) (i : ι) : Prop :=
  ∃ job, q.threads i = .running job ∧ q.posting (.inl i) = none

/-- What a step can do. -/
inductive Moves [DecidableEq ι] [DecidableEq κ] (q : AsyncContext ι κ α) :
    ContextLabel ι κ α → AsyncContext ι κ α → Prop
  | stays (l : ContextLabel ι κ α) (hl : ∀ i, l = .ended i .threw → ¬ q.InTask i) : Moves q l q
  | counts (t : ι ⊕ κ) (task : α) (hdestructor : q.destructor = .before)
      (ht : q.posting t = none) :
      Moves q (.runAsync t task)
        { q with
          counter := q.counter.startTask
          posted := q.posted ++ [⟨q.posted.length, task⟩]
          posting := Function.update q.posting t (some ⟨q.posted.length, task⟩) }
  | posts (t : ι ⊕ κ) (job : Job α) (ht : q.posting t = some job) :
      Moves q (.post t)
        { q with
          posting := Function.update q.posting t none
          waiting := q.waiting ++ [job] }
  | takes (i : ι) (n : ℕ) (job : Job α) (hi : q.threads i = .polling)
      (hn : q.waiting[n]? = some job) :
      Moves q (.takes i n)
        ({ q with
          waiting := q.waiting.eraseIdx n
          begun := q.begun ++ [job] }.goto i (.running job))
  | returns (i : ι) (job : Job α) (hi : q.threads i = .running job) :
      Moves q (.ended i .returned) (q.goto i (.ending job))
  | throws (i : ι) (job : Job α) (hi : q.threads i = .running job)
      (hposting : q.posting (.inl i) = none) :
      Moves q (.ended i .threw)
        ({ q with ended := q.ended ++ [(job, TaskEnd.threw)] }.goto i .catching)
  | uncounts (i : ι) (job : Job α) (hi : q.threads i = .ending job) :
      Moves q (.thread i)
        ({ q with
          counter := q.counter.endTask
          ended := q.ended ++ [(job, TaskEnd.returned)] }.goto i .polling)
  | retries (i : ι) (hi : q.threads i = .catching) : Moves q (.thread i) (q.goto i .polling)
  | leaves (i : ι) (hi : q.threads i = .polling) (hdestructor : q.destructor ≠ .before) :
      Moves q (.thread i) (q.goto i .left)
  | destroys (point : PoolDestructor) (hpoint : point ≠ .before) :
      Moves q .destroy { q with destructor := point }

section Moves

variable [DecidableEq ι] [DecidableEq κ] (q : AsyncContext ι κ α)

theorem runAsync_moves (t : ι ⊕ κ) (task : α) :
    q.Moves (.runAsync t task) (q.runAsync t task) := by
  unfold runAsync
  split
  · next hpost =>
    obtain ⟨hdestructor, -, ht⟩ := hpost
    exact .counts t task hdestructor (Option.isNone_iff_eq_none.mp ht)
  · exact .stays _ (by simp)

theorem post_moves (t : ι ⊕ κ) : q.Moves (.post t) (q.post t) := by
  unfold post
  cases ht : q.posting t with
  | none => exact .stays _ (by simp)
  | some job => exact .posts t job ht

theorem takeTask_moves (i : ι) (n : ℕ) : q.Moves (.takes i n) (q.takeTask i n) := by
  unfold takeTask
  split
  · next job hi hn =>
    split
    · exact .stays _ (by simp)
    · exact .takes i n job hi hn
  · exact .stays _ (by simp)

theorem endTask_moves (i : ι) (result : TaskEnd) :
    q.Moves (.ended i result) (q.endTask i result) := by
  unfold endTask
  split
  · next job hi hposting =>
    cases result with
    | returned => exact .returns i job hi
    | threw => exact .throws i job hi hposting
  · next hno =>
    refine .stays _ ?_
    rintro j hj ⟨job, hi, hposting⟩
    obtain ⟨rfl, -⟩ := ContextLabel.ended.inj hj
    exact hno job hi hposting

variable [Fintype ι]

theorem threadStep_moves (i : ι) : q.Moves (.thread i) (q.threadStep i) := by
  unfold threadStep
  cases hi : q.threads i with
  | polling =>
    simp only []
    split
    · next hreturns =>
      refine .leaves i hi ?_
      -- with `work_` and without `stop`, `run` does not return
      intro hdestructor
      simp [runReturns, stopped, hdestructor] at hreturns
    · exact .stays _ (by simp)
  | running job => exact .stays _ (by simp)
  | ending job => exact .uncounts i job hi
  | catching => exact .retries i hi
  | left => exact .stays _ (by simp)

theorem destroy_moves [Fintype κ] : q.Moves .destroy q.destroy := by
  unfold destroy
  cases q.destructor with
  | before =>
    simp only []
    split
    · exact .destroys .stopping (by simp)
    · exact .stays _ (by simp)
  | stopping => exact .destroys .joining (by simp)
  | joining =>
    simp only []
    split
    · exact .destroys .joined (by simp)
    · exact .stays _ (by simp)
  | joined => exact .stays _ (by simp)

theorem step_moves [Fintype κ] (l : ContextLabel ι κ α) : q.Moves l (q.step l) := by
  cases l with
  | runAsync t task => exact q.runAsync_moves t task
  | post t => exact q.post_moves t
  | takes i n => exact q.takeTask_moves i n
  | ended i result => exact q.endTask_moves i result
  | thread i => exact q.threadStep_moves i
  | destroy => exact q.destroy_moves

end Moves

/-! ## A thread at another point -/

section Goto

variable [DecidableEq ι] {q : AsyncContext ι κ α} {i j : ι} {point : PoolPoint α}

theorem threads_goto_self : (q.goto i point).threads i = point := Function.update_self ..

theorem threads_goto_of_ne (hj : j ≠ i) : (q.goto i point).threads j = q.threads j :=
  Function.update_of_ne hj ..

theorem inLoop_goto (hpoint : point.inLoop = true) (hall : ∀ j, (q.threads j).inLoop = true)
    (j : ι) : ((q.goto i point).threads j).inLoop = true := by
  by_cases hj : j = i
  · rw [hj, threads_goto_self]
    exact hpoint
  · rw [threads_goto_of_ne hj]
    exact hall j

end Goto

end AsyncContext

end GatewayServer
