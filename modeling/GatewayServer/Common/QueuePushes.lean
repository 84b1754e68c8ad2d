import GatewayServer.Common.ThreadSafeQueue
import GatewayServer.Lib.Places

/-!
# The calls of push

Every call of `ThreadSafeQueue::push` puts its task into the queue once: until it does, the task is
in the hands of the thread that called.

## Main definitions

* `PusherPoint.task` — the task of a call, before it is in the queue
* `ThreadSafeQueue.pushed` — the tasks of all calls

## Main results

* `ThreadSafeQueue.pushed_step` — only a call adds to them
-/

namespace GatewayServer

open Lib

variable {ι κ α : Type}

namespace PusherPoint

/-- The task of a thread that has not put it into the queue yet. -/
def task : PusherPoint α → Option α
  | .locking task | .inserting task => some task
  | _ => none

/-- A thread is not in `push`. -/
def isIdle : PusherPoint α → Bool
  | .idle => true
  | _ => false

end PusherPoint

namespace ThreadSafeQueue

variable [Fintype κ]

/-- The tasks that `push` was called with, in the queue or on the way to it. -/
def pushed (q : ThreadSafeQueue ι κ α) : Multiset α :=
  contents (fun k => (q.pushers k).task) + (q.tasks.posted.map Job.data : Multiset α)

variable {q t : ThreadSafeQueue ι κ α}

theorem pushed_of_same (hpushers : t.pushers = q.pushers)
    (hposted : t.tasks.posted = q.tasks.posted) : t.pushed = q.pushed := by
  rw [pushed, pushed, hpushers, hposted]

theorem pushed_workerMove [DecidableEq ι] {i : ι} (hmove : q.WorkerMove i t) :
    t.pushed = q.pushed := by
  cases hmove with
  | takes task rest hi hqueue => exact pushed_of_same rfl WorkQueue.posted_take
  | _ => exact pushed_of_same rfl rfl

section Pushers

variable [DecidableEq κ] {k : κ} {point : PusherPoint α}

/-- A thread goes on, with the task that it has. -/
theorem pushed_pusherGoto (hpoint : point.task = (q.pushers k).task) :
    (q.pusherGoto k point).pushed = q.pushed := by
  have hsame : (fun j => ((q.pusherGoto k point).pushers j).task) =
      fun j => (q.pushers j).task := by
    funext j
    by_cases hj : j = k
    · rw [hj, pushers_pusherGoto_self, hpoint]
    · rw [pushers_pusherGoto_of_ne hj]
  rw [pushed, pushed, hsame]
  rfl

omit [Fintype κ] in
theorem tasks_pusherGoto (q : ThreadSafeQueue ι κ α) (k : κ) (point : PusherPoint α) :
    (fun j => ((q.pusherGoto k point).pushers j).task) =
      Function.update (fun j => (q.pushers j).task) k point.task := by
  funext j
  by_cases hj : j = k
  · rw [hj, pushers_pusherGoto_self, Function.update_self]
  · rw [pushers_pusherGoto_of_ne hj, Function.update_of_ne hj]

/-- A thread calls `push`. -/
theorem pushed_call (hk : q.pushers k = .idle) (task : α) :
    (q.pusherGoto k (.locking task)).pushed = q.pushed + {task} := by
  have hnone : (q.pushers k).task = none := by rw [hk]; rfl
  have hcontents := contents_put (b := task) (f := fun j => (q.pushers j).task) hnone
  rw [pushed, tasks_pusherGoto]
  show contents (Function.update (fun j => (q.pushers j).task) k (some task)) + _ = _
  rw [hcontents, add_right_comm]
  rfl

/-- A task that was in the hands of a thread is in the queue. -/
theorem pushed_insert {task : α} (hk : q.pushers k = .inserting task) :
    ({ q with tasks := q.tasks.post task }.pusherGoto k .notifying).pushed = q.pushed := by
  have hsome : (q.pushers k).task = some task := by rw [hk]; rfl
  have hcontents := contents_take (f := fun j => (q.pushers j).task) hsome
  rw [pushed, pushed, tasks_pusherGoto, ← hcontents]
  show contents (Function.update (fun j => (q.pushers j).task) k none) +
    ((q.tasks.post task).posted.map Job.data : Multiset α) = _
  rw [WorkQueue.posted_post, List.map_append, ← Multiset.coe_add, add_comm (Multiset.ofList _),
    ← add_assoc]
  rfl

variable [DecidableEq ι] [Fintype ι]

/-- Only a call of `push` by a thread that is in none adds to the tasks. -/
theorem pushed_step (q : ThreadSafeQueue ι κ α) (l : QueueLabel ι κ α) :
    (q.step l).pushed = q.pushed +
      match l with
      | .push k task => if (q.pushers k).isIdle then {task} else 0
      | _ => 0 := by
  cases l with
  | push k task =>
    cases hk : q.pushers k with
    | idle =>
      simp only [step, callPush, hk, PusherPoint.isIdle, if_true]
      exact pushed_call hk task
    | _ => simp [step, callPush, hk, PusherPoint.isIdle]
  | pusher k =>
    rw [add_zero, step, pushStep]
    cases hk : q.pushers k with
    | idle => rfl
    | locking task =>
      cases hmutex : q.mutex with
      | none => exact pushed_pusherGoto (by rw [hk]; rfl)
      | some _ => rfl
    -- the task goes from the thread into the queue
    | inserting task => exact pushed_insert hk
    | notifying => rfl
    | unlocking => exact pushed_pusherGoto (by rw [hk]; rfl)
  | notify k woken =>
    rw [add_zero, step]
    rcases q.notifyOne_cases k woken with hsame | ⟨hk, ⟨i, -, heq⟩ | ⟨-, heq⟩⟩
    · rw [hsame]
    · rw [heq, pushed_pusherGoto (by rw [goto, hk]; rfl)]
      rfl
    · rw [heq]
      exact pushed_pusherGoto (by rw [hk]; rfl)
  | worker i => exact (pushed_workerMove (q.work_move i)).trans (add_zero _).symm
  | ended i result => exact (pushed_workerMove (q.endTask_move i result)).trans (add_zero _).symm
  | spurious i => exact (pushed_workerMove (q.wake_move i)).trans (add_zero _).symm
  | destroy =>
    rw [add_zero, step, destroy]
    cases q.destructor with
    | joining =>
      dsimp only
      split <;> rfl
    | _ => rfl

end Pushers

end ThreadSafeQueue

end GatewayServer
