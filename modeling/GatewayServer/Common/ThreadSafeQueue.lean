import GatewayServer.Lib.WorkQueue
import Mathlib.Data.Fintype.Basic

/-!
# The thread-safe queue

`ThreadSafeQueue`: any number of workers take tasks from a queue, any number of threads push tasks
to it, and a condition variable lets workers sleep while there are none. One step is what a thread
does at once: it takes or leaves `cv_mutex_`, evaluates the predicate of `cv_.wait`, releases the
mutex and blocks, works on the queue, or sends a notification. What a task does is left open; it
returns, or it throws.

## Main definitions

* `WorkerPoint`, `PusherPoint`, `DestructorPoint` — where a thread stands
* `ThreadSafeQueue`, `ThreadSafeQueue.step` — the queue with its threads, and what happens around it
* `ThreadSafeQueue.WorkerMove`, `ThreadSafeQueue.PusherMove` — all that a worker or a pusher can do

## Main results

* `work_move`, `endTask_move`, `wake_move`, `callPush_move`, `pushStep_move` — they do nothing else
* `notifyOne_cases` — a notification wakes a worker, or there is none to wake
-/

namespace GatewayServer

open Lib

/-- Where a worker stands in `worker`. -/
inductive WorkerPoint where
  /-- At `while(!quit_)`. -/
  | head
  /-- Before it has `cv_mutex_`. -/
  | locking
  /-- In `cv_.wait` with the mutex, before the predicate is evaluated. -/
  | checking
  /-- In `cv_.wait` with the mutex, after the predicate was false. -/
  | blocking
  /-- In `cv_.wait`, without the mutex and without a notification. -/
  | blocked
  /-- In `cv_.wait`, awake and without the mutex. -/
  | woken
  /-- After `cv_.wait`, with the mutex. -/
  | taking
  /-- With the mutex and a task. -/
  | unlocking
  /-- In `task()`. -/
  | running
  /-- After the loop, before it has the mutex once more. -/
  | leaving
  /-- After the loop, with the mutex. -/
  | closing
  | finished
  deriving DecidableEq, Repr

/-- The points at which a worker has `cv_mutex_`. -/
def WorkerPoint.locked : WorkerPoint → Bool
  | .checking | .blocking | .taking | .unlocking | .closing => true
  | _ => false

/-- The points of the loop. -/
def WorkerPoint.inLoop : WorkerPoint → Bool
  | .leaving | .closing | .finished => false
  | _ => true

/-- Where a thread stands in `push`. -/
inductive PusherPoint (α : Type) where
  | idle
  /-- Before it has `cv_mutex_`. -/
  | locking (task : α)
  /-- With the mutex, before `queueTasks_.push`. -/
  | inserting (task : α)
  /-- With the mutex, before `cv_.notify_one`. -/
  | notifying
  /-- With the mutex, at the end of `push`. -/
  | unlocking

/-- The points at which a pusher has `cv_mutex_`. -/
def PusherPoint.locked {α : Type} : PusherPoint α → Bool
  | .idle | .locking _ => false
  | _ => true

/-- Where the destructor stands. -/
inductive DestructorPoint where
  /-- It has not been called. -/
  | before
  /-- `quit_` is set. -/
  | notifying
  /-- `cv_.notify_all` has been called. -/
  | joining
  | joined
  deriving DecidableEq, Repr

/-- How a task ends. -/
inductive TaskEnd where
  | returned
  /-- With a `std::exception`. -/
  | threw
  deriving DecidableEq, Repr

/-- The `catch` after a task: in both cases a line is logged, and the loop goes on. -/
def TaskEnd.next : TaskEnd → WorkerPoint
  | .returned => .head
  | .threw => .head

/-- A `ThreadSafeQueue` with its workers `ι`, the threads `κ` that push, and tasks `α`. -/
structure ThreadSafeQueue (ι κ α : Type) where
  /-- `queueTasks_`, and the tasks in the workers' hands. -/
  tasks : WorkQueue ι α
  /-- The tasks that workers have taken, in the order of taking. -/
  taken : List (Job α)
  /-- The owner of `cv_mutex_`. -/
  mutex : Option (ι ⊕ κ)
  quit : Bool
  workers : ι → WorkerPoint
  pushers : κ → PusherPoint α
  destructor : DestructorPoint

/-- What happens around the queue. -/
inductive QueueLabel (ι κ α : Type) where
  /-- A thread calls `push`. -/
  | push (k : κ) (task : α)
  /-- A thread takes its next step in `push`, other than to notify. -/
  | pusher (k : κ)
  /-- A thread notifies, and one of the blocked workers, if there are any, is woken. -/
  | notify (k : κ) (woken : Option ι)
  /-- A worker takes its next step, other than in a task. -/
  | worker (i : ι)
  /-- The task of a worker ends. -/
  | ended (i : ι) (result : TaskEnd)
  /-- A worker wakes without a notification. -/
  | spurious (i : ι)
  /-- The destructor takes its next step. -/
  | destroy
  deriving DecidableEq, Repr

namespace ThreadSafeQueue

variable {ι κ α : Type}

/-- A queue whose workers have just been started; `quit_` has been false since it was made. -/
def start : ThreadSafeQueue ι κ α where
  tasks := .empty
  taken := []
  mutex := none
  quit := false
  workers _ := .head
  pushers _ := .idle
  destructor := .before

/-- A thread that has the mutex. -/
def Inside (q : ThreadSafeQueue ι κ α) : ι ⊕ κ → Prop
  | .inl i => (q.workers i).locked = true
  | .inr k => (q.pushers k).locked = true

section Steps

variable [DecidableEq ι] [DecidableEq κ]

/-- A worker goes to another point. -/
def goto (q : ThreadSafeQueue ι κ α) (i : ι) (point : WorkerPoint) : ThreadSafeQueue ι κ α :=
  { q with workers := Function.update q.workers i point }

/-- A thread that pushes goes to another point. -/
def pusherGoto (q : ThreadSafeQueue ι κ α) (k : κ) (point : PusherPoint α) :
    ThreadSafeQueue ι κ α :=
  { q with pushers := Function.update q.pushers k point }

/-- A worker takes a step of `worker`. -/
def work (q : ThreadSafeQueue ι κ α) (i : ι) : ThreadSafeQueue ι κ α :=
  match q.workers i with
  | .head => q.goto i (if q.quit then .leaving else .locking)
  | .locking =>
    match q.mutex with
    | none => { q with mutex := some (.inl i) }.goto i .checking
    | some _ => q
  | .checking =>
    -- the predicate is `!queueTasks_.empty() || quit_`
    q.goto i (if !q.tasks.queue.isEmpty || q.quit then .taking else .blocking)
  | .blocking => { q with mutex := none }.goto i .blocked
  | .blocked => q
  | .woken =>
    match q.mutex with
    | none => { q with mutex := some (.inl i) }.goto i .checking
    | some _ => q
  | .taking =>
    match q.tasks.queue with
    | [] => { q with mutex := none }.goto i .head
    | task :: _ =>
      { q with tasks := q.tasks.take i, taken := q.taken ++ [task] }.goto i .unlocking
  | .unlocking => { q with mutex := none }.goto i .running
  | .running => q
  | .leaving =>
    match q.mutex with
    | none => { q with mutex := some (.inl i) }.goto i .closing
    | some _ => q
  | .closing => { q with mutex := none }.goto i .finished
  | .finished => q

/-- A thread takes a step of `push`. -/
def pushStep (q : ThreadSafeQueue ι κ α) (k : κ) : ThreadSafeQueue ι κ α :=
  match q.pushers k with
  | .idle => q
  | .locking task =>
    match q.mutex with
    | none => { q with mutex := some (.inr k) }.pusherGoto k (.inserting task)
    | some _ => q
  | .inserting task => { q with tasks := q.tasks.post task }.pusherGoto k .notifying
  | .notifying => q
  | .unlocking => { q with mutex := none }.pusherGoto k .idle

/-- A thread calls `push`. -/
def callPush (q : ThreadSafeQueue ι κ α) (k : κ) (task : α) : ThreadSafeQueue ι κ α :=
  match q.pushers k with
  | .idle => q.pusherGoto k (.locking task)
  | _ => q

/-- The task of a worker ends. -/
def endTask (q : ThreadSafeQueue ι κ α) (i : ι) (result : TaskEnd) : ThreadSafeQueue ι κ α :=
  match q.workers i with
  | .running => { q with tasks := q.tasks.release i }.goto i result.next
  | _ => q

/-- A blocked worker wakes. -/
def wake (q : ThreadSafeQueue ι κ α) (i : ι) : ThreadSafeQueue ι κ α :=
  match q.workers i with
  | .blocked => q.goto i .woken
  | _ => q

variable [Fintype ι]

/-- `notify`: one blocked worker is woken, if there is one. -/
def notifyOne (q : ThreadSafeQueue ι κ α) (k : κ) (woken : Option ι) : ThreadSafeQueue ι κ α :=
  match q.pushers k with
  | .notifying =>
    match woken with
    | some i =>
      if q.workers i = .blocked then (q.goto i .woken).pusherGoto k .unlocking else q
    | none => if ∀ i, q.workers i ≠ .blocked then q.pusherGoto k .unlocking else q
  | _ => q

/-- The destructor takes a step. -/
def destroy (q : ThreadSafeQueue ι κ α) : ThreadSafeQueue ι κ α :=
  match q.destructor with
  | .before => { q with quit := true, destructor := .notifying }
  | .notifying =>
    { q with
      workers := fun i => if q.workers i = .blocked then .woken else q.workers i
      destructor := .joining }
  | .joining =>
    if ∀ i, q.workers i = .finished then { q with destructor := .joined } else q
  | .joined => q

def step (q : ThreadSafeQueue ι κ α) : QueueLabel ι κ α → ThreadSafeQueue ι κ α
  | .push k task => q.callPush k task
  | .pusher k => q.pushStep k
  | .notify k woken => q.notifyOne k woken
  | .worker i => q.work i
  | .ended i result => q.endTask i result
  | .spurious i => q.wake i
  | .destroy => q.destroy

end Steps

/-! ## All that a thread can do -/

section Workers

variable [DecidableEq ι]

/-- What a worker can do: go on with the mutex as it is, get the mutex, give it up, take a task, or
end one. -/
inductive WorkerMove (q : ThreadSafeQueue ι κ α) (i : ι) : ThreadSafeQueue ι κ α → Prop
  | stays : WorkerMove q i q
  | goes (point : WorkerPoint) (hlocked : point.locked = (q.workers i).locked)
      (hblocking : point = .blocking → q.tasks.queue = []) (hawake : point ≠ .blocked)
      (hleave : point.inLoop = false → q.quit = true ∨ (q.workers i).inLoop = false) :
      WorkerMove q i (q.goto i point)
  | locks (point : WorkerPoint) (hfree : q.mutex = none) (hlocked : point.locked = true)
      (hblocking : point ≠ .blocking) (hloop : point.inLoop = (q.workers i).inLoop) :
      WorkerMove q i ({ q with mutex := some (.inl i) }.goto i point)
  | unlocks (point : WorkerPoint) (hi : (q.workers i).locked = true)
      (hlocked : point.locked = false)
      (hblocked : point = .blocked → q.workers i = .blocking)
      (hloop : point.inLoop = (q.workers i).inLoop) :
      WorkerMove q i ({ q with mutex := none }.goto i point)
  | takes (task : Job α) (rest : List (Job α)) (hi : q.workers i = .taking)
      (hqueue : q.tasks.queue = task :: rest) :
      WorkerMove q i
        ({ q with tasks := q.tasks.take i, taken := q.taken ++ [task] }.goto i .unlocking)
  | ends (hi : q.workers i = .running) :
      WorkerMove q i ({ q with tasks := q.tasks.release i }.goto i .head)

theorem work_move (q : ThreadSafeQueue ι κ α) (i : ι) : q.WorkerMove i (q.work i) := by
  unfold work
  cases hi : q.workers i with
  | head =>
    cases hquit : q.quit with
    | false =>
      exact .goes .locking (by rw [hi]; rfl) (by simp) (by simp) (by simp [WorkerPoint.inLoop])
    | true => exact .goes .leaving (by rw [hi]; rfl) (by simp) (by simp) fun _ => .inl hquit
  | locking =>
    cases hmutex : q.mutex with
    | none => exact .locks .checking hmutex rfl (by simp) (by rw [hi]; rfl)
    | some t => exact .stays
  | checking =>
    cases hwaits : !q.tasks.queue.isEmpty || q.quit with
    | true =>
      exact .goes .taking (by rw [hi]; rfl) (by simp) (by simp) (by simp [WorkerPoint.inLoop])
    | false =>
      -- the predicate was false, so there are no tasks
      obtain ⟨hqueue, -⟩ := Bool.or_eq_false_iff.mp hwaits
      refine .goes .blocking (by rw [hi]; rfl) (fun _ => List.isEmpty_iff.mp ?_) (by simp)
        (by simp [WorkerPoint.inLoop])
      simpa using hqueue
  | blocking => exact .unlocks .blocked (by rw [hi]; rfl) rfl (fun _ => hi) (by rw [hi]; rfl)
  | blocked => exact .stays
  | woken =>
    cases hmutex : q.mutex with
    | none => exact .locks .checking hmutex rfl (by simp) (by rw [hi]; rfl)
    | some t => exact .stays
  | taking =>
    cases hqueue : q.tasks.queue with
    | nil => exact .unlocks .head (by rw [hi]; rfl) rfl (by simp) (by rw [hi]; rfl)
    | cons task rest => exact .takes task rest hi hqueue
  | unlocking => exact .unlocks .running (by rw [hi]; rfl) rfl (by simp) (by rw [hi]; rfl)
  | running => exact .stays
  | leaving =>
    cases hmutex : q.mutex with
    | none => exact .locks .closing hmutex rfl (by simp) (by rw [hi]; rfl)
    | some t => exact .stays
  | closing => exact .unlocks .finished (by rw [hi]; rfl) rfl (by simp) (by rw [hi]; rfl)
  | finished => exact .stays

theorem endTask_move (q : ThreadSafeQueue ι κ α) (i : ι) (result : TaskEnd) :
    q.WorkerMove i (q.endTask i result) := by
  unfold endTask
  cases hi : q.workers i with
  | running =>
    -- a task that throws sends its worker where one that returns does
    cases result with
    | returned => exact .ends hi
    | threw => exact .ends hi
  | _ => exact .stays

theorem wake_move (q : ThreadSafeQueue ι κ α) (i : ι) : q.WorkerMove i (q.wake i) := by
  unfold wake
  cases hi : q.workers i with
  | blocked =>
    exact .goes .woken (by rw [hi]; rfl) (by simp) (by simp) (by simp [WorkerPoint.inLoop])
  | _ => exact .stays

end Workers

section Pushers

variable [DecidableEq κ]

/-- What a thread can do in `push`, other than to notify. -/
inductive PusherMove (q : ThreadSafeQueue ι κ α) (k : κ) : ThreadSafeQueue ι κ α → Prop
  | stays : PusherMove q k q
  | calls (task : α) (hk : q.pushers k = .idle) : PusherMove q k (q.pusherGoto k (.locking task))
  | locks (task : α) (hk : q.pushers k = .locking task) (hfree : q.mutex = none) :
      PusherMove q k ({ q with mutex := some (.inr k) }.pusherGoto k (.inserting task))
  | inserts (task : α) (hk : q.pushers k = .inserting task) :
      PusherMove q k ({ q with tasks := q.tasks.post task }.pusherGoto k .notifying)
  | unlocks (hk : q.pushers k = .unlocking) :
      PusherMove q k ({ q with mutex := none }.pusherGoto k .idle)

theorem callPush_move (q : ThreadSafeQueue ι κ α) (k : κ) (task : α) :
    q.PusherMove k (q.callPush k task) := by
  unfold callPush
  cases hk : q.pushers k with
  | idle => exact .calls task hk
  | _ => exact .stays

theorem pushStep_move (q : ThreadSafeQueue ι κ α) (k : κ) : q.PusherMove k (q.pushStep k) := by
  unfold pushStep
  cases hk : q.pushers k with
  | idle => exact .stays
  | locking task =>
    cases hmutex : q.mutex with
    | none => exact .locks task hk hmutex
    | some t => exact .stays
  | inserting task => exact .inserts task hk
  | notifying => exact .stays
  | unlocking => exact .unlocks hk

end Pushers

/-- A notification wakes a worker that was blocked, or finds nobody who is. -/
theorem notifyOne_cases [DecidableEq ι] [DecidableEq κ] [Fintype ι] (q : ThreadSafeQueue ι κ α)
    (k : κ) (woken : Option ι) :
    q.notifyOne k woken = q ∨
      q.pushers k = .notifying ∧
        ((∃ i, q.workers i = .blocked ∧
            q.notifyOne k woken = (q.goto i .woken).pusherGoto k .unlocking) ∨
          (∀ i, q.workers i ≠ .blocked) ∧ q.notifyOne k woken = q.pusherGoto k .unlocking) := by
  unfold notifyOne
  split
  · next hk =>
    cases woken with
    | some i =>
      simp only []
      split
      · next hi => exact .inr ⟨hk, .inl ⟨i, hi, rfl⟩⟩
      · exact .inl rfl
    | none =>
      simp only []
      split
      · next hawake => exact .inr ⟨hk, .inr ⟨hawake, rfl⟩⟩
      · exact .inl rfl
  · exact .inl rfl

/-! ## A thread at another point -/

variable {q : ThreadSafeQueue ι κ α}

section Workers

variable [DecidableEq ι] {i : ι} {point : WorkerPoint}

@[simp] theorem tasks_goto : (q.goto i point).tasks = q.tasks := rfl

@[simp] theorem taken_goto : (q.goto i point).taken = q.taken := rfl

theorem workers_goto_self : (q.goto i point).workers i = point := Function.update_self ..

theorem workers_goto_of_ne {j : ι} (hj : j ≠ i) : (q.goto i point).workers j = q.workers j :=
  Function.update_of_ne hj ..

theorem inside_goto_self : (q.goto i point).Inside (.inl i) ↔ point.locked = true := by
  rw [Inside, workers_goto_self]

theorem inside_goto_of_ne {t : ι ⊕ κ} (ht : t ≠ .inl i) :
    (q.goto i point).Inside t ↔ q.Inside t := by
  rcases t with j | k
  · rw [Inside, workers_goto_of_ne fun hj => ht (congrArg Sum.inl hj)]
    exact Iff.rfl
  · exact Iff.rfl

/-- Who is about to block is the worker that moved, or was it before. -/
theorem blocking_goto {P : Prop} (hpoint : point = .blocking → P)
    (hothers : ∀ j, q.workers j = .blocking → P) :
    ∀ j, (q.goto i point).workers j = .blocking → P := by
  intro j hj
  by_cases hji : j = i
  · rw [hji, workers_goto_self] at hj
    exact hpoint hj
  · rw [workers_goto_of_ne hji] at hj
    exact hothers j hj

end Workers

section Pushers

variable [DecidableEq κ] {k : κ} {point : PusherPoint α}

theorem pushers_pusherGoto_self : (q.pusherGoto k point).pushers k = point :=
  Function.update_self ..

theorem pushers_pusherGoto_of_ne {j : κ} (hj : j ≠ k) :
    (q.pusherGoto k point).pushers j = q.pushers j := Function.update_of_ne hj ..

theorem inside_pusherGoto_self : (q.pusherGoto k point).Inside (.inr k) ↔ point.locked = true := by
  rw [Inside, pushers_pusherGoto_self]

theorem inside_pusherGoto_of_ne {t : ι ⊕ κ} (ht : t ≠ .inr k) :
    (q.pusherGoto k point).Inside t ↔ q.Inside t := by
  rcases t with i | j
  · exact Iff.rfl
  · rw [Inside, pushers_pusherGoto_of_ne fun hj => ht (congrArg Sum.inr hj)]
    exact Iff.rfl

end Pushers

/-! ## What a thread leaves alone -/

variable {t : ThreadSafeQueue ι κ α}

namespace WorkerMove

variable [DecidableEq ι] {i : ι} (hmove : q.WorkerMove i t)
include hmove

theorem quit : t.quit = q.quit := by cases hmove <;> rfl

theorem destructor : t.destructor = q.destructor := by cases hmove <;> rfl

/-- A worker does not move another one. -/
theorem workers_of_ne {j : ι} (hj : j ≠ i) : t.workers j = q.workers j := by
  cases hmove with
  | stays => rfl
  | _ => exact workers_goto_of_ne hj

end WorkerMove

namespace PusherMove

variable [DecidableEq κ] {k : κ} (hmove : q.PusherMove k t)
include hmove

theorem quit : t.quit = q.quit := by cases hmove <;> rfl

theorem destructor : t.destructor = q.destructor := by cases hmove <;> rfl

theorem workers : t.workers = q.workers := by cases hmove <;> rfl

end PusherMove

end ThreadSafeQueue

end GatewayServer
