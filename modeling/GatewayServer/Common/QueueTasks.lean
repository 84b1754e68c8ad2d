import GatewayServer.Common.QueueOrder

/-!
# The tasks in the workers' hands

A worker has a task from the moment it takes one until the task is destroyed at the end of the
loop's body. No other step takes it away, and between the predicate of `cv_.wait` and the taking
nobody else takes the task that the worker has seen.

## Main definitions

* `ThreadSafeQueue.Holds` — the workers with a task are those that have taken one and not ended it
* `ThreadSafeQueue.Proceeds` — what can happen to the tasks while none of them ends
* `ThreadSafeQueue.Ready` — a worker that comes back from `cv_.wait` finds a task, or has to leave

## Main results

* `Holds.step`, `Ready.step` — what every step keeps
* `Holds.proceeds` — a step that ends no task leaves every worker its task
-/

namespace GatewayServer

open Lib

/-- The points at which a worker has a task. -/
def WorkerPoint.holding : WorkerPoint → Bool
  | .unlocking | .running => true
  | _ => false

namespace ThreadSafeQueue

variable {ι κ α : Type} {q t : ThreadSafeQueue ι κ α}

/-- The workers with a task are those that are about to run one, or do, and they have taken it. -/
structure Holds (q : ThreadSafeQueue ι κ α) : Prop where
  holding : ∀ i, (q.tasks.held i).isSome = (q.workers i).holding
  taken : ∀ i task, q.tasks.held i = some task → task ∈ q.taken

theorem holds_start : (start : ThreadSafeQueue ι κ α).Holds where
  holding _ := rfl
  taken _ _ hi := absurd hi (by simp [start, WorkQueue.empty])

/-- While no task ends, workers keep their tasks, and may take one that waits. -/
structure Proceeds (q t : ThreadSafeQueue ι κ α) : Prop where
  held : ∀ i task, q.tasks.held i = some task → t.tasks.held i = some task
  new : ∀ i task, t.tasks.held i = some task → q.tasks.held i = some task ∨ task ∈ q.tasks.queue
  taken : ∀ task ∈ q.taken, task ∈ t.taken
  running : ∀ i, q.workers i = .running → t.workers i = .running

/-- Nobody takes a task. -/
theorem Proceeds.of_same (hheld : t.tasks.held = q.tasks.held) (htaken : t.taken = q.taken)
    (hrunning : ∀ i, q.workers i = .running → t.workers i = .running) : q.Proceeds t where
  held i task hi := by rwa [hheld]
  new i task hi := by
    rw [hheld] at hi
    exact .inl hi
  taken task htask := by rwa [htaken]
  running := hrunning

theorem Proceeds.refl (q : ThreadSafeQueue ι κ α) : q.Proceeds q := .of_same rfl rfl fun _ => id

theorem holding_goto [DecidableEq ι] {i : ι} {point : WorkerPoint}
    (hpoint : point.holding = (q.workers i).holding) (j : ι) :
    ((q.goto i point).workers j).holding = (q.workers j).holding := by
  by_cases hj : j = i
  · rw [hj, workers_goto_self, hpoint]
  · rw [workers_goto_of_ne hj]

/-- A worker that does not run a task goes to another point. -/
theorem running_goto [DecidableEq ι] {i : ι} {point : WorkerPoint} (hi : q.workers i ≠ .running)
    (j : ι) (hj : q.workers j = .running) : (q.goto i point).workers j = .running := by
  have hne : j ≠ i := by
    rintro rfl
    exact hi hj
  rw [workers_goto_of_ne hne, hj]

namespace Holds

variable (h : q.Holds)
include h

/-- Nobody takes a task or ends one. -/
theorem of_same (hheld : t.tasks.held = q.tasks.held) (htaken : t.taken = q.taken)
    (hholding : ∀ i, (t.workers i).holding = (q.workers i).holding) : t.Holds where
  holding i := by rw [hheld, hholding, h.holding]
  taken i task hi := by
    rw [hheld] at hi
    rw [htaken]
    exact h.taken i task hi

/-- A worker without a task is not at a point at which it has one. -/
theorem held_eq_none {i : ι} (hi : (q.workers i).holding = false) : q.tasks.held i = none := by
  rw [← Option.not_isSome_iff_eq_none, h.holding, hi]
  exact Bool.false_ne_true

/-- A worker that runs a task has one. -/
theorem exists_held {i : ι} (hi : q.workers i = .running) : ∃ task, q.tasks.held i = some task := by
  rw [← Option.isSome_iff_exists, h.holding, hi]
  rfl

theorem take [DecidableEq ι] {i : ι} {task : Job α} {rest : List (Job α)}
    (hqueue : q.tasks.queue = task :: rest) :
    Holds ({ q with tasks := q.tasks.take i, taken := q.taken ++ [task] }.goto i .unlocking) where
  holding j := by
    by_cases hj : j = i
    · rw [hj, workers_goto_self, tasks_goto, WorkQueue.held_take_self hqueue]
      rfl
    · rw [workers_goto_of_ne hj, tasks_goto, WorkQueue.held_take_of_ne hj]
      exact h.holding j
  taken j task' hj := by
    rw [taken_goto]
    by_cases hij : j = i
    · rw [hij, tasks_goto, WorkQueue.held_take_self hqueue] at hj
      exact List.mem_append_right _ (List.mem_singleton.mpr (Option.some.inj hj).symm)
    · rw [tasks_goto, WorkQueue.held_take_of_ne hij] at hj
      exact List.mem_append_left _ (h.taken j task' hj)

theorem work [DecidableEq ι] (i : ι) : (q.work i).Holds := by
  unfold ThreadSafeQueue.work
  cases hi : q.workers i with
  | head =>
    refine h.of_same rfl rfl (holding_goto ?_)
    rw [hi]
    cases q.quit <;> rfl
  | locking =>
    cases q.mutex with
    | none => exact h.of_same rfl rfl (holding_goto (by rw [hi]; rfl))
    | some _ => exact h
  | checking =>
    -- `wait` returns at once, or the worker is about to block
    refine h.of_same rfl rfl (holding_goto ?_)
    rw [hi]
    cases (!q.tasks.queue.isEmpty || q.quit) <;> rfl
  | blocking => exact h.of_same rfl rfl (holding_goto (by rw [hi]; rfl))
  | blocked => exact h
  | woken =>
    cases q.mutex with
    | none => exact h.of_same rfl rfl (holding_goto (by rw [hi]; rfl))
    | some _ => exact h
  | taking =>
    cases hqueue : q.tasks.queue with
    | nil => exact h.of_same rfl rfl (holding_goto (by rw [hi]; rfl))
    | cons task rest => exact h.take hqueue
  | unlocking => exact h.of_same rfl rfl (holding_goto (by rw [hi]; rfl))
  | running => exact h
  | leaving =>
    cases q.mutex with
    | none => exact h.of_same rfl rfl (holding_goto (by rw [hi]; rfl))
    | some _ => exact h
  | closing => exact h.of_same rfl rfl (holding_goto (by rw [hi]; rfl))
  | finished => exact h

theorem endTask [DecidableEq ι] (i : ι) (result : TaskEnd) : (q.endTask i result).Holds := by
  unfold ThreadSafeQueue.endTask
  cases q.workers i with
  | running =>
    refine ⟨?_, ?_⟩
    · intro j
      by_cases hj : j = i
      · rw [hj, workers_goto_self, tasks_goto, WorkQueue.held_release_self]
        cases result <;> rfl
      · rw [workers_goto_of_ne hj, tasks_goto, WorkQueue.held_release_of_ne hj]
        exact h.holding j
    · intro j task hj
      by_cases hij : j = i
      · rw [hij, tasks_goto, WorkQueue.held_release_self] at hj
        exact absurd hj (by simp)
      · rw [tasks_goto, WorkQueue.held_release_of_ne hij] at hj
        exact h.taken j task hj
  | _ => exact h

theorem wake [DecidableEq ι] (i : ι) : (q.wake i).Holds := by
  unfold ThreadSafeQueue.wake
  cases hi : q.workers i with
  | blocked => exact h.of_same rfl rfl (holding_goto (by rw [hi]; rfl))
  | _ => exact h

theorem pusherMove [DecidableEq κ] {k : κ} (hmove : q.PusherMove k t) : t.Holds := by
  cases hmove with
  | inserts task _ => exact ⟨h.holding, h.taken⟩
  | _ => exact h.of_same rfl rfl fun _ => rfl

theorem notifyOne [DecidableEq ι] [DecidableEq κ] [Fintype ι] (k : κ) (woken : Option ι) :
    (q.notifyOne k woken).Holds := by
  obtain hsame | ⟨-, ⟨i, hi, hwoken⟩ | ⟨-, hnobody⟩⟩ := q.notifyOne_cases k woken
  · rw [hsame]
    exact h
  · rw [hwoken]
    exact h.of_same rfl rfl (holding_goto (by rw [hi]; rfl))
  · rw [hnobody]
    exact h.of_same rfl rfl fun _ => rfl

end Holds

/-- The destructor wakes workers, which have no tasks. -/
theorem holding_destroy [Fintype ι] (i : ι) :
    (q.destroy.workers i).holding = (q.workers i).holding := by
  unfold ThreadSafeQueue.destroy
  cases q.destructor with
  | notifying =>
    by_cases hi : q.workers i = .blocked
    · simp [hi, WorkerPoint.holding]
    · simp [hi]
  | joining =>
    simp only []
    split <;> rfl
  | _ => rfl

theorem destroy_tasks [Fintype ι] : q.destroy.tasks = q.tasks ∧ q.destroy.taken = q.taken := by
  unfold destroy
  cases q.destructor with
  | joining =>
    simp only []
    split <;> exact ⟨rfl, rfl⟩
  | _ => exact ⟨rfl, rfl⟩

namespace Holds

variable [DecidableEq ι] [DecidableEq κ] [Fintype ι] (h : q.Holds)
include h

/-- Every step leaves the tasks with the workers that have taken them. -/
theorem step (l : QueueLabel ι κ α) : (q.step l).Holds := by
  cases l with
  | push k task => exact h.pusherMove (q.callPush_move k task)
  | pusher k => exact h.pusherMove (q.pushStep_move k)
  | notify k woken => exact h.notifyOne k woken
  | worker i => exact h.work i
  | ended i result => exact h.endTask i result
  | spurious i => exact h.wake i
  | destroy =>
    exact h.of_same (congrArg _ destroy_tasks.1) destroy_tasks.2 holding_destroy

end Holds

/-! ## The end of a task -/

section EndTask

variable [DecidableEq ι] {i : ι} {result : TaskEnd}

theorem held_endTask_self (hi : q.workers i = .running) :
    (q.endTask i result).tasks.held i = none := by
  simp only [endTask, hi]
  exact WorkQueue.held_release_self

theorem held_endTask_of_ne {j : ι} (hj : j ≠ i) :
    (q.endTask i result).tasks.held j = q.tasks.held j := by
  unfold endTask
  split
  · exact WorkQueue.held_release_of_ne hj
  · rfl

theorem taken_endTask : (q.endTask i result).taken = q.taken := by
  unfold endTask
  split <;> rfl

end EndTask

/-! ## While no task ends -/

section Proceeds

variable [DecidableEq ι]

/-- A worker that does not run a task takes one, or leaves the tasks alone. -/
theorem WorkerMove.proceeds {i : ι} (hmove : q.WorkerMove i t) (h : q.Holds)
    (hi : q.workers i ≠ .running) : q.Proceeds t := by
  have hrunning (j : ι) (hj : q.workers j = .running) : t.workers j = .running := by
    have hne : j ≠ i := by
      rintro rfl
      exact hi hj
    rw [hmove.workers_of_ne hne, hj]
  cases hmove with
  | stays => exact .refl q
  | goes _ _ _ _ _ => exact .of_same rfl rfl hrunning
  | locks _ _ _ _ _ => exact .of_same rfl rfl hrunning
  | unlocks _ _ _ _ _ => exact .of_same rfl rfl hrunning
  | takes task rest htaking hqueue =>
    have hfree : q.tasks.held i = none := h.held_eq_none (by rw [htaking]; rfl)
    refine ⟨?_, ?_, fun task' htask' => List.mem_append_left _ htask', hrunning⟩
    · intro j task' hj
      have hne : j ≠ i := by
        rintro rfl
        exact absurd (hfree.symm.trans hj) (by simp)
      rw [tasks_goto, WorkQueue.held_take_of_ne hne, hj]
    · intro j task' hj
      by_cases hij : j = i
      · -- what it has now was at the front
        rw [hij, tasks_goto, WorkQueue.held_take_self hqueue] at hj
        rw [hqueue, ← Option.some.inj hj]
        exact .inr List.mem_cons_self
      · rw [tasks_goto, WorkQueue.held_take_of_ne hij] at hj
        exact .inl hj
  | ends hrun => exact absurd hrun hi

omit [DecidableEq ι] in
theorem PusherMove.proceeds [DecidableEq κ] {k : κ} (hmove : q.PusherMove k t) :
    q.Proceeds t := by
  cases hmove with
  | stays => exact .refl q
  | _ => exact .of_same rfl rfl fun _ => id

variable [DecidableEq κ] [Fintype ι]

/-- A step that ends no task leaves every worker its task. -/
theorem Holds.proceeds (h : q.Holds) {l : QueueLabel ι κ α}
    (hl : ∀ i result, l ≠ .ended i result) : q.Proceeds (q.step l) := by
  cases l with
  | push k task => exact (q.callPush_move k task).proceeds
  | pusher k => exact (q.pushStep_move k).proceeds
  | notify k woken =>
    rw [ThreadSafeQueue.step]
    obtain hsame | ⟨-, ⟨i, hi, hwoken⟩ | ⟨-, hnobody⟩⟩ := q.notifyOne_cases k woken
    · rw [hsame]
      exact .refl q
    · rw [hwoken]
      exact .of_same rfl rfl (running_goto (by simp [hi]))
    · rw [hnobody]
      exact .of_same rfl rfl fun _ => id
  | worker i =>
    by_cases hi : q.workers i = .running
    -- a worker that runs a task waits for its end
    · have hwork : q.work i = q := by simp only [ThreadSafeQueue.work, hi]
      rw [ThreadSafeQueue.step, hwork]
      exact .refl q
    · exact (q.work_move i).proceeds h hi
  | ended i result => exact absurd rfl (hl i result)
  | spurious i =>
    rw [ThreadSafeQueue.step, ThreadSafeQueue.wake]
    cases hi : q.workers i with
    | blocked =>
      exact .of_same rfl rfl (running_goto (by simp [hi]))
    | _ => exact .refl q
  | destroy =>
    -- the destructor wakes blocked workers only
    refine .of_same (congrArg _ destroy_tasks.1) destroy_tasks.2 fun i hi => ?_
    rw [ThreadSafeQueue.step, ThreadSafeQueue.destroy]
    cases q.destructor with
    | notifying => simp [hi]
    | joining =>
      simp only []
      split <;> exact hi
    | _ => exact hi

end Proceeds

/-! ## A task that is there to take -/

/-- A worker that has come back from `cv_.wait` finds a task, unless the queue is destroyed. -/
def Ready (q : ThreadSafeQueue ι κ α) : Prop :=
  ∀ i, q.workers i = .taking → q.tasks.queue ≠ [] ∨ q.quit = true

theorem ready_start : (start : ThreadSafeQueue ι κ α).Ready := by
  intro i hi
  exact absurd hi (by simp [start])

namespace Ready

variable (h : q.Ready)
include h

/-- No task is taken, and nobody comes back from `cv_.wait`. -/
theorem of_same (hqueue : q.tasks.queue ≠ [] → t.tasks.queue ≠ []) (hquit : q.quit → t.quit)
    (hworkers : ∀ i, t.workers i = .taking → q.workers i = .taking) : t.Ready := by
  intro i hi
  exact (h i (hworkers i hi)).imp hqueue hquit

/-- A worker goes to another point, other than back from `cv_.wait`. -/
theorem goto [DecidableEq ι] {i : ι} {point : WorkerPoint} (hpoint : point ≠ .taking) :
    (q.goto i point).Ready := by
  refine h.of_same id id ?_
  intro j hj
  by_cases hij : j = i
  · rw [hij, workers_goto_self] at hj
    exact absurd hj hpoint
  · rwa [workers_goto_of_ne hij] at hj

theorem work [DecidableEq ι] (hsound : q.Sound) (i : ι) : (q.work i).Ready := by
  unfold ThreadSafeQueue.work
  cases hi : q.workers i with
  | head =>
    refine h.goto ?_
    cases q.quit <;> simp
  | locking =>
    cases q.mutex with
    | none => exact h.goto (q := { q with mutex := some (.inl i) }) (by simp)
    | some _ => exact h
  | checking =>
    cases hwaits : !q.tasks.queue.isEmpty || q.quit with
    | true =>
      -- it comes back because the predicate is true
      intro _ _
      refine (Bool.or_eq_true_iff.mp hwaits).imp_left ?_
      rintro htasks hempty
      rw [tasks_goto] at hempty
      simp [hempty] at htasks
    | false => exact h.goto (by simp)
  | blocking => exact h.goto (q := { q with mutex := none }) (by simp)
  | blocked => exact h
  | woken =>
    cases q.mutex with
    | none => exact h.goto (q := { q with mutex := some (.inl i) }) (by simp)
    | some _ => exact h
  | taking =>
    cases hqueue : q.tasks.queue with
    | nil => exact h.goto (q := { q with mutex := none }) (by simp)
    | cons task rest =>
      -- nobody else is there to miss the task, since this worker has the mutex
      intro j hj
      have hij : j ≠ i := by
        rintro rfl
        rw [workers_goto_self] at hj
        exact absurd hj (by simp)
      rw [workers_goto_of_ne hij] at hj
      have hboth : (.inl j : ι ⊕ κ) = .inl i :=
        hsound.guarded.unique (by rw [Inside, hj]; rfl) (by rw [Inside, hi]; rfl)
      exact absurd (Sum.inl.inj hboth) hij
  | unlocking => exact h.goto (q := { q with mutex := none }) (by simp)
  | running => exact h
  | leaving =>
    cases q.mutex with
    | none => exact h.goto (q := { q with mutex := some (.inl i) }) (by simp)
    | some _ => exact h
  | closing => exact h.goto (q := { q with mutex := none }) (by simp)
  | finished => exact h

theorem endTask [DecidableEq ι] (i : ι) (result : TaskEnd) : (q.endTask i result).Ready := by
  unfold ThreadSafeQueue.endTask
  cases q.workers i with
  | running =>
    have hnext : result.next ≠ .taking := by cases result <;> simp [TaskEnd.next]
    exact h.goto (q := { q with tasks := q.tasks.release i }) hnext
  | _ => exact h

theorem wake [DecidableEq ι] (i : ι) : (q.wake i).Ready := by
  unfold ThreadSafeQueue.wake
  cases q.workers i with
  | blocked => exact h.goto (by simp)
  | _ => exact h

theorem pusherMove [DecidableEq κ] {k : κ} (hmove : q.PusherMove k t) : t.Ready := by
  cases hmove with
  | inserts task _ =>
    exact h.of_same (fun _ => List.append_ne_nil_of_right_ne_nil _ (List.cons_ne_nil _ _)) id
      fun _ => id
  | _ => exact h.of_same id id fun _ => id

theorem notifyOne [DecidableEq ι] [DecidableEq κ] [Fintype ι] (k : κ) (woken : Option ι) :
    (q.notifyOne k woken).Ready := by
  obtain hsame | ⟨-, ⟨i, -, hwoken⟩ | ⟨-, hnobody⟩⟩ := q.notifyOne_cases k woken
  · rw [hsame]
    exact h
  · have hgoto : (q.goto i .woken).Ready := h.goto (by simp)
    rw [hwoken]
    exact hgoto.of_same id id fun _ => id
  · rw [hnobody]
    exact h.of_same id id fun _ => id

theorem destroy [Fintype ι] : q.destroy.Ready := by
  unfold ThreadSafeQueue.destroy
  cases q.destructor with
  | before => exact fun _ _ => .inr rfl
  | notifying =>
    refine h.of_same id id fun i hi => ?_
    by_cases hblocked : q.workers i = .blocked
    · exact absurd hi (by simp [hblocked])
    · simpa [hblocked] using hi
  | joining =>
    simp only []
    split
    · exact h.of_same id id fun _ => id
    · exact h
  | joined => exact h

/-- Every step leaves a task to whoever has come for one. -/
theorem step [DecidableEq ι] [DecidableEq κ] [Fintype ι] (hsound : q.Sound)
    (l : QueueLabel ι κ α) : (q.step l).Ready := by
  cases l with
  | push k task => exact h.pusherMove (q.callPush_move k task)
  | pusher k => exact h.pusherMove (q.pushStep_move k)
  | notify k woken => exact h.notifyOne k woken
  | worker i => exact h.work hsound i
  | ended i result => exact h.endTask i result
  | spurious i => exact h.wake i
  | destroy => exact h.destroy

end Ready

end ThreadSafeQueue

end GatewayServer
