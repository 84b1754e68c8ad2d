import GatewayServer.Common.QueueTasks
import Mathlib.Data.Finset.Card

/-!
# As many workers as tasks

Every task is notified once, and the worker that is woken may find that another one was faster.
Still no task is left behind while a worker sleeps: for each task in the queue there is a worker on
its way to it.

## Main definitions

* `WorkerPoint.ready`, `ThreadSafeQueue.ready` — the workers that look at the queue before they
  sleep
* `ThreadSafeQueue.Attended` — while a worker sleeps, they are as many as the tasks
* `ThreadSafeQueue.Quiet` — nobody moves any more without something from outside

## Main results

* `Attended.step` — every step keeps it
* `length_queue_le_ready` — so it is on every run, outside the critical section of `push`
* `Serving.worker_of_quiet`, `Serving.running_of_quiet` — who does not move is blocked, or runs its
  task, and nobody is blocked while there are tasks
-/

namespace GatewayServer

open Lib

/-- The points from which a worker comes to see the queue before it can block. -/
def WorkerPoint.ready : WorkerPoint → Bool
  | .head | .locking | .checking | .woken | .taking => true
  | _ => false

namespace ThreadSafeQueue

variable {ι κ α : Type} {q t : ThreadSafeQueue ι κ α}

section Ready

variable [Fintype ι]

/-- The workers that are on their way to the queue. -/
def ready (q : ThreadSafeQueue ι κ α) : Finset ι := {i | (q.workers i).ready = true}

theorem mem_ready {i : ι} : i ∈ q.ready ↔ (q.workers i).ready = true := by simp [ready]

section Workers

variable [DecidableEq ι] {i : ι} {point : WorkerPoint}

theorem ready_goto (hpoint : point.ready = true) : (q.goto i point).ready = insert i q.ready := by
  ext j
  rw [mem_ready, Finset.mem_insert, mem_ready]
  by_cases hj : j = i
  · rw [hj, workers_goto_self]
    exact iff_of_true hpoint (.inl rfl)
  · rw [workers_goto_of_ne hj]
    exact (or_iff_right hj).symm

theorem ready_goto_of_not (hpoint : point.ready = false) :
    (q.goto i point).ready = q.ready.erase i := by
  ext j
  rw [mem_ready, Finset.mem_erase, mem_ready]
  by_cases hj : j = i
  · rw [hj, workers_goto_self, hpoint]
    exact iff_of_false Bool.false_ne_true fun h => h.1 rfl
  · rw [workers_goto_of_ne hj]
    exact (and_iff_right hj).symm

end Workers

/-- While a worker is blocked, there are no more tasks than workers on their way to them, or one
more for which somebody is about to be notified. -/
def Attended (q : ThreadSafeQueue ι κ α) : Prop :=
  (∃ i, q.workers i = .blocked) →
    q.tasks.queue.length ≤ q.ready.card ∨
      (∃ k, q.pushers k = .notifying) ∧ q.tasks.queue.length ≤ q.ready.card + 1

theorem attended_start : (start : ThreadSafeQueue ι κ α).Attended :=
  fun _ => .inl (Nat.zero_le _)

theorem Attended.of_empty (hqueue : q.tasks.queue = []) : q.Attended := by
  intro _
  rw [hqueue]
  exact .inl (Nat.zero_le _)

namespace Attended

variable (h : q.Attended)
include h

/-- More workers are ready for the same tasks, and nobody has fallen asleep. -/
theorem of_more (hqueue : t.tasks.queue = q.tasks.queue) (hpushers : t.pushers = q.pushers)
    (hready : q.ready ⊆ t.ready)
    (hasleep : (∃ i, t.workers i = .blocked) → ∃ i, q.workers i = .blocked) : t.Attended := by
  intro hblocked
  have hcard := Finset.card_le_card hready
  rw [hqueue, hpushers]
  rcases h (hasleep hblocked) with hle | ⟨hnotifying, hle⟩
  · exact .inl (hle.trans hcard)
  · exact .inr ⟨hnotifying, hle.trans (Nat.add_le_add_right hcard 1)⟩

section Workers

variable [DecidableEq ι]

/-- A worker goes to a point from which it comes to see the queue. -/
theorem goto (i : ι) (point : WorkerPoint) (hpoint : point.ready = true) :
    (q.goto i point).Attended := by
  refine h.of_more rfl rfl ?_ ?_
  · rw [ready_goto hpoint]
    exact Finset.subset_insert i _
  · rintro ⟨j, hj⟩
    by_cases hji : j = i
    · rw [hji, workers_goto_self] at hj
      rw [hj] at hpoint
      exact absurd hpoint (by decide)
    · rw [workers_goto_of_ne hji] at hj
      exact ⟨j, hj⟩

/-- A worker that has its task, or is through with it, goes on. -/
theorem goto_of_not {i : ι} (point : WorkerPoint) (hi : (q.workers i).ready = false)
    (hpoint : point.ready = false) (hawake : point ≠ .blocked) : (q.goto i point).Attended := by
  refine h.of_more rfl rfl ?_ ?_
  · rw [ready_goto_of_not hpoint]
    exact Finset.subset_erase.mpr ⟨fun _ hj => hj, fun hmem => by simp [mem_ready, hi] at hmem⟩
  · rintro ⟨j, hj⟩
    by_cases hji : j = i
    · rw [hji, workers_goto_self] at hj
      exact absurd hj hawake
    · rw [workers_goto_of_ne hji] at hj
      exact ⟨j, hj⟩

/-- A task less, and a worker less. -/
theorem take {i : ι} {task : Job α} {rest : List (Job α)} (hi : q.workers i = .taking)
    (hqueue : q.tasks.queue = task :: rest) :
    ({ q with tasks := q.tasks.take i, taken := q.taken ++ [task] }.goto i .unlocking).Attended
    := by
  have hmem : i ∈ q.ready := by
    rw [mem_ready, hi]
    rfl
  have hcard : (q.ready.erase i).card + 1 = q.ready.card := Finset.card_erase_add_one hmem
  have hlength : (q.tasks.take i).queue.length + 1 = q.tasks.queue.length := by
    rw [WorkQueue.take_cons hqueue, hqueue, List.length_cons]
  rintro ⟨j, hj⟩
  have hji : j ≠ i := by
    rintro rfl
    rw [workers_goto_self] at hj
    exact absurd hj (by decide)
  rw [workers_goto_of_ne hji] at hj
  rw [ready_goto_of_not rfl]
  show (q.tasks.take i).queue.length ≤ (q.ready.erase i).card ∨
    (∃ k, q.pushers k = .notifying) ∧ (q.tasks.take i).queue.length ≤ (q.ready.erase i).card + 1
  rcases h ⟨j, hj⟩ with hle | ⟨hnotifying, hle⟩
  · exact .inl (by omega)
  · exact .inr ⟨hnotifying, by omega⟩

/-- A worker takes a step before it has been asked to leave. -/
theorem work (hsound : q.Sound) (hquit : q.quit = false) (i : ι) : (q.work i).Attended := by
  unfold ThreadSafeQueue.work
  cases hi : q.workers i with
  | head =>
    rw [hquit]
    exact h.goto i .locking rfl
  | locking =>
    cases q.mutex with
    | none => exact h.goto i .checking rfl
    | some _ => exact h
  | checking =>
    cases hwaits : !q.tasks.queue.isEmpty || q.quit with
    | true => exact h.goto i .taking rfl
    | false =>
      -- it has seen an empty queue
      obtain ⟨hqueue, -⟩ := Bool.or_eq_false_iff.mp hwaits
      exact of_empty (q := q.goto i .blocking) (List.isEmpty_iff.mp (by simpa using hqueue))
  | blocking =>
    exact of_empty (q := { q with mutex := none }.goto i .blocked) (hsound.blocking i hi)
  | blocked => exact h
  | woken =>
    cases q.mutex with
    | none => exact h.goto i .checking rfl
    | some _ => exact h
  | taking =>
    cases hqueue : q.tasks.queue with
    | nil => exact of_empty (q := { q with mutex := none }.goto i .head) hqueue
    | cons task rest => exact h.take hi hqueue
  | unlocking => exact h.goto_of_not .running (by rw [hi]; rfl) rfl (by decide)
  | running => exact h
  | leaving =>
    cases q.mutex with
    | none => exact h.goto_of_not .closing (by rw [hi]; rfl) rfl (by decide)
    | some _ => exact h
  | closing => exact h.goto_of_not .finished (by rw [hi]; rfl) rfl (by decide)
  | finished => exact h

theorem endTask (i : ι) (result : TaskEnd) : (q.endTask i result).Attended := by
  unfold ThreadSafeQueue.endTask
  split
  · cases result with
    | returned => exact h.goto i .head rfl
    | threw => exact h.goto i .head rfl
  · exact h

theorem wake (i : ι) : (q.wake i).Attended := by
  unfold ThreadSafeQueue.wake
  split
  · exact h.goto i .woken rfl
  · exact h

end Workers

section Pushers

variable [DecidableEq κ] {k : κ}

/-- A thread that does not notify goes on. -/
theorem pusherGoto (hk : q.pushers k ≠ .notifying) (point : PusherPoint α) :
    (q.pusherGoto k point).Attended := by
  intro hblocked
  refine (h hblocked).imp_right (And.imp_left ?_)
  rintro ⟨j, hj⟩
  have hne : j ≠ k := by
    rintro rfl
    exact hk hj
  exact ⟨j, (pushers_pusherGoto_of_ne hne).trans hj⟩

/-- A task more, and whoever has inserted it is the only one that is about to notify. -/
theorem insert (hsound : q.Sound) {task : α} (hk : q.pushers k = .inserting task) :
    ({ q with tasks := q.tasks.post task }.pusherGoto k .notifying).Attended := by
  rintro ⟨i, hi⟩
  have hle : q.tasks.queue.length ≤ q.ready.card := by
    rcases h ⟨i, hi⟩ with hle | ⟨⟨j, hj⟩, -⟩
    · exact hle
    · have hjk : (Sum.inr j : ι ⊕ κ) = .inr k := by
        apply hsound.guarded.unique
        · exact congrArg PusherPoint.locked hj
        · exact congrArg PusherPoint.locked hk
      rw [Sum.inr.inj hjk, hk] at hj
      exact absurd hj (by simp)
  refine .inr ⟨⟨k, pushers_pusherGoto_self⟩, ?_⟩
  show (q.tasks.post task).queue.length ≤ q.ready.card + 1
  rw [WorkQueue.queue_post, List.length_append, List.length_singleton]
  exact Nat.add_le_add_right hle 1

theorem pusherMove (hsound : q.Sound) (hmove : q.PusherMove k t) : t.Attended := by
  cases hmove with
  | stays => exact h
  | calls task hk => exact h.pusherGoto (by simp [hk]) _
  | locks task hk _ => exact h.pusherGoto (by simp [hk]) (.inserting task)
  | inserts task hk => exact h.insert hsound hk
  | unlocks hk => exact h.pusherGoto (by simp [hk]) .idle

variable [DecidableEq ι]

theorem notifyOne (k : κ) (woken : Option ι) : (q.notifyOne k woken).Attended := by
  rcases q.notifyOne_cases k woken with hsame | ⟨hk, ⟨i, hi, hwoken⟩ | ⟨hawake, hnobody⟩⟩
  · rw [hsame]
    exact h
  · -- the worker that is woken is the one for the task
    have hnot : i ∉ q.ready := by simp [mem_ready, hi, WorkerPoint.ready]
    rw [hwoken]
    intro _
    refine .inl ?_
    show q.tasks.queue.length ≤ (q.goto i .woken).ready.card
    rw [ready_goto rfl, Finset.card_insert_of_notMem hnot]
    rcases h ⟨i, hi⟩ with hle | ⟨-, hle⟩
    · omega
    · exact hle
  · rw [hnobody]
    rintro ⟨i, hi⟩
    exact absurd hi (hawake i)

end Pushers

/-- Before the destructor is called, every step leaves a worker for each task. -/
theorem step [DecidableEq ι] [DecidableEq κ] (hsound : q.Sound) (hquit : q.quit = false)
    {l : QueueLabel ι κ α} (hl : l ≠ .destroy) : (q.step l).Attended := by
  cases l with
  | push k task => exact h.pusherMove hsound (q.callPush_move k task)
  | pusher k => exact h.pusherMove hsound (q.pushStep_move k)
  | notify k woken => exact h.notifyOne k woken
  | worker i => exact h.work hsound hquit i
  | ended i result => exact h.endTask i result
  | spurious i => exact h.wake i
  | destroy => exact absurd rfl hl

end Attended

end Ready

/-- Nobody has asked the workers to leave, and there is one for each task. -/
structure Serving [Fintype ι] (q : ThreadSafeQueue ι κ α) : Prop where
  sound : q.Sound
  loop : q.InLoop
  attended : q.Attended

theorem serving_start [Fintype ι] : (start : ThreadSafeQueue ι κ α).Serving :=
  ⟨sound_start, ⟨rfl, fun _ => rfl⟩, attended_start⟩

section Runs

variable [DecidableEq ι] [DecidableEq κ] [Fintype ι]

theorem Serving.step (h : q.Serving) {l : QueueLabel ι κ α} (hl : l ≠ .destroy) :
    (q.step l).Serving :=
  ⟨h.sound.step l, h.loop.step hl, h.attended.step h.sound h.loop.1 hl⟩

/-- Before the destructor is called, and outside the critical section of `push`: while a worker is
blocked, every task in the queue has a worker of its own on the way to it. -/
theorem length_queue_le_ready {labels : List (QueueLabel ι κ α)} (hlabels : .destroy ∉ labels)
    (houtside : ∀ k, ((labels.foldl step start).pushers k).locked = false)
    (hblocked : ∃ i, (labels.foldl step (start : ThreadSafeQueue ι κ α)).workers i = .blocked) :
    (labels.foldl step (start : ThreadSafeQueue ι κ α)).tasks.queue.length ≤
      (labels.foldl step (start : ThreadSafeQueue ι κ α)).ready.card := by
  have h : (labels.foldl step (start : ThreadSafeQueue ι κ α)).Serving :=
    List.foldlRecOn labels step serving_start fun _ h l hl =>
      h.step fun hdestroy => hlabels (hdestroy ▸ hl)
  rcases h.attended hblocked with hle | ⟨⟨k, hk⟩, -⟩
  · exact hle
  · have hlocked := houtside k
    rw [hk] at hlocked
    exact absurd hlocked (by simp [PusherPoint.locked])

theorem length_queue_le_ready_pushAndWake :
    ((bothSleep ++ pushAndWake).foldl step start).tasks.queue.length ≤
      ((bothSleep ++ pushAndWake).foldl step start).ready.card :=
  length_queue_le_ready (by decide) (by decide) ⟨true, by decide⟩

end Runs

/-! ## When nobody moves -/

section Quiet

variable [DecidableEq ι]

/-- A worker moves unless it is blocked or runs its task, or another thread has the mutex. -/
theorem work_ne {i : ι} (hloop : (q.workers i).inLoop = true) (hblocked : q.workers i ≠ .blocked)
    (hrunning : q.workers i ≠ .running)
    (hmutex : q.mutex = none ∨ (q.workers i).locked = true) : q.work i ≠ q := by
  intro hsame
  have hstays : (q.work i).workers i = q.workers i := by rw [hsame]
  -- from all other points the worker goes on to another one
  unfold work at hstays
  cases hi : q.workers i with
  | head =>
    simp only [hi, workers_goto_self] at hstays
    split at hstays <;> exact absurd hstays (by decide)
  | locking =>
    have hfree : q.mutex = none := hmutex.resolve_right (by simp [hi, WorkerPoint.locked])
    simp only [hi, hfree, workers_goto_self] at hstays
    exact absurd hstays (by decide)
  | checking =>
    simp only [hi, workers_goto_self] at hstays
    split at hstays <;> exact absurd hstays (by decide)
  | blocking =>
    simp only [hi, workers_goto_self] at hstays
    exact absurd hstays (by decide)
  | blocked => exact hblocked hi
  | woken =>
    have hfree : q.mutex = none := hmutex.resolve_right (by simp [hi, WorkerPoint.locked])
    simp only [hi, hfree, workers_goto_self] at hstays
    exact absurd hstays (by decide)
  | taking =>
    cases hqueue : q.tasks.queue with
    | nil =>
      simp only [hi, hqueue, workers_goto_self] at hstays
      exact absurd hstays (by decide)
    | cons task rest =>
      simp only [hi, hqueue, workers_goto_self] at hstays
      exact absurd hstays (by decide)
  | unlocking =>
    simp only [hi, workers_goto_self] at hstays
    exact absurd hstays (by decide)
  | running => exact hrunning hi
  | leaving => simp [hi, WorkerPoint.inLoop] at hloop
  | closing => simp [hi, WorkerPoint.inLoop] at hloop
  | finished => simp [hi, WorkerPoint.inLoop] at hloop

variable [DecidableEq κ] [Fintype ι]

/-- No thread moves in the queue by itself. -/
structure Quiet (q : ThreadSafeQueue ι κ α) : Prop where
  work : ∀ i, q.work i = q
  pushStep : ∀ k, q.pushStep k = q
  notifyOne : ∀ k woken, q.notifyOne k woken = q

/-- A thread that is in `push` moves, unless another one has the mutex. -/
theorem Quiet.pusher_idle (h : q.Quiet) {k : κ}
    (hmutex : q.mutex = none ∨ (q.pushers k).locked = true) : q.pushers k = .idle := by
  have hstays : (q.pushStep k).pushers k = q.pushers k := by rw [h.pushStep]
  unfold ThreadSafeQueue.pushStep at hstays
  cases hk : q.pushers k with
  | idle => rfl
  | locking task =>
    have hfree : q.mutex = none := hmutex.resolve_right (by simp [hk, PusherPoint.locked])
    simp only [hk, hfree, pushers_pusherGoto_self] at hstays
    exact absurd hstays (by simp)
  | inserting task =>
    simp only [hk, pushers_pusherGoto_self] at hstays
    exact absurd hstays (by simp)
  | notifying =>
    -- there is somebody to notify, or nobody
    by_cases hawake : ∀ i, q.workers i ≠ .blocked
    · have hsame : (q.notifyOne k none).pushers k = q.pushers k := by rw [h.notifyOne]
      simp only [ThreadSafeQueue.notifyOne, hk, if_pos hawake, pushers_pusherGoto_self] at hsame
      exact absurd hsame (by simp)
    · obtain ⟨i, hi⟩ := not_forall.mp hawake
      rw [not_not] at hi
      have hsame : (q.notifyOne k (some i)).pushers k = q.pushers k := by rw [h.notifyOne]
      simp only [ThreadSafeQueue.notifyOne, hk, if_pos hi, pushers_pusherGoto_self] at hsame
      exact absurd hsame (by simp)
  | unlocking =>
    simp only [hk, pushers_pusherGoto_self] at hstays
    exact absurd hstays (by simp)

namespace Serving

variable (h : q.Serving) (hquiet : q.Quiet)
include h hquiet

/-- Nobody is in a critical section. -/
theorem mutex_of_quiet : q.mutex = none := by
  rw [Option.eq_none_iff_forall_ne_some]
  intro t ht
  have hinside : q.Inside t := (h.sound.guarded t).mpr ht
  cases t with
  | inl i =>
    refine work_ne (h.loop.2 i) ?_ ?_ (.inr hinside) (hquiet.work i)
    · intro hi
      simp [Inside, hi, WorkerPoint.locked] at hinside
    · intro hi
      simp [Inside, hi, WorkerPoint.locked] at hinside
  | inr k =>
    have hidle := hquiet.pusher_idle (k := k) (.inr hinside)
    simp [Inside, hidle, PusherPoint.locked] at hinside

/-- Nobody is in `push`. -/
theorem idle_of_quiet (k : κ) : q.pushers k = .idle :=
  hquiet.pusher_idle (.inl (h.mutex_of_quiet hquiet))

/-- Every worker is blocked or runs its task. -/
theorem worker_of_quiet (i : ι) : q.workers i = .blocked ∨ q.workers i = .running := by
  by_contra! hi
  exact work_ne (h.loop.2 i) hi.1 hi.2 (.inl (h.mutex_of_quiet hquiet)) (hquiet.work i)

/-- While there are tasks, nobody is blocked. -/
theorem running_of_quiet (hqueue : q.tasks.queue ≠ []) (i : ι) : q.workers i = .running := by
  refine (h.worker_of_quiet hquiet i).resolve_left fun hi => ?_
  have hready : q.ready = ∅ := by
    refine Finset.eq_empty_of_forall_notMem fun j hj => ?_
    rw [mem_ready] at hj
    rcases h.worker_of_quiet hquiet j with hblocked | hrunning
    · simp [hblocked, WorkerPoint.ready] at hj
    · simp [hrunning, WorkerPoint.ready] at hj
  rcases h.attended ⟨i, hi⟩ with hle | ⟨⟨k, hk⟩, -⟩
  · rw [hready, Finset.card_empty] at hle
    exact hqueue (List.length_eq_zero_iff.mp (Nat.le_zero.mp hle))
  · rw [h.idle_of_quiet hquiet k] at hk
    exact absurd hk (by simp)

end Serving

end Quiet

/-! ## When everybody runs a task -/

section Busy

variable [DecidableEq ι] [DecidableEq κ] [Fintype ι]

omit [DecidableEq ι] [Fintype ι] in
theorem PusherMove.taken {k : κ} (hmove : q.PusherMove k t) : t.taken = q.taken := by
  cases hmove <;> rfl

/-- While every worker runs a task that does not end, no other is taken, and the destructor waits
for the workers. -/
theorem step_of_running [Nonempty ι] (hrunning : ∀ i, q.workers i = .running)
    {l : QueueLabel ι κ α} (hl : ∀ i result, l ≠ .ended i result) :
    (q.step l).taken = q.taken ∧ (q.destructor ≠ .joined → (q.step l).destructor ≠ .joined) := by
  cases l with
  | push k task =>
    have hmove := q.callPush_move k task
    exact ⟨hmove.taken, fun hq => by rwa [step, hmove.destructor]⟩
  | pusher k =>
    have hmove := q.pushStep_move k
    exact ⟨hmove.taken, fun hq => by rwa [step, hmove.destructor]⟩
  | notify k woken =>
    rw [step]
    rcases q.notifyOne_cases k woken with hsame | ⟨-, ⟨i, -, hwoken⟩ | ⟨-, hnobody⟩⟩
    · rw [hsame]
      exact ⟨rfl, id⟩
    · rw [hwoken]
      exact ⟨rfl, id⟩
    · rw [hnobody]
      exact ⟨rfl, id⟩
  | worker i =>
    have hstays : q.work i = q := by simp only [work, hrunning i]
    rw [step, hstays]
    exact ⟨rfl, id⟩
  | ended i result => exact absurd rfl (hl i result)
  | spurious i =>
    have hstays : q.wake i = q := by simp only [wake, hrunning i]
    rw [step, hstays]
    exact ⟨rfl, id⟩
  | destroy =>
    -- who runs a task has not left the loop
    have hbusy : ¬ ∀ i, q.workers i = .finished := by
      intro hfinished
      obtain ⟨i⟩ := ‹Nonempty ι›
      exact absurd ((hrunning i).symm.trans (hfinished i)) (by decide)
    refine ⟨destroy_tasks.2, fun hq => ?_⟩
    rw [step, destroy]
    cases hdestructor : q.destructor with
    | before => simp
    | notifying => simp
    | joining =>
      simp only [if_neg hbusy]
      rw [hdestructor]
      simp
    | joined => exact absurd hdestructor hq

end Busy

end ThreadSafeQueue

end GatewayServer
