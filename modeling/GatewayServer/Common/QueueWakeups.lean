import GatewayServer.Common.QueueOrder

/-!
# Waking the workers

A worker goes to sleep in `cv_.wait` after it has seen an empty queue, and a thread that has pushed
a task notifies before it gives the mutex up. In between nobody else gets the mutex, so while there
are tasks somebody is awake to take them.

## Main definitions

* `ThreadSafeQueue.Awake` — a worker is awake, or about to be notified, while there are tasks

## Main results

* `Awake.step` — every step keeps it
* `exists_not_blocked` — tasks are not left to workers that all sleep
-/

namespace GatewayServer

open Lib

namespace ThreadSafeQueue

variable {ι κ α : Type} {q t : ThreadSafeQueue ι κ α}

/-- While there are tasks, a worker is awake or about to be notified. -/
def Awake (q : ThreadSafeQueue ι κ α) : Prop :=
  q.tasks.queue ≠ [] → (∃ i, q.workers i ≠ .blocked) ∨ ∃ k, q.pushers k = .notifying

theorem awake_start : (start : ThreadSafeQueue ι κ α).Awake := fun hqueue => absurd rfl hqueue

/-- A worker that is awake. -/
theorem Awake.of_worker {i : ι} (hi : q.workers i ≠ .blocked) : q.Awake :=
  fun _ => .inl ⟨i, hi⟩

/-- A worker that has gone to a point at which it is awake. -/
theorem Awake.of_goto [DecidableEq ι] {i : ι} {point : WorkerPoint} (hpoint : point ≠ .blocked) :
    (q.goto i point).Awake := by
  refine .of_worker (i := i) ?_
  rw [workers_goto_self]
  exact hpoint

namespace Awake

variable (h : q.Awake)
include h

/-- Whatever a worker does leaves somebody awake. -/
theorem workerMove [DecidableEq ι] (hsound : q.Sound) {i : ι} (hmove : q.WorkerMove i t) :
    t.Awake := by
  cases hmove with
  | stays => exact h
  | goes point _ _ hawake _ => exact .of_goto hawake
  | locks point _ hlocked _ _ =>
    refine .of_goto ?_
    rintro rfl
    exact Bool.false_ne_true hlocked
  | unlocks point _ _ hblocked _ =>
    by_cases hpoint : point = .blocked
    · -- it had the mutex until now, so the queue is as empty as it has seen it
      intro hqueue
      exact absurd (hsound.blocking i (hblocked hpoint)) hqueue
    · exact .of_goto hpoint
  | takes task rest _ _ => exact .of_goto (by decide)
  | ends _ => exact .of_goto (by decide)

/-- A thread that does not notify goes on. -/
theorem pusherGoto [DecidableEq κ] {k : κ} (hk : q.pushers k ≠ .notifying)
    (point : PusherPoint α) : (q.pusherGoto k point).Awake := by
  intro hqueue
  obtain hworker | ⟨j, hj⟩ := h hqueue
  · exact .inl hworker
  · refine .inr ⟨j, ?_⟩
    have hne : j ≠ k := by
      rintro rfl
      exact hk hj
    rw [pushers_pusherGoto_of_ne hne]
    exact hj

theorem pusherMove [DecidableEq κ] {k : κ} (hmove : q.PusherMove k t) : t.Awake := by
  cases hmove with
  | stays => exact h
  | calls task hk => exact h.pusherGoto (by simp [hk]) _
  | locks task hk _ =>
    have hgoto : (q.pusherGoto k (.inserting task)).Awake := h.pusherGoto (by simp [hk]) _
    exact hgoto
  -- whoever has inserted a task notifies next
  | inserts task _ => exact fun _ => .inr ⟨k, pushers_pusherGoto_self⟩
  | unlocks hk =>
    have hgoto : (q.pusherGoto k .idle).Awake := h.pusherGoto (by simp [hk]) _
    exact hgoto

theorem notifyOne [DecidableEq ι] [DecidableEq κ] [Fintype ι] [Nonempty ι] (k : κ)
    (woken : Option ι) : (q.notifyOne k woken).Awake := by
  obtain hsame | ⟨-, ⟨i, -, hwoken⟩ | ⟨hawake, hnobody⟩⟩ := q.notifyOne_cases k woken
  · rw [hsame]
    exact h
  · have hgoto : (q.goto i .woken).workers i ≠ .blocked := by
      rw [workers_goto_self]
      decide
    rw [hwoken]
    exact .of_worker hgoto
  -- a notification that wakes nobody finds everybody awake
  · rw [hnobody]
    exact .of_worker (hawake (Classical.arbitrary ι))

theorem destroy [Fintype ι] : q.destroy.Awake := by
  unfold ThreadSafeQueue.destroy
  cases q.destructor with
  | before => exact h
  | notifying =>
    intro hqueue
    obtain ⟨i, hi⟩ | hpusher := h hqueue
    · exact .inl ⟨i, by simp [hi]⟩
    · exact .inr hpusher
  | joining =>
    simp only []
    split
    · exact h
    · exact h
  | joined => exact h

/-- Every step leaves somebody awake. -/
theorem step [DecidableEq ι] [DecidableEq κ] [Fintype ι] [Nonempty ι] (hsound : q.Sound)
    (l : QueueLabel ι κ α) : (q.step l).Awake := by
  cases l with
  | push k task => exact h.pusherMove (q.callPush_move k task)
  | pusher k => exact h.pusherMove (q.pushStep_move k)
  | notify k woken => exact h.notifyOne k woken
  | worker i => exact h.workerMove hsound (q.work_move i)
  | ended i result => exact h.workerMove hsound (q.endTask_move i result)
  | spurious i => exact h.workerMove hsound (q.wake_move i)
  | destroy => exact h.destroy

end Awake

section Runs

variable [DecidableEq ι] [DecidableEq κ] [Fintype ι] [Nonempty ι]

theorem awake_foldl (labels : List (QueueLabel ι κ α)) :
    (labels.foldl step (start : ThreadSafeQueue ι κ α)).Awake := by
  have hboth : (labels.foldl step (start : ThreadSafeQueue ι κ α)).Sound ∧
      (labels.foldl step (start : ThreadSafeQueue ι κ α)).Awake :=
    List.foldlRecOn (motive := fun q : ThreadSafeQueue ι κ α => q.Sound ∧ q.Awake) labels step
      ⟨sound_start, awake_start⟩ fun _ h l _ => ⟨h.1.step l, h.2.step h.1 l⟩
  exact hboth.2

/-- Outside the critical section of `push`, a task in the queue is never left to workers that are
all blocked. -/
theorem exists_not_blocked (labels : List (QueueLabel ι κ α)) :
    let q := labels.foldl step (start : ThreadSafeQueue ι κ α)
    (∀ k, (q.pushers k).locked = false) → q.tasks.queue ≠ [] → ∃ i, q.workers i ≠ .blocked := by
  intro q houtside hqueue
  have hawake : q.Awake := awake_foldl labels
  obtain hworker | ⟨k, hk⟩ := hawake hqueue
  · exact hworker
  · have hlocked := houtside k
    rw [hk] at hlocked
    exact absurd hlocked (by simp [PusherPoint.locked])

end Runs

theorem exists_not_blocked_pushAndWake :
    ∃ i, ((bothSleep ++ pushAndWake).foldl step start).workers i ≠ .blocked :=
  exists_not_blocked (bothSleep ++ pushAndWake) (by decide) (by decide)

end ThreadSafeQueue

end GatewayServer
