import GatewayServer.Common.ThreadSafeQueue
import GatewayServer.Lib.Run

/-!
# Shutting the queue down

`~ThreadSafeQueue` sets `quit_`, notifies all workers and joins them. It does all this without
`cv_mutex_`, so it may notify while a worker has found that it has to wait and does not wait yet.
Nobody notifies that worker again, and the destructor waits for it.

## Main definitions

* `ThreadSafeQueue.NoneAsleep` — after `cv_.notify_all` nobody is blocked
* `ThreadSafeQueue.NotifiesInTime` — `cv_.notify_all` is called while nobody is about to block
* `ThreadSafeQueue.LeftAsleep` — a worker is blocked, and the destructor waits for it

## Main results

* `noneAsleep_iff` — when nobody is left asleep
* `LeftAsleep.foldl` — a worker that is left asleep keeps the destructor waiting
-/

namespace GatewayServer

open Lib

/-- The destructor has called `cv_.notify_all`. -/
def DestructorPoint.notified : DestructorPoint → Bool
  | .before | .notifying => false
  | .joining | .joined => true

/-- A worker that has found the predicate of `cv_.wait` false, up to the next notification. -/
def WorkerPoint.asleep : WorkerPoint → Bool
  | .blocking | .blocked => true
  | _ => false

/-- What can wake a worker that is blocked. -/
def QueueLabel.wakes {ι κ α : Type} : QueueLabel ι κ α → Bool
  | .notify _ _ | .spurious _ => true
  | _ => false

namespace ThreadSafeQueue

variable {ι κ α : Type} {q t : ThreadSafeQueue ι κ α}

/-- After `cv_.notify_all` no worker is blocked in `cv_.wait` without a notification. -/
def NoneAsleep (q : ThreadSafeQueue ι κ α) : Prop :=
  q.destructor.notified = true → ∀ i, q.workers i ≠ .blocked

/-- The destructor calls `cv_.notify_all` while no worker stands between the predicate of `cv_.wait`
and its block. -/
def NotifiesInTime (q : ThreadSafeQueue ι κ α) : QueueLabel ι κ α → Prop
  | .destroy => q.destructor = .notifying → ∀ i, q.workers i ≠ .blocking
  | _ => True

/-! ## Nobody goes to sleep -/

/-- `quit_` is set before the destructor notifies, and nobody is asleep after it. -/
structure AllNotified (q : ThreadSafeQueue ι κ α) : Prop where
  quit : q.destructor ≠ .before → q.quit = true
  awake : q.destructor.notified = true → ∀ i, (q.workers i).asleep = false

theorem allNotified_start : (start : ThreadSafeQueue ι κ α).AllNotified where
  quit hbefore := absurd rfl hbefore
  awake hnotified := absurd hnotified Bool.false_ne_true

/-- Once `quit_` is set, the predicate of `cv_.wait` is true. -/
theorem asleep_work [DecidableEq ι] {i : ι} (hquit : q.quit = true)
    (hawake : (q.workers i).asleep = false) : ((q.work i).workers i).asleep = false := by
  unfold work
  cases hi : q.workers i with
  | head => simp [goto, hquit, WorkerPoint.asleep]
  | locking =>
    cases hmutex : q.mutex with
    | none => simp [goto, WorkerPoint.asleep]
    | some t => simp [hi, WorkerPoint.asleep]
  -- `quit_` is the second half of the predicate
  | checking => simp [goto, hquit, WorkerPoint.asleep]
  | blocking => exact absurd hawake (by simp [hi, WorkerPoint.asleep])
  | blocked => exact absurd hawake (by simp [hi, WorkerPoint.asleep])
  | woken =>
    cases hmutex : q.mutex with
    | none => simp [goto, WorkerPoint.asleep]
    | some t => simp [hi, WorkerPoint.asleep]
  | taking =>
    cases hqueue : q.tasks.queue with
    | nil => simp [goto, WorkerPoint.asleep]
    | cons task rest => simp [goto, WorkerPoint.asleep]
  | unlocking => simp [goto, WorkerPoint.asleep]
  | running => simp [hi, WorkerPoint.asleep]
  | leaving =>
    cases hmutex : q.mutex with
    | none => simp [goto, WorkerPoint.asleep]
    | some t => simp [hi, WorkerPoint.asleep]
  | closing => simp [goto, WorkerPoint.asleep]
  | finished => simp [hi, WorkerPoint.asleep]

namespace AllNotified

variable (h : q.AllNotified)
include h

/-- A step that moves one worker, to a point at which it is awake if it was before. -/
theorem of_worker {i : ι} (hquit : t.quit = q.quit) (hdestructor : t.destructor = q.destructor)
    (hothers : ∀ j, j ≠ i → t.workers j = q.workers j)
    (hi : q.quit = true → (q.workers i).asleep = false → (t.workers i).asleep = false) :
    t.AllNotified := by
  refine ⟨?_, ?_⟩
  · rw [hquit, hdestructor]
    exact h.quit
  · intro hnotified j
    rw [hdestructor] at hnotified
    have hset : q.quit = true := by
      refine h.quit ?_
      intro hbefore
      rw [hbefore] at hnotified
      exact Bool.false_ne_true hnotified
    by_cases hj : j = i
    · rw [hj]
      exact hi hset (h.awake hnotified i)
    · rw [hothers j hj]
      exact h.awake hnotified j

theorem pusherMove [DecidableEq κ] {k : κ} (hmove : q.PusherMove k t) : t.AllNotified := by
  refine ⟨?_, ?_⟩
  · rw [hmove.quit, hmove.destructor]
    exact h.quit
  · rw [hmove.destructor, hmove.workers]
    exact h.awake

theorem work [DecidableEq ι] (i : ι) : (q.work i).AllNotified :=
  have hmove := q.work_move i
  h.of_worker hmove.quit hmove.destructor (fun _ hj => hmove.workers_of_ne hj) asleep_work

theorem endTask [DecidableEq ι] (i : ι) (result : TaskEnd) : (q.endTask i result).AllNotified := by
  have hmove := q.endTask_move i result
  refine h.of_worker hmove.quit hmove.destructor (fun _ hj => hmove.workers_of_ne hj) ?_
  intro _ hawake
  unfold ThreadSafeQueue.endTask
  cases hi : q.workers i with
  | running => cases result <;> simp [goto, TaskEnd.next, WorkerPoint.asleep]
  | _ => exact hawake

theorem wake [DecidableEq ι] (i : ι) : (q.wake i).AllNotified := by
  have hmove := q.wake_move i
  refine h.of_worker hmove.quit hmove.destructor (fun _ hj => hmove.workers_of_ne hj) ?_
  intro _ hawake
  unfold ThreadSafeQueue.wake
  cases hi : q.workers i with
  | blocked => simp [goto, WorkerPoint.asleep]
  | _ => exact hawake

theorem notifyOne [DecidableEq ι] [DecidableEq κ] [Fintype ι] (k : κ) (woken : Option ι) :
    (q.notifyOne k woken).AllNotified := by
  obtain hsame | ⟨-, ⟨i, -, hwoken⟩ | ⟨-, hnobody⟩⟩ := q.notifyOne_cases k woken
  · rw [hsame]
    exact h
  · rw [hwoken]
    refine h.of_worker (i := i) rfl rfl (fun _ hj => workers_goto_of_ne hj) fun _ _ => ?_
    exact (congrArg WorkerPoint.asleep workers_goto_self).trans rfl
  · rw [hnobody]
    exact ⟨h.quit, h.awake⟩

/-- `cv_.notify_all` reaches everybody who is asleep, unless somebody has not blocked yet. -/
theorem destroy [Fintype ι] (hok : q.destructor = .notifying → ∀ i, q.workers i ≠ .blocking) :
    q.destroy.AllNotified := by
  unfold ThreadSafeQueue.destroy
  cases hdestructor : q.destructor with
  | before => exact ⟨fun _ => rfl, fun hnotified => absurd hnotified Bool.false_ne_true⟩
  | notifying =>
    refine ⟨fun _ => h.quit (by simp [hdestructor]), fun _ i => ?_⟩
    -- whoever is blocked is woken, so only who is about to block could stay asleep
    have hblocking : q.workers i ≠ .blocking := hok hdestructor i
    cases hi : q.workers i with
    | blocking => exact absurd hi hblocking
    | _ => simp [hi, WorkerPoint.asleep]
  | joining =>
    simp only []
    split
    · refine ⟨fun _ => h.quit (by simp [hdestructor]), fun _ => h.awake ?_⟩
      simp [hdestructor, DestructorPoint.notified]
    · exact h
  | joined => exact h

/-- A step keeps everybody awake if the destructor notifies in time. -/
theorem step [DecidableEq ι] [DecidableEq κ] [Fintype ι] {l : QueueLabel ι κ α}
    (hok : q.NotifiesInTime l) : (q.step l).AllNotified := by
  cases l with
  | push k task => exact h.pusherMove (q.callPush_move k task)
  | pusher k => exact h.pusherMove (q.pushStep_move k)
  | notify k woken => exact h.notifyOne k woken
  | worker i => exact h.work i
  | ended i result => exact h.endTask i result
  | spurious i => exact h.wake i
  | destroy => exact h.destroy hok

theorem noneAsleep : q.NoneAsleep := by
  intro hnotified i hi
  have hawake : (q.workers i).asleep = false := h.awake hnotified i
  rw [hi] at hawake
  exact Bool.false_ne_true hawake.symm

end AllNotified

/-! ## Left asleep -/

/-- A worker that was about to block when the destructor notified is left asleep. -/
theorem not_noneAsleep_work [DecidableEq ι] [Fintype ι] {i : ι}
    (hdestructor : q.destructor = .notifying) (hi : q.workers i = .blocking) :
    ¬ (q.destroy.work i).NoneAsleep := by
  intro hnone
  -- the notification passes it by, and then it blocks
  have hdestroy : q.destroy.workers i = .blocking := by simp [destroy, hdestructor, hi]
  have hwork : q.destroy.work i = { q.destroy with mutex := none }.goto i .blocked := by
    simp only [work, hdestroy]
  refine hnone ?_ i ?_
  · rw [(q.destroy.work_move i).destructor]
    simp [destroy, hdestructor, DestructorPoint.notified]
  · rw [hwork, workers_goto_self]

/-- A worker is blocked, and the destructor is past `cv_.notify_all` and waits for it. -/
def LeftAsleep (q : ThreadSafeQueue ι κ α) (i : ι) : Prop :=
  q.workers i = .blocked ∧ q.destructor = .joining

namespace LeftAsleep

variable {i : ι} (h : q.LeftAsleep i)
include h

theorem workerMove [DecidableEq ι] {j : ι} (hmove : q.WorkerMove j t) (hj : i ≠ j) :
    t.LeftAsleep i :=
  ⟨(hmove.workers_of_ne hj).trans h.1, hmove.destructor.trans h.2⟩

theorem pusherMove [DecidableEq κ] {k : κ} (hmove : q.PusherMove k t) : t.LeftAsleep i :=
  ⟨(congrFun hmove.workers i).trans h.1, hmove.destructor.trans h.2⟩

/-- Nothing but a notification changes it. -/
theorem step [DecidableEq ι] [DecidableEq κ] [Fintype ι] {l : QueueLabel ι κ α}
    (hl : l.wakes = false) : (q.step l).LeftAsleep i := by
  cases l with
  | push k task => exact h.pusherMove (q.callPush_move k task)
  | pusher k => exact h.pusherMove (q.pushStep_move k)
  | notify k woken => exact absurd hl (by simp [QueueLabel.wakes])
  | worker j =>
    by_cases hj : i = j
    · subst hj
      have hwork : q.work i = q := by simp only [work, h.1]
      rw [ThreadSafeQueue.step, hwork]
      exact h
    · exact h.workerMove (q.work_move j) hj
  | ended j result =>
    by_cases hj : i = j
    · subst hj
      have hend : q.endTask i result = q := by simp only [endTask, h.1]
      rw [ThreadSafeQueue.step, hend]
      exact h
    · exact h.workerMove (q.endTask_move j result) hj
  | spurious j => exact absurd hl (by simp [QueueLabel.wakes])
  | destroy =>
    -- the destructor joins this worker too
    have hunfinished : ¬ ∀ j, q.workers j = .finished := by
      intro hall
      exact absurd (h.1.symm.trans (hall i)) (by simp)
    have hdestroy : q.destroy = q := by simp only [destroy, h.2, hunfinished, if_false]
    rw [ThreadSafeQueue.step, hdestroy]
    exact h

/-- As long as nobody notifies, the destructor waits. -/
theorem foldl [DecidableEq ι] [DecidableEq κ] [Fintype ι] {more : List (QueueLabel ι κ α)}
    (hmore : ∀ l ∈ more, l.wakes = false) :
    (more.foldl ThreadSafeQueue.step q).LeftAsleep i :=
  List.foldlRecOn (motive := fun q : ThreadSafeQueue ι κ α => q.LeftAsleep i) more
    ThreadSafeQueue.step h fun _ h l hl => h.step (hmore l hl)

end LeftAsleep

section Runs

variable [DecidableEq ι] [DecidableEq κ] [Fintype ι]

/-- Of a run every state after `cv_.notify_all` is without a worker that is left asleep, whatever
the workers and the threads that push go on to do, exactly when no worker was about to block when
`cv_.notify_all` was called. -/
theorem noneAsleep_iff (labels : List (QueueLabel ι κ α)) :
    (∀ before, before <+: labels → ∀ more : List (QueueLabel ι κ α), (∀ l ∈ more, l ≠ .destroy) →
        ((before ++ more).foldl step start).NoneAsleep) ↔
      Along step NotifiesInTime start labels := by
  apply forall_continued_iff_along (I := AllNotified)
  · intro q l h hok
    exact h.step hok
  · intro q l hl
    cases l with
    | destroy => exact absurd rfl hl
    | _ => trivial
  · intro q h
    exact h.noneAsleep
  · intro q l h hl
    cases l with
    | destroy =>
      simp only [NotifiesInTime, not_forall, not_not] at hl
      obtain ⟨hdestructor, i, hi⟩ := hl
      exact ⟨[.worker i], by simp, not_noneAsleep_work hdestructor hi⟩
    | _ => exact absurd trivial hl
  · exact allNotified_start

end Runs

/-- A worker finds that it has to wait, the destructor sets `quit_` and notifies, and the worker
blocks. -/
def missedNotification (i : ι) : List (QueueLabel ι Unit String) :=
  [.worker i, .worker i, .worker i, .destroy, .destroy, .worker i]

theorem not_noneAsleep_missedNotification :
    let q := (missedNotification (0 : Fin 4)).foldl step start
    ¬ q.NoneAsleep ∧ ∀ more : List (QueueLabel (Fin 4) Unit String),
      (∀ l ∈ more, l.wakes = false) → (more.foldl step q).destructor = .joining := by
  intro q
  have hasleep : q.LeftAsleep 0 := ⟨by decide, by decide⟩
  refine ⟨?_, fun more hmore => (hasleep.foldl hmore).2⟩
  intro hnone
  exact hnone (by rw [hasleep.2]; rfl) 0 hasleep.1

end ThreadSafeQueue

end GatewayServer
