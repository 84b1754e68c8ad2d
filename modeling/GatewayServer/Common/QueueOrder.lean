import GatewayServer.Common.ThreadSafeQueue
import GatewayServer.Lib.Lock
import GatewayServer.Lib.Run

/-!
# The order of the tasks

Tasks are inserted and taken by whoever has `cv_mutex_`. Whatever the order of the steps, they
leave the queue as they came, and before the queue is destroyed no worker stops taking them.

## Main definitions

* `ThreadSafeQueue.Sound` — the mutex guards the critical sections, and no task gets lost
* `ThreadSafeQueue.InLoop` — no worker has left its loop

## Main results

* `Sound.step`, `InLoop.step` — every step keeps the one, and every step before the destructor the
  other
* `posted_eq_taken_append` — tasks are taken in the order in which they were pushed
-/

namespace GatewayServer

open Lib

namespace ThreadSafeQueue

variable {ι κ α : Type} {q t : ThreadSafeQueue ι κ α}

/-! ## Critical sections and tasks -/

/-- Exactly the owner of the mutex is in a critical section, tasks keep their order, none is lost,
and a worker that is about to block has seen an empty queue. -/
structure Sound (q : ThreadSafeQueue ι κ α) : Prop where
  guarded : Guarded q.mutex q.Inside
  fifo : q.tasks.Fifo
  conserved : q.tasks.posted = q.taken ++ q.tasks.queue
  blocking : ∀ i, q.workers i = .blocking → q.tasks.queue = []

theorem sound_start : (start : ThreadSafeQueue ι κ α).Sound where
  guarded := by
    refine .free ?_
    rintro (i | k)
    · exact Bool.false_ne_true
    · exact Bool.false_ne_true
  fifo := .empty
  conserved := rfl
  blocking _ hi := absurd hi (by simp [start])

namespace Sound

variable (h : q.Sound)
include h

/-- A worker goes on with the mutex as it is. -/
theorem goto [DecidableEq ι] {i : ι} {point : WorkerPoint}
    (hlocked : point.locked = (q.workers i).locked)
    (hblocking : point = .blocking → q.tasks.queue = []) : (q.goto i point).Sound where
  guarded := by
    refine h.guarded.congr ?_
    intro t
    by_cases ht : t = .inl i
    · rw [ht, inside_goto_self, hlocked]
      exact Iff.rfl
    · exact inside_goto_of_ne ht
  fifo := h.fifo
  conserved := h.conserved
  blocking := blocking_goto hblocking h.blocking

/-- Whatever a worker does keeps the tasks and the critical sections in order. -/
theorem workerMove [DecidableEq ι] {i : ι} (hmove : q.WorkerMove i t) : t.Sound := by
  cases hmove with
  | stays => exact h
  | goes point hlocked hblocking _ _ => exact h.goto hlocked hblocking
  | locks point hfree hlocked hblocking _ =>
    refine ⟨?_, h.fifo, h.conserved,
      blocking_goto (fun hpoint => absurd hpoint hblocking) h.blocking⟩
    exact (hfree ▸ h.guarded).acquire (inside_goto_self.mpr hlocked) fun _ ht =>
      inside_goto_of_ne ht
  | unlocks point hi hlocked _ _ =>
    have hblocking : point ≠ .blocking := by
      rintro rfl
      exact Bool.false_ne_true hlocked.symm
    refine ⟨?_, h.fifo, h.conserved,
      blocking_goto (fun hpoint => absurd hpoint hblocking) h.blocking⟩
    refine h.guarded.release (t := .inl i) hi ?_ fun _ ht => inside_goto_of_ne ht
    rw [inside_goto_self, hlocked]
    exact Bool.false_ne_true
  | takes task rest hi hqueue =>
    have hgoto : (q.goto i .unlocking).Sound := h.goto (by rw [hi]; rfl) (by simp)
    refine ⟨hgoto.guarded, h.fifo.take i, ?_, ?_⟩
    · have hconserved := h.conserved
      rw [hqueue] at hconserved
      simp [WorkQueue.take_cons hqueue, hconserved]
    · -- there is a task, so nobody was about to block
      intro j hj
      exact absurd (hqueue.symm.trans (hgoto.blocking j hj)) (by simp)
  | ends hi =>
    have hgoto : (q.goto i .head).Sound := h.goto (by rw [hi]; rfl) (by simp)
    exact ⟨hgoto.guarded, h.fifo.release i, hgoto.conserved, hgoto.blocking⟩

/-- A thread that pushes goes on with the mutex as it is. -/
theorem pusherGoto [DecidableEq κ] {k : κ} {point : PusherPoint α}
    (hlocked : point.locked = (q.pushers k).locked) : (q.pusherGoto k point).Sound where
  guarded := by
    refine h.guarded.congr ?_
    intro t
    by_cases ht : t = .inr k
    · rw [ht, inside_pusherGoto_self, hlocked]
      exact Iff.rfl
    · exact inside_pusherGoto_of_ne ht
  fifo := h.fifo
  conserved := h.conserved
  blocking := h.blocking

/-- Nobody is about to block while a task is inserted. -/
theorem not_blocking {k : κ} (hk : (q.pushers k).locked = true) (i : ι) :
    q.workers i ≠ .blocking := by
  intro hi
  have hworker : q.Inside (.inl i) := by
    rw [Inside, hi]
    rfl
  have hpusher : q.Inside (.inr k) := hk
  exact absurd (h.guarded.unique hworker hpusher) (by simp)

theorem pusherMove [DecidableEq κ] {k : κ} (hmove : q.PusherMove k t) : t.Sound := by
  cases hmove with
  | stays => exact h
  | calls task hk => exact h.pusherGoto (by rw [hk]; rfl)
  | locks task hk hfree =>
    refine ⟨?_, h.fifo, h.conserved, h.blocking⟩
    exact (hfree ▸ h.guarded).acquire (inside_pusherGoto_self.mpr rfl) fun _ ht =>
      inside_pusherGoto_of_ne ht
  | inserts task hk =>
    -- the pusher has the mutex, so no worker is between its check and its wait
    have hlocked : (q.pushers k).locked = true := by
      rw [hk]
      rfl
    have hgoto : (q.pusherGoto k .notifying).Sound := h.pusherGoto hlocked.symm
    refine ⟨hgoto.guarded, h.fifo.post task, ?_, fun i hi => absurd hi (h.not_blocking hlocked i)⟩
    show (q.tasks.post task).posted = q.taken ++ (q.tasks.post task).queue
    rw [WorkQueue.posted_post, WorkQueue.queue_post, h.conserved, List.append_assoc]
  | unlocks hk =>
    refine ⟨h.guarded.release (t := .inr k) ?_ ?_ fun _ ht => inside_pusherGoto_of_ne ht,
      h.fifo, h.conserved, h.blocking⟩
    · rw [Inside, hk]
      rfl
    · rw [inside_pusherGoto_self]
      exact Bool.false_ne_true

theorem notifyOne [DecidableEq ι] [DecidableEq κ] [Fintype ι] (k : κ) (woken : Option ι) :
    (q.notifyOne k woken).Sound := by
  obtain hsame | ⟨hk, hnotified⟩ := q.notifyOne_cases k woken
  · rw [hsame]
    exact h
  · have hlocked : (PusherPoint.unlocking : PusherPoint α).locked = (q.pushers k).locked := by
      rw [hk]
      rfl
    obtain ⟨i, hi, hwoken⟩ | ⟨-, hnobody⟩ := hnotified
    · rw [hwoken]
      exact (h.goto (by rw [hi]; rfl) (by simp)).pusherGoto hlocked
    · rw [hnobody]
      exact h.pusherGoto hlocked

theorem destroy [Fintype ι] : q.destroy.Sound := by
  unfold ThreadSafeQueue.destroy
  cases q.destructor with
  | before => exact ⟨h.guarded, h.fifo, h.conserved, h.blocking⟩
  | notifying =>
    refine ⟨h.guarded.congr ?_, h.fifo, h.conserved, ?_⟩
    · rintro (i | k)
      · by_cases hi : q.workers i = .blocked
        · simp [Inside, hi, WorkerPoint.locked]
        · simp [Inside, hi]
      · exact Iff.rfl
    · intro i hi
      by_cases hblocked : q.workers i = .blocked
      · exact absurd hi (by simp [hblocked])
      · exact h.blocking i (by simpa [hblocked] using hi)
  | joining =>
    simp only []
    split
    · exact ⟨h.guarded, h.fifo, h.conserved, h.blocking⟩
    · exact h
  | joined => exact h

/-- Every step keeps the tasks and the critical sections in order. -/
theorem step [DecidableEq ι] [DecidableEq κ] [Fintype ι] (l : QueueLabel ι κ α) :
    (q.step l).Sound := by
  cases l with
  | push k task => exact h.pusherMove (q.callPush_move k task)
  | pusher k => exact h.pusherMove (q.pushStep_move k)
  | notify k woken => exact h.notifyOne k woken
  | worker i => exact h.workerMove (q.work_move i)
  | ended i result => exact h.workerMove (q.endTask_move i result)
  | spurious i => exact h.workerMove (q.wake_move i)
  | destroy => exact h.destroy

end Sound

/-! ## Nobody leaves -/

/-- Nobody has asked the workers to leave, and none has left its loop. -/
def InLoop (q : ThreadSafeQueue ι κ α) : Prop :=
  q.quit = false ∧ ∀ i, (q.workers i).inLoop = true

namespace InLoop

variable (h : q.InLoop)
include h

/-- A worker goes to another point of its loop. -/
theorem goto [DecidableEq ι] {i : ι} {point : WorkerPoint} (hpoint : point.inLoop = true) :
    (q.goto i point).InLoop := by
  refine ⟨h.1, ?_⟩
  intro j
  by_cases hj : j = i
  · rw [hj, workers_goto_self]
    exact hpoint
  · rw [workers_goto_of_ne hj]
    exact h.2 j

theorem workerMove [DecidableEq ι] {i : ι} (hmove : q.WorkerMove i t) : t.InLoop := by
  cases hmove with
  | stays => exact h
  | goes point _ _ _ hleave =>
    refine h.goto ?_
    by_contra hout
    -- nobody leaves who is in its loop and has not been asked to
    rcases hleave (by simpa using hout) with hquit | hleft
    · exact Bool.false_ne_true (h.1.symm.trans hquit)
    · exact Bool.false_ne_true (hleft.symm.trans (h.2 i))
  | locks point _ _ _ hloop => exact h.goto (hloop.trans (h.2 i))
  | unlocks point _ _ _ hloop => exact h.goto (hloop.trans (h.2 i))
  | takes task rest _ _ => exact h.goto rfl
  | ends _ => exact h.goto rfl

theorem pusherMove [DecidableEq κ] {k : κ} (hmove : q.PusherMove k t) : t.InLoop := by
  cases hmove with
  | stays => exact h
  | calls task _ => exact h
  | locks task _ _ => exact h
  | inserts task _ => exact h
  | unlocks _ => exact h

/-- Before the destructor is called, every step keeps the workers in their loops. -/
theorem step [DecidableEq ι] [DecidableEq κ] [Fintype ι] {l : QueueLabel ι κ α}
    (hl : l ≠ .destroy) : (q.step l).InLoop := by
  cases l with
  | push k task => exact h.pusherMove (q.callPush_move k task)
  | pusher k => exact h.pusherMove (q.pushStep_move k)
  | notify k woken =>
    rw [ThreadSafeQueue.step]
    obtain hsame | ⟨-, ⟨i, -, hwoken⟩ | ⟨-, hnobody⟩⟩ := q.notifyOne_cases k woken
    · rw [hsame]
      exact h
    · rw [hwoken]
      exact h.goto rfl
    · rw [hnobody]
      exact h
  | worker i => exact h.workerMove (q.work_move i)
  | ended i result => exact h.workerMove (q.endTask_move i result)
  | spurious i => exact h.workerMove (q.wake_move i)
  | destroy => exact absurd rfl hl

end InLoop

/-! ## Runs -/

section Runs

variable [DecidableEq ι] [DecidableEq κ] [Fintype ι]

theorem sound_foldl (labels : List (QueueLabel ι κ α)) :
    (labels.foldl step (start : ThreadSafeQueue ι κ α)).Sound :=
  List.foldlRecOn labels step sound_start fun _ h l _ => h.step l

theorem inLoop_foldl {labels : List (QueueLabel ι κ α)} (hlabels : .destroy ∉ labels) :
    (labels.foldl step (start : ThreadSafeQueue ι κ α)).InLoop := by
  refine List.foldlRecOn labels step ⟨rfl, fun _ => rfl⟩ ?_
  intro q h l hl
  exact h.step fun hdestroy => hlabels (hdestroy ▸ hl)

/-- Before the destructor is called, the tasks pushed so far are those that workers have taken, in
the order of taking, and after them those in the queue, each of them once; and no worker has left
its loop. A task is pushed here when it is in the queue: `pushed_step` ties these to the calls of
`push`. -/
theorem posted_eq_taken_append {labels : List (QueueLabel ι κ α)} (hlabels : .destroy ∉ labels) :
    let q := labels.foldl step (start : ThreadSafeQueue ι κ α)
    q.tasks.posted = q.taken ++ q.tasks.queue ∧ q.tasks.posted.Nodup ∧
      ∀ i, (q.workers i).inLoop = true := by
  intro q
  have hsound : q.Sound := sound_foldl labels
  have hnodup : q.tasks.posted.Nodup :=
    hsound.fifo.sorted.imp fun hlt heq => Nat.ne_of_lt hlt (congrArg Job.number heq)
  exact ⟨hsound.conserved, hnodup, (inLoop_foldl hlabels).2⟩

/-- Two workers sleep. -/
def bothSleep : List (QueueLabel Bool Unit String) :=
  List.replicate 4 (.worker false) ++ List.replicate 4 (.worker true)

/-- A task is pushed, and one of them is woken for it. -/
def pushAndWake : List (QueueLabel Bool Unit String) :=
  [.push () "task", .pusher (), .pusher (), .notify () (some false), .pusher ()]

/-- It takes the task, which throws. -/
def taskThrows : List (QueueLabel Bool Unit String) :=
  bothSleep ++ pushAndWake ++ List.replicate 4 (.worker false) ++ [.ended false .threw]

theorem posted_eq_taken_append_throws :
    let q := taskThrows.foldl step start
    q.tasks.posted = q.taken ++ q.tasks.queue ∧ q.tasks.posted.Nodup ∧
      ∀ i, (q.workers i).inLoop = true :=
  posted_eq_taken_append (by decide)

end Runs

end ThreadSafeQueue

end GatewayServer
