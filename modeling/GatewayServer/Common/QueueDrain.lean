import GatewayServer.Common.QueueTasks
import Mathlib.Data.Finset.Card

/-!
# What is left in the queue

The loop of a worker asks for `quit_` once for each task. Once it is set, a worker that is past the
question may still come to one task, a worker that is not takes none, and what nobody takes stays
in the queue when the destructor has joined the workers.

## Main definitions

* `ThreadSafeQueue.takers` — the workers that may yet take a task before they ask for `quit_`
* `ThreadSafeQueue.Drains` — what can happen to the tasks once `quit_` is set

## Main results

* `Drains.of_step` — a task that is taken costs one of the takers
* `taken_after_quit` — after `quit_` is set there is at most one more task for each of them
* `taken_of_joined` — after the join nobody takes a task, and nobody has one
-/

namespace GatewayServer

open Lib

/-- The points from which a worker comes to `queueTasks_.pop` and not to `while(!quit_)` first. -/
def WorkerPoint.mayTake : WorkerPoint → Bool
  | .locking | .checking | .blocking | .blocked | .woken | .taking => true
  | _ => false

namespace ThreadSafeQueue

variable {ι κ α : Type} {q t u : ThreadSafeQueue ι κ α}

section Takers

variable [Fintype ι]

/-- The workers that are past `while(!quit_)` and have not taken a task since. -/
def takers (q : ThreadSafeQueue ι κ α) : Finset ι := {i | (q.workers i).mayTake = true}

theorem mem_takers {i : ι} : i ∈ q.takers ↔ (q.workers i).mayTake = true := by
  simp [takers]

/-- Tasks are taken at the cost of the takers, and who has finished has finished. -/
structure Drains (q t : ThreadSafeQueue ι κ α) : Prop where
  quit : t.quit = true
  taken : ∃ late, t.taken = q.taken ++ late ∧ late.length + t.takers.card ≤ q.takers.card
  finished : ∀ i, q.workers i = .finished → t.workers i = .finished

namespace Drains

theorem refl (hquit : q.quit = true) : q.Drains q where
  quit := hquit
  taken := ⟨[], by simp⟩
  finished _ := id

theorem trans (h : q.Drains t) (h' : t.Drains u) : q.Drains u where
  quit := h'.quit
  taken := by
    obtain ⟨late, htaken, hcard⟩ := h.taken
    obtain ⟨late', htaken', hcard'⟩ := h'.taken
    refine ⟨late ++ late', ?_, ?_⟩
    · rw [htaken', htaken, List.append_assoc]
    · rw [List.length_append]
      omega
  finished i hi := h'.finished i (h.finished i hi)

/-- Nobody takes a task, and nobody comes past `while(!quit_)`. -/
theorem of_takers (hquit : t.quit = true) (htaken : t.taken = q.taken)
    (htakers : ∀ i, (t.workers i).mayTake = true → (q.workers i).mayTake = true)
    (hfinished : ∀ i, q.workers i = .finished → t.workers i = .finished) : q.Drains t where
  quit := hquit
  taken := by
    have hsub : t.takers ⊆ q.takers := fun i hi => mem_takers.mpr (htakers i (mem_takers.mp hi))
    refine ⟨[], by rw [htaken, List.append_nil], ?_⟩
    simpa using Finset.card_le_card hsub
  finished := hfinished

/-- The workers stay where they are. -/
theorem of_workers (hquit : t.quit = true) (htaken : t.taken = q.taken)
    (hworkers : t.workers = q.workers) : q.Drains t := by
  apply of_takers hquit htaken
  · intro i hi
    rwa [hworkers] at hi
  · intro i hi
    rw [hworkers, hi]

section Workers

variable [DecidableEq ι] {i : ι} {point : WorkerPoint}

/-- A worker goes to another point without a task. -/
theorem of_goto (hquit : t.quit = true) (htaken : t.taken = q.taken)
    (hworkers : t.workers = (q.goto i point).workers)
    (htake : point.mayTake = true → (q.workers i).mayTake = true)
    (hi : q.workers i ≠ .finished) : q.Drains t := by
  apply of_takers hquit htaken
  · intro j hj
    rw [hworkers] at hj
    by_cases hji : j = i
    · rw [hji, workers_goto_self] at hj
      rw [hji]
      exact htake hj
    · rwa [workers_goto_of_ne hji] at hj
  · intro j hj
    have hji : j ≠ i := by
      rintro rfl
      exact hi hj
    rw [hworkers, workers_goto_of_ne hji, hj]

/-- A worker takes a task, and is no taker any more. -/
theorem of_take {task : Job α} (hquit : q.quit = true) (hi : q.workers i = .taking) :
    q.Drains ({ q with tasks := q.tasks.take i, taken := q.taken ++ [task] }.goto i .unlocking)
    where
  quit := hquit
  taken := by
    refine ⟨[task], rfl, ?_⟩
    have htaker : i ∈ q.takers := by
      rw [mem_takers, hi]
      rfl
    -- the worker that takes is a taker, and the others are as before
    have hsub : takers
        ({ q with tasks := q.tasks.take i, taken := q.taken ++ [task] }.goto i .unlocking) ⊆
          q.takers.erase i := by
      intro j hj
      rw [mem_takers] at hj
      by_cases hji : j = i
      · rw [hji, workers_goto_self] at hj
        exact absurd hj Bool.false_ne_true
      · rw [workers_goto_of_ne hji] at hj
        exact Finset.mem_erase.mpr ⟨hji, mem_takers.mpr hj⟩
    have hcard := Finset.card_le_card hsub
    have hpos : 0 < q.takers.card := Finset.card_pos.mpr ⟨i, htaker⟩
    rw [Finset.card_erase_of_mem htaker] at hcard
    rw [List.length_singleton]
    omega
  finished j hj := by
    have hji : j ≠ i := by
      rintro rfl
      exact absurd (hi.symm.trans hj) (by simp)
    rw [workers_goto_of_ne hji, hj]

theorem of_work (hquit : q.quit = true) (i : ι) : q.Drains (q.work i) := by
  unfold ThreadSafeQueue.work
  cases hi : q.workers i with
  | head =>
    -- `quit_` is seen here
    rw [hquit]
    exact of_goto hquit rfl rfl (by simp [WorkerPoint.mayTake]) (by simp [hi])
  | locking =>
    cases q.mutex with
    | none => exact of_goto hquit rfl rfl (fun _ => by rw [hi]; rfl) (by simp [hi])
    | some _ => exact refl hquit
  | checking => exact of_goto hquit rfl rfl (fun _ => by rw [hi]; rfl) (by simp [hi])
  | blocking => exact of_goto hquit rfl rfl (fun _ => by rw [hi]; rfl) (by simp [hi])
  | blocked => exact refl hquit
  | woken =>
    cases q.mutex with
    | none => exact of_goto hquit rfl rfl (fun _ => by rw [hi]; rfl) (by simp [hi])
    | some _ => exact refl hquit
  | taking =>
    cases q.tasks.queue with
    | nil => exact of_goto hquit rfl rfl (by simp [WorkerPoint.mayTake]) (by simp [hi])
    | cons task rest => exact of_take hquit hi
  | unlocking => exact of_goto hquit rfl rfl (by simp [WorkerPoint.mayTake]) (by simp [hi])
  | running => exact refl hquit
  | leaving =>
    cases q.mutex with
    | none => exact of_goto hquit rfl rfl (by simp [WorkerPoint.mayTake]) (by simp [hi])
    | some _ => exact refl hquit
  | closing => exact of_goto hquit rfl rfl (by simp [WorkerPoint.mayTake]) (by simp [hi])
  | finished => exact refl hquit

theorem of_endTask (hquit : q.quit = true) (i : ι) (result : TaskEnd) :
    q.Drains (q.endTask i result) := by
  unfold ThreadSafeQueue.endTask
  cases hi : q.workers i with
  | running =>
    refine of_goto hquit rfl rfl ?_ (by simp [hi])
    cases result <;> simp [TaskEnd.next, WorkerPoint.mayTake]
  | _ => exact refl hquit

theorem of_wake (hquit : q.quit = true) (i : ι) : q.Drains (q.wake i) := by
  unfold ThreadSafeQueue.wake
  cases hi : q.workers i with
  | blocked => exact of_goto hquit rfl rfl (fun _ => by rw [hi]; rfl) (by simp [hi])
  | _ => exact refl hquit

end Workers

theorem of_pusherMove [DecidableEq κ] {k : κ} (hquit : q.quit = true) (hmove : q.PusherMove k t) :
    q.Drains t := by
  have htaken : t.taken = q.taken := by cases hmove <;> rfl
  exact of_workers (hmove.quit.trans hquit) htaken hmove.workers

theorem of_destroy (hquit : q.destructor ≠ .before → q.quit = true) : q.Drains q.destroy := by
  unfold ThreadSafeQueue.destroy
  cases hdestructor : q.destructor with
  | before => exact of_workers rfl rfl rfl
  | notifying =>
    refine of_takers (hquit (by simp [hdestructor])) rfl ?_ ?_
    · intro i hi
      by_cases hblocked : q.workers i = .blocked
      · rw [hblocked]
        rfl
      · simpa only [if_neg hblocked] using hi
    · intro i hi
      simp [hi]
  | joining =>
    have hset : q.quit = true := hquit (by simp [hdestructor])
    dsimp only
    split
    · exact of_workers hset rfl rfl
    · exact refl hset
  | joined => exact refl (hquit (by simp [hdestructor]))

variable [DecidableEq ι] [DecidableEq κ]

theorem of_notifyOne (hquit : q.quit = true) (k : κ) (woken : Option ι) :
    q.Drains (q.notifyOne k woken) := by
  obtain hsame | ⟨-, ⟨i, hi, hwoken⟩ | ⟨-, hnobody⟩⟩ := q.notifyOne_cases k woken
  · rw [hsame]
    exact refl hquit
  · rw [hwoken]
    exact of_goto hquit rfl rfl (fun _ => by rw [hi]; rfl) (by simp [hi])
  · rw [hnobody]
    exact of_workers hquit rfl rfl

/-- Once `quit_` is set, every step takes at most one task, and not without a taker. -/
theorem of_step (hquit : q.quit = true) (l : QueueLabel ι κ α) : q.Drains (q.step l) := by
  cases l with
  | push k task => exact of_pusherMove hquit (q.callPush_move k task)
  | pusher k => exact of_pusherMove hquit (q.pushStep_move k)
  | notify k woken => exact of_notifyOne hquit k woken
  | worker i => exact of_work hquit i
  | ended i result => exact of_endTask hquit i result
  | spurious i => exact of_wake hquit i
  | destroy => exact of_destroy fun _ => hquit

theorem of_foldl (hquit : q.quit = true) (more : List (QueueLabel ι κ α)) :
    q.Drains (more.foldl step q) :=
  List.foldlRecOn (motive := fun t : ThreadSafeQueue ι κ α => q.Drains t) more step (refl hquit)
    fun _ h l _ => h.trans (of_step h.quit l)

end Drains

end Takers

/-! ## The destructor -/

/-- `quit_` is set from the destructor's first step on, and when it has joined the workers they
have all finished. -/
structure Closes (q : ThreadSafeQueue ι κ α) : Prop where
  quit : q.destructor ≠ .before → q.quit = true
  joined : q.destructor = .joined → ∀ i, q.workers i = .finished

theorem closes_start : (start : ThreadSafeQueue ι κ α).Closes where
  quit hbefore := absurd rfl hbefore
  joined hjoined := absurd hjoined (by simp [start])

section Runs

variable [Fintype ι]

theorem Closes.destroy (h : q.Closes) : q.destroy.Closes := by
  unfold ThreadSafeQueue.destroy
  cases hdestructor : q.destructor with
  | before => exact ⟨fun _ => rfl, fun hjoined => absurd hjoined (by simp)⟩
  | notifying => exact ⟨fun _ => h.quit (by simp [hdestructor]), fun hj => absurd hj (by simp)⟩
  | joining =>
    dsimp only
    split
    · next hall => exact ⟨fun _ => h.quit (by simp [hdestructor]), fun _ => hall⟩
    · exact h
  | joined => exact h

variable [DecidableEq ι] [DecidableEq κ]

/-- Nobody but the destructor moves it or touches `quit_`. -/
theorem destructor_step {l : QueueLabel ι κ α} (hl : l ≠ .destroy) :
    (q.step l).destructor = q.destructor ∧ (q.step l).quit = q.quit := by
  cases l with
  | push k task => exact ⟨(q.callPush_move k task).destructor, (q.callPush_move k task).quit⟩
  | pusher k => exact ⟨(q.pushStep_move k).destructor, (q.pushStep_move k).quit⟩
  | notify k woken =>
    rw [step]
    obtain hsame | ⟨-, ⟨i, -, hwoken⟩ | ⟨-, hnobody⟩⟩ := q.notifyOne_cases k woken
    · rw [hsame]
      exact ⟨rfl, rfl⟩
    · rw [hwoken]
      exact ⟨rfl, rfl⟩
    · rw [hnobody]
      exact ⟨rfl, rfl⟩
  | worker i => exact ⟨(q.work_move i).destructor, (q.work_move i).quit⟩
  | ended i result => exact ⟨(q.endTask_move i result).destructor, (q.endTask_move i result).quit⟩
  | spurious i => exact ⟨(q.wake_move i).destructor, (q.wake_move i).quit⟩
  | destroy => exact absurd rfl hl

theorem Closes.step (h : q.Closes) (l : QueueLabel ι κ α) : (q.step l).Closes := by
  by_cases hl : l = .destroy
  · rw [hl]
    exact h.destroy
  · obtain ⟨hdestructor, hquit⟩ := destructor_step (q := q) hl
    constructor
    · intro hbefore
      rw [hquit]
      exact h.quit (hdestructor ▸ hbefore)
    · intro hjoined i
      rw [hdestructor] at hjoined
      have hset : q.quit = true := h.quit (by simp [hjoined])
      exact (Drains.of_step hset l).finished i (h.joined hjoined i)

theorem closes_foldl (labels : List (QueueLabel ι κ α)) :
    (labels.foldl step (start : ThreadSafeQueue ι κ α)).Closes :=
  List.foldlRecOn labels step closes_start fun _ h l _ => h.step l

theorem holds_foldl (labels : List (QueueLabel ι κ α)) :
    (labels.foldl step (start : ThreadSafeQueue ι κ α)).Holds :=
  List.foldlRecOn labels step holds_start fun _ h l _ => h.step l

/-- However a run goes on after a step of the destructor, the tasks that are taken from then on are
at most as many as there are workers past `while(!quit_)` that have no task yet. -/
theorem taken_after_quit (labels more : List (QueueLabel ι κ α)) :
    let q := labels.foldl step start
    ∃ late, (more.foldl step q.destroy).taken = q.taken ++ late ∧
      late.length ≤ q.takers.card := by
  intro q
  have hdestroy : q.Drains q.destroy := .of_destroy (closes_foldl labels).quit
  obtain ⟨late, htaken, hcard⟩ := (hdestroy.trans (.of_foldl hdestroy.quit more)).taken
  exact ⟨late, htaken, by omega⟩

/-- When the destructor has joined the workers, every task has been taken and ended, or is in the
queue, and whatever threads still push, no task leaves the queue any more. -/
theorem taken_of_joined {labels : List (QueueLabel ι κ α)}
    (hjoined : (labels.foldl step (start : ThreadSafeQueue ι κ α)).destructor = .joined)
    (more : List (QueueLabel ι κ α)) :
    let q := labels.foldl step (start : ThreadSafeQueue ι κ α)
    let t := more.foldl step q
    t.taken = q.taken ∧ (∀ i, t.tasks.held i = none) ∧
      t.tasks.posted = q.taken ++ t.tasks.queue := by
  intro q t
  have hcloses : q.Closes := closes_foldl labels
  have hfinished : ∀ i, q.workers i = .finished := hcloses.joined hjoined
  have hdrains : q.Drains t := .of_foldl (hcloses.quit (by simp [q, hjoined])) more
  have hrun : t = (labels ++ more).foldl step start := (List.foldl_append ..).symm
  have htaken : t.taken = q.taken := by
    obtain ⟨late, htaken, hcard⟩ := hdrains.taken
    -- nobody who has finished takes a task
    have htakers : q.takers = ∅ := by
      refine Finset.eq_empty_of_forall_notMem fun i hi => ?_
      rw [mem_takers, hfinished i] at hi
      exact Bool.false_ne_true hi
    have hlate : late = [] := by
      rw [htakers, Finset.card_empty] at hcard
      exact List.length_eq_zero_iff.mp (by omega)
    rw [htaken, hlate, List.append_nil]
  have hsound : t.Sound := hrun ▸ sound_foldl (labels ++ more)
  have hholds : t.Holds := hrun ▸ holds_foldl (labels ++ more)
  refine ⟨htaken, ?_, htaken ▸ hsound.conserved⟩
  intro i
  apply hholds.held_eq_none
  rw [hdrains.finished i (hfinished i)]
  rfl

/-- A worker sleeps, a task is pushed, and the destructor sets `quit_`, notifies, and joins the
worker, which has taken the task and left a second one. -/
def quitWithTask : List (QueueLabel Unit Unit String) :=
  List.replicate 4 (.worker ()) ++
    [.push () "first", .pusher (), .pusher (), .notify () (some ()), .pusher (),
      .push () "second", .pusher (), .pusher (), .notify () none, .pusher (), .destroy] ++
    List.replicate 4 (.worker ()) ++ [.ended () .returned] ++ List.replicate 3 (.worker ()) ++
    [.destroy, .destroy]

theorem taken_of_joined_quitWithTask :
    let q := quitWithTask.foldl step start
    let t := [QueueLabel.push () "third"].foldl step q
    t.taken = q.taken ∧ (∀ i, t.tasks.held i = none) ∧
      t.tasks.posted = q.taken ++ t.tasks.queue :=
  taken_of_joined (by decide) [.push () "third"]

end Runs

end ThreadSafeQueue

end GatewayServer
