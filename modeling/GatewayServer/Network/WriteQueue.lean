import GatewayServer.Lib.Run
import GatewayServer.Lib.WorkQueue
import GatewayServer.Network.SessionWrite
import Mathlib.Data.Fintype.Basic

/-!
# The workers of the write queue

`ThreadSafeQueue::worker` and `SocketWriter::writeImpl_`. Messages that are passed to
`ISession::write` leave the queue in their order. A worker that has taken one then competes with the
others for `mutexSocket_` of the session, which is held from the start of an `async_write` until its
handler runs.

## Main definitions

* `Writers`, `Writers.step` — the queue, the workers, and the sockets they write to
* `Writers.HandedInOrder` — of the messages of a session, the first ones are on their way
* `Writers.LocksInTurn` — a worker does not get the mutex before one that has an earlier message

## Main results

* `Writers.push_queueTasks` — the queue is the one that `ThreadSafeQueue::push` works on
* `Writers.handedInOrder_step_iff` — a step keeps the messages in order when it locks in turn
* `Writers.messagesInOrder_iff` — when messages are handed to the sockets in order
-/

namespace GatewayServer

open Lib

/-- Where a worker stands. -/
inductive WriterPoint where
  /-- At `while(!quit_)`. -/
  | head
  /-- In `cv_.wait`. -/
  | waiting
  /-- With a task that it has taken, before `socketWeak_.lock()`. -/
  | taken
  /-- With the task and the socket, before it has `mutexSocket_`. -/
  | locking
  | finished
  deriving DecidableEq, Repr

/-- The queue and its workers, and the sessions as far as the workers see them. -/
structure Writers (ι : Type) where
  /-- `queueTasks_`, and the tasks that workers have taken. -/
  tasks : WorkQueue ι Task
  points : ι → WriterPoint
  /-- `mutexSocket_` of a session. -/
  locked : SessionId → Bool
  /-- `socketWeak_` of the session has expired. -/
  closed : SessionId → Bool
  quit : Bool
  /-- The calls of `async_write`. -/
  handed : List (Job Task)

/-- What happens around the queue. -/
inductive WriteLabel (ι : Type) where
  /-- `ThreadSafeQueue::push`. -/
  | write (task : Task)
  /-- A worker takes its next step. -/
  | work (i : ι)
  /-- The handler of the `async_write` of a session runs. -/
  | completed (session : SessionId)
  /-- `socketWeak_` of a session expires. -/
  | close (session : SessionId)
  /-- The queue is destroyed. -/
  | quit
  deriving DecidableEq, Repr

namespace Writers

variable {ι : Type}

/-- Workers that have just been started. -/
def start : Writers ι where
  tasks := .empty
  points _ := .head
  locked _ := false
  closed _ := false
  quit := false
  handed := []

/-- What `socketWeak_.lock()` finds: the socket of the session, or what a worker keeps of it. -/
def SocketAlive (w : Writers ι) (session : SessionId) : Prop :=
  w.closed session = false ∨
    ∃ i, w.points i = .locking ∧ (w.tasks.held i).map (·.data.session) = some session

instance [Fintype ι] (w : Writers ι) (session : SessionId) :
    Decidable (w.SocketAlive session) := by
  unfold SocketAlive
  infer_instance

section Steps

variable [DecidableEq ι] [Fintype ι]

/-- A worker goes to another point. -/
def goto (w : Writers ι) (i : ι) (point : WriterPoint) : Writers ι :=
  { w with points := Function.update w.points i point }

/-- A worker takes a step. -/
def work (w : Writers ι) (i : ι) : Writers ι :=
  match w.points i with
  | .head => w.goto i (if w.quit then .finished else .waiting)
  | .waiting =>
    if w.tasks.queue ≠ [] then { w with tasks := w.tasks.take i }.goto i .taken
    else if w.quit then w.goto i .head
    else w
  | .taken =>
    match w.tasks.held i with
    | none => w
    | some task =>
      if w.SocketAlive task.data.session then w.goto i .locking
      else { w with tasks := w.tasks.release i }.goto i .head
  | .locking =>
    match w.tasks.held i with
    | none => w
    | some task =>
      if w.locked task.data.session then w
      else
        { w with
          tasks := w.tasks.release i
          locked := Function.update w.locked task.data.session true
          handed := w.handed ++ [task] }.goto i .head
  | .finished => w

def step (w : Writers ι) : WriteLabel ι → Writers ι
  | .write task => { w with tasks := w.tasks.post task }
  | .work i => w.work i
  | .completed session => { w with locked := Function.update w.locked session false }
  | .close session => { w with closed := Function.update w.closed session true }
  | .quit => { w with quit := true }

/-- The queue goes on as `ThreadSafeQueue::push` says. -/
theorem push_queueTasks {δ : Type} {w : Writers ι} {s : Server δ}
    (h : w.tasks.queue.map Job.data = s.queueTasks) (session : SessionId) (message : Bytes) :
    (w.step (.write ⟨session, message⟩)).tasks.queue.map Job.data =
      ((ThreadSafeQueue.push session message).run s).2.queueTasks := by
  simp [step, ThreadSafeQueue.push, h]

/-! ## What a step can do -/

/-- A step on the points alone, of a worker that has no task or finds its socket. -/
structure Moves (w t : Writers ι) : Prop where
  tasks : t.tasks = w.tasks
  handed : t.handed = w.handed
  busy : ∀ i, (t.points i = .taken ∨ t.points i = .locking) ↔
    (w.points i = .taken ∨ w.points i = .locking)
  alive : ∀ session, t.SocketAlive session → w.SocketAlive session

omit [DecidableEq ι] [Fintype ι] in
theorem Moves.refl (w : Writers ι) : w.Moves w := ⟨rfl, rfl, fun _ => Iff.rfl, fun _ => id⟩

omit [Fintype ι] in
/-- A worker without a task goes to a point without one. -/
theorem moves_goto {w : Writers ι} {i : ι} {point : WriterPoint}
    (hfree : w.points i ≠ .taken ∧ w.points i ≠ .locking)
    (hpoint : point ≠ .taken ∧ point ≠ .locking) : w.Moves (w.goto i point) := by
  refine ⟨rfl, rfl, fun i' => ?_, ?_⟩
  · by_cases hi : i' = i
    · subst hi
      simp [goto, hfree, hpoint]
    · simp [goto, hi]
  · rintro session (hopen | ⟨i', hlocking, hsession⟩)
    · exact Or.inl hopen
    · by_cases hi : i' = i
      · subst hi
        exact absurd (by simpa [goto] using hlocking) hpoint.2
      · exact Or.inr ⟨i', by simpa [goto, hi] using hlocking, hsession⟩

omit [Fintype ι] in
/-- A worker finds the socket of its task. -/
theorem moves_goto_locking {w : Writers ι} {i : ι} (htaken : w.points i = .taken)
    {task : Job Task} (hheld : w.tasks.held i = some task)
    (halive : w.SocketAlive task.data.session) : w.Moves (w.goto i .locking) := by
  refine ⟨rfl, rfl, fun i' => ?_, ?_⟩
  · by_cases hi : i' = i
    · subst hi
      simp [goto, htaken]
    · simp [goto, hi]
  · rintro session (hopen | ⟨i', hlocking, hsession⟩)
    · exact Or.inl hopen
    · by_cases hi : i' = i
      · subst hi
        have hsame : task.data.session = session := by
          simpa [goto, hheld] using hsession
        exact hsame ▸ halive
      · exact Or.inr ⟨i', by simpa [goto, hi] using hlocking, hsession⟩

/-- All that a step of a worker can do. -/
theorem work_cases (w : Writers ι) (i : ι) :
    w.Moves (w.work i) ∨
    (w.points i = .waiting ∧ w.work i = { w with tasks := w.tasks.take i }.goto i .taken ∧
      w.tasks.queue ≠ []) ∨
    (∃ task, w.points i = .taken ∧ w.tasks.held i = some task ∧
      ¬ w.SocketAlive task.data.session ∧
      w.work i = { w with tasks := w.tasks.release i }.goto i .head) ∨
    ∃ task, w.points i = .locking ∧ w.tasks.held i = some task ∧
      w.locked task.data.session = false ∧
      w.work i = { w with
        tasks := w.tasks.release i
        locked := Function.update w.locked task.data.session true
        handed := w.handed ++ [task] }.goto i .head := by
  cases hpoint : w.points i with
  | head =>
    left
    simp only [work, hpoint]
    exact moves_goto (by simp [hpoint]) (by split <;> simp)
  | waiting =>
    -- it takes a task, is asked to leave, or goes on waiting
    by_cases hqueue : w.tasks.queue = []
    · left
      simp only [work, hpoint, hqueue, ne_eq, not_true, if_false]
      split
      · exact moves_goto (by simp [hpoint]) (by simp)
      · exact .refl w
    · exact Or.inr (Or.inl ⟨rfl, by simp [work, hpoint, hqueue], hqueue⟩)
  | taken =>
    cases hheld : w.tasks.held i with
    | none =>
      left
      simp only [work, hpoint, hheld]
      exact .refl w
    | some task =>
      -- the socket is asked for before its mutex
      by_cases halive : w.SocketAlive task.data.session
      · left
        simp only [work, hpoint, hheld, halive, if_true]
        exact moves_goto_locking hpoint hheld halive
      · exact Or.inr (Or.inr (Or.inl
          ⟨task, rfl, rfl, halive, by simp [work, hpoint, hheld, halive]⟩))
  | locking =>
    cases hheld : w.tasks.held i with
    | none =>
      left
      simp only [work, hpoint, hheld]
      exact .refl w
    | some task =>
      cases hlocked : w.locked task.data.session with
      | true =>
        -- another call has the mutex
        left
        simp only [work, hpoint, hheld, hlocked, if_true]
        exact .refl w
      | false =>
        exact Or.inr (Or.inr (Or.inr
          ⟨task, rfl, rfl, hlocked, by simp [work, hpoint, hheld, hlocked]⟩))
  | finished =>
    left
    simp only [work, hpoint]
    exact .refl w

end Steps

/-! ## Messages in order -/

/-- The messages of a session that are handed to its socket are the first ones that were passed to
`ISession::write`, in their order. -/
def HandedInOrder (w : Writers ι) : Prop :=
  ∀ session, (w.handed.filter fun task => task.data.session = session) <+:
    w.tasks.posted.filter fun task => task.data.session = session

/-- A worker gets the mutex of a session with the earliest message of the session that workers have
taken. -/
def LocksInTurn (w : Writers ι) : WriteLabel ι → Prop
  | .work i =>
    w.points i = .locking → (∀ task ∈ w.tasks.held i, w.locked task.data.session = false) →
      w.tasks.InTurn Task.session i
  | _ => True

/-- What holds whichever worker gets the mutex. -/
structure Consistent (w : Writers ι) : Prop where
  fifo : w.tasks.Fifo
  busy : ∀ i, w.tasks.held i ≠ none ↔ w.points i = .taken ∨ w.points i = .locking
  handed : ∀ task ∈ w.handed, task ∈ w.tasks.posted ∧ ¬ w.tasks.Open task
  /-- A message that is given up is for a session whose socket is gone. -/
  dropped : ∀ task ∈ w.tasks.posted, ¬ w.tasks.Open task →
    task ∈ w.handed ∨ ¬ w.SocketAlive task.data.session

theorem consistent_start : (start : Writers ι).Consistent where
  fifo := .empty
  busy _ := by simp [start, WorkQueue.empty]
  handed _ htask := absurd htask List.not_mem_nil
  dropped _ htask := absurd htask List.not_mem_nil

namespace Consistent

variable {w t : Writers ι} (h : w.Consistent)
include h

theorem moves (hmoves : w.Moves t) : t.Consistent where
  fifo := hmoves.tasks ▸ h.fifo
  busy i := by rw [hmoves.tasks, h.busy, hmoves.busy]
  handed := by
    rw [hmoves.tasks, hmoves.handed]
    exact h.handed
  dropped task htask hdone := by
    rw [hmoves.tasks] at htask hdone
    rw [hmoves.handed]
    exact (h.dropped task htask hdone).imp_right fun hgone halive =>
      hgone (hmoves.alive _ halive)

theorem write (task : Task) : Consistent { w with tasks := w.tasks.post task } where
  fifo := h.fifo.post task
  busy := h.busy
  handed task' htask' := by
    obtain ⟨hposted, hdone⟩ := h.handed task' htask'
    refine ⟨List.mem_append_left _ hposted, ?_⟩
    rw [WorkQueue.open_post]
    rintro (hopen | rfl)
    · exact hdone hopen
    · exact Nat.lt_irrefl _ (h.fifo.lt_length _ hposted)
  dropped task' hposted hdone := by
    rw [WorkQueue.open_post] at hdone
    rcases List.mem_append.mp hposted with hposted | hposted
    · exact h.dropped task' hposted fun hopen => hdone (Or.inl hopen)
    · exact absurd (Or.inr (List.mem_singleton.mp hposted)) hdone

/-- A worker that is not busy has no task. -/
theorem held_eq_none {i : ι} (hi : w.points i = .waiting) : w.tasks.held i = none := by
  by_contra hheld
  have hbusy := (h.busy i).mp hheld
  rw [hi] at hbusy
  exact absurd hbusy (by simp)

variable [DecidableEq ι]

theorem take {i : ι} (hi : w.points i = .waiting) (hqueue : w.tasks.queue ≠ []) :
    Consistent ({ w with tasks := w.tasks.take i }.goto i .taken) where
  fifo := h.fifo.take i
  busy i' := by
    by_cases hne : i' = i
    · subst hne
      obtain ⟨first, rest, hcons⟩ := List.exists_cons_of_ne_nil hqueue
      simp [goto, WorkQueue.take_cons hcons]
    · simpa [goto, hne, WorkQueue.held_take_of_ne hne] using h.busy i'
  handed task htask := by
    rw [goto, WorkQueue.open_take (h.held_eq_none hi), WorkQueue.posted_take]
    exact h.handed task htask
  dropped task hposted hdone := by
    rw [goto, WorkQueue.open_take (h.held_eq_none hi)] at hdone
    rw [goto, WorkQueue.posted_take] at hposted
    refine (h.dropped task hposted hdone).imp_right fun hgone halive => hgone ?_
    rcases halive with hopen | ⟨i', hlocking, hsession⟩
    · exact Or.inl hopen
    · have hne : i' ≠ i := by
        rintro rfl
        exact absurd hlocking (by simp [goto])
      refine Or.inr ⟨i', by simpa [goto, hne] using hlocking, ?_⟩
      simpa [goto, WorkQueue.held_take_of_ne hne] using hsession

/-- A worker is done with its task, which it has handed to the socket or given up. -/
theorem release {i : ι} {task : Job Task} (hheld : w.tasks.held i = some task)
    {locked : SessionId → Bool} {handed : List (Job Task)}
    (hold : ∀ task' ∈ w.handed, task' ∈ handed)
    (hnew : ∀ task' ∈ handed, task' ∈ w.handed ∨ task' = task)
    (hdone : task ∈ handed ∨ ¬ w.SocketAlive task.data.session) :
    Consistent ({ w with tasks := w.tasks.release i, locked, handed }.goto i .head) where
  fifo := h.fifo.release i
  busy i' := by
    by_cases hne : i' = i
    · subst hne
      simp [goto]
    · simpa [goto, hne, WorkQueue.held_release_of_ne hne] using h.busy i'
  handed task' htask' := by
    rw [goto, h.fifo.open_release hheld]
    rcases hnew task' htask' with htask' | rfl
    · obtain ⟨hposted, hclosed⟩ := h.handed task' htask'
      exact ⟨hposted, fun hopen => hclosed hopen.1⟩
    · exact ⟨h.fifo.held_mem i task' hheld, fun hopen => hopen.2 rfl⟩
  dropped task' hposted hclosed := by
    -- the worker is at the head now, so it keeps no socket alive that was closed before
    have halive {session : SessionId}
        (hafter : ({ w with tasks := w.tasks.release i, locked, handed }.goto i
          .head).SocketAlive session) : w.SocketAlive session := by
      rcases hafter with hopen | ⟨i', hlocking, hsession⟩
      · exact Or.inl hopen
      · have hne : i' ≠ i := by
          rintro rfl
          exact absurd hlocking (by simp [goto])
        refine Or.inr ⟨i', by simpa [goto, hne] using hlocking, ?_⟩
        simpa [goto, WorkQueue.held_release_of_ne hne] using hsession
    rw [goto, h.fifo.open_release hheld] at hclosed
    -- of all tasks only this one is closed by it
    by_cases htask : task' = task
    · subst htask
      exact hdone.imp_right fun hgone hafter => hgone (halive hafter)
    · have hclosed' : ¬ w.tasks.Open task' := fun hopen => hclosed ⟨hopen, htask⟩
      rcases h.dropped task' hposted hclosed' with hhanded | hgone
      · exact Or.inl (hold task' hhanded)
      · exact Or.inr fun hafter => hgone (halive hafter)

variable [Fintype ι]

theorem step (l : WriteLabel ι) : (w.step l).Consistent := by
  cases l with
  | write task => exact h.write task
  | work i =>
    rcases w.work_cases i with hmoves | ⟨hi, hwork, hqueue⟩ | ⟨task, -, hheld, hgone, hwork⟩ |
      ⟨task, -, hheld, -, hwork⟩
    · exact h.moves hmoves
    · rw [Writers.step, hwork]
      exact h.take hi hqueue
    · rw [Writers.step, hwork]
      exact h.release hheld (fun _ => id) (fun _ => Or.inl) (Or.inr hgone)
    · rw [Writers.step, hwork]
      refine h.release hheld (fun _ => List.mem_append_left _) ?_
        (Or.inl (List.mem_append_right _ List.mem_cons_self))
      intro task' htask'
      rcases List.mem_append.mp htask' with htask' | htask'
      · exact Or.inl htask'
      · exact Or.inr (List.mem_singleton.mp htask')
  | completed session => exact h.moves ⟨rfl, rfl, fun _ => Iff.rfl, fun _ => id⟩
  | close session =>
    refine h.moves ⟨rfl, rfl, fun _ => Iff.rfl, ?_⟩
    rintro session' (hopen | hkept)
    -- what is alive after the close was alive before
    · by_cases hsession : session' = session
      · subst hsession
        exact absurd hopen (by simp [Writers.step])
      · exact Or.inl (by simpa [Writers.step, hsession] using hopen)
    · exact Or.inr hkept
  | quit => exact h.moves ⟨rfl, rfl, fun _ => Iff.rfl, fun _ => id⟩

end Consistent

section Runs

variable {w : Writers ι}

/-- A step that hands nothing over keeps the order. -/
theorem HandedInOrder.of_same (horder : w.HandedInOrder) {t : Writers ι}
    (hhanded : t.handed = w.handed) (hposted : w.tasks.posted <+: t.tasks.posted) :
    t.HandedInOrder := by
  intro session
  rw [hhanded]
  exact (horder session).trans (hposted.filter _)

/-- A message is handed over in order exactly when the worker that has it is in turn. -/
theorem handedInOrder_hand_iff (h : w.Consistent) (horder : w.HandedInOrder) {i : ι}
    {task : Job Task} (hlocking : w.points i = .locking) (hheld : w.tasks.held i = some task)
    {t : Writers ι} (hhanded : t.handed = w.handed ++ [task])
    (hposted : t.tasks.posted = w.tasks.posted) :
    t.HandedInOrder ↔ w.tasks.InTurn Task.session i := by
  -- nothing of this session is given up, since a worker still has the socket
  have halive : w.SocketAlive task.data.session := Or.inr ⟨i, hlocking, by simp [hheld]⟩
  have hdone (task' : Job Task) :
      (task' ∈ w.handed.filter fun task' => task'.data.session = task.data.session) ↔
        task' ∈ w.tasks.posted ∧ task'.data.session = task.data.session ∧
          ¬ w.tasks.Open task' := by
    rw [List.mem_filter, decide_eq_true_iff]
    constructor
    · rintro ⟨htask', hsession⟩
      exact ⟨(h.handed task' htask').1, hsession, (h.handed task' htask').2⟩
    · rintro ⟨htask', hsession, hclosed⟩
      refine ⟨(h.dropped task' htask' hclosed).resolve_right fun hgone => ?_, hsession⟩
      exact hgone (hsession ▸ halive)
  rw [h.fifo.inTurn_iff_prefix hheld hdone (horder _)]
  constructor
  · intro hall
    have hsession := hall task.data.session
    rw [hhanded, hposted, List.filter_append] at hsession
    simpa using hsession
  · intro hnext session
    rw [hhanded, hposted, List.filter_append]
    by_cases hsession : task.data.session = session
    · subst hsession
      simpa using hnext
    · simpa [hsession] using horder session

variable [DecidableEq ι] [Fintype ι]

/-- A step keeps the messages in order exactly when it locks in turn. -/
theorem handedInOrder_step_iff (h : w.Consistent) (horder : w.HandedInOrder) (l : WriteLabel ι) :
    (w.step l).HandedInOrder ↔ w.LocksInTurn l := by
  cases l with
  | write task => exact iff_of_true (horder.of_same rfl (List.prefix_append _ _)) trivial
  | completed session => exact iff_of_true (horder.of_same rfl (List.prefix_refl _)) trivial
  | close session => exact iff_of_true (horder.of_same rfl (List.prefix_refl _)) trivial
  | quit => exact iff_of_true (horder.of_same rfl (List.prefix_refl _)) trivial
  | work i =>
    rcases w.work_cases i with hmoves | ⟨hi, hwork, -⟩ | ⟨task, hi, -, -, hwork⟩ |
      ⟨task, hi, hheld, hunlocked, hwork⟩
    · refine iff_of_true (horder.of_same hmoves.handed (by rw [step, hmoves.tasks])) ?_
      intro hlocking hunlocked task hheld
      -- a worker that gets the mutex hands its message over
      have hlocked : w.locked task.data.session = false := hunlocked task hheld
      have hhanded := hmoves.handed
      simp [work, hlocking, hheld, hlocked, goto] at hhanded
    · refine iff_of_true (horder.of_same ?_ ?_) fun hlocking => ?_
      · rw [step, hwork]
        rfl
      · rw [step, hwork, goto, WorkQueue.posted_take]
      · exact absurd (hi.symm.trans hlocking) (by simp)
    · refine iff_of_true (horder.of_same ?_ ?_) fun hlocking => ?_
      · rw [step, hwork]
        rfl
      · rw [step, hwork]
        exact List.prefix_refl _
      · exact absurd (hi.symm.trans hlocking) (by simp)
    · rw [handedInOrder_hand_iff h horder hi hheld (t := w.step (.work i))
        (by rw [step, hwork]; rfl) (by rw [step, hwork]; rfl)]
      constructor
      · intro hturn _ _
        exact hturn
      · intro hlocks
        refine hlocks hi fun task' htask' => ?_
        obtain rfl : task = task' := Option.some.inj (hheld.symm.trans htask')
        exact hunlocked

/-- In every state of the run the messages of every session are handed over in order. -/
def MessagesInOrder (w : Writers ι) (labels : List (WriteLabel ι)) : Prop :=
  ∀ before, before <+: labels → (before.foldl step w).HandedInOrder

/-- Whatever is written, and however the workers are interleaved, messages are handed to the sockets
in order exactly when no worker gets the mutex of a session before one that has taken an earlier
message of it. -/
theorem messagesInOrder_iff (labels : List (WriteLabel ι)) :
    (start : Writers ι).MessagesInOrder labels ↔ Along step LocksInTurn start labels := by
  have hstart : (start : Writers ι).HandedInOrder := fun session => List.prefix_refl _
  apply forall_prefix_iff_along (J := Consistent)
  · intro w l hw
    exact hw.step l
  · intro w l hw hordered
    exact handedInOrder_step_iff hw hordered l
  · exact consistent_start
  · exact hstart

end Runs

/-- Two workers take a message of session 10 each, and the one with the second message gets the
mutex first. -/
def overtaken (i j : ι) : List (WriteLabel ι) :=
  [.write ⟨10, [1]⟩, .write ⟨10, [2]⟩, .work i, .work i, .work j, .work j, .work j, .work j,
    .completed 10, .work i, .work i]

theorem not_messagesInOrder_overtaken :
    ¬ (start : Writers (Fin 4)).MessagesInOrder (overtaken 0 1) ∧
      ((overtaken 0 1).foldl step (start : Writers (Fin 4))).handed.map (·.data.message) =
        [[2], [1]] := by
  refine ⟨fun h => ?_, by decide +kernel⟩
  exact absurd (h (overtaken 0 1) (List.prefix_refl _) 10) (by decide +kernel)

end Writers

end GatewayServer
