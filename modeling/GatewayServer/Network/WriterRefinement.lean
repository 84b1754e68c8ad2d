import GatewayServer.Lib.Refinement
import GatewayServer.Network.SocketWriter
import GatewayServer.Network.WriteQueue

/-!
# The steps of the write queue

`SocketWriters` follows the workers through `cv_.wait` and `writeImpl_`, and every byte. `Writers`
only knows of the steps on which the order of the messages depends. A run of the first is one of the
second.

## Main definitions

* `SocketWriters.writers` — what `Writers` knows of the workers
* `SocketWriters.writeLabel` — the step that `Writers` takes, if it takes one
* `SocketWriters.StartsInTurn` — a worker does not start an `async_write` before an earlier one

## Main results

* `writers_step` — it takes the same steps
* `writers_foldl` — it takes the same runs
* `posted_cases` — no message gets lost
* `handedInOrder_iff` — when messages are handed to the sockets in order
-/

namespace GatewayServer

open Lib

attribute [ext] WorkQueue Writers

/-- Where a worker stands, in a call or out of one. -/
def WorkerPoint.writerPoint (call : CallPoint) : WorkerPoint → WriterPoint
  | .head => .head
  | .locking | .checking | .blocking | .blocked | .woken | .taking => .waiting
  | .unlocking => .taken
  | .running =>
    match call with
    | .entered => .taken
    | .locking | .locked => .locking
    | .returned => .head
  | .leaving | .closing | .finished => .finished

namespace SocketWriters

variable {ι κ : Type} {q : SocketWriters ι κ}

/-- What `Writers` knows of the workers. It takes the socket for locked while an `async_write` is
outstanding, and the worker for done with its task when the call is back. -/
def writers (q : SocketWriters ι κ) : Writers ι where
  tasks :=
    { q.queue.tasks with
      held := fun i => if q.calls i = .returned then none else q.queue.tasks.held i }
  points i := (q.queue.workers i).writerPoint (q.calls i)
  locked session := q.writes.any fun x => x.session = session ∧ x.outstanding = true
  closed := q.closed
  quit := q.queue.quit
  handed := q.writes.map AsyncWrite.job

/-- The step that `Writers` takes, if it takes one. -/
def writeLabel (q : SocketWriters ι κ) : SocketLabel ι κ → Option (WriteLabel ι)
  | .queue (.pusher k) =>
    match q.queue.pushers k with
    | .inserting task => some (.write task)
    | _ => none
  | .queue (.worker i) =>
    match q.queue.workers i with
    | .head | .taking => some (.work i)
    | _ => none
  | .queue .destroy => if q.queue.destructor = .before then some .quit else none
  | .queue _ => none
  | .call i =>
    match q.queue.workers i, q.calls i with
    | .running, .entered | .running, .locked => some (.work i)
    | _, _ => none
  | .accepts _ _ => none
  | .completes _ _ => none
  | .handler job =>
    if ∃ x ∈ q.writes, x.job = job ∧ x.completed = true then some (.completed job.data.session)
    else none
  | .close session => some (.close session)

/-- What `Writers` knows after a step. -/
def writersStep [DecidableEq ι] [Fintype ι] (q : SocketWriters ι κ) (l : SocketLabel ι κ) :
    Writers ι :=
  (q.writeLabel l).elim q.writers q.writers.step

/-- A worker starts the `async_write` of the earliest message of the session that workers have
taken and not started to write. -/
def StartsInTurn (q : SocketWriters ι κ) : SocketLabel ι κ → Prop
  | .call i => q.calls i = .locked → q.writers.tasks.InTurn Task.session i
  | _ => True

section Steps

variable [DecidableEq ι] {i : ι}

theorem goto_eq_self {w : Writers ι} {point : WriterPoint} (hi : w.points i = point) :
    w.goto i point = w := by
  refine Writers.ext rfl ?_ rfl rfl rfl rfl
  rw [← hi]
  exact Function.update_eq_self i w.points

/-- A worker goes to another point, with the mutex of the queue or without it. -/
theorem writers_goto {point : WorkerPoint} {mutex : Option (ι ⊕ κ)} :
    writers { q with queue := { q.queue with mutex }.goto i point } =
      q.writers.goto i (point.writerPoint (q.calls i)) := by
  refine Writers.ext rfl ?_ rfl rfl rfl rfl
  funext j
  exact Function.apply_update (fun j point => WorkerPoint.writerPoint (q.calls j) point)
    q.queue.workers i point j

/-- A worker goes on, and `Writers` does not see it. -/
theorem writers_goto_self {point : WorkerPoint} {mutex : Option (ι ⊕ κ)}
    (hpoint : (q.queue.workers i).writerPoint (q.calls i) = point.writerPoint (q.calls i)) :
    writers { q with queue := { q.queue with mutex }.goto i point } = q.writers :=
  writers_goto.trans (goto_eq_self hpoint)

/-- A worker that is not back from a call takes a task. -/
theorem writers_take {rest taken : List (Job Task)} {job : Job Task}
    (hqueue : q.queue.tasks.queue = job :: rest) (hi : q.calls i ≠ .returned) :
    writers { q with
      queue := { q.queue with tasks := q.queue.tasks.take i, taken }.goto i .unlocking } =
        { q.writers with tasks := q.writers.tasks.take i }.goto i .taken := by
  have hqueue' : q.writers.tasks.queue = job :: rest := hqueue
  refine Writers.ext (WorkQueue.ext ?_ ?_ ?_) ?_ rfl rfl rfl rfl
  · show (q.queue.tasks.take i).posted = (q.writers.tasks.take i).posted
    rw [WorkQueue.posted_take, WorkQueue.posted_take]
    rfl
  · show (q.queue.tasks.take i).queue = (q.writers.tasks.take i).queue
    rw [WorkQueue.take_cons hqueue', WorkQueue.take_cons hqueue]
  · funext j
    show (if q.calls j = .returned then none else (q.queue.tasks.take i).held j) =
      (q.writers.tasks.take i).held j
    by_cases hj : j = i
    · rw [hj, WorkQueue.held_take_self hqueue', WorkQueue.held_take_self hqueue, if_neg hi]
    · rw [WorkQueue.held_take_of_ne hj, WorkQueue.held_take_of_ne hj]
      rfl
  · funext j
    exact Function.apply_update (fun j point => WorkerPoint.writerPoint (q.calls j) point)
      q.queue.workers i .unlocking j

/-- A worker goes on in the call. -/
theorem writers_callGoto {point : CallPoint} (hi : q.calls i ≠ .returned)
    (hpoint : point ≠ .returned) :
    (q.callGoto i point).writers = q.writers.goto i ((q.queue.workers i).writerPoint point) := by
  refine Writers.ext (WorkQueue.ext rfl rfl ?_) ?_ rfl rfl rfl rfl
  · funext j
    show (if (q.callGoto i point).calls j = .returned then none else _) =
      if q.calls j = .returned then none else _
    by_cases hj : j = i
    · rw [hj, calls_callGoto_self, if_neg hpoint, if_neg hi]
      rfl
    · rw [calls_callGoto_of_ne hj]
      rfl
  · funext j
    exact Function.apply_update (fun j call => (q.queue.workers j).writerPoint call) q.calls i
      point j

/-- A worker comes back from the call, and is done with its task. -/
theorem writers_callGoto_returned :
    (q.callGoto i .returned).writers =
      { q.writers with tasks := q.writers.tasks.release i }.goto i
        ((q.queue.workers i).writerPoint .returned) := by
  refine Writers.ext (WorkQueue.ext rfl rfl ?_) ?_ rfl rfl rfl rfl
  · funext j
    show (if (q.callGoto i .returned).calls j = .returned then none else _) =
      (q.writers.tasks.release i).held j
    by_cases hj : j = i
    · rw [hj, calls_callGoto_self, WorkQueue.held_release_self]
      rfl
    · rw [calls_callGoto_of_ne hj, WorkQueue.held_release_of_ne hj]
      rfl
  · funext j
    exact Function.apply_update (fun j call => (q.queue.workers j).writerPoint call) q.calls i
      .returned j

end Steps

theorem locked_writers {session : SessionId} : q.writers.locked session = true ↔
    ∃ x ∈ q.writes, x.session = session ∧ x.outstanding = true := by
  simp [writers, List.any_eq_true]

/-- An `async_write` is started. -/
theorem writers_append {job : Job Task} :
    writers { q with writes := q.writes ++ [AsyncWrite.start job] } =
      { q.writers with
        locked := Function.update q.writers.locked job.data.session true
        handed := q.writers.handed ++ [job] } := by
  refine Writers.ext rfl rfl ?_ rfl rfl List.map_append
  funext session
  show _ = Function.update q.writers.locked job.data.session true session
  rw [Bool.eq_iff_iff, locked_writers]
  by_cases hsession : session = job.data.session
  · rw [hsession, Function.update_self]
    exact iff_of_true ⟨.start job, List.mem_append_right _ List.mem_cons_self, rfl, rfl⟩ rfl
  · rw [Function.update_of_ne hsession, locked_writers]
    constructor
    · rintro ⟨x, hx, rfl, hout⟩
      rcases List.mem_append.mp hx with hx | hx
      · exact ⟨x, hx, rfl, hout⟩
      · rw [List.mem_singleton.mp hx] at hsession
        exact absurd rfl hsession
    · rintro ⟨x, hx, hx'⟩
      exact ⟨x, List.mem_append_left _ hx, hx'⟩

/-- Something happens to an `async_write`, but its handler is not called. -/
theorem writers_onWrite {job : Job Task} {f : AsyncWrite → AsyncWrite}
    (hjob : ∀ x, (f x).job = x.job) (houtstanding : ∀ x, (f x).outstanding = x.outstanding) :
    (q.onWrite job f).writers = q.writers := by
  refine Writers.ext rfl rfl ?_ rfl rfl (jobs_onWrite hjob)
  funext session
  rw [Bool.eq_iff_iff, locked_writers, locked_writers, exists_mem_onWrite]
  refine exists_congr fun x => and_congr_right fun _ => ?_
  split
  · rw [AsyncWrite.session, hjob, houtstanding, AsyncWrite.session]
  · exact Iff.rfl

theorem writers_callPush [DecidableEq κ] {k : κ} {task : Task} :
    writers { q with queue := q.queue.callPush k task } = q.writers := by
  unfold ThreadSafeQueue.callPush
  cases q.queue.pushers k <;> rfl

/-- A thread that pushes takes a step. -/
theorem writers_pushStep [DecidableEq ι] [DecidableEq κ] [Fintype ι] (k : κ) :
    writers { q with queue := q.queue.pushStep k } = q.writersStep (.queue (.pusher k)) := by
  simp only [writersStep, writeLabel, ThreadSafeQueue.pushStep]
  cases q.queue.pushers k with
  | locking task => cases q.queue.mutex <;> rfl
  | _ => rfl

section Queue

variable [DecidableEq ι]

theorem writers_notifyOne [DecidableEq κ] [Fintype ι] (k : κ) (woken : Option ι) :
    writers { q with queue := q.queue.notifyOne k woken } = q.writers := by
  obtain hsame | ⟨-, ⟨i, hi, hwoken⟩ | ⟨-, hnobody⟩⟩ := q.queue.notifyOne_cases k woken
  · rw [hsame]
  · rw [hwoken]
    exact writers_goto_self (by rw [hi]; rfl)
  · rw [hnobody]
    rfl

theorem writers_wake (i : ι) : writers { q with queue := q.queue.wake i } = q.writers := by
  unfold ThreadSafeQueue.wake
  cases hi : q.queue.workers i with
  | blocked => exact writers_goto_self (by rw [hi]; rfl)
  | _ => rfl

theorem writers_destroy [Fintype ι] :
    writers { q with queue := q.queue.destroy } = q.writersStep (.queue .destroy) := by
  unfold ThreadSafeQueue.destroy writersStep writeLabel
  cases q.queue.destructor with
  | before => rfl
  | notifying =>
    refine Writers.ext rfl ?_ rfl rfl rfl rfl
    funext i
    by_cases hi : q.queue.workers i = .blocked
    · simp [writers, hi, WorkerPoint.writerPoint]
    · simp [writers, hi]
  | joining =>
    simp only [reduceCtorEq, if_false]
    split <;> rfl
  | joined => rfl

end Queue

namespace Consistent

variable (h : q.Consistent)
include h

/-- Before a worker with the mutex starts its `async_write`, none is outstanding. -/
theorem not_locked {i : ι} {job : Job Task} (hheld : q.queue.tasks.held i = some job)
    (hi : q.calls i = .locked) : ¬ q.writers.locked job.data.session = true := by
  rw [locked_writers]
  rintro ⟨x, hx, hsession, hout⟩
  have hjob : x.job = job := (h.guarded job.data.session).unique
    ⟨hsession, .inr ⟨x, hx, rfl, hout⟩⟩ ⟨rfl, .inl ⟨i, hheld, hi⟩⟩
  exact absurd (hi.symm.trans (h.back x hx i (hjob ▸ hheld))) (by simp)

/-- A worker that does not run a task is in no call. -/
theorem calls_eq_entered {i : ι} (hi : q.queue.workers i ≠ .running) : q.calls i = .entered := by
  by_contra hcall
  exact hi (h.calls i hcall)

/-- The workers that keep a socket are the same. -/
theorem points_eq_locking {i : ι} :
    q.writers.points i = .locking ↔ q.calls i = .locking ∨ q.calls i = .locked := by
  show (q.queue.workers i).writerPoint (q.calls i) = .locking ↔ _
  constructor
  · intro hpoint
    by_cases hrunning : q.queue.workers i = .running
    · rw [hrunning] at hpoint
      cases hi : q.calls i with
      | entered => simp [hi, WorkerPoint.writerPoint] at hpoint
      | locking => exact .inl rfl
      | locked => exact .inr rfl
      | returned => simp [hi, WorkerPoint.writerPoint] at hpoint
    · cases hi : q.queue.workers i <;> simp_all [WorkerPoint.writerPoint]
  · rintro (hi | hi)
    · rw [h.calls i (by simp [hi]), hi]
      rfl
    · rw [h.calls i (by simp [hi]), hi]
      rfl

/-- `socketWeak_.lock()` finds the same. -/
theorem socketAlive_writers {session : SessionId} :
    q.writers.SocketAlive session ↔ q.SocketAlive session := by
  refine or_congr_right (exists_congr fun i => ?_)
  rw [h.points_eq_locking]
  refine and_congr_right fun hi => ?_
  have hback : q.calls i ≠ .returned := by
    rcases hi with hi | hi <;> simp [hi]
  show (if q.calls i = .returned then none else q.queue.tasks.held i).map _ = _ ↔ _
  rw [if_neg hback]

variable [DecidableEq ι]

/-- A worker takes a step of the loop. -/
theorem writers_work (hready : q.queue.Ready) [Fintype ι] (i : ι) :
    writers { q with queue := q.queue.work i } = q.writersStep (.queue (.worker i)) := by
  cases hi : q.queue.workers i with
  | head =>
    have hcall : q.calls i = .entered := h.calls_eq_entered (by simp [hi])
    have hpoint : q.writers.points i = .head := by simp [writers, hi, WorkerPoint.writerPoint]
    simp only [writersStep, writeLabel, ThreadSafeQueue.work, hi]
    refine writers_goto.trans ?_
    show _ = q.writers.work i
    simp only [Writers.work, hpoint]
    cases hquit : q.queue.quit <;> simp [writers, hquit, WorkerPoint.writerPoint]
  | locking =>
    simp only [writersStep, writeLabel, ThreadSafeQueue.work, hi]
    cases q.queue.mutex with
    | none => exact writers_goto_self (by rw [hi]; rfl)
    | some _ => rfl
  | checking =>
    simp only [writersStep, writeLabel, ThreadSafeQueue.work, hi]
    refine writers_goto_self ?_
    rw [hi]
    split <;> rfl
  | blocking =>
    simp only [writersStep, writeLabel, ThreadSafeQueue.work, hi]
    exact writers_goto_self (by rw [hi]; rfl)
  | woken =>
    simp only [writersStep, writeLabel, ThreadSafeQueue.work, hi]
    cases q.queue.mutex with
    | none => exact writers_goto_self (by rw [hi]; rfl)
    | some _ => rfl
  | taking =>
    have hcall : q.calls i = .entered := h.calls_eq_entered (by simp [hi])
    have hpoint : q.writers.points i = .waiting := by simp [writers, hi, WorkerPoint.writerPoint]
    simp only [writersStep, writeLabel, ThreadSafeQueue.work, hi]
    show _ = q.writers.work i
    cases hqueue : q.queue.tasks.queue with
    | nil =>
      -- it has come back because the queue is destroyed
      have hquit : q.writers.quit = true := (hready i hi).resolve_left (absurd hqueue)
      have hempty : ¬ q.writers.tasks.queue ≠ [] := not_not.mpr hqueue
      refine writers_goto.trans ?_
      simp only [Writers.work, hpoint, if_neg hempty, hquit, if_true]
      rfl
    | cons task rest =>
      have hnonempty : q.writers.tasks.queue ≠ [] := by simp [writers, hqueue]
      simp only [Writers.work, hpoint, if_pos hnonempty]
      exact writers_take hqueue (by simp [hcall])
  | unlocking =>
    have hcall : q.calls i = .entered := h.calls_eq_entered (by simp [hi])
    simp only [writersStep, writeLabel, ThreadSafeQueue.work, hi]
    exact writers_goto_self (by rw [hi, hcall]; rfl)
  | leaving =>
    simp only [writersStep, writeLabel, ThreadSafeQueue.work, hi]
    cases q.queue.mutex with
    | none => exact writers_goto_self (by rw [hi]; rfl)
    | some _ => rfl
  | closing =>
    simp only [writersStep, writeLabel, ThreadSafeQueue.work, hi]
    exact writers_goto_self (by rw [hi]; rfl)
  | _ => simp only [writersStep, writeLabel, ThreadSafeQueue.work, hi, Option.elim_none]

/-- A worker takes a step of the call. -/
theorem writers_call [Fintype ι] [DecidableEq κ] (i : ι) :
    (q.call i).writers = q.writersStep (.call i) := by
  by_cases hrunning : q.queue.workers i = .running
  · obtain ⟨job, hheld⟩ := h.holds.exists_held hrunning
    simp only [writersStep, writeLabel, call, hrunning, hheld]
    cases hi : q.calls i with
    | entered =>
      have hpoint : q.writers.points i = .taken := by
        simp [writers, hrunning, hi, WorkerPoint.writerPoint]
      have hheld' : q.writers.tasks.held i = some job := by simp [writers, hi, hheld]
      show _ = q.writers.work i
      simp only [Writers.work, hpoint, hheld', h.socketAlive_writers]
      by_cases halive : q.SocketAlive job.data.session
      · rw [if_pos halive, if_pos halive, writers_callGoto (by simp [hi]) (by simp), hrunning]
        rfl
      · rw [if_neg halive, if_neg halive, writers_callGoto_returned, hrunning]
        rfl
    | locking =>
      -- `Writers` does not see who has the mutex before the `async_write`
      cases q.mutexSocket job.data.session with
      | none =>
        refine (writers_callGoto (by simp [hi]) (by simp)).trans (goto_eq_self ?_)
        show (q.queue.workers i).writerPoint (q.calls i) = (q.queue.workers i).writerPoint .locked
        rw [hrunning, hi]
        rfl
      | some _ => rfl
    | locked =>
      have hpoint : q.writers.points i = .locking := h.points_eq_locking.mpr (.inr hi)
      have hheld' : q.writers.tasks.held i = some job := by simp [writers, hi, hheld]
      have hunlocked : ¬ q.writers.locked job.data.session = true := h.not_locked hheld hi
      show _ = q.writers.work i
      simp only [Writers.work, hpoint, hheld', if_neg hunlocked]
      rw [writers_callGoto_returned, writers_append, hrunning]
      rfl
    | returned => rfl
  · cases hi : q.queue.workers i with
    | running => exact absurd hi hrunning
    | _ => simp only [writersStep, writeLabel, call, hi, Option.elim_none]

/-- The end of the loop's body. `Writers` has seen it before. -/
theorem writers_endCall (i : ι) : (q.endCall i).writers = q.writers := by
  cases hi : q.calls i with
  | returned =>
    have hrunning : q.queue.workers i = .running := h.calls i (by simp [hi])
    rw [endCall_of_returned hi]
    simp only [ThreadSafeQueue.endTask, hrunning]
    refine Writers.ext (WorkQueue.ext rfl rfl ?_) ?_ rfl rfl rfl rfl
    · funext j
      show (if Function.update q.calls i .entered j = .returned then none else
        (q.queue.tasks.release i).held j) = if q.calls j = .returned then none else _
      by_cases hj : j = i
      · rw [hj, Function.update_self, WorkQueue.held_release_self, hi]
        rfl
      · rw [Function.update_of_ne hj, WorkQueue.held_release_of_ne hj]
    · funext j
      show (Function.update q.queue.workers i .head j).writerPoint
        (Function.update q.calls i .entered j) = (q.queue.workers j).writerPoint (q.calls j)
      by_cases hj : j = i
      · rw [hj, Function.update_self, Function.update_self, hrunning, hi]
        rfl
      · rw [Function.update_of_ne hj, Function.update_of_ne hj]
  | _ => simp only [SocketWriters.endCall, hi]

/-- The handler of an `async_write` unlocks the socket. -/
theorem writers_handle [Fintype ι] [DecidableEq κ] (job : Job Task) :
    (q.handle job).writers = q.writersStep (.handler job) := by
  by_cases hcompleted : ∃ x ∈ q.writes, x.job = job ∧ x.completed = true
  · have hconsistent := h.handle job
    simp only [SocketWriters.handle, writersStep, writeLabel, if_pos hcompleted] at hconsistent ⊢
    refine Writers.ext rfl rfl ?_ rfl rfl (jobs_onWrite AsyncWrite.job_handle)
    funext session
    show _ = Function.update q.writers.locked job.data.session false session
    rw [Bool.eq_iff_iff, locked_writers]
    by_cases hsession : session = job.data.session
    · subst hsession
      rw [Function.update_self]
      refine iff_of_false ?_ Bool.false_ne_true
      -- nobody has the mutex any more, so nobody writes
      rintro ⟨x, hx, hxsession, hout⟩
      have howner := (hconsistent.guarded job.data.session x.job).mp
        ⟨hxsession, .inr ⟨x, hx, rfl, hout⟩⟩
      exact absurd ((Function.update_self ..).symm.trans howner) (by simp)
    · rw [Function.update_of_ne hsession, locked_writers, exists_mem_onWrite]
      refine exists_congr fun x => and_congr_right fun _ => ?_
      split
      · next hjob =>
        have hother : x.session ≠ session := by
          rintro rfl
          exact hsession (congrArg (·.data.session) hjob)
        rw [AsyncWrite.session, AsyncWrite.session, AsyncWrite.job_handle]
        exact iff_of_false (fun hx => hother hx.1) fun hx => hother hx.1
      · exact Iff.rfl
  · simp only [SocketWriters.handle, writersStep, writeLabel, if_neg hcompleted, Option.elim_none]

variable [DecidableEq κ] [Fintype ι]

/-- A task stays there for whoever has come for it. -/
theorem ready_step (hready : q.queue.Ready) (l : SocketLabel ι κ) : (q.step l).queue.Ready := by
  cases l with
  | queue l =>
    cases l with
    | ended i result =>
      rw [SocketWriters.step, SocketWriters.endCall]
      split
      · exact hready.endTask i .returned
      · exact hready
    | _ => exact hready.step h.sound _
  | call i =>
    rw [SocketWriters.step, (q.call_move i).queue]
    exact hready
  | handler job =>
    rw [SocketWriters.step, SocketWriters.handle]
    split <;> exact hready
  | _ => exact hready

/-- `Writers` takes the same steps. -/
theorem writers_step (hready : q.queue.Ready) (l : SocketLabel ι κ) :
    (q.step l).writers = q.writersStep l := by
  cases l with
  | queue l =>
    cases l with
    | push k task => exact q.writers_callPush
    | pusher k => exact q.writers_pushStep k
    | notify k woken => exact q.writers_notifyOne k woken
    | worker i => exact h.writers_work hready i
    | ended i result => exact h.writers_endCall i
    | spurious i => exact q.writers_wake i
    | destroy => exact q.writers_destroy
  | call i => exact h.writers_call i
  | accepts job content =>
    exact writers_onWrite (q.job_accept content) (q.outstanding_accept content)
  | completes job failed =>
    exact writers_onWrite (AsyncWrite.job_complete failed) (AsyncWrite.outstanding_complete failed)
  | handler job => exact h.writers_handle job
  | close session => rfl

omit [DecidableEq ι] [DecidableEq κ] [Fintype ι] in
/-- The worker that has a socket takes a step when it starts its `async_write`. -/
theorem eq_call_of_work {l : SocketLabel ι κ} {i : ι} (hl : q.writeLabel l = some (.work i))
    (hi : q.writers.points i = .locking) : l = .call i ∧ q.calls i = .locked := by
  cases l with
  | queue l =>
    cases l with
    | pusher k =>
      simp only [writeLabel] at hl
      split at hl
      · exact absurd (Option.some.inj hl) (by simp)
      · exact absurd hl (by simp)
    | worker j =>
      simp only [writeLabel] at hl
      split at hl
      · next hj =>
        -- these are steps of the worker too, but from other points
        obtain rfl : j = i := WriteLabel.work.inj (Option.some.inj hl)
        exact absurd hi (by simp [writers, hj, WorkerPoint.writerPoint])
      · next hj =>
        obtain rfl : j = i := WriteLabel.work.inj (Option.some.inj hl)
        exact absurd hi (by simp [writers, hj, WorkerPoint.writerPoint])
      · exact absurd hl (by simp)
    | destroy =>
      simp only [writeLabel] at hl
      split at hl
      · exact absurd (Option.some.inj hl) (by simp)
      · exact absurd hl (by simp)
    | _ => exact absurd hl (by simp [writeLabel])
  | call j =>
    simp only [writeLabel] at hl
    split at hl
    · next hj =>
      -- this call has not looked for its socket yet
      obtain rfl : j = i := WriteLabel.work.inj (Option.some.inj hl)
      rcases h.points_eq_locking.mp hi with hother | hlocked
      · exact absurd (hj.symm.trans hother) (by simp)
      · exact ⟨rfl, hlocked⟩
    · next hj =>
      obtain rfl : j = i := WriteLabel.work.inj (Option.some.inj hl)
      exact ⟨rfl, hj⟩
    · exact absurd hl (by simp)
  | handler job =>
    simp only [writeLabel] at hl
    split at hl
    · exact absurd (Option.some.inj hl) (by simp)
    · exact absurd hl (by simp)
  | close session => exact absurd (Option.some.inj hl) (by simp)
  | _ => exact absurd hl (by simp [writeLabel])

omit [DecidableEq ι] [DecidableEq κ] [Fintype ι] in
/-- What `Writers` takes for the mutex is the start of an `async_write`. -/
theorem locksInTurn_iff {l : SocketLabel ι κ} :
    (∀ m, q.writeLabel l = some m → q.writers.LocksInTurn m) ↔ q.StartsInTurn l := by
  constructor
  · intro hturn
    cases l with
    | call i =>
      intro hi
      have hrunning : q.queue.workers i = .running := h.calls i (by simp [hi])
      refine hturn (.work i) ?_ (h.points_eq_locking.mpr (.inr hi)) ?_
      · simp only [writeLabel, hrunning, hi]
      · intro task htask
        -- the worker has the mutex, so nothing is being written
        have hheld : (if q.calls i = .returned then none else q.queue.tasks.held i) = some task :=
          htask
        rw [if_neg (by simp [hi])] at hheld
        exact Bool.eq_false_iff.mpr (h.not_locked hheld hi)
    | _ => trivial
  · intro hstarts m hm
    cases m with
    | work i =>
      intro hi _
      obtain ⟨rfl, hlocked⟩ := h.eq_call_of_work hm hi
      exact hstarts hlocked
    | _ => trivial

end Consistent

/-! ## Runs -/

section Runs

variable [DecidableEq ι] [DecidableEq κ] [Fintype ι]

/-- What every step keeps. -/
def Traced (q : SocketWriters ι κ) : Prop := q.Consistent ∧ q.queue.Ready ∧ q.writers.Consistent

omit [DecidableEq ι] [DecidableEq κ] [Fintype ι] in
theorem traced_start : (start : SocketWriters ι κ).Traced :=
  ⟨consistent_start, ThreadSafeQueue.ready_start, Writers.consistent_start⟩

/-- What `Writers` keeps is kept by the steps that it takes. -/
theorem Traced.step (h : q.Traced) (l : SocketLabel ι κ) : (q.step l).Traced := by
  obtain ⟨hconsistent, hready, hwriters⟩ := h
  refine ⟨hconsistent.step l, hconsistent.ready_step hready l, ?_⟩
  rw [hconsistent.writers_step hready l]
  unfold writersStep
  cases q.writeLabel l with
  | none => exact hwriters
  | some m => exact hwriters.step m

theorem traced_foldl (labels : List (SocketLabel ι κ)) :
    (labels.foldl step (start : SocketWriters ι κ)).Traced :=
  List.foldlRecOn labels step traced_start fun _ h l _ => h.step l

/-- `Writers` takes the same runs. -/
theorem writers_foldl (labels : List (SocketLabel ι κ)) :
    (labels.foldl step (start : SocketWriters ι κ)).writers =
      (translate step writeLabel start labels).foldl Writers.step Writers.start :=
  foldl_translate writers (fun _ l h => Traced.step h l) (fun _ l h => h.1.writers_step h.2.1 l)
    traced_start labels

/-- No message gets lost: it waits, a worker has it, its `async_write` has been started, or its
socket is gone. -/
theorem posted_cases (labels : List (SocketLabel ι κ)) :
    let q := labels.foldl step (start : SocketWriters ι κ)
    ∀ job ∈ q.queue.tasks.posted, job ∈ q.queue.tasks.queue ∨ q.OwnerAlive job ∨
      job ∈ q.writes.map AsyncWrite.job ∨ ¬ q.SocketAlive job.data.session := by
  intro q job hposted
  obtain ⟨hconsistent, -, hwriters⟩ : q.Traced := traced_foldl labels
  by_cases hopen : q.writers.tasks.Open job
  · rcases hopen with hqueue | ⟨i, hi⟩
    · exact .inl hqueue
    · refine .inr (.inl ⟨i, ?_⟩)
      have hheld : (if q.calls i = .returned then none else q.queue.tasks.held i) = some job := hi
      split at hheld
      · exact absurd hheld (by simp)
      · exact hheld
  · refine .inr (.inr ((hwriters.dropped job hposted hopen).imp_right ?_))
    rw [hconsistent.socketAlive_writers]
    exact id

/-- The messages of every session are handed to its socket in their order, in every state of a run,
exactly when no worker starts the `async_write` of one before that of an earlier one that another
worker has. -/
theorem handedInOrder_iff (labels : List (SocketLabel ι κ)) :
    (∀ before, before <+: labels →
        (before.foldl step (start : SocketWriters ι κ)).writers.HandedInOrder) ↔
      Along step StartsInTurn start labels := by
  apply forall_prefix_iff_along (J := Traced)
    (I := fun q : SocketWriters ι κ => q.writers.HandedInOrder)
  · intro q l h
    exact h.step l
  · intro q l h horder
    obtain ⟨hconsistent, hready, hwriters⟩ := h
    rw [hconsistent.writers_step hready l, ← hconsistent.locksInTurn_iff]
    unfold writersStep
    cases q.writeLabel l with
    | none => exact iff_of_true horder (by simp)
    | some m =>
      simp only [Option.some.injEq, forall_eq']
      exact Writers.handedInOrder_step_iff hwriters horder m
  · exact traced_start
  · exact fun session => List.prefix_refl _

end Runs

end SocketWriters

end GatewayServer
