import GatewayServer.Common.QueuePushes
import GatewayServer.Common.QueueTasks
import GatewayServer.Lib.Lock
import GatewayServer.Server

/-!
# Writing to the sockets

`SocketWriter::writeImpl_`, run by the workers of the queue, and the `async_write`s that it starts.
A call locks `mutexSocket_` of its session, starts an `async_write` and returns; the completion
handler, which has the lock now, unlocks it. The message stays where it was, in the closure of the
task, and the `async_write` reads it through a view while the socket accepts it piece by piece. The
worker destroys the task at the end of the loop's body.

## Main definitions

* `CallPoint`, `WritePoint` — where a call of `writeImpl_` and an `async_write` stand
* `SocketWriters`, `SocketWriters.step` — the queue, the calls and the writes, and their steps
* `SocketWriters.Consistent` — the calls, the locks and the writes are in accord

## Main results

* `call_move` — all that a worker can do in `writeImpl_`
* `Consistent.step` — every step keeps them in accord
-/

namespace GatewayServer

open Lib

/-- Where a worker stands in `writeImpl_`. -/
inductive CallPoint where
  /-- Before `socketWeak_.lock()`. -/
  | entered
  /-- With the socket, before it has `mutexSocket_`. -/
  | locking
  /-- With the mutex, before `async_write`. -/
  | locked
  /-- Back from the call, with the task still in its hands. -/
  | returned
  deriving DecidableEq, Repr

/-- How far an `async_write` has come. -/
inductive WritePoint where
  /-- The socket accepts bytes. -/
  | writing
  /-- It is complete, and its handler has yet to be called. -/
  | completed (failed : Bool)
  /-- Its handler has been called. -/
  | handled (failed : Bool)
  deriving DecidableEq, Repr

/-- An `async_write`. -/
structure AsyncWrite where
  /-- The task whose closure owns the message. -/
  job : Job Task
  /-- What the socket has accepted. -/
  accepted : Bytes
  point : WritePoint
  deriving DecidableEq, Repr

namespace AsyncWrite

/-- An `async_write` that has just been called. -/
def start (job : Job Task) : AsyncWrite := ⟨job, [], .writing⟩

/-- The bytes that it has to write. -/
def message (x : AsyncWrite) : Bytes := x.job.data.message

def session (x : AsyncWrite) : SessionId := x.job.data.session

/-- Its handler has yet to be called. -/
def outstanding (x : AsyncWrite) : Bool :=
  match x.point with
  | .writing | .completed _ => true
  | .handled _ => false

/-- Its handler is the next thing to be called. -/
def completed (x : AsyncWrite) : Bool :=
  match x.point with
  | .completed _ => true
  | _ => false

/-- It has completed without an error. -/
def succeeded (x : AsyncWrite) : Bool :=
  match x.point with
  | .completed false | .handled false => true
  | _ => false

/-- It completes. Without an error it does so when everything is accepted. -/
def complete (failed : Bool) (x : AsyncWrite) : AsyncWrite :=
  if x.point = .writing ∧ (failed = true ∨ x.accepted.length = x.message.length) then
    { x with point := .completed failed }
  else x

/-- Its handler is called. -/
def handle (x : AsyncWrite) : AsyncWrite :=
  match x.point with
  | .completed failed => { x with point := .handled failed }
  | _ => x

theorem job_handle (x : AsyncWrite) : x.handle.job = x.job := by
  unfold handle
  split <;> rfl

theorem accepted_handle (x : AsyncWrite) : x.handle.accepted = x.accepted := by
  unfold handle
  split <;> rfl

theorem succeeded_handle (x : AsyncWrite) : x.handle.succeeded = x.succeeded := by
  unfold handle
  split
  · next failed hpoint => cases failed <;> simp [succeeded, hpoint]
  · rfl

/-- A handler is not called while the socket accepts bytes. -/
theorem handle_eq_self {x : AsyncWrite} (hx : x.handle.point = .writing) : x.handle = x := by
  unfold handle at *
  split at hx
  · exact absurd hx (by simp)
  · rfl

/-- Up to its handler an `async_write` is outstanding. -/
theorem outstanding_of_completed {x : AsyncWrite} (hx : x.completed = true) :
    x.outstanding = true := by
  unfold completed at hx
  split at hx
  · next hpoint => simp [outstanding, hpoint]
  · exact absurd hx Bool.false_ne_true

theorem outstanding_handle {x : AsyncWrite} (hx : x.completed = true) :
    x.handle.outstanding = false := by
  unfold completed at hx
  split at hx
  · next hpoint => simp [handle, outstanding, hpoint]
  · exact absurd hx Bool.false_ne_true

theorem outstanding_complete (failed : Bool) (x : AsyncWrite) :
    (x.complete failed).outstanding = x.outstanding := by
  unfold complete
  split
  · next hpoint => simp [outstanding, hpoint.1]
  · rfl

theorem job_complete (failed : Bool) (x : AsyncWrite) : (x.complete failed).job = x.job := by
  unfold complete
  split <;> rfl

end AsyncWrite

/-- The write queue with its workers, and the writers of the sessions. -/
structure SocketWriters (ι κ : Type) where
  queue : ThreadSafeQueue ι κ Task
  calls : ι → CallPoint
  /-- The call that has `mutexSocket_` of a session. -/
  mutexSocket : SessionId → Option (Job Task)
  /-- `socketWeak_` of the session has expired. -/
  closed : SessionId → Bool
  writes : List AsyncWrite

/-- What happens around the sockets. -/
inductive SocketLabel (ι κ : Type) where
  /-- A step of the queue. `push` is a call of `SocketWriter::write`, and `ended` the end of the
  loop's body. -/
  | queue (l : QueueLabel ι κ Task)
  /-- A worker takes its next step in `writeImpl_`. -/
  | call (i : ι)
  /-- The socket accepts as many bytes of a message as `content` has. When the owner of the bytes
  is gone, the view shows `content` in their place. -/
  | accepts (job : Job Task) (content : Bytes)
  /-- An `async_write` completes. -/
  | completes (job : Job Task) (failed : Bool)
  /-- The handler of an `async_write` is called. -/
  | handler (job : Job Task)
  /-- `socketWeak_` of a session expires while its `SocketWriter` stays. The server never comes to
  that, since the two die together with the session; the label only adds runs. -/
  | close (session : SessionId)
  deriving DecidableEq, Repr

namespace SocketWriters

variable {ι κ : Type}

/-- Workers that have just been started. -/
def start : SocketWriters ι κ where
  queue := .start
  calls _ := .entered
  mutexSocket _ := none
  closed _ := false
  writes := []

/-- The closure that owns the message is still in the hands of a worker. -/
def OwnerAlive (q : SocketWriters ι κ) (job : Job Task) : Prop :=
  ∃ i, q.queue.tasks.held i = some job

/-- What `socketWeak_.lock()` finds: the socket of the session, or what a call keeps of it. -/
def SocketAlive (q : SocketWriters ι κ) (session : SessionId) : Prop :=
  q.closed session = false ∨
    ∃ i, (q.calls i = .locking ∨ q.calls i = .locked) ∧
      (q.queue.tasks.held i).map (·.data.session) = some session

instance [Fintype ι] (q : SocketWriters ι κ) (job : Job Task) : Decidable (q.OwnerAlive job) :=
  inferInstanceAs (Decidable (∃ i, q.queue.tasks.held i = some job))

instance [Fintype ι] (q : SocketWriters ι κ) (session : SessionId) :
    Decidable (q.SocketAlive session) :=
  inferInstanceAs (Decidable (q.closed session = false ∨
    ∃ i, (q.calls i = .locking ∨ q.calls i = .locked) ∧
      (q.queue.tasks.held i).map (·.data.session) = some session))

section Steps

variable [DecidableEq ι] [Fintype ι]

/-- A worker goes to another point of the call. -/
def callGoto (q : SocketWriters ι κ) (i : ι) (point : CallPoint) : SocketWriters ι κ :=
  { q with calls := Function.update q.calls i point }

/-- Something happens to the `async_write` of a task. -/
def onWrite (q : SocketWriters ι κ) (job : Job Task) (f : AsyncWrite → AsyncWrite) :
    SocketWriters ι κ :=
  { q with writes := q.writes.map fun x => if x.job = job then f x else x }

/-- A worker takes a step of `writeImpl_`. -/
def call (q : SocketWriters ι κ) (i : ι) : SocketWriters ι κ :=
  match q.queue.workers i, q.queue.tasks.held i with
  | .running, some job =>
    match q.calls i with
    | .entered => q.callGoto i (if q.SocketAlive job.data.session then .locking else .returned)
    | .locking =>
      match q.mutexSocket job.data.session with
      | none =>
        { q with
          mutexSocket := Function.update q.mutexSocket job.data.session (some job) }.callGoto i
            .locked
      | some _ => q
    -- the lock moves into the handler, and the call returns without it
    | .locked => { q with writes := q.writes ++ [AsyncWrite.start job] }.callGoto i .returned
    | .returned => q
  | _, _ => q

/-- The task of a worker that is back from the call is destroyed. -/
def endCall (q : SocketWriters ι κ) (i : ι) : SocketWriters ι κ :=
  match q.calls i with
  | .returned => { q with queue := q.queue.endTask i .returned }.callGoto i .entered
  | _ => q

/-- What an `async_write` finds behind its view. -/
def view (q : SocketWriters ι κ) (x : AsyncWrite) (content : Bytes) : Bytes :=
  if q.OwnerAlive x.job then (x.message.drop x.accepted.length).take content.length else content

/-- The socket accepts some more bytes, if it is open and they are not too many. -/
def accept (q : SocketWriters ι κ) (content : Bytes) (x : AsyncWrite) : AsyncWrite :=
  if x.point = .writing ∧ q.closed x.session = false ∧
      x.accepted.length + content.length ≤ x.message.length then
    { x with accepted := x.accepted ++ q.view x content }
  else x

/-- The handler of a task's `async_write` unlocks the mutex. -/
def handle (q : SocketWriters ι κ) (job : Job Task) : SocketWriters ι κ :=
  if ∃ x ∈ q.writes, x.job = job ∧ x.completed = true then
    { q with mutexSocket := Function.update q.mutexSocket job.data.session none }.onWrite job
      AsyncWrite.handle
  else q

variable [DecidableEq κ]

def step (q : SocketWriters ι κ) : SocketLabel ι κ → SocketWriters ι κ
  | .queue (.ended i _) => q.endCall i
  | .queue l => { q with queue := q.queue.step l }
  | .call i => q.call i
  | .accepts job content => q.onWrite job (q.accept content)
  | .completes job failed => q.onWrite job (.complete failed)
  | .handler job => q.handle job
  | .close session => { q with closed := Function.update q.closed session true }

end Steps

/-! ## What a call can do -/

/-- What a worker can do in `writeImpl_`. -/
inductive CallMove [DecidableEq ι] (q : SocketWriters ι κ) (i : ι) : SocketWriters ι κ → Prop
  | stays : CallMove q i q
  | goes (point : CallPoint) (hrunning : q.queue.workers i = .running) (hi : q.calls i = .entered)
      (hpoint : point ≠ .locked) : CallMove q i (q.callGoto i point)
  | locks (job : Job Task) (hrunning : q.queue.workers i = .running)
      (hheld : q.queue.tasks.held i = some job) (hi : q.calls i = .locking)
      (hfree : q.mutexSocket job.data.session = none) :
      CallMove q i ({ q with
        mutexSocket := Function.update q.mutexSocket job.data.session (some job) }.callGoto i
          .locked)
  | starts (job : Job Task) (hrunning : q.queue.workers i = .running)
      (hheld : q.queue.tasks.held i = some job) (hi : q.calls i = .locked) :
      CallMove q i
        ({ q with writes := q.writes ++ [AsyncWrite.start job] }.callGoto i .returned)

theorem call_move [DecidableEq ι] [Fintype ι] (q : SocketWriters ι κ) (i : ι) :
    q.CallMove i (q.call i) := by
  unfold call
  split
  · next job hrunning hheld =>
    cases hi : q.calls i with
    | entered =>
      refine .goes _ hrunning hi ?_
      split <;> simp
    | locking =>
      cases hfree : q.mutexSocket job.data.session with
      | none => exact .locks job hrunning hheld hi hfree
      | some _ => exact .stays
    | locked => exact .starts job hrunning hheld hi
    | returned => exact .stays
  · exact .stays

theorem CallMove.queue [DecidableEq ι] {q t : SocketWriters ι κ} {i : ι} (hmove : q.CallMove i t) :
    t.queue = q.queue := by
  cases hmove <;> rfl

theorem CallMove.closed [DecidableEq ι] {q t : SocketWriters ι κ} {i : ι} (hmove : q.CallMove i t) :
    t.closed = q.closed := by
  cases hmove <;> rfl

theorem endCall_of_returned [DecidableEq ι] {q : SocketWriters ι κ} {i : ι}
    (hi : q.calls i = .returned) :
    q.endCall i = { q with queue := q.queue.endTask i .returned }.callGoto i .entered := by
  simp only [endCall, hi]

theorem writes_endCall [DecidableEq ι] {q : SocketWriters ι κ} {i : ι} :
    (q.endCall i).writes = q.writes := by
  unfold endCall
  split <;> rfl

theorem closed_endCall [DecidableEq ι] {q : SocketWriters ι κ} {i : ι} :
    (q.endCall i).closed = q.closed := by
  unfold endCall
  split <;> rfl

/-! ## Calls, locks and writes -/

/-- A worker has the mutex for a task, and is about to start the `async_write`. -/
def AboutToWrite (q : SocketWriters ι κ) (job : Job Task) : Prop :=
  ∃ i, q.queue.tasks.held i = some job ∧ q.calls i = .locked

/-- The `async_write` of a task is started, and its handler has yet to be called. -/
def Writing (q : SocketWriters ι κ) (job : Job Task) : Prop :=
  ∃ x ∈ q.writes, x.job = job ∧ x.outstanding = true

/-- The calls between their locking step and the end of their handler. -/
def Inside (q : SocketWriters ι κ) (session : SessionId) (job : Job Task) : Prop :=
  job.data.session = session ∧ (q.AboutToWrite job ∨ q.Writing job)

/-- Exactly the calls inside have the locks, every task has at most one `async_write`, and a task
that still has its worker while it is written has come back from the call. -/
structure Consistent (q : SocketWriters ι κ) : Prop where
  sound : q.queue.Sound
  holds : q.queue.Holds
  calls : ∀ i, q.calls i ≠ .entered → q.queue.workers i = .running
  started : ∀ x ∈ q.writes, x.job ∈ q.queue.taken
  back : ∀ x ∈ q.writes, ∀ i, q.queue.tasks.held i = some x.job → q.calls i = .returned
  once : (q.writes.map AsyncWrite.job).Nodup
  guarded : ∀ session, Guarded (q.mutexSocket session) (q.Inside session)

theorem consistent_start : (start : SocketWriters ι κ).Consistent where
  sound := ThreadSafeQueue.sound_start
  holds := ThreadSafeQueue.holds_start
  calls _ hi := absurd rfl hi
  started _ hx := absurd hx List.not_mem_nil
  back _ hx := absurd hx List.not_mem_nil
  once := List.nodup_nil
  guarded session := by
    refine .free ?_
    rintro job ⟨-, ⟨i, hi, -⟩ | ⟨x, hx, -⟩⟩
    · exact absurd hi (by simp [start, ThreadSafeQueue.start, WorkQueue.empty])
    · exact absurd hx List.not_mem_nil

theorem job_accept [Fintype ι] (q : SocketWriters ι κ) (content : Bytes)
    (x : AsyncWrite) : (q.accept content x).job = x.job := by
  unfold accept
  split <;> rfl

theorem outstanding_accept [Fintype ι] (q : SocketWriters ι κ) (content : Bytes)
    (x : AsyncWrite) : (q.accept content x).outstanding = x.outstanding := by
  unfold accept
  split <;> rfl

variable {q : SocketWriters ι κ}

section Goto

variable [DecidableEq ι] {i : ι} {point : CallPoint}

theorem calls_callGoto_self : (q.callGoto i point).calls i = point := Function.update_self ..

theorem calls_callGoto_of_ne {j : ι} (hj : j ≠ i) : (q.callGoto i point).calls j = q.calls j :=
  Function.update_of_ne hj ..

/-- A worker that moves neither to nor from the lock. -/
theorem aboutToWrite_callGoto (hi : q.calls i ≠ .locked) (hpoint : point ≠ .locked)
    {job : Job Task} : (q.callGoto i point).AboutToWrite job ↔ q.AboutToWrite job := by
  refine exists_congr fun j => and_congr_right fun _ => ?_
  by_cases hj : j = i
  · rw [hj, calls_callGoto_self]
    exact iff_of_false hpoint hi
  · rw [calls_callGoto_of_ne hj]

/-- A worker moves with another task. -/
theorem aboutToWrite_callGoto_of_ne {job job' : Job Task}
    (hheld : q.queue.tasks.held i = some job) (hjob : job' ≠ job) :
    (q.callGoto i point).AboutToWrite job' ↔ q.AboutToWrite job' := by
  refine exists_congr fun j => and_congr_right fun hj => ?_
  have hij : j ≠ i := by
    rintro rfl
    exact hjob (Option.some.inj (hj.symm.trans hheld))
  rw [calls_callGoto_of_ne hij]

end Goto

section OnWrite

variable {job : Job Task} {f : AsyncWrite → AsyncWrite}

theorem exists_mem_onWrite {P : AsyncWrite → Prop} :
    (∃ x ∈ (q.onWrite job f).writes, P x) ↔
      ∃ x ∈ q.writes, P (if x.job = job then f x else x) := by
  simp only [onWrite, List.mem_map, exists_exists_and_eq_and]

theorem jobs_onWrite (hjob : ∀ x, (f x).job = x.job) :
    (q.onWrite job f).writes.map AsyncWrite.job = q.writes.map AsyncWrite.job := by
  refine List.map_map.trans (List.map_congr_left fun x _ => ?_)
  rw [Function.comp_apply]
  split
  · exact hjob x
  · rfl

end OnWrite

namespace Consistent

variable (h : q.Consistent)
include h

/-- No two workers have the same task. -/
theorem worker_unique {i j : ι} {job : Job Task} (hi : q.queue.tasks.held i = some job)
    (hj : q.queue.tasks.held j = some job) : i = j :=
  h.sound.fifo.held_inj i j job hi hj

/-- A task that waits is not being written. -/
theorem not_mem_queue {x : AsyncWrite} (hx : x ∈ q.writes) : x.job ∉ q.queue.tasks.queue := by
  intro hqueue
  have hnodup : (q.queue.taken ++ q.queue.tasks.queue).Nodup := by
    rw [← h.sound.conserved]
    exact h.sound.fifo.sorted.imp fun hlt heq => Nat.ne_of_lt hlt (congrArg Job.number heq)
  exact (List.nodup_append.mp hnodup).2.2 _ (h.started x hx) _ hqueue rfl

/-- A step of the queue that ends no task. -/
theorem queue [DecidableEq ι] [DecidableEq κ] [Fintype ι] {l : QueueLabel ι κ Task}
    (hl : ∀ i result, l ≠ .ended i result) :
    Consistent { q with queue := q.queue.step l } := by
  have hproceeds := h.holds.proceeds hl
  -- a worker in a call has its task already
  have hheld {i : ι} {job : Job Task} (hi : q.calls i ≠ .entered) :
      (q.queue.step l).tasks.held i = some job ↔ q.queue.tasks.held i = some job := by
    obtain ⟨job', hjob'⟩ := h.holds.exists_held (h.calls i hi)
    rw [hproceeds.held i job' hjob', hjob']
  refine ⟨h.sound.step l, h.holds.step l, ?_, ?_, ?_, h.once, ?_⟩
  · intro i hi
    exact hproceeds.running i (h.calls i hi)
  · intro x hx
    exact hproceeds.taken _ (h.started x hx)
  · intro x hx i hi
    rcases hproceeds.new i _ hi with hold | hqueue
    · exact h.back x hx i hold
    · exact absurd hqueue (h.not_mem_queue hx)
  · intro session
    refine (h.guarded session).congr fun job => and_congr_right fun _ => or_congr_left ?_
    refine exists_congr fun i => and_congr_left fun hi => ?_
    exact hheld fun hentered => absurd (hi.symm.trans hentered) (by simp)

/-- The end of the loop's body, of a worker that is back from its call. -/
theorem endCall [DecidableEq ι] (i : ι) : (q.endCall i).Consistent := by
  cases hi : q.calls i with
  | returned =>
    rw [endCall_of_returned hi]
    have hrunning : q.queue.workers i = .running := h.calls i (by simp [hi])
    have hfree : (q.queue.endTask i .returned).tasks.held i = none :=
      ThreadSafeQueue.held_endTask_self hrunning
    refine ⟨h.sound.workerMove (q.queue.endTask_move i .returned), h.holds.endTask i .returned,
      ?_, ?_, ?_, h.once, ?_⟩
    · intro j hj
      by_cases hij : j = i
      · rw [hij, calls_callGoto_self] at hj
        exact absurd rfl hj
      · rw [calls_callGoto_of_ne hij] at hj
        exact ((q.queue.endTask_move i .returned).workers_of_ne hij).trans (h.calls j hj)
    · intro x hx
      show x.job ∈ (q.queue.endTask i .returned).taken
      rw [ThreadSafeQueue.taken_endTask]
      exact h.started x hx
    · intro x hx j hj
      by_cases hij : j = i
      · subst hij
        exact absurd (hfree.symm.trans hj) (by simp)
      · rw [calls_callGoto_of_ne hij]
        exact h.back x hx j ((ThreadSafeQueue.held_endTask_of_ne hij).symm.trans hj)
    · intro session
      refine (h.guarded session).congr fun job => and_congr_right fun _ => or_congr_left ?_
      -- the worker has not been inside
      refine exists_congr fun j => ?_
      by_cases hij : j = i
      · subst hij
        refine iff_of_false ?_ ?_
        · rintro ⟨hj, -⟩
          exact absurd (hfree.symm.trans hj) (by simp)
        · rintro ⟨-, hj⟩
          exact absurd (hi.symm.trans hj) (by simp)
      · rw [calls_callGoto_of_ne hij]
        refine and_congr_left fun _ => ?_
        show (q.queue.endTask i .returned).tasks.held j = some job ↔ _
        rw [ThreadSafeQueue.held_endTask_of_ne hij]
  | _ =>
    simp only [SocketWriters.endCall, hi]
    exact h

/-- A worker in a call runs its task. -/
theorem calls_goto [DecidableEq ι] {i : ι} {point : CallPoint}
    (hrunning : q.queue.workers i = .running) (j : ι)
    (hj : (q.callGoto i point).calls j ≠ .entered) : q.queue.workers j = .running := by
  by_cases hij : j = i
  · rw [hij, hrunning]
  · rw [calls_callGoto_of_ne hij] at hj
    exact h.calls j hj

/-- A worker that was not back has a task that is not being written. -/
theorem back_goto [DecidableEq ι] {i : ι} {point : CallPoint} (hi : q.calls i ≠ .returned)
    (x : AsyncWrite) (hx : x ∈ q.writes) (j : ι) (hj : q.queue.tasks.held j = some x.job) :
    (q.callGoto i point).calls j = .returned := by
  have hij : j ≠ i := by
    rintro rfl
    exact hi (h.back x hx j hj)
  rw [calls_callGoto_of_ne hij]
  exact h.back x hx j hj

/-- A worker goes to another point without the mutex. -/
theorem callGoto [DecidableEq ι] {i : ι} {point : CallPoint}
    (hrunning : q.queue.workers i = .running) (hi : q.calls i ≠ .locked) (hpoint : point ≠ .locked)
    (hback : q.calls i ≠ .returned) : (q.callGoto i point).Consistent where
  sound := h.sound
  holds := h.holds
  calls := h.calls_goto hrunning
  started := h.started
  back := h.back_goto hback
  once := h.once
  guarded session := by
    refine (h.guarded session).congr fun job => and_congr_right fun _ => or_congr_left ?_
    exact aboutToWrite_callGoto hi hpoint

/-- A worker locks the mutex that nobody has. -/
theorem locks [DecidableEq ι] {i : ι} {job : Job Task} (hrunning : q.queue.workers i = .running)
    (hheld : q.queue.tasks.held i = some job) (hi : q.calls i = .locking)
    (hfree : q.mutexSocket job.data.session = none) :
    Consistent ({ q with
      mutexSocket := Function.update q.mutexSocket job.data.session (some job) }.callGoto i
        .locked) := by
  refine ⟨h.sound, h.holds, h.calls_goto hrunning, h.started, h.back_goto (by simp [hi]), h.once,
    ?_⟩
  · intro session
    -- the call gets this mutex, and no other one changes hands
    by_cases hsession : session = job.data.session
    · subst hsession
      have hguarded := h.guarded job.data.session
      rw [hfree] at hguarded
      show Guarded (Function.update q.mutexSocket job.data.session (some job) _) _
      rw [Function.update_self]
      refine hguarded.acquire ⟨rfl, .inl ⟨i, hheld, calls_callGoto_self⟩⟩ fun job' hjob => ?_
      exact and_congr_right fun _ => or_congr_left (aboutToWrite_callGoto_of_ne hheld hjob)
    · show Guarded (Function.update q.mutexSocket job.data.session (some job) session) _
      rw [Function.update_of_ne hsession]
      refine (h.guarded session).congr fun job' => and_congr_right fun hjob' => or_congr_left ?_
      refine aboutToWrite_callGoto_of_ne hheld ?_
      rintro rfl
      exact hsession hjob'.symm

/-- A worker with the mutex starts the `async_write`, and the lock goes with it. -/
theorem starts [DecidableEq ι] {i : ι} {job : Job Task} (hrunning : q.queue.workers i = .running)
    (hheld : q.queue.tasks.held i = some job) (hi : q.calls i = .locked) :
    Consistent ({ q with writes := q.writes ++ [AsyncWrite.start job] }.callGoto i .returned) := by
  -- the call is not back yet, so there is no write of its task
  have hnew : ∀ x ∈ q.writes, x.job ≠ job := by
    rintro x hx rfl
    exact absurd (hi.symm.trans (h.back x hx i hheld)) (by simp)
  refine ⟨h.sound, h.holds, h.calls_goto hrunning, ?_, ?_, ?_, ?_⟩
  · intro x hx
    rcases List.mem_append.mp hx with hx | hx
    · exact h.started x hx
    · rw [List.mem_singleton.mp hx]
      exact h.holds.taken i job hheld
  · intro x hx j hj
    -- only the worker itself holds the task of the new write
    by_cases hij : j = i
    · rw [hij, calls_callGoto_self]
    · rcases List.mem_append.mp hx with hx | hx
      · exact h.back_goto (by simp [hi]) x hx j hj
      · rw [List.mem_singleton.mp hx] at hj
        exact absurd (h.worker_unique hj hheld) hij
  · show ((q.writes ++ [AsyncWrite.start job]).map AsyncWrite.job).Nodup
    rw [List.map_append, List.nodup_append]
    refine ⟨h.once, List.nodup_singleton _, ?_⟩
    intro job' hjob' job'' hjob''
    obtain ⟨x, hx, rfl⟩ := List.mem_map.mp hjob'
    rw [List.mem_singleton.mp hjob'']
    exact hnew x hx
  · intro session
    refine (h.guarded session).congr fun job' => and_congr_right fun _ => ?_
    -- the lock goes from the call to its write, and the other locks stay
    by_cases hjob : job' = job
    · rw [hjob]
      have hwriting : AsyncWrite.start job ∈ q.writes ++ [AsyncWrite.start job] :=
        List.mem_append_right _ List.mem_cons_self
      exact iff_of_true (.inr ⟨_, hwriting, rfl, rfl⟩) (.inl ⟨i, hheld, hi⟩)
    · refine or_congr (aboutToWrite_callGoto_of_ne hheld hjob) ?_
      constructor
      · rintro ⟨x, hx, hxjob, hx'⟩
        rcases List.mem_append.mp hx with hx | hx
        · exact ⟨x, hx, hxjob, hx'⟩
        · rw [List.mem_singleton.mp hx] at hxjob
          exact absurd hxjob.symm hjob
      · rintro ⟨x, hx, hxjob, hx'⟩
        exact ⟨x, List.mem_append_left _ hx, hxjob, hx'⟩

/-- A worker takes a step of the call. -/
theorem callMove [DecidableEq ι] {i : ι} {t : SocketWriters ι κ} (hmove : q.CallMove i t) :
    t.Consistent := by
  cases hmove with
  | stays => exact h
  | goes point hrunning hi hpoint =>
    exact h.callGoto hrunning (by simp [hi]) hpoint (by simp [hi])
  | locks job hrunning hheld hi hfree => exact h.locks hrunning hheld hi hfree
  | starts job hrunning hheld hi => exact h.starts hrunning hheld hi

/-- Something happens to the writes, and they stay those of the same tasks. -/
theorem of_writes {t : SocketWriters ι κ} (hqueue : t.queue = q.queue) (hcalls : t.calls = q.calls)
    (hjobs : t.writes.map AsyncWrite.job = q.writes.map AsyncWrite.job)
    (hguarded : ∀ session, Guarded (t.mutexSocket session) (t.Inside session)) :
    t.Consistent := by
  have hmem {x : AsyncWrite} (hx : x ∈ t.writes) : ∃ y ∈ q.writes, y.job = x.job := by
    have hjob : x.job ∈ t.writes.map AsyncWrite.job := List.mem_map_of_mem hx
    rw [hjobs] at hjob
    exact List.mem_map.mp hjob
  refine ⟨hqueue ▸ h.sound, hqueue ▸ h.holds, ?_, ?_, ?_, hjobs ▸ h.once, hguarded⟩
  · rw [hqueue, hcalls]
    exact h.calls
  · intro x hx
    obtain ⟨y, hy, hyx⟩ := hmem hx
    rw [hqueue, ← hyx]
    exact h.started y hy
  · intro x hx i hi
    obtain ⟨y, hy, hyx⟩ := hmem hx
    rw [hqueue, ← hyx] at hi
    rw [hcalls]
    exact h.back y hy i hi

/-- Something happens to an `async_write`, but its handler is not called. -/
theorem onWrite (job : Job Task) {f : AsyncWrite → AsyncWrite} (hjob : ∀ x, (f x).job = x.job)
    (houtstanding : ∀ x, (f x).outstanding = x.outstanding) : (q.onWrite job f).Consistent := by
  refine h.of_writes rfl rfl (jobs_onWrite hjob) fun session => ?_
  refine (h.guarded session).congr fun job' => and_congr_right fun _ => or_congr_right ?_
  rw [Writing, exists_mem_onWrite]
  refine exists_congr fun x => and_congr_right fun _ => ?_
  split
  · rw [hjob, houtstanding]
  · exact Iff.rfl

/-- The handler of an `async_write` gives the mutex up, which it has. -/
theorem handle (job : Job Task) : (q.handle job).Consistent := by
  unfold SocketWriters.handle
  split
  · next hcompleted =>
    obtain ⟨x, hx, rfl, hx'⟩ := hcompleted
    have hinside : q.Inside x.session x.job :=
      ⟨rfl, .inr ⟨x, hx, rfl, AsyncWrite.outstanding_of_completed hx'⟩⟩
    have hwriting {job : Job Task} : (q.onWrite x.job AsyncWrite.handle).Writing job ↔
        q.Writing job ∧ job ≠ x.job := by
      rw [Writing, exists_mem_onWrite]
      constructor
      · rintro ⟨y, hy, hyjob, hy'⟩
        by_cases hyx : y.job = x.job
        · -- no other write is of this task
          obtain rfl : y = x := List.inj_on_of_nodup_map h.once hy hx hyx
          rw [if_pos rfl, AsyncWrite.outstanding_handle hx'] at hy'
          exact absurd hy' Bool.false_ne_true
        · rw [if_neg hyx] at hyjob hy'
          exact ⟨⟨y, hy, hyjob, hy'⟩, hyjob ▸ hyx⟩
      · rintro ⟨⟨y, hy, rfl, hy'⟩, hyx⟩
        exact ⟨y, hy, by rw [if_neg hyx]; exact ⟨rfl, hy'⟩⟩
    refine h.of_writes rfl rfl (jobs_onWrite AsyncWrite.job_handle) fun session => ?_
    by_cases hsession : session = x.session
    · subst hsession
      show Guarded (Function.update q.mutexSocket x.session none x.session) _
      rw [Function.update_self]
      refine (h.guarded x.session).release hinside ?_ fun job hjob => ?_
      · rintro ⟨-, ⟨i, hi, hlocked⟩ | hagain⟩
        · exact absurd ((h.back x hx i hi).symm.trans hlocked) (by simp)
        · exact (hwriting.mp hagain).2 rfl
      · refine and_congr_right fun _ => or_congr_right ?_
        exact hwriting.trans (and_iff_left hjob)
    · show Guarded (Function.update q.mutexSocket x.session none session) _
      rw [Function.update_of_ne hsession]
      refine (h.guarded session).congr fun job => and_congr_right fun hjob => or_congr_right ?_
      refine hwriting.trans (and_iff_left ?_)
      rintro rfl
      exact hsession hjob.symm
  · exact h

theorem close (session : SessionId) :
    Consistent { q with closed := Function.update q.closed session true } :=
  h.of_writes rfl rfl rfl h.guarded

/-- Every step keeps the calls, the locks and the writes in accord. -/
theorem step [DecidableEq ι] [DecidableEq κ] [Fintype ι] (l : SocketLabel ι κ) :
    (q.step l).Consistent := by
  cases l with
  | queue l =>
    cases l with
    | ended i result => exact h.endCall i
    | _ => exact h.queue (by simp)
  | call i => exact h.callMove (q.call_move i)
  | accepts job content => exact h.onWrite job (q.job_accept content) (q.outstanding_accept content)
  | completes job failed =>
    exact h.onWrite job (AsyncWrite.job_complete failed) (AsyncWrite.outstanding_complete failed)
  | handler job => exact h.handle job
  | close session => exact h.close session

end Consistent

theorem consistent_foldl [DecidableEq ι] [DecidableEq κ] [Fintype ι]
    (labels : List (SocketLabel ι κ)) :
    (labels.foldl step (start : SocketWriters ι κ)).Consistent :=
  List.foldlRecOn labels step consistent_start fun _ h l _ => h.step l

/-- Only a call of `push` adds to what is pushed. -/
theorem pushed_step [DecidableEq ι] [Fintype ι] [DecidableEq κ] [Fintype κ]
    (q : SocketWriters ι κ) (l : SocketLabel ι κ) :
    (q.step l).queue.pushed = q.queue.pushed +
      match l with
      | .queue (.push k task) => if (q.queue.pushers k).isIdle then {task} else 0
      | _ => 0 := by
  cases l with
  | queue l =>
    cases l with
    | ended i result =>
      rw [add_zero, step, endCall]
      split
      · exact (q.queue.pushed_step (.ended i .returned)).trans (add_zero _)
      · rfl
    | _ => exact q.queue.pushed_step _
  | call i =>
    rw [add_zero, step, (q.call_move i).queue]
  | handler job =>
    rw [add_zero, step, handle]
    split <;> rfl
  | _ => exact (add_zero _).symm

/-- Only the label for it lets `socketWeak_` expire. -/
theorem closed_step [DecidableEq ι] [Fintype ι] [DecidableEq κ] {q : SocketWriters ι κ}
    {l : SocketLabel ι κ} (hl : ∀ session, l ≠ .close session) : (q.step l).closed = q.closed := by
  cases l with
  | queue l =>
    cases l with
    | ended i result => exact closed_endCall
    | _ => rfl
  | call i => exact (q.call_move i).closed
  | accepts job content => rfl
  | completes job failed => rfl
  | handler job =>
    rw [step, handle]
    split <;> rfl
  | close session => exact absurd rfl (hl session)

end SocketWriters

end GatewayServer
