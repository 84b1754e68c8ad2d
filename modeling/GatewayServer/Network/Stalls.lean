import GatewayServer.Common.QueueReady
import GatewayServer.Network.SocketLock
import Mathlib.Data.Fintype.Card

/-!
# Waiting for a peer

A worker that has a message for a socket waits while the `async_write` of another one is not
complete, and that may take as long as the peer likes. Nothing else keeps the workers from their
tasks. But a peer that does not read needs only one message more than there are workers to keep all
of them from all other sessions.

## Main definitions

* `SocketWriters.Unfinished` — the `async_write` of a task is not complete
* `SocketWriters.WaitsFor` — a worker is before the mutex that the call of another task has
* `SocketWriters.Quiet` — no thread of the server moves by itself
* `SocketWriters.Stalled` — all workers wait for the same `async_write`

## Main results

* `waits_of_quiet` — when nothing moves, all that is waited for is `async_write`s
* `quiet_iff` — exactly when nothing moves
* `Stalled.foldl` — workers that wait for the same peer do nothing else
* `one_peer_stalls_all` — a few messages are enough for that
* `stalls_all_iff` — they must be more than there are workers
-/

namespace GatewayServer

open Lib

/-- What the threads do by themselves. The rest is up to those who push, to the peers, and to the
end of the process. -/
def SocketLabel.internal {ι κ : Type} : SocketLabel ι κ → Bool
  | .queue (.pusher _) | .queue (.notify _ _) | .queue (.worker _) | .queue (.ended _ _) => true
  | .call _ | .handler _ => true
  | _ => false

/-- The message that a thread pushes. -/
def SocketLabel.pushed {ι κ : Type} : SocketLabel ι κ → Option Task
  | .queue (.push _ task) => some task
  | _ => none

namespace SocketWriters

variable {ι κ : Type} {q t : SocketWriters ι κ}

/-- The `async_write` of a task is not complete. -/
def Unfinished (q : SocketWriters ι κ) (job : Job Task) : Prop :=
  ∃ x ∈ q.writes, x.job = job ∧ x.point = .writing

/-- A worker is before the mutex of a session, which the call of another task has. -/
structure WaitsFor (q : SocketWriters ι κ) (i : ι) (owner : Job Task) : Prop where
  running : q.queue.workers i = .running
  locking : q.calls i = .locking
  held : ∃ job, q.queue.tasks.held i = some job ∧ q.mutexSocket job.data.session = some owner

/-! ## Runs of one thread -/

/-- A call of `push`, while no worker is blocked. -/
def pushes (k : κ) (task : Task) : List (SocketLabel ι κ) :=
  [.queue (.push k task), .queue (.pusher k), .queue (.pusher k), .queue (.notify k none),
    .queue (.pusher k)]

/-- A worker goes from the head of its loop with a task to the mutex of the socket. -/
def fetches (i : ι) : List (SocketLabel ι κ) := List.replicate 5 (.queue (.worker i)) ++ [.call i]

/-- It locks the mutex, starts the `async_write`, and comes back to the head. -/
def sends (i : ι) : List (SocketLabel ι κ) := [.call i, .call i, .queue (.ended i .returned)]

section Steps

variable [DecidableEq ι] [DecidableEq κ] [Fintype ι]

/-! ## When nothing moves -/

/-- No thread moves by itself. -/
def Quiet (q : SocketWriters ι κ) : Prop := ∀ l : SocketLabel ι κ, l.internal = true → q.step l = q

namespace Quiet

theorem queue (h : q.Quiet) : q.queue.Quiet where
  work i := congrArg SocketWriters.queue (h (.queue (.worker i)) rfl)
  pushStep k := congrArg SocketWriters.queue (h (.queue (.pusher k)) rfl)
  notifyOne k woken := congrArg SocketWriters.queue (h (.queue (.notify k woken)) rfl)

theorem call (h : q.Quiet) (i : ι) : q.call i = q := h (.call i) rfl

theorem endCall (h : q.Quiet) (i : ι) : q.endCall i = q := h (.queue (.ended i .returned)) rfl

/-- A call goes on, unless it waits for a mutex. -/
theorem waits (h : q.Quiet) (hconsistent : q.Consistent) {i : ι}
    (hi : q.queue.workers i = .running) : ∃ owner, q.WaitsFor i owner := by
  obtain ⟨job, hheld⟩ := hconsistent.holds.exists_held hi
  have hstays : (q.call i).calls i = q.calls i := by
    rw [h.call]
  unfold SocketWriters.call at hstays
  cases hcall : q.calls i with
  | entered =>
    simp only [hi, hheld, hcall, calls_callGoto_self] at hstays
    split at hstays <;> exact absurd hstays (by decide)
  | locking =>
    cases hmutex : q.mutexSocket job.data.session with
    | none =>
      simp only [hi, hheld, hcall, hmutex, calls_callGoto_self] at hstays
      exact absurd hstays (by decide)
    | some owner => exact ⟨owner, hi, hcall, job, hheld, hmutex⟩
  | locked =>
    simp only [hi, hheld, hcall, calls_callGoto_self] at hstays
    exact absurd hstays (by decide)
  | returned =>
    -- the next step of the worker is the last of the call
    have hends : (q.endCall i).calls i = q.calls i := by
      rw [h.endCall]
    rw [endCall_of_returned hcall, calls_callGoto_self, hcall] at hends
    exact absurd hends (by decide)

/-- A handler that may be called would unlock a mutex. -/
theorem not_completed (h : q.Quiet) (hconsistent : q.Consistent) {x : AsyncWrite}
    (hx : x ∈ q.writes) : x.completed = false := by
  rw [Bool.eq_false_iff]
  intro hcompleted
  have hmutex : q.mutexSocket x.job.data.session = some x.job :=
    (hconsistent.guarded _ _).mp
      ⟨rfl, .inr ⟨x, hx, rfl, AsyncWrite.outstanding_of_completed hcompleted⟩⟩
  have hfree := mutexSocket_handler (q := q) ⟨x, hx, rfl, hcompleted⟩
  rw [h (.handler x.job) rfl, hmutex] at hfree
  exact absurd hfree (by simp)

/-- Whoever has the mutex of a session is writing to its socket. -/
theorem unfinished (h : q.Quiet) (hconsistent : q.Consistent) {session : SessionId}
    {owner : Job Task} (howner : q.mutexSocket session = some owner) : q.Unfinished owner := by
  obtain ⟨rfl, ⟨i, hheld, hlocked⟩ | ⟨x, hx, rfl, hout⟩⟩ :=
    (hconsistent.guarded session owner).mpr howner
  · -- a worker with the mutex would go on
    have hrunning := hconsistent.calls i (by simp [hlocked])
    obtain ⟨owner', hwaits⟩ := h.waits hconsistent hrunning
    exact absurd (hlocked.symm.trans hwaits.locking) (by decide)
  · have hcompleted := h.not_completed hconsistent hx
    unfold AsyncWrite.outstanding at hout
    unfold AsyncWrite.completed at hcompleted
    refine ⟨x, hx, rfl, ?_⟩
    cases hpoint : x.point with
    | writing => rfl
    | completed failed => simp [hpoint] at hcompleted
    | handled failed => simp [hpoint] at hout

/-- Conversely, nothing moves when every worker is blocked or waits, nobody is in `push`, and there
is no handler to be called. -/
theorem of_waits (hconsistent : q.Consistent) (hidle : ∀ k, q.queue.pushers k = .idle)
    (hworkers : ∀ i, q.queue.workers i = .blocked ∨ ∃ owner, q.WaitsFor i owner)
    (hwrites : ∀ x ∈ q.writes, x.completed = false) : q.Quiet := by
  intro l hl
  cases l with
  | queue l =>
    cases l with
    | pusher k => simp only [step, ThreadSafeQueue.step, ThreadSafeQueue.pushStep, hidle k]
    | notify k woken => simp only [step, ThreadSafeQueue.step, ThreadSafeQueue.notifyOne, hidle k]
    | worker i =>
      rcases hworkers i with hi | ⟨owner, hi⟩
      · simp only [step, ThreadSafeQueue.step, ThreadSafeQueue.work, hi]
      · simp only [step, ThreadSafeQueue.step, ThreadSafeQueue.work, hi.running]
    | ended i result =>
      have hcall : q.calls i ≠ .returned := by
        intro hreturned
        -- whoever is in a call runs a task
        have hrunning := hconsistent.calls i (by simp [hreturned])
        rcases hworkers i with hi | ⟨owner, hi⟩
        · exact absurd (hrunning.symm.trans hi) (by decide)
        · exact absurd (hreturned.symm.trans hi.locking) (by decide)
      rw [step, SocketWriters.endCall]
      split
      · contradiction
      · rfl
    | _ => exact absurd hl (by simp [SocketLabel.internal])
  | call i =>
    rcases hworkers i with hi | ⟨owner, hi⟩
    · simp only [step, SocketWriters.call, hi]
    · obtain ⟨job, hheld, hmutex⟩ := hi.held
      simp only [step, SocketWriters.call, hi.running, hheld, hi.locking, hmutex]
  | handler job =>
    refine if_neg ?_
    rintro ⟨x, hx, -, hcompleted⟩
    exact absurd (hwrites x hx) (by simp [hcompleted])
  | _ => exact absurd hl (by simp [SocketLabel.internal])

end Quiet

/-- Before the destructor of the queue is called, the queue serves its tasks. -/
theorem serving_foldl {labels : List (SocketLabel ι κ)} (hlabels : .queue .destroy ∉ labels) :
    (labels.foldl step (start : SocketWriters ι κ)).queue.Serving := by
  refine List.foldlRecOn (motive := fun q : SocketWriters ι κ => q.queue.Serving) labels step
    ThreadSafeQueue.serving_start fun q h l hl => ?_
  cases l with
  | queue l =>
    have hdestroy : l ≠ .destroy := by
      rintro rfl
      exact hlabels hl
    cases l with
    | ended i result =>
      -- the call ends with its task, or it goes on
      show (q.endCall i).queue.Serving
      unfold SocketWriters.endCall
      split
      · exact h.step (l := .ended i .returned) (by simp)
      · exact h
    | _ => exact h.step hdestroy
  | call i =>
    show (q.call i).queue.Serving
    rw [(q.call_move i).queue]
    exact h
  | handler job =>
    show (q.handle job).queue.Serving
    unfold SocketWriters.handle
    split <;> exact h
  | _ => exact h

/-- Whatever has happened before, when no thread moves by itself any more, nobody is in `push`, and
a worker is blocked in an empty queue or waits for an `async_write` that is not complete. So a
message is left in the queue only as long as all workers wait for such a one. -/
theorem waits_of_quiet {labels : List (SocketLabel ι κ)} (hlabels : .queue .destroy ∉ labels)
    (hquiet : (labels.foldl step (start : SocketWriters ι κ)).Quiet) :
    let q := labels.foldl step (start : SocketWriters ι κ)
    (∀ k, q.queue.pushers k = .idle) ∧
      (∀ i, q.queue.workers i = .blocked ∨ ∃ owner, q.WaitsFor i owner ∧ q.Unfinished owner) ∧
      (q.queue.tasks.queue ≠ [] → ∀ i, ∃ owner, q.WaitsFor i owner ∧ q.Unfinished owner) := by
  intro q
  have hconsistent : q.Consistent := consistent_foldl labels
  have hserving : q.queue.Serving := serving_foldl hlabels
  have hpeer {i : ι} (hi : q.queue.workers i = .running) :
      ∃ owner, q.WaitsFor i owner ∧ q.Unfinished owner := by
    obtain ⟨owner, hwaits⟩ := hquiet.waits hconsistent hi
    obtain ⟨job, -, hmutex⟩ := hwaits.held
    exact ⟨owner, hwaits, hquiet.unfinished hconsistent hmutex⟩
  refine ⟨hserving.idle_of_quiet hquiet.queue, fun i => ?_, fun hqueue i => ?_⟩
  · exact (hserving.worker_of_quiet hquiet.queue i).imp_right hpeer
  · exact hpeer (hserving.running_of_quiet hquiet.queue hqueue i)

/-- One worker, and three messages for a peer that takes none: the first is being written, the
worker has the second, and the third is left in the queue. -/
def threeForOne : List (SocketLabel Unit Unit) :=
  ([[1], [2], [3]].map (Task.mk 0)).flatMap (pushes ()) ++ (fetches () ++ sends () ++ fetches ())

theorem waits_of_quiet_threeForOne :
    (threeForOne.foldl step start).queue.tasks.queue ≠ [] ∧
      ∀ i, ∃ owner, (threeForOne.foldl step start).WaitsFor i owner ∧
        (threeForOne.foldl step start).Unfinished owner :=
  have hqueue : (threeForOne.foldl step start).queue.tasks.queue ≠ [] := by decide
  have hquiet : (threeForOne.foldl step start).Quiet :=
    .of_waits (consistent_foldl _) (fun _ => by rfl)
      (fun _ => .inr ⟨⟨0, ⟨0, [1]⟩⟩, by rfl, by rfl, ⟨1, ⟨0, [2]⟩⟩, by rfl, by rfl⟩) (by decide)
  ⟨hqueue, (waits_of_quiet (by decide) hquiet).2.2 hqueue⟩

/-- The threads have come to rest exactly when nobody is in `push`, every worker is blocked or
waits for a mutex, and no handler may be called. -/
theorem quiet_iff {labels : List (SocketLabel ι κ)} (hlabels : .queue .destroy ∉ labels) :
    let q := labels.foldl step (start : SocketWriters ι κ)
    q.Quiet ↔ (∀ k, q.queue.pushers k = .idle) ∧
      (∀ i, q.queue.workers i = .blocked ∨ ∃ owner, q.WaitsFor i owner) ∧
        ∀ x ∈ q.writes, x.completed = false := by
  intro q
  have hconsistent : q.Consistent := consistent_foldl labels
  have hserving : q.queue.Serving := serving_foldl hlabels
  constructor
  · intro h
    refine ⟨hserving.idle_of_quiet h.queue, fun i => ?_, fun x hx => h.not_completed hconsistent hx⟩
    exact (hserving.worker_of_quiet h.queue i).imp_right (h.waits hconsistent)
  · rintro ⟨hidle, hworkers, hwrites⟩
    exact .of_waits hconsistent hidle hworkers hwrites

theorem quiet_iff_threeForOne : (threeForOne.foldl step start).Quiet :=
  (quiet_iff (by decide)).mpr ⟨fun _ => by rfl,
    fun _ => .inr ⟨⟨0, ⟨0, [1]⟩⟩, by rfl, by rfl, ⟨1, ⟨0, [2]⟩⟩, by rfl, by rfl⟩, by decide⟩

/-! ## When a peer does not read -/

/-- A task is being written to a socket, and every worker waits for the mutex of the same socket. -/
structure Stalled (q : SocketWriters ι κ) (job : Job Task) : Prop where
  unfinished : q.Unfinished job
  running : ∀ i, q.queue.workers i = .running
  locking : ∀ i, q.calls i = .locking
  held : ∀ i, ∃ job', q.queue.tasks.held i = some job' ∧ job'.data.session = job.data.session

/-- No task is taken, no `async_write` is started, and the destructor does not return. -/
structure StandsStill (q t : SocketWriters ι κ) : Prop where
  taken : t.queue.taken = q.queue.taken
  writes : t.writes.map AsyncWrite.job = q.writes.map AsyncWrite.job
  destructor : q.queue.destructor ≠ .joined → t.queue.destructor ≠ .joined

omit [DecidableEq ι] [DecidableEq κ] [Fintype ι] in
theorem StandsStill.refl (q : SocketWriters ι κ) : q.StandsStill q := ⟨rfl, rfl, id⟩

omit [DecidableEq ι] [DecidableEq κ] [Fintype ι] in
theorem StandsStill.trans {u : SocketWriters ι κ} (h : q.StandsStill t) (h' : t.StandsStill u) :
    q.StandsStill u :=
  ⟨h'.taken.trans h.taken, h'.writes.trans h.writes, fun hq => h'.destructor (h.destructor hq)⟩

namespace Stalled

variable {job : Job Task}

omit [DecidableEq ι] [DecidableEq κ] [Fintype ι] in
/-- The task that is being written has the mutex. -/
theorem mutexSocket (h : q.Stalled job) (hconsistent : q.Consistent) :
    q.mutexSocket job.data.session = some job := by
  obtain ⟨x, hx, rfl, hpoint⟩ := h.unfinished
  refine (hconsistent.guarded _ _).mp ⟨rfl, .inr ⟨x, hx, rfl, ?_⟩⟩
  rw [AsyncWrite.outstanding, hpoint]

omit [DecidableEq ι] [DecidableEq κ] [Fintype ι] in
/-- Every worker waits for it. -/
theorem waitsFor (h : q.Stalled job) (hconsistent : q.Consistent) (i : ι) : q.WaitsFor i job := by
  obtain ⟨job', hheld, hjob'⟩ := h.held i
  exact ⟨h.running i, h.locking i, job', hheld, hjob' ▸ h.mutexSocket hconsistent⟩

/-- The queue goes on around workers that all run a task. -/
theorem queue [Nonempty ι] (h : q.Stalled job) (hholds : q.queue.Holds) {l : QueueLabel ι κ Task}
    (hl : ∀ i result, l ≠ .ended i result) :
    Stalled { q with queue := q.queue.step l } job ∧
      q.StandsStill { q with queue := q.queue.step l } := by
  have hproceeds := hholds.proceeds hl
  have hstalled : Stalled { q with queue := q.queue.step l } job := by
    refine ⟨h.unfinished, fun i => hproceeds.running i (h.running i), h.locking, fun i => ?_⟩
    obtain ⟨job', hjob', hsession⟩ := h.held i
    exact ⟨job', hproceeds.held i job' hjob', hsession⟩
  obtain ⟨htaken, hdestructor⟩ := ThreadSafeQueue.step_of_running h.running hl
  exact ⟨hstalled, htaken, rfl, hdestructor⟩

omit [DecidableEq ι] [DecidableEq κ] [Fintype ι] in
/-- Something happens to the writes, and the one that is waited for goes on. -/
theorem onWrite (h : q.Stalled job) (job' : Job Task) {f : AsyncWrite → AsyncWrite}
    (hjob : ∀ x, (f x).job = x.job)
    (hpoint : job' = job → ∀ x ∈ q.writes, x.job = job → x.point = .writing →
      (f x).point = .writing) :
    Stalled (q.onWrite job' f) job ∧ q.StandsStill (q.onWrite job' f) := by
  refine ⟨⟨?_, h.running, h.locking, h.held⟩, rfl, jobs_onWrite hjob, id⟩
  obtain ⟨x, hx, hxjob, hxpoint⟩ := h.unfinished
  refine exists_mem_onWrite.mpr ⟨x, hx, ?_⟩
  by_cases heq : x.job = job'
  · rw [if_pos heq]
    exact ⟨(hjob x).trans hxjob, hpoint (heq.symm.trans hxjob) x hx hxjob hxpoint⟩
  · rw [if_neg heq]
    exact ⟨hxjob, hxpoint⟩

/-- Until the write that is waited for is complete, nothing changes that. -/
theorem step [Nonempty ι] (h : q.Stalled job) (hconsistent : q.Consistent)
    {l : SocketLabel ι κ} (hl : ∀ failed, l ≠ .completes job failed) :
    (q.step l).Stalled job ∧ q.StandsStill (q.step l) := by
  cases l with
  | queue l =>
    cases l with
    | ended i result =>
      have hstays : q.endCall i = q := by simp only [SocketWriters.endCall, h.locking i]
      rw [SocketWriters.step, hstays]
      exact ⟨h, .refl q⟩
    | _ => exact h.queue hconsistent.holds (by simp)
  | call i =>
    obtain ⟨job', hheld, hsession⟩ := h.held i
    have hmutex := h.mutexSocket hconsistent
    rw [← hsession] at hmutex
    have hstays : q.call i = q := by
      simp only [SocketWriters.call, h.running i, hheld, h.locking i, hmutex]
    rw [SocketWriters.step, hstays]
    exact ⟨h, .refl q⟩
  | accepts job' content =>
    refine h.onWrite job' (q.job_accept content) fun _ x _ _ hpoint => ?_
    unfold SocketWriters.accept
    split <;> exact hpoint
  | completes job' failed =>
    refine h.onWrite job' (AsyncWrite.job_complete failed) fun heq => ?_
    exact absurd (heq ▸ rfl) (hl failed)
  | handler job' =>
    show (q.handle job').Stalled job ∧ q.StandsStill (q.handle job')
    unfold SocketWriters.handle
    split
    · next hcompleted =>
      have hother : job' ≠ job := by
        rintro rfl
        obtain ⟨x, hx, hxjob, hx'⟩ := hcompleted
        obtain ⟨y, hy, hyjob, hypoint⟩ := h.unfinished
        -- a task has one write, and it is not complete
        obtain rfl : x = y :=
          List.inj_on_of_nodup_map hconsistent.once hx hy (hxjob.trans hyjob.symm)
        simp [AsyncWrite.completed, hypoint] at hx'
      have hfree : Stalled { q with
          mutexSocket := Function.update q.mutexSocket job'.data.session none } job :=
        ⟨h.unfinished, h.running, h.locking, h.held⟩
      have hwrite := hfree.onWrite job' AsyncWrite.job_handle fun heq => absurd heq hother
      exact ⟨hwrite.1, hwrite.2.taken, hwrite.2.writes, hwrite.2.destructor⟩
    · exact ⟨h, .refl q⟩
  | close session => exact ⟨⟨h.unfinished, h.running, h.locking, h.held⟩, rfl, rfl, id⟩

/-- Whatever is pushed, for whichever sessions, and whatever the other peers do: until the write
that is waited for is complete, nobody is sent anything. -/
theorem foldl [Nonempty ι] (h : q.Stalled job) (hconsistent : q.Consistent)
    {labels : List (SocketLabel ι κ)} (hlabels : ∀ failed, .completes job failed ∉ labels) :
    (labels.foldl SocketWriters.step q).Stalled job ∧
      q.StandsStill (labels.foldl SocketWriters.step q) := by
  have hall : (labels.foldl SocketWriters.step q).Consistent ∧
      (labels.foldl SocketWriters.step q).Stalled job ∧
        q.StandsStill (labels.foldl SocketWriters.step q) := by
    refine List.foldlRecOn (motive := fun t : SocketWriters ι κ =>
      t.Consistent ∧ t.Stalled job ∧ q.StandsStill t) labels SocketWriters.step
        ⟨hconsistent, h, .refl q⟩ ?_
    rintro t ⟨hconsistent, hstalled, hstill⟩ l hmem
    obtain ⟨hstalled', hstill'⟩ := hstalled.step hconsistent (l := l) fun failed heq =>
      hlabels failed (heq ▸ hmem)
    exact ⟨hconsistent.step l, hstalled', hstill.trans hstill'⟩
  exact hall.2

end Stalled

/-! ## How it comes to that -/

theorem foldl_pushes {k : κ} (hidle : q.queue.pushers k = .idle) (hmutex : q.queue.mutex = none)
    (hawake : ∀ i, q.queue.workers i ≠ .blocked) (task : Task) :
    (pushes k task).foldl step q =
      { q with queue := { q.queue with tasks := q.queue.tasks.post task } } := by
  have hpushers : Function.update q.queue.pushers k .idle = q.queue.pushers := by
    rw [← hidle, Function.update_eq_self]
  simp [pushes, step, ThreadSafeQueue.step, ThreadSafeQueue.callPush, ThreadSafeQueue.pushStep,
    ThreadSafeQueue.notifyOne, ThreadSafeQueue.pusherGoto, hidle, hmutex, hawake, hpushers]

/-- Some threads push one after the other. -/
theorem foldl_flatMap_pushes {k : κ} (hidle : q.queue.pushers k = .idle)
    (hmutex : q.queue.mutex = none) (hawake : ∀ i, q.queue.workers i ≠ .blocked)
    (tasks : List Task) :
    (tasks.flatMap (pushes k)).foldl step q =
      { q with queue := { q.queue with tasks := tasks.foldl WorkQueue.post q.queue.tasks } } := by
  induction tasks generalizing q with
  | nil => rfl
  | cons task tasks ih =>
    rw [List.flatMap_cons, List.foldl_append, foldl_pushes hidle hmutex hawake]
    exact ih hidle hmutex hawake

theorem foldl_fetches {i : ι} {job : Job Task} {rest : List (Job Task)}
    (hi : q.queue.workers i = .head) (hmutex : q.queue.mutex = none)
    (hquit : q.queue.quit = false) (hqueue : q.queue.tasks.queue = job :: rest)
    (hcall : q.calls i = .entered) (hopen : q.closed job.data.session = false) :
    (fetches i).foldl step q =
      { q with
        queue := { q.queue with
          tasks := { q.queue.tasks with
            queue := rest
            held := Function.update q.queue.tasks.held i (some job) }
          taken := q.queue.taken ++ [job]
          workers := Function.update q.queue.workers i .running }
        calls := Function.update q.calls i .locking } := by
  simp [fetches, List.replicate, step, ThreadSafeQueue.step, ThreadSafeQueue.work,
    ThreadSafeQueue.goto, hi, hmutex, hquit, hqueue, WorkQueue.take, call, hcall, SocketAlive,
    hopen, callGoto]

theorem foldl_sends {i : ι} {job : Job Task} (hi : q.queue.workers i = .running)
    (hheld : q.queue.tasks.held i = some job) (hcall : q.calls i = .locking)
    (hfree : q.mutexSocket job.data.session = none) :
    (sends i).foldl step q =
      { q with
        queue := { q.queue with
          tasks := q.queue.tasks.release i
          workers := Function.update q.queue.workers i .head }
        calls := Function.update q.calls i .entered
        mutexSocket := Function.update q.mutexSocket job.data.session (some job)
        writes := q.writes ++ [.start job] } := by
  simp [sends, step, call, hi, hheld, hcall, hfree, callGoto, endCall, ThreadSafeQueue.endTask,
    ThreadSafeQueue.goto, TaskEnd.next]

/-- A worker is through with a task, which is being written now. -/
theorem foldl_fetches_sends {i : ι} {job : Job Task} {rest : List (Job Task)}
    (hi : q.queue.workers i = .head) (hmutex : q.queue.mutex = none)
    (hquit : q.queue.quit = false) (hqueue : q.queue.tasks.queue = job :: rest)
    (hcall : q.calls i = .entered) (hopen : q.closed job.data.session = false)
    (hfree : q.mutexSocket job.data.session = none) :
    (fetches i ++ sends i).foldl step q =
      { q with
        queue := { q.queue with
          tasks := { q.queue.tasks with
            queue := rest
            held := Function.update q.queue.tasks.held i none }
          taken := q.queue.taken ++ [job] }
        mutexSocket := Function.update q.mutexSocket job.data.session (some job)
        writes := q.writes ++ [.start job] } := by
  have hworkers : Function.update q.queue.workers i .head = q.queue.workers := by
    rw [← hi, Function.update_eq_self]
  have hcalls : Function.update q.calls i .entered = q.calls := by
    rw [← hcall, Function.update_eq_self]
  rw [List.foldl_append, foldl_fetches hi hmutex hquit hqueue hcall hopen]
  refine Eq.trans (foldl_sends (Function.update_self ..) (Function.update_self ..)
    (Function.update_self ..) hfree) ?_
  simp [WorkQueue.release, hworkers, hcalls]

/-- A task is being written, the workers that are not free wait for the same socket, and for each of
the free ones there is a message to it. -/
structure Filling (q : SocketWriters ι κ) (job : Job Task) (free : List ι) : Prop where
  mutex : q.queue.mutex = none
  quit : q.queue.quit = false
  socket : q.closed job.data.session = false
  unfinished : q.Unfinished job
  length : q.queue.tasks.queue.length = free.length
  sessions : ∀ job' ∈ q.queue.tasks.queue, job'.data.session = job.data.session
  heads : ∀ i ∈ free, q.queue.workers i = .head ∧ q.calls i = .entered
  others : ∀ i ∉ free, q.queue.workers i = .running ∧ q.calls i = .locking ∧
    ∃ job', q.queue.tasks.held i = some job' ∧ job'.data.session = job.data.session

/-- One worker after the other takes a message and waits. -/
theorem Filling.stalled {job : Job Task} {free : List ι} (hfree : free.Nodup)
    (h : q.Filling job free) :
    ((free.flatMap fetches).foldl step q).Stalled job ∧
      ((free.flatMap fetches).foldl step q).writes = q.writes ∧
        ((free.flatMap fetches).foldl step q).queue.destructor = q.queue.destructor := by
  induction free generalizing q with
  | nil =>
    have hothers (i : ι) := h.others i List.not_mem_nil
    exact ⟨⟨h.unfinished, fun i => (hothers i).1, fun i => (hothers i).2.1,
      fun i => (hothers i).2.2⟩, rfl, rfl⟩
  | cons i free ih =>
    obtain ⟨hi, hfree⟩ := List.nodup_cons.mp hfree
    cases hqueue : q.queue.tasks.queue with
    | nil => exact absurd (hqueue ▸ h.length) (by simp)
    | cons job' rest =>
      have hsession : job'.data.session = job.data.session :=
        h.sessions job' (hqueue ▸ List.mem_cons_self)
      obtain ⟨hhead, hentered⟩ := h.heads i List.mem_cons_self
      rw [List.flatMap_cons, List.foldl_append,
        foldl_fetches hhead h.mutex h.quit hqueue hentered (hsession ▸ h.socket)]
      -- there is one free worker less, and one message
      refine ih hfree ⟨h.mutex, h.quit, h.socket, h.unfinished, ?_, ?_, ?_, ?_⟩
      · have hlength := h.length
        rw [hqueue] at hlength
        exact Nat.succ.inj hlength
      · intro job'' hjob''
        exact h.sessions job'' (hqueue ▸ List.mem_cons_of_mem _ hjob'')
      · intro j hj
        have hji : j ≠ i := by
          rintro rfl
          exact hi hj
        simp only [Function.update_of_ne hji]
        exact h.heads j (List.mem_cons_of_mem _ hj)
      · intro j hj
        by_cases hji : j = i
        · subst hji
          simp only [Function.update_self]
          exact ⟨trivial, trivial, job', rfl, hsession⟩
        · simp only [Function.update_of_ne hji]
          exact h.others j (by simp [hji, hj])

/-- The messages are in the queue, and no worker has come for them. -/
def startWith (w : WorkQueue ι Task) : SocketWriters ι κ :=
  { (start : SocketWriters ι κ) with queue := { ThreadSafeQueue.start with tasks := w } }

/-- A worker starts to write the first message, and then all of them come for the others. -/
theorem stalled_startWith (i : ι) {w : WorkQueue ι Task} {job : Job Task} {rest : List (Job Task)}
    (hqueue : w.queue = job :: rest) (hlength : rest.length = Fintype.card ι)
    (hsessions : ∀ job' ∈ rest, job'.data.session = job.data.session) :
    let t := (fetches i ++ sends i ++ Finset.univ.toList.flatMap fetches).foldl step
      (startWith w : SocketWriters ι κ)
    t.Stalled job ∧ t.writes = [.start job] ∧ t.queue.destructor = .before := by
  intro t
  have hsends := foldl_fetches_sends (i := i) (q := (startWith w : SocketWriters ι κ))
    rfl rfl rfl hqueue rfl rfl rfl
  have hfilling : ((fetches i ++ sends i).foldl step (startWith w : SocketWriters ι κ)).Filling job
      Finset.univ.toList := by
    rw [hsends]
    refine ⟨rfl, rfl, rfl, ⟨.start job, List.mem_cons_self, rfl, rfl⟩, ?_, hsessions, ?_, ?_⟩
    · rw [Finset.length_toList, Finset.card_univ]
      exact hlength
    · exact fun _ _ => ⟨rfl, rfl⟩
    · intro j hj
      exact absurd (Finset.mem_toList.mpr (Finset.mem_univ j)) hj
  obtain ⟨hstalled, hwrites, hdestructor⟩ := hfilling.stalled (Finset.nodup_toList _)
  have ht : t = (Finset.univ.toList.flatMap fetches).foldl step
      ((fetches i ++ sends i).foldl step (startWith w)) := List.foldl_append
  rw [ht]
  refine ⟨hstalled, hwrites.trans ?_, hdestructor.trans ?_⟩
  · rw [hsends]
    rfl
  · rw [hsends]
    rfl

omit [DecidableEq ι] [Fintype ι] in
theorem queue_foldl_post (tasks : List Task) (w : WorkQueue ι Task) :
    (tasks.foldl WorkQueue.post w).queue.map Job.data = w.queue.map Job.data ++ tasks := by
  induction tasks generalizing w with
  | nil => exact (List.append_nil _).symm
  | cons task tasks ih =>
    rw [List.foldl_cons, ih, WorkQueue.queue_post, List.map_append, List.append_assoc]
    rfl

/-! ### Which messages are pushed -/

omit [DecidableEq ι] [DecidableEq κ] [Fintype ι] in
theorem pushed_pushes (k : κ) (tasks : List Task) :
    (tasks.flatMap (pushes (ι := ι) k)).filterMap SocketLabel.pushed = tasks := by
  induction tasks with
  | nil => rfl
  | cons task tasks ih =>
    rw [List.flatMap_cons, List.filterMap_append, ih]
    rfl

omit [DecidableEq ι] [DecidableEq κ] [Fintype ι] in
theorem pushed_fetches (free : List ι) :
    (free.flatMap (fetches (κ := κ))).filterMap SocketLabel.pushed = [] := by
  induction free with
  | nil => rfl
  | cons i free ih =>
    rw [List.flatMap_cons, List.filterMap_append, ih]
    rfl

/-- One message more than there are workers, all for one session, and all workers wait for it. -/
theorem exists_stalled [Nonempty ι] (k : κ) (session : SessionId) {messages : List Bytes}
    (hmessages : messages.length = Fintype.card ι + 1) :
    ∃ labels : List (SocketLabel ι κ),
      labels.filterMap SocketLabel.pushed = messages.map (Task.mk session) ∧
      ∃ job : Job Task, job.data.session = session ∧ (labels.foldl step start).Stalled job ∧
        (labels.foldl step start).writes.map AsyncWrite.job = [job] ∧
          (labels.foldl step start).queue.destructor = .before := by
  obtain ⟨i⟩ := ‹Nonempty ι›
  obtain ⟨w, hpushes, hdata⟩ : ∃ w : WorkQueue ι Task,
      ((messages.map (Task.mk session)).flatMap (pushes k)).foldl step (start : SocketWriters ι κ) =
        startWith w ∧ w.queue.map Job.data = messages.map (Task.mk session) :=
    ⟨_, foldl_flatMap_pushes (q := start) rfl rfl
      (fun _ => by simp [start, ThreadSafeQueue.start]) _, queue_foldl_post _ WorkQueue.empty⟩
  have hsessions : ∀ job ∈ w.queue, job.data.session = session := by
    intro job hjob
    have hmem : job.data ∈ messages.map (Task.mk session) := hdata ▸ List.mem_map_of_mem hjob
    obtain ⟨message, -, hmessage⟩ := List.mem_map.mp hmem
    rw [← hmessage]
  have hlength : w.queue.length = Fintype.card ι + 1 := by
    simpa [hmessages] using congrArg List.length hdata
  cases hqueue : w.queue with
  | nil => simp [hqueue] at hlength
  | cons job rest =>
    have hjob : job.data.session = session := hsessions job (hqueue ▸ List.mem_cons_self)
    have hrest : rest.length = Fintype.card ι := by
      rw [hqueue] at hlength
      exact Nat.succ.inj hlength
    obtain ⟨hstalled, hwrites, hdestructor⟩ := stalled_startWith (κ := κ) i hqueue hrest
      fun job' hjob' => (hsessions job' (hqueue ▸ List.mem_cons_of_mem _ hjob')).trans hjob.symm
    rw [← hpushes, ← List.foldl_append] at hstalled hwrites hdestructor
    refine ⟨_, ?_, job, hjob, hstalled, by rw [hwrites]; rfl, hdestructor⟩
    rw [List.filterMap_append, List.filterMap_append, pushed_pushes, pushed_fetches]
    exact List.append_nil _

/-- A peer that does not read keeps all from everybody else: one message more than there are workers
comes for its session, and as long as the first `async_write` is not complete, then whatever is
pushed, for whichever sessions, and whatever the threads and the other peers do, no other one is
ever started, every worker waits, and the destructor of the queue does not return. -/
theorem one_peer_stalls_all [Nonempty ι] (k : κ) (session : SessionId) {messages : List Bytes}
    (hmessages : messages.length = Fintype.card ι + 1) :
    ∃ (labels : List (SocketLabel ι κ)) (job : Job Task),
      labels.filterMap SocketLabel.pushed = messages.map (Task.mk session) ∧
        job.data.session = session ∧
          ∀ more : List (SocketLabel ι κ), (∀ failed, .completes job failed ∉ more) →
            ((labels ++ more).foldl step start).writes.map AsyncWrite.job = [job] ∧
              (∀ i, ((labels ++ more).foldl step start).WaitsFor i job) ∧
                ((labels ++ more).foldl step start).queue.destructor ≠ .joined := by
  obtain ⟨labels, hpushed, job, hsession, hstalled, hwrites, hdestructor⟩ :=
    exists_stalled (ι := ι) k session hmessages
  refine ⟨labels, job, hpushed, hsession, fun more hmore => ?_⟩
  obtain ⟨hstalled', hstill⟩ := hstalled.foldl (consistent_foldl labels) hmore
  rw [List.foldl_append]
  refine ⟨hstill.writes.trans hwrites, fun i => ?_, hstill.destructor (by simp [hdestructor])⟩
  refine hstalled'.waitsFor ?_ i
  rw [← List.foldl_append]
  exact consistent_foldl _

/-- Five messages stall the four workers that `main` starts, and one for another session stays in
the queue. -/
theorem one_peer_stalls_all_four :
    ∃ (labels : List (SocketLabel (Fin 4) Unit)) (job : Job Task),
      labels.filterMap SocketLabel.pushed = [[1], [2], [3], [4], [5]].map (Task.mk 0) ∧
        ((labels ++ pushes () ⟨1, [6]⟩).foldl step start).writes.map AsyncWrite.job = [job] :=
  have hlength : ([[1], [2], [3], [4], [5]] : List Bytes).length = Fintype.card (Fin 4) + 1 := rfl
  have ⟨labels, job, hpushed, _, hstalls⟩ := one_peer_stalls_all () 0 hlength
  ⟨labels, job, hpushed, (hstalls (pushes () ⟨1, [6]⟩) (by simp [pushes])).1⟩

/-! ## How many messages it takes -/

section Count

variable [Nonempty ι] {owner : Job Task}

omit [DecidableEq ι] [DecidableEq κ] in
/-- Workers that all wait for a task have tasks of the same session, every one its own. -/
theorem Consistent.card_lt_of_waits (h : q.Consistent) (hwaits : ∀ i, q.WaitsFor i owner) :
    Fintype.card ι < (q.queue.tasks.posted.filter fun job =>
      job.data.session = owner.data.session).length := by
  choose held hheld hmutex using fun i => (hwaits i).held
  obtain ⟨i⟩ := ‹Nonempty ι›
  obtain ⟨-, ⟨j, -, hlocked⟩ | ⟨x, hx, rfl, -⟩⟩ := (h.guarded _ _).mpr (hmutex i)
  · exact absurd (hlocked.symm.trans (hwaits j).locking) (by decide)
  have hinjective : Function.Injective held := fun j j' heq =>
    h.sound.fifo.held_inj j j' _ (hheld j) (heq ▸ hheld j')
  -- the task that is being written is none of theirs
  have hother : x.job ∉ Finset.univ.toList.map held := by
    intro hmem
    obtain ⟨j, -, hj⟩ := List.mem_map.mp hmem
    have hback := h.back x hx j (hj ▸ hheld j)
    exact absurd (hback.symm.trans (hwaits j).locking) (by decide)
  have hnodup : (x.job :: Finset.univ.toList.map held).Nodup :=
    List.nodup_cons.mpr ⟨hother, (Finset.nodup_toList _).map hinjective⟩
  have hsubset : x.job :: Finset.univ.toList.map held ⊆ q.queue.tasks.posted.filter fun job =>
      job.data.session = x.job.data.session := by
    intro job hjob
    rw [List.mem_filter, decide_eq_true_iff]
    rcases List.mem_cons.mp hjob with rfl | hjob
    · rw [h.sound.conserved]
      exact ⟨List.mem_append_left _ (h.started x hx), rfl⟩
    · obtain ⟨j, -, rfl⟩ := List.mem_map.mp hjob
      exact ⟨h.sound.fifo.held_mem j _ (hheld j), ((h.guarded _ _).mpr (hmutex j)).1.symm⟩
  have hlength := (hnodup.subperm hsubset).length_le
  rwa [List.length_cons, List.length_map, Finset.length_toList, Finset.card_univ] at hlength

variable [Fintype κ]

omit [Nonempty ι] in
/-- What is pushed comes from a call. -/
theorem pushed_foldl_le (labels : List (SocketLabel ι κ)) :
    (labels.foldl step (start : SocketWriters ι κ)).queue.pushed ≤
      (labels.filterMap SocketLabel.pushed : Multiset Task) := by
  induction labels using List.reverseRecOn with
  | nil =>
    have hnone : (start : SocketWriters ι κ).queue.pushed = 0 :=
      (congrArg (· + _) contents_none).trans (add_zero _)
    rw [List.foldl_nil, hnone]
    exact Multiset.zero_le _
  | append_singleton labels l ih =>
    rw [List.foldl_append, List.filterMap_append, ← Multiset.coe_add, List.foldl_cons,
      List.foldl_nil, pushed_step]
    refine add_le_add ih ?_
    cases l with
    | queue l =>
      cases l with
      | push k task =>
        dsimp only
        split
        · exact le_refl _
        · exact Multiset.zero_le _
      | _ => exact Multiset.zero_le _
    | _ => exact Multiset.zero_le _

/-- All workers wait for one task only after more messages for its session than there are
workers. -/
theorem card_lt_pushed_of_waits {labels : List (SocketLabel ι κ)}
    (hwaits : ∀ i, (labels.foldl step start).WaitsFor i owner) :
    Fintype.card ι < ((labels.filterMap SocketLabel.pushed).filter fun task =>
      task.session = owner.data.session).length := by
  have hlt := (consistent_foldl labels).card_lt_of_waits hwaits
  have hpushed := (Multiset.le_add_left _ _).trans (pushed_foldl_le labels)
  have hle := Multiset.card_le_card
    (Multiset.filter_le_filter (fun task => task.session = owner.data.session) hpushed)
  rw [Multiset.filter_coe, Multiset.filter_coe, Multiset.coe_card, Multiset.coe_card,
    List.filter_map, List.length_map] at hle
  exact hlt.trans_le hle

/-- The messages of one session can stall all workers exactly when they are more than these. -/
theorem stalls_all_iff (k : κ) (session : SessionId) (messages : List Bytes) :
    (∃ labels : List (SocketLabel ι κ),
      labels.filterMap SocketLabel.pushed = messages.map (Task.mk session) ∧
        ∃ owner, ∀ i, (labels.foldl step start).WaitsFor i owner) ↔
      Fintype.card ι < messages.length := by
  constructor
  · rintro ⟨labels, hpushed, owner, hwaits⟩
    have hlt := card_lt_pushed_of_waits hwaits
    rw [hpushed] at hlt
    exact hlt.trans_le ((List.length_filter_le ..).trans (List.length_map ..).le)
  · intro hlt
    have hfirst : (messages.take (Fintype.card ι + 1)).length = Fintype.card ι + 1 :=
      List.length_take_of_le hlt
    obtain ⟨labels, hpushed, job, -, hstalled, -⟩ := exists_stalled (ι := ι) k session hfirst
    -- the rest of them stays in the queue
    have hrest : ∀ failed, (.completes job failed : SocketLabel ι κ) ∉
        ((messages.drop (Fintype.card ι + 1)).map (Task.mk session)).flatMap (pushes k) := by
      simp [pushes]
    have hall := (hstalled.foldl (consistent_foldl labels) hrest).1
    rw [← List.foldl_append] at hall
    refine ⟨_, ?_, job, hall.waitsFor (consistent_foldl _)⟩
    rw [List.filterMap_append, hpushed, pushed_pushes, ← List.map_append, List.take_append_drop]

/-- Four messages do not stall the four workers that `main` starts. -/
theorem stalls_all_iff_four :
    ¬ ∃ labels : List (SocketLabel (Fin 4) Unit),
      labels.filterMap SocketLabel.pushed = [[1], [2], [3], [4]].map (Task.mk 0) ∧
        ∃ owner, ∀ i, (labels.foldl step start).WaitsFor i owner :=
  fun h => absurd ((stalls_all_iff () 0 [[1], [2], [3], [4]]).mp h) (by decide)

end Count

end Steps

end SocketWriters

end GatewayServer
