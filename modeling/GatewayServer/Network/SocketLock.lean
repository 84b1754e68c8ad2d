import GatewayServer.Network.SocketWriter

/-!
# The lock of a socket

`mutexSocket_` is locked by a worker and unlocked by a completion handler, in another thread. From
the one to the other it belongs to one call of `writeImpl_`, and no other `async_write` is started
on the socket.

## Main definitions

* `SocketWriters.Exclusive` — one `async_write` at a time, and nobody waits for a lock in vain

## Main results

* `Consistent.passes` — only a worker that locks and the handler of its `async_write` move the lock
* `Consistent.unlocked` — the call that has the lock can go on until the lock is free
* `exclusive_foldl` — sockets are written exclusively on every run
-/

namespace GatewayServer

open Lib

namespace SocketWriters

variable {ι κ : Type} {q : SocketWriters ι κ} {session : SessionId}

/-- The `async_write`s that are outstanding on the socket of a session. -/
def outstandingOn (q : SocketWriters ι κ) (session : SessionId) : List AsyncWrite :=
  q.writes.filter fun x => x.session = session ∧ x.outstanding = true

/-- Two outstanding writes on a socket would both have the mutex. -/
theorem Consistent.one_outstanding (h : q.Consistent) : (q.outstandingOn session).length ≤ 1 := by
  have hmutex (x : AsyncWrite) (hx : x ∈ q.outstandingOn session) :
      q.mutexSocket session = some x.job := by
    obtain ⟨hmem, hx'⟩ := List.mem_filter.mp hx
    obtain ⟨hsession, hout⟩ := of_decide_eq_true hx'
    exact (h.guarded session x.job).mp ⟨hsession, .inr ⟨x, hmem, rfl, hout⟩⟩
  have honce : ((q.outstandingOn session).map AsyncWrite.job).Nodup :=
    h.once.sublist (List.filter_sublist.map AsyncWrite.job)
  cases hwrites : q.outstandingOn session with
  | nil => exact Nat.zero_le 1
  | cons x rest =>
    cases rest with
    | nil => exact Nat.le_refl 1
    | cons y rest =>
      -- the mutex is held by one call, and a call starts one `async_write`
      rw [hwrites] at hmutex honce
      have hx := hmutex x List.mem_cons_self
      have hy := hmutex y (List.mem_cons_of_mem x List.mem_cons_self)
      have hxy : x.job = y.job := Option.some.inj (hx.symm.trans hy)
      exact absurd honce (by simp [hxy])

/-- A worker that changes the lock gets it for its task. -/
theorem CallMove.locks_of_ne [DecidableEq ι] {t : SocketWriters ι κ} {i : ι}
    (hmove : q.CallMove i t) (hne : t.mutexSocket session ≠ q.mutexSocket session) :
    ∃ job, q.calls i = .locking ∧ q.queue.tasks.held i = some job ∧
      q.mutexSocket session = none ∧ t.mutexSocket session = some job := by
  cases hmove with
  | stays => exact absurd rfl hne
  | goes point _ _ _ => exact absurd rfl hne
  | locks job _ hheld hi hfree =>
    have hsession : session = job.data.session := by
      by_contra hother
      exact hne (Function.update_of_ne hother ..)
    subst hsession
    exact ⟨job, hi, hheld, hfree, Function.update_self ..⟩
  | starts job _ _ _ => exact absurd rfl hne

section Steps

variable [DecidableEq ι] [DecidableEq κ] [Fintype ι]

/-- The lock of a session passes between nobody and a call: a worker locks it for its task, or the
handler of a task that has it unlocks it. -/
def Passes (q : SocketWriters ι κ) (session : SessionId) (l : SocketLabel ι κ) : Prop :=
  (∃ i job, l = .call i ∧ q.calls i = .locking ∧ q.queue.tasks.held i = some job ∧
    q.mutexSocket session = none ∧ (q.step l).mutexSocket session = some job) ∨
  ∃ job, l = .handler job ∧ q.mutexSocket session = some job ∧
    (q.step l).mutexSocket session = none

/-- At most one `async_write` is outstanding on the socket; the mutex is held by a call exactly from
its locking step until its own handler; and a worker that is blocked on the mutex waits for a call
that has started its `async_write` or is about to, and that can go on until the mutex is free. -/
structure Exclusive (q : SocketWriters ι κ) (session : SessionId) : Prop where
  one : (q.outstandingOn session).length ≤ 1
  held : ∀ job, q.mutexSocket session = some job ↔
    job.data.session = session ∧ (q.AboutToWrite job ∨ q.Writing job)
  passes : ∀ l, (q.step l).mutexSocket session ≠ q.mutexSocket session → q.Passes session l
  blocked : ∀ i job, q.calls i = .locking → q.queue.tasks.held i = some job →
    job.data.session = session → q.mutexSocket session ≠ none →
      ∃ owner, owner ≠ job ∧ q.mutexSocket session = some owner ∧
        (q.AboutToWrite owner ∨ q.Writing owner)
  unlocked : ∃ more : List (SocketLabel ι κ), (more.foldl step q).mutexSocket session = none

/-- A handler unlocks. -/
theorem mutexSocket_handler {job : Job Task}
    (hcompleted : ∃ x ∈ q.writes, x.job = job ∧ x.completed = true) :
    (q.step (.handler job)).mutexSocket job.data.session = none := by
  rw [step, handle, if_pos hcompleted]
  exact Function.update_self ..

/-- An `async_write` completes, and its handler unlocks. -/
theorem unlocked_of_writing {job : Job Task} (hwriting : q.Writing job) :
    ∃ more : List (SocketLabel ι κ), (more.foldl step q).mutexSocket job.data.session = none := by
  obtain ⟨x, hx, rfl, hout⟩ := hwriting
  have hcomplete : (x.complete true).completed = true := by
    unfold AsyncWrite.outstanding at hout
    cases hpoint : x.point with
    | writing => simp [AsyncWrite.complete, AsyncWrite.completed, hpoint]
    | completed failed => simp [AsyncWrite.complete, AsyncWrite.completed, hpoint]
    | handled failed => simp [hpoint] at hout
  refine ⟨[.completes x.job true, .handler x.job], ?_⟩
  refine mutexSocket_handler (exists_mem_onWrite.mpr ⟨x, hx, ?_⟩)
  rw [if_pos rfl]
  exact ⟨AsyncWrite.job_complete true x, hcomplete⟩

namespace Consistent

variable (h : q.Consistent)
include h

/-- Only a worker that locks and the handler of its `async_write` move the lock. -/
theorem passes {l : SocketLabel ι κ}
    (hl : (q.step l).mutexSocket session ≠ q.mutexSocket session) : q.Passes session l := by
  cases l with
  | queue l =>
    cases l with
    | ended i result =>
      refine absurd ?_ hl
      rw [SocketWriters.step, SocketWriters.endCall]
      split <;> rfl
    | _ => exact absurd rfl hl
  | call i =>
    obtain ⟨job, hi, hheld, hfree, hjob⟩ := (q.call_move i).locks_of_ne hl
    exact .inl ⟨i, job, rfl, hi, hheld, hfree, hjob⟩
  | accepts job content => exact absurd rfl hl
  | completes job failed => exact absurd rfl hl
  | handler job =>
    rw [SocketWriters.step, SocketWriters.handle] at hl
    split at hl
    · next hcompleted =>
      have hsession : session = job.data.session := by
        by_contra hne
        exact hl (Function.update_of_ne hne ..)
      subst hsession
      -- a write that is complete has the mutex until its handler is called
      obtain ⟨x, hx, rfl, hx'⟩ := hcompleted
      refine .inr ⟨x.job, rfl, ?_, mutexSocket_handler ⟨x, hx, rfl, hx'⟩⟩
      exact (h.guarded _ _).mp ⟨rfl, .inr ⟨x, hx, rfl, AsyncWrite.outstanding_of_completed hx'⟩⟩
    · exact absurd rfl hl
  | close session => exact absurd rfl hl

omit [DecidableEq ι] [DecidableEq κ] [Fintype ι] in
/-- A worker that is blocked waits for the call of another one. -/
theorem blocked {i : ι} {job : Job Task} (hi : q.calls i = .locking)
    (hheld : q.queue.tasks.held i = some job) (hmutex : q.mutexSocket job.data.session ≠ none) :
    ∃ owner, owner ≠ job ∧ q.mutexSocket job.data.session = some owner ∧
      (q.AboutToWrite owner ∨ q.Writing owner) := by
  obtain ⟨owner, howner⟩ := Option.ne_none_iff_exists'.mp hmutex
  have hinside := (h.guarded _ owner).mpr howner
  -- the owner is past the lock, which this worker is not
  refine ⟨owner, ?_, howner, hinside.2⟩
  rintro rfl
  rcases hinside.2 with ⟨j, hj, hlocked⟩ | ⟨x, hx, rfl, -⟩
  · rw [h.worker_unique hj hheld, hi] at hlocked
    exact absurd hlocked (by simp)
  · exact absurd (hi.symm.trans (h.back x hx i hheld)) (by simp)

/-- The call that has the lock goes on until the lock is free. -/
theorem unlocked (session : SessionId) :
    ∃ more : List (SocketLabel ι κ),
      (more.foldl SocketWriters.step q).mutexSocket session = none := by
  cases hmutex : q.mutexSocket session with
  | none => exact ⟨[], hmutex⟩
  | some owner =>
    obtain ⟨rfl, ⟨i, hi, hlocked⟩ | hwriting⟩ := (h.guarded session owner).mpr hmutex
    -- its worker starts the `async_write`, and nothing keeps it from doing so
    · have hrunning : q.queue.workers i = .running := h.calls i (by simp [hlocked])
      have hwriting : (q.step (.call i)).Writing owner := by
        simp only [SocketWriters.step, SocketWriters.call, hrunning, hi, hlocked]
        exact ⟨.start owner, List.mem_append_right _ List.mem_cons_self, rfl, rfl⟩
      obtain ⟨more, hmore⟩ := unlocked_of_writing hwriting
      exact ⟨.call i :: more, hmore⟩
    · exact unlocked_of_writing hwriting

end Consistent

/-- In every state of every run the sockets are written exclusively. -/
theorem exclusive_foldl (labels : List (SocketLabel ι κ)) (session : SessionId) :
    (labels.foldl step (start : SocketWriters ι κ)).Exclusive session := by
  have h : (labels.foldl step (start : SocketWriters ι κ)).Consistent := consistent_foldl labels
  refine ⟨h.one_outstanding, ?_, fun l hl => h.passes hl, ?_, h.unlocked session⟩
  · intro job
    exact (h.guarded session job).symm
  · rintro i job hi hheld rfl hmutex
    exact h.blocked hi hheld hmutex

end Steps

end SocketWriters

end GatewayServer
