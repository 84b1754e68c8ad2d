import GatewayServer.Lib.Run
import GatewayServer.Network.SocketWriter

/-!
# The bytes that a socket accepts

An `async_write` reads the message through a view, for as long as the socket has not accepted all of
it. The bytes are those of the closure in the worker's `task`, and the worker destroys it as soon as
`writeImpl_` is back, which does not wait for the `async_write`.

## Main definitions

* `SocketWriters.Reads` — an `async_write` still has bytes to read
* `SocketWriters.Intact` — sockets accept the messages and nothing else
* `SocketWriters.OutlivesWrite` — a task is destroyed when nothing reads its message any more

## Main results

* `OwnersAlive.step` — a step in time keeps the owner of everything that is still read
* `intact_iff` — when messages are accepted as they are
-/

namespace GatewayServer

open Lib

/-- A socket accepts some bytes of a message. -/
def SocketLabel.isAccept {ι κ : Type} : SocketLabel ι κ → Bool
  | .accepts _ _ => true
  | _ => false

namespace SocketWriters

variable {ι κ : Type} {q t : SocketWriters ι κ}

/-- The `async_write` still has to read bytes of its message, for an open socket. -/
def Reads (q : SocketWriters ι κ) (x : AsyncWrite) : Prop :=
  x.point = .writing ∧ x.accepted.length < x.message.length ∧ q.closed x.session = false

/-- A message is handed to its socket once. What the socket accepts are the first bytes of the
message, and all of them when the `async_write` succeeds. -/
structure Intact (q : SocketWriters ι κ) : Prop where
  once : (q.writes.map AsyncWrite.job).Nodup
  inOrder : ∀ x ∈ q.writes, x.accepted <+: x.message
  whole : ∀ x ∈ q.writes, x.succeeded = true → x.accepted = x.message

/-- A worker comes to the end of the loop's body when no `async_write` has to read from its task. -/
def OutlivesWrite (q : SocketWriters ι κ) : SocketLabel ι κ → Prop
  | .queue (.ended i _) => ∀ x ∈ q.writes, q.Reads x → q.queue.tasks.held i ≠ some x.job
  | _ => True

/-! ## The owners of the bytes -/

/-- What is accepted are the first bytes of the messages, and a worker still has the task of every
message of which there are more to come. -/
structure OwnersAlive (q : SocketWriters ι κ) : Prop where
  consistent : q.Consistent
  inOrder : ∀ x ∈ q.writes, x.accepted <+: x.message
  whole : ∀ x ∈ q.writes, x.succeeded = true → x.accepted.length = x.message.length
  alive : ∀ x ∈ q.writes, q.Reads x → q.OwnerAlive x.job

theorem ownersAlive_start : (start : SocketWriters ι κ).OwnersAlive where
  consistent := consistent_start
  inOrder _ hx := absurd hx List.not_mem_nil
  whole _ hx := absurd hx List.not_mem_nil
  alive _ hx := absurd hx List.not_mem_nil

/-- Through a view whose owner is alive, or with nothing left to read, the socket accepts what comes
next in the message. -/
theorem accepted_view [Fintype ι] {x : AsyncWrite} {content : Bytes} (hx : x.accepted <+: x.message)
    (hlength : x.accepted.length + content.length ≤ x.message.length)
    (halive : x.accepted.length < x.message.length → q.OwnerAlive x.job) :
    x.accepted ++ q.view x content <+: x.message := by
  unfold view
  split
  · have htake : x.accepted = x.message.take x.accepted.length := List.prefix_iff_eq_take.mp hx
    have hmore : x.accepted ++ (x.message.drop x.accepted.length).take content.length =
        x.message.take (x.accepted.length + content.length) := by
      rw [List.take_add, ← htake]
    rw [hmore]
    exact List.take_prefix _ _
  -- the owner may only be gone when nothing is left to read
  · next hdead =>
    have hnothing : content = [] := by
      have hall : ¬ x.accepted.length < x.message.length := fun hlt => hdead (halive hlt)
      exact List.length_eq_zero_iff.mp (by omega)
    rw [hnothing, List.append_nil]
    exact hx

namespace OwnersAlive

variable (h : q.OwnersAlive)
include h

theorem intact : q.Intact where
  once := h.consistent.once
  inOrder := h.inOrder
  whole x hx hsucceeded := (h.inOrder x hx).eq_of_length (h.whole x hx hsucceeded)

/-- The writes stay as they are, and nobody lets go of a task that is read. -/
theorem of_same (hconsistent : t.Consistent) (hwrites : t.writes = q.writes)
    (hclosed : ∀ session, t.closed session = false → q.closed session = false)
    (halive : ∀ x ∈ q.writes, q.Reads x → q.OwnerAlive x.job → t.OwnerAlive x.job) :
    t.OwnersAlive where
  consistent := hconsistent
  inOrder := hwrites ▸ h.inOrder
  whole := hwrites ▸ h.whole
  alive x hx hreads := by
    rw [hwrites] at hx
    have hreads' : q.Reads x := ⟨hreads.1, hreads.2.1, hclosed _ hreads.2.2⟩
    exact halive x hx hreads' (h.alive x hx hreads')

/-- Something happens to one of the writes, which reads on only if it has read before. -/
theorem onWrite {job : Job Task} {f : AsyncWrite → AsyncWrite} (hconsistent : t.Consistent)
    (hqueue : t.queue = q.queue) (hclosed : t.closed = q.closed)
    (hwrites : t.writes = (q.onWrite job f).writes) (hjob : ∀ x, (f x).job = x.job)
    (hinOrder : ∀ x ∈ q.writes, (f x).accepted <+: x.message)
    (hwhole : ∀ x ∈ q.writes, (f x).succeeded = true → (f x).accepted.length = x.message.length)
    (hreads : ∀ x ∈ q.writes, q.Reads (f x) → q.Reads x) : t.OwnersAlive := by
  -- every write is an old one, or the old one that has changed
  have hmem {y : AsyncWrite} (hy : y ∈ t.writes) :
      ∃ x ∈ q.writes, (if x.job = job then f x else x) = y := by
    rw [hwrites] at hy
    exact List.mem_map.mp hy
  have hmessage (x : AsyncWrite) : (f x).message = x.message := by
    rw [AsyncWrite.message, hjob, AsyncWrite.message]
  refine ⟨hconsistent, ?_, ?_, ?_⟩
  · intro y hy
    obtain ⟨x, hx, rfl⟩ := hmem hy
    split
    · rw [hmessage]
      exact hinOrder x hx
    · exact h.inOrder x hx
  · intro y hy
    obtain ⟨x, hx, rfl⟩ := hmem hy
    split
    · rw [hmessage]
      exact hwhole x hx
    · exact h.whole x hx
  · intro y hy
    rw [Reads, hclosed, OwnerAlive, hqueue]
    obtain ⟨x, hx, rfl⟩ := hmem hy
    split
    · intro hagain
      rw [hjob]
      exact h.alive x hx (hreads x hx hagain)
    · exact h.alive x hx

theorem accept [DecidableEq ι] [Fintype ι] (job : Job Task) (content : Bytes) :
    (q.onWrite job (q.accept content)).OwnersAlive := by
  refine h.onWrite (h.consistent.onWrite job (q.job_accept content)
    (q.outstanding_accept content)) rfl rfl rfl (q.job_accept content) ?_ ?_ ?_
  · intro x hx
    unfold SocketWriters.accept
    split
    · next hmore =>
      -- the next bytes are read from the task, which is still there
      obtain ⟨hpoint, hopen, hlength⟩ := hmore
      exact accepted_view (h.inOrder x hx) hlength fun hlt => h.alive x hx ⟨hpoint, hlt, hopen⟩
    · exact h.inOrder x hx
  · intro x hx
    unfold SocketWriters.accept
    split
    · next hmore =>
      -- a write that accepts bytes has not succeeded yet
      intro hsucceeded
      simp [AsyncWrite.succeeded, hmore.1] at hsucceeded
    · exact h.whole x hx
  · intro x hx
    unfold SocketWriters.accept
    split
    · next hmore =>
      rintro ⟨hpoint, hlt, hopen⟩
      refine ⟨hpoint, ?_, hopen⟩
      simp only [List.length_append] at hlt
      exact Nat.lt_of_le_of_lt (Nat.le_add_right _ _) hlt
    · exact id

theorem complete [DecidableEq ι] (job : Job Task) (failed : Bool) :
    (q.onWrite job (.complete failed)).OwnersAlive := by
  refine h.onWrite (h.consistent.onWrite job (AsyncWrite.job_complete failed)
    (AsyncWrite.outstanding_complete failed)) rfl rfl rfl (AsyncWrite.job_complete failed) ?_ ?_ ?_
  · intro x hx
    unfold AsyncWrite.complete
    split <;> exact h.inOrder x hx
  · intro x hx
    unfold AsyncWrite.complete
    split
    · next hcomplete =>
      -- only a write that has accepted all of its message succeeds
      intro hsucceeded
      refine hcomplete.2.resolve_left ?_
      rintro rfl
      exact Bool.false_ne_true hsucceeded
    · exact h.whole x hx
  · intro x hx
    unfold AsyncWrite.complete
    split
    · rintro ⟨hpoint, -⟩
      exact absurd hpoint (by simp)
    · exact id

theorem handle [DecidableEq ι] (job : Job Task) : (q.handle job).OwnersAlive := by
  have hconsistent := h.consistent.handle job
  unfold SocketWriters.handle at *
  split
  · next hcompleted =>
    rw [if_pos hcompleted] at hconsistent
    refine h.onWrite hconsistent rfl rfl rfl AsyncWrite.job_handle ?_ ?_ ?_
    · intro x hx
      rw [AsyncWrite.accepted_handle]
      exact h.inOrder x hx
    · intro x hx hsucceeded
      rw [AsyncWrite.succeeded_handle] at hsucceeded
      rw [AsyncWrite.accepted_handle]
      exact h.whole x hx hsucceeded
    · rintro x hx ⟨hpoint, hmore⟩
      have hsame : x.handle = x := AsyncWrite.handle_eq_self hpoint
      rw [hsame] at hpoint hmore
      exact ⟨hpoint, hmore⟩
  · exact h

/-- What a worker starts to write it still has. -/
theorem callMove [DecidableEq ι] {i : ι} (hmove : q.CallMove i t) (hconsistent : t.Consistent) :
    t.OwnersAlive := by
  cases hmove with
  | stays => exact h
  | goes point _ _ _ => exact h.of_same hconsistent rfl (fun _ => id) fun _ _ _ => id
  | locks job _ _ _ _ => exact h.of_same hconsistent rfl (fun _ => id) fun _ _ _ => id
  | starts job _ hheld _ =>
    refine ⟨hconsistent, ?_, ?_, ?_⟩
    · intro x hx
      rcases List.mem_append.mp hx with hx | hx
      · exact h.inOrder x hx
      · rw [List.mem_singleton.mp hx]
        exact List.nil_prefix
    · intro x hx hsucceeded
      rcases List.mem_append.mp hx with hx | hx
      · exact h.whole x hx hsucceeded
      · rw [List.mem_singleton.mp hx] at hsucceeded
        exact absurd hsucceeded Bool.false_ne_true
    -- the new write reads from the task that the worker holds
    · intro x hx hreads
      rcases List.mem_append.mp hx with hx | hx
      · exact h.alive x hx hreads
      · rw [List.mem_singleton.mp hx]
        exact ⟨i, hheld⟩

/-- A worker destroys a task from which nothing has to be read. -/
theorem endCall [DecidableEq ι] {i : ι}
    (hl : ∀ x ∈ q.writes, q.Reads x → q.queue.tasks.held i ≠ some x.job)
    (hconsistent : (q.endCall i).Consistent) : (q.endCall i).OwnersAlive := by
  cases hi : q.calls i with
  | returned =>
    rw [endCall_of_returned hi] at *
    refine h.of_same hconsistent rfl (fun _ => id) ?_
    rintro x hx hreads ⟨j, hj⟩
    have hne : j ≠ i := by
      rintro rfl
      exact hl x hx hreads hj
    exact ⟨j, (ThreadSafeQueue.held_endTask_of_ne hne).trans hj⟩
  | _ =>
    simp only [SocketWriters.endCall, hi]
    exact h

variable [DecidableEq ι] [DecidableEq κ] [Fintype ι]

/-- A step that ends no task too early keeps the owner of everything that is still read. -/
theorem step {l : SocketLabel ι κ} (hl : q.OutlivesWrite l) : (q.step l).OwnersAlive := by
  have hconsistent := h.consistent.step l
  cases l with
  | queue l =>
    cases l with
    | ended i result => exact h.endCall hl hconsistent
    | _ =>
      refine h.of_same hconsistent rfl (fun _ => id) ?_
      rintro x hx - ⟨i, hi⟩
      exact ⟨i, (h.consistent.holds.proceeds (by simp)).held i _ hi⟩
  | call i => exact h.callMove (q.call_move i) hconsistent
  | accepts job content => exact h.accept job content
  | completes job failed => exact h.complete job failed
  | handler job => exact h.handle job
  | close session =>
    refine h.of_same hconsistent rfl ?_ fun _ _ _ => id
    intro session' hopen
    by_cases hsession : session' = session
    · subst hsession
      exact absurd hopen (by simp [SocketWriters.step])
    · exact (Function.update_of_ne hsession ..).symm.trans hopen

end OwnersAlive

/-! ## A task that is destroyed too early -/

section Runs

variable [DecidableEq ι] [DecidableEq κ] [Fintype ι]

omit [DecidableEq κ] [Fintype ι] in
/-- A worker that is back from the call lets go of its message. -/
theorem not_ownerAlive_endCall (h : q.Consistent) {x : AsyncWrite} (hx : x ∈ q.writes) {i : ι}
    (hheld : q.queue.tasks.held i = some x.job) : ¬ (q.endCall i).OwnerAlive x.job := by
  have hi : q.calls i = .returned := h.back x hx i hheld
  have hrunning : q.queue.workers i = .running := h.calls i (by simp [hi])
  rw [endCall_of_returned hi]
  rintro ⟨j, hj⟩
  have hj : (q.queue.endTask i .returned).tasks.held j = some x.job := hj
  by_cases hij : j = i
  · rw [hij, ThreadSafeQueue.held_endTask_self hrunning] at hj
    exact absurd hj (by simp)
  · rw [ThreadSafeQueue.held_endTask_of_ne hij] at hj
    exact hij (h.worker_unique hj hheld)

/-- Without its owner a message is accepted as something else. -/
theorem exists_not_intact {x : AsyncWrite} (hx : x ∈ q.writes) (hreads : q.Reads x)
    (hdead : ¬ q.OwnerAlive x.job) : ∃ content, ¬ (q.step (.accepts x.job content)).Intact := by
  obtain ⟨hpoint, hlt, hopen⟩ := hreads
  -- any byte but the next one of the message
  let b : UInt8 := x.message[x.accepted.length] + 1
  refine ⟨[b], ?_⟩
  intro hintact
  have haccept : (q.accept [b] x).accepted = x.accepted ++ [b] := by
    rw [accept, if_pos ⟨hpoint, hopen, hlt⟩, view, if_neg hdead]
  have hmem : q.accept [b] x ∈ (q.step (.accepts x.job [b])).writes :=
    List.mem_map.mpr ⟨x, hx, if_pos rfl⟩
  have hprefix := hintact.inOrder _ hmem
  rw [haccept, AsyncWrite.message, job_accept] at hprefix
  obtain ⟨rest, hrest⟩ := hprefix
  have hbyte : x.message[x.accepted.length] = b := by
    have hmessage : x.message = x.accepted ++ [b] ++ rest := hrest.symm
    simp [hmessage]
  exact absurd hbyte (by simp [b])

/-- Sockets accept every message as it is, in every state of a run and whatever they accept next,
exactly when no worker has destroyed a task from which an `async_write` still had to read. -/
theorem intact_iff (labels : List (SocketLabel ι κ)) :
    (∀ before, before <+: labels → ∀ more : List (SocketLabel ι κ),
        (∀ l ∈ more, l.isAccept = true) → ((before ++ more).foldl step start).Intact) ↔
      Along step OutlivesWrite start labels := by
  apply forall_continued_iff_along (I := OwnersAlive)
  · intro q l h hl
    exact h.step hl
  · intro q l hl
    cases l with
    | accepts job content => trivial
    | _ => exact absurd hl Bool.false_ne_true
  · intro q h
    exact h.intact
  · intro q l h hl
    cases l with
    | queue l =>
      cases l with
      | ended i result =>
        -- the task is gone while its `async_write` reads on, and the next bytes may be others
        simp only [OutlivesWrite, not_forall, not_not] at hl
        obtain ⟨x, hx, hreads, hheld⟩ := hl
        have hdead := not_ownerAlive_endCall h.consistent hx hheld
        have hreads' : (q.endCall i).Reads x := by
          rw [Reads, closed_endCall]
          exact hreads
        have hx' : x ∈ (q.endCall i).writes := by
          rw [writes_endCall]
          exact hx
        obtain ⟨content, hcontent⟩ := exists_not_intact hx' hreads' hdead
        exact ⟨[.accepts x.job content], by simp [SocketLabel.isAccept], hcontent⟩
      | _ => exact absurd trivial hl
    | _ => exact absurd trivial hl
  · exact ownersAlive_start

end Runs

/-- The first task of a run, with a message for session 10. -/
def firstTask : Job Task := ⟨0, ⟨10, [1, 2, 3]⟩⟩

/-- A message is pushed, a worker starts its `async_write`, the socket accepts one byte, the worker
destroys the task, and the socket accepts two more. -/
def destroyedTooEarly (i : ι) : List (SocketLabel ι Unit) :=
  [.queue (.push () firstTask.data), .queue (.pusher ()), .queue (.pusher ()),
    .queue (.notify () none), .queue (.pusher ())] ++
  List.replicate 5 (.queue (.worker i)) ++ List.replicate 3 (.call i) ++
  [.accepts firstTask [0], .queue (.ended i .returned), .accepts firstTask [0, 0],
    .completes firstTask false]

theorem not_intact_destroyedTooEarly :
    let q := (destroyedTooEarly (0 : Fin 4)).foldl step start
    q.writes = [⟨firstTask, [1, 0, 0], .completed false⟩] ∧ ¬ q.Intact := by
  intro q
  have hwrites : q.writes = [⟨firstTask, [1, 0, 0], .completed false⟩] := by decide
  refine ⟨hwrites, ?_⟩
  intro hintact
  have hwhole := hintact.whole ⟨firstTask, [1, 0, 0], .completed false⟩
    (by rw [hwrites]; exact List.mem_cons_self) rfl
  exact absurd hwhole (by decide)

end SocketWriters

end GatewayServer
