import GatewayServer.Engine.Restart
import GatewayServer.Engine.Steps
import GatewayServer.Lib.TaskPool
import GatewayServer.Network.ProcessRequest

/-!
# The workers of the requests

`WorkersPool` with the tasks that `ClientSession::runRead` posts: one `processRequest` for every
frame. The thread that runs the network context reads the frames, whatever the threads of the pool
are doing. So frames of one session are posted in the order in which they come, but several threads
may then run the tasks of one session side by side.

## Main definitions

* `WorkersPool`, `WorkersPool.step` — the server, the tasks, and the threads that run them
* `WorkersPool.Extends` — messages are stored after those that are there, and no user is forgotten
* `WorkersPool.TakesEffectInOrder` — the requests of a session take effect in the order of reading
* `WorkersPool.WaitsItsTurn` — a thread runs a request only when no other has an earlier one

## Main results

* `guarantees_task` — every step of a request extends the server
* `takesEffectInOrder_iff` — when requests take effect in order
* `shared_eq_foldl_arrive` — a session served in turn is served frame by frame
-/

namespace GatewayServer

open Lib

/-- The pool of the requests: the state of the server, and a task for every frame. -/
abbrev WorkersPool (ι : Type) := TaskPool (Server Postgres) Exn PUnit ι Arrival

namespace WorkersPool

/-! ## What a step may change -/

/-- From `s` to `t` messages are stored after those that are there, and no user is forgotten. -/
structure Extends (s t : Server Postgres) : Prop where
  history : s.db.db.history <+: t.db.db.history
  users : ∀ id, (s.idClients id).isSome → (t.idClients id).isSome

namespace Extends

theorem refl (s : Server Postgres) : Extends s s := ⟨List.prefix_refl _, fun _ => id⟩

theorem trans {s t u : Server Postgres} (hst : Extends s t) (htu : Extends t u) : Extends s u :=
  ⟨hst.history.trans htu.history, fun id hid => htu.users id (hst.users id hid)⟩

/-- A step that keeps the database and the users. -/
theorem of_same {s t : Server Postgres} (hdb : t.db = s.db) (husers : t.idClients = s.idClients) :
    Extends s t := by
  refine ⟨?_, fun id hid => ?_⟩
  · rw [hdb]
  · rwa [husers]

end Extends

/-- Stored messages stay where they are. -/
theorem keptByQueries_history :
    WrapperPg.KeptByQueries fun db db' => db.history <+: db'.history where
  refl _ := List.prefix_refl _
  insertClient _ _ := List.prefix_refl _
  insertChannel _ _ := List.prefix_refl _
  insertSubscription _ _ := List.prefix_refl _

theorem keptByRequests_extends :
    Server.KeptByRequests (fun db db' => db.history <+: db'.history) (fun _ => True) Extends where
  refl := Extends.refl
  db _ _ hd := ⟨hd, fun _ => id⟩
  push s data := by
    rw [UserManager.run_push]
    refine ⟨List.prefix_refl _, fun id hid => ?_⟩
    by_cases hdata : id = data.id
    · simp [hdata]
    · simpa [Function.update_of_ne hdata] using hid
  written _ _ _ _ _ := .of_same rfl rfl
  queued _ _ := .of_same rfl rfl
  trans _ _ _ := Extends.trans
  objects _ _ := .of_same rfl rfl
  idChannels _ _ := .of_same rfl rfl

variable [Protocol]

/-- The task that `ClientSession::runRead` posts for a frame. -/
def task (a : Arrival) : Prog (Server Postgres) Exn PUnit :=
  ClientSession.processRequest WrapperPg.database a.world a.session a.header a.request

/-- Every step of a task extends the server, whatever the other threads have done before it. -/
theorem guarantees_task (a : Arrival) : (task a).Guarantees Extends := by
  unfold task
  cases hcall : a.call with
  | none =>
    rw [processRequest_of_no_call _ hcall]
    cases a.answer with
    | none => trivial
    | some response =>
      exact (keptByRequests_extends.write _ _ trivial _).bind fun _ => trivial
  | some call =>
    rw [processRequest_of_call _ hcall, ClientSession.toEngine]
    split
    · refine keptByRequests_extends.handle keptByQueries_history ?_ (fun _ => trivial) _ call
      intro db row db' hstored
      obtain ⟨-, hhistory, -⟩ := Database.insertHistory_eq_some hstored
      exact ⟨[row], hhistory.symm⟩
    · trivial

/-! ## Requests in order -/

section Runs

variable {ι : Type} [DecidableEq ι]

/-- The thread of the network context, which runs no task, reads a frame and posts its task, or a
thread of the pool takes its next step in `runThread`. An exception ends a task as a return does. -/
def step (p : WorkersPool ι) (l : PoolLabel ι Arrival) : WorkersPool ι :=
  TaskPool.step task p l

/-- Where a request of a session has had an effect on the server, those of the session that were
read before it are done, and it has found what they have left: the messages that they have stored
come before its own, and it knows the users that they have entered. -/
structure InOrder (p : WorkersPool ι) : Prop where
  done : TaskPool.InOrder Arrival.session p
  found : ∀ e ∈ p.effects, ∀ e' ∈ p.effects, e.job.data.session = e'.job.data.session →
    e.job.number < e'.job.number → Extends e.after e'.before

/-- In every state of the run the requests of every session have taken effect in the order in which
they were read. -/
def TakesEffectInOrder (s : Server Postgres) (labels : List (PoolLabel ι Arrival)) : Prop :=
  ∀ pre, pre <+: labels → InOrder (pre.foldl step (TaskPool.start s))

/-- A thread takes a step of a request only when no other thread runs one of the same session that
was read before. -/
def WaitsItsTurn (p : WorkersPool ι) (l : PoolLabel ι Arrival) : Prop :=
  p.StepsInTurn Arrival.session l

/-- Whatever is read, and however the threads are interleaved, the requests of every session take
effect in order exactly when no thread takes a step of a request while another runs an earlier one
of the same session. -/
theorem takesEffectInOrder_iff (s : Server Postgres) (labels : List (PoolLabel ι Arrival)) :
    TakesEffectInOrder s labels ↔ Along step WaitsItsTurn (TaskPool.start s) labels := by
  have hdone : (∀ pre, pre <+: labels →
      TaskPool.InOrder Arrival.session (pre.foldl step (TaskPool.start s : WorkersPool ι))) ↔
        Along step WaitsItsTurn (TaskPool.start s) labels :=
    TaskPool.inOrder_iff_along s labels
  constructor
  · intro horder
    exact hdone.mp fun pre hpre => (horder pre hpre).done
  · rintro halong pre ⟨post, rfl⟩
    refine ⟨hdone.mpr halong pre (List.prefix_append _ _), ?_⟩
    intro e he e' he' hsession hlt
    -- what every step extends, an earlier request leaves for a later one
    exact TaskPool.related_of_along guarantees_task Extends.refl (fun _ _ _ => Extends.trans)
      (along_append.mp halong).1 he he' hsession hlt

/-- When all frames come over one session and its requests take effect in order, they are handled
as if one thread had handled them one after another. -/
theorem shared_eq_foldl_arrive (s : Server Postgres) {labels : List (PoolLabel ι Arrival)}
    {session : SessionId} (hsession : ∀ i a, .post i a ∈ labels → a.session = session)
    (horder : TakesEffectInOrder s labels)
    (hdone : ∀ job, ¬ (labels.foldl step (TaskPool.start s : WorkersPool ι)).tasks.Open job) :
    (labels.foldl step (TaskPool.start s : WorkersPool ι)).shared =
      ((labels.foldl step (TaskPool.start s : WorkersPool ι)).tasks.posted.map Job.data).foldl
        (arrive WrapperPg.database) s := by
  have hkey : ∀ l ∈ labels, TaskPool.PostsKey Arrival.session session l := by
    intro l hl
    cases l with
    | post i a => exact hsession i a hl
    | work i => trivial
  have hturns := (TaskPool.inOrder_iff_along s labels).mp fun pre hpre => (horder pre hpre).done
  exact TaskPool.shared_eq_foldl hkey hturns hdone

end Runs

/-! ## A message that overtakes another -/

/-- A text of `ann`, sent over session 10. -/
def annText (text : String) : Arrival :=
  ⟨.calm, 10, ⟨.sendTextRequest, 1⟩,
    { textRequest := some ⟨"ann", "room", text, ⟨⟨0, 0, 12⟩, ⟨1, 6, 2021⟩⟩⟩ }⟩

/-- Two texts are read, each is taken by a thread, and the thread with the second one is through
before the other starts. -/
def overtaken {ι : Type} (i j : ι) : List (PoolLabel ι Arrival) :=
  [.post i (annText "one"), .post i (annText "two"), .work i, .work j] ++
    List.replicate 10 (.work j) ++ List.replicate 10 (.work i)

omit [Protocol] in
theorem not_takesEffectInOrder_overtaken :
    letI := Protocol.oneByte
    letI p : WorkersPool (Fin 4) :=
      (overtaken 0 1).foldl step (TaskPool.start (runFrom emptyTables annJoins))
    ¬ TakesEffectInOrder (runFrom emptyTables annJoins) (overtaken (0 : Fin 4) 1) ∧
      p.shared.db.db.history.map (·.message) = ["two", "one"] := by
  let _ := Protocol.oneByte
  let p : WorkersPool (Fin 4) :=
    (overtaken 0 1).foldl step (TaskPool.start (runFrom emptyTables annJoins))
  refine ⟨fun horder => ?_, by decide +kernel⟩
  have hend : InOrder p := horder (overtaken 0 1) (List.prefix_refl _)
  -- the storing of the first text leaves messages that the second text should have found
  have hhistory : ∀ e ∈ p.effects, ∀ e' ∈ p.effects,
      e.job.data.session = e'.job.data.session → e.job.number < e'.job.number →
        e.after.db.db.history <+: e'.before.db.db.history := by
    intro e he e' he' hsession hlt
    exact (hend.found e he e' he' hsession hlt).history
  exact absurd hhistory (by decide +kernel)

end WorkersPool

end GatewayServer
