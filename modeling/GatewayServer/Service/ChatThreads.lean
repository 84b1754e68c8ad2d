import GatewayServer.Network.Authorship
import GatewayServer.Network.WorkersPool
import GatewayServer.Service.ChatRefinement

/-!
# The threads and the chat

The threads of the pool run requests side by side. As long as none of them takes a step of a request
while another runs an earlier one, of whatever session, they come to the state that the chat comes
to frame by frame.

## Main definitions

* `WorkersPool.OneByOne` — requests are run one after another

## Main results

* `chat_foldl_arrive` — frames that are handled one after another
* `chat_of_oneByOne` — a pool that runs requests one after another is the chat
-/

namespace GatewayServer

open Lib

section Frames

variable [Protocol] {s : Server Postgres} (h : s.Coherent) (hsubs : s.db.db.Subscribed)
include h hsubs

/-- Frames that are handled one after another. -/
theorem chat_foldl_arrive (arrivals : List Arrival) :
    (arrivals.foldl (arrive WrapperPg.database) s).chat =
      arrivals.foldl (Chat.arrive WrapperPg.reread) s.chat :=
  foldl_forget (I := fun s => s.Coherent ∧ s.db.db.Subscribed) Server.chat
    (fun _ a hs => arrive_subscribed hs.1 hs.2 a) (fun _ a hs => chat_arrive hs.1 hs.2 a)
    ⟨h, hsubs⟩ arrivals

end Frames

namespace WorkersPool

variable {ι : Type}

/-- A thread takes a step of a request only when no other runs an earlier one. -/
def OneByOne (p : WorkersPool ι) : PoolLabel ι Arrival → Prop := p.StepsInTurn fun _ => ()

/-- A thread that is alone is in turn. -/
theorem oneByOne_of_subsingleton [Subsingleton ι] (p : WorkersPool ι) (l : PoolLabel ι Arrival) :
    p.OneByOne l := by
  cases l with
  | post i a => trivial
  | work i =>
    intro _ job hjob i' job' hjob' _
    obtain rfl := Subsingleton.elim i i'
    rw [Option.some.inj (hjob.symm.trans hjob')]

variable [DecidableEq ι] [Protocol]

/-- The pool of a server that has just been started again. -/
def ofLives (lives : List (List Event)) : WorkersPool ι :=
  TaskPool.start (GatewayServer.start WrapperPg.database (runLives lives).db).2

/-- Any number of starts, and then a pool that runs requests one after another: when it has run all
of them, the server is in the state that the chat comes to by the frames in the order of reading. -/
theorem chat_of_oneByOne {lives : List (List Event)}
    (hlives : ∀ events ∈ lives, ∀ e ∈ events, e.call.channelName ≠ some "")
    {labels : List (PoolLabel ι Arrival)} (hturns : Along step OneByOne (ofLives lives) labels)
    (hdone : ∀ job, ¬ (labels.foldl step (ofLives lives)).tasks.Open job) :
    (labels.foldl step (ofLives lives)).shared.chat =
      ((labels.foldl step (ofLives lives)).tasks.posted.map Job.data).foldl
        (Chat.arrive WrapperPg.reread) (Chat.runLives WrapperPg.reread lives).restart := by
  have h := runLives_restartable hlives
  obtain ⟨s, hstart, hcoherent, hdb, -⟩ := start_coherent h.faults h.names
  have hchat : s.chat = (Chat.runLives WrapperPg.reread lives).restart := by
    rw [← chat_runLives hlives, ← chat_start h.faults h.names, hstart]
  have hpool : (ofLives lives : WorkersPool ι) = TaskPool.start s :=
    congrArg TaskPool.start (congrArg Prod.snd hstart)
  rw [hpool] at hturns hdone ⊢
  -- to the tasks of all sessions the order is one
  have hposts : ∀ l ∈ labels, TaskPool.PostsKey (fun _ : Arrival => ()) () l := by
    intro l _
    cases l <;> trivial
  have hshared : (labels.foldl step (TaskPool.start s : WorkersPool ι)).shared =
      ((labels.foldl step (TaskPool.start s : WorkersPool ι)).tasks.posted.map Job.data).foldl
        (arrive WrapperPg.database) s := TaskPool.shared_eq_foldl hposts hturns hdone
  rw [hshared, chat_foldl_arrive hcoherent (hdb ▸ h.subscribed), hchat]

/-- One thread with two frames of a session and one of another. -/
def annAndStranger : List (PoolLabel Unit Arrival) :=
  (annArrives ++ [strangerSpeaks]).map (.post ()) ++ List.replicate 36 (.work ())

omit [Protocol] in
theorem chat_of_oneByOne_annAndStranger :
    letI := Protocol.oneByte
    (annAndStranger.foldl step (ofLives [])).shared.chat =
      ((annAndStranger.foldl step (ofLives [])).tasks.posted.map Job.data).foldl
        (Chat.arrive WrapperPg.reread) (Chat.runLives WrapperPg.reread []).restart := by
  have hqueue : (annAndStranger.foldl (@step Protocol.oneByte Unit _)
      (@ofLives Unit Protocol.oneByte [])).tasks.queue.isEmpty = true := by
    decide +kernel
  have hheld : ((annAndStranger.foldl (@step Protocol.oneByte Unit _)
      (@ofLives Unit Protocol.oneByte [])).tasks.held ()).isNone = true := by
    decide +kernel
  have hturns : Along (@step Protocol.oneByte Unit _) OneByOne (@ofLives Unit Protocol.oneByte [])
      annAndStranger :=
    (along_of_forall (P := fun _ => True) fun _ _ => trivial).mono
      fun p l _ _ => oneByOne_of_subsingleton p l
  exact @chat_of_oneByOne Unit _ Protocol.oneByte [] (List.forall_mem_nil _) annAndStranger hturns
    (WorkQueue.not_open hqueue fun () => hheld)

end WorkersPool

end GatewayServer
