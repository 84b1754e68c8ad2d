import GatewayServer.Server

/-!
# Writing to a session

The four functions through which a payload goes from the engine to the queue of the workers.
Each takes the vector as an rvalue reference, so each is modelled by what it leaves in the
vector of its caller.

## Main definitions

* `ThreadSafeQueue.push` — the task takes the message out of the vector
* `SocketWriter.write`, `ClientSession.write` — hand the reference on
* `Server.log` — the server after some writes

## Main results

* `ClientSession.run_write` — what a write does, whether the queue is alive or not
-/

namespace GatewayServer

open Lib

variable {δ : Type}

/-- `ThreadSafeQueue::push` of a bound `writeImpl_`. The message is forwarded into the tuple of
the task; the caller is left with a moved-from vector, which is empty. -/
def ThreadSafeQueue.push (session : SessionId) (message : Bytes) :
    Prog (Server δ) Exn Bytes :=
  .atomic fun s => ([], { s with queueTasks := s.queueTasks ++ [⟨session, message⟩] })

/-- `SocketWriter::write`. Without the queue nobody takes the message out of the vector. -/
def SocketWriter.write (w : World) (session : SessionId) (message : Bytes) :
    Prog (Server δ) Exn Bytes :=
  if w.queueAlive then ThreadSafeQueue.push session message else return message

/-- `ClientSession::write`, called for `response`. -/
def ClientSession.write (w : World) (session : SessionId) (response : Response)
    (message : Bytes) : Prog (Server δ) Exn Bytes := do
  .modify fun s => { s with written := s.written ++ [⟨session, response, message⟩] }
  SocketWriter.write w session message

/-! ## The effect of writes -/

/-- What a call of `ISession::write` leaves in the vector of its caller. -/
def World.leftover (w : World) (message : Bytes) : Bytes := if w.queueAlive then [] else message

/-- The server after calls of `ISession::write`: they are recorded, and queued while the queue
is alive. -/
def Server.log (s : Server δ) (w : World) (new : List Write) : Server δ :=
  { s with
    written := s.written ++ new
    queueTasks := s.queueTasks ++
      if w.queueAlive then new.map fun x => ⟨x.session, x.payload⟩ else [] }

namespace Server

variable (s : Server δ) (w : World) (new : List Write)

@[simp] theorem log_db : (s.log w new).db = s.db := rfl

@[simp] theorem log_idClients : (s.log w new).idClients = s.idClients := rfl

@[simp] theorem log_objects : (s.log w new).objects = s.objects := rfl

@[simp] theorem log_idChannels : (s.log w new).idChannels = s.idChannels := rfl

@[simp] theorem log_written : (s.log w new).written = s.written ++ new := rfl

@[simp] theorem log_nil : s.log w [] = s := by
  cases h : w.queueAlive <;> simp [log, h]

theorem log_log (new' : List Write) : (s.log w new).log w new' = s.log w (new ++ new') := by
  cases h : w.queueAlive <;> simp [log, h]

end Server

theorem ClientSession.run_write (w : World) (session : SessionId) (response : Response)
    (message : Bytes) (s : Server δ) :
    (ClientSession.write w session response message).run s =
      (.ok (w.leftover message), s.log w [⟨session, response, message⟩]) := by
  cases h : w.queueAlive <;>
    simp [ClientSession.write, SocketWriter.write, ThreadSafeQueue.push, Prog.run_bind,
      World.leftover, Server.log, h]

end GatewayServer
