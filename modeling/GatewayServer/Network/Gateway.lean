import GatewayServer.Common.QueuePushes
import GatewayServer.Network.AcceptProcess
import GatewayServer.Network.Lives
import GatewayServer.Network.WriterRefinement

/-!
# The whole server

The parts that run side by side, as `main` puts them together: the thread of `AcceptProcess`, which
accepts connections and reads frames from them; the threads of `AsyncContext`, which run the
requests; and the workers of `ThreadSafeQueue`, which write the answers to the sockets. Every step
is one of a part, and hands its results over to the next part.

## Main definitions

* `Gateway`, `Gateway.step` — the parts and their steps
* `Gateway.poolLabel`, `Gateway.socketLabel` — what a step is for the threads and for the writers

## Main results

* `Gateway.pool_translate`, `Gateway.writers_translate` — a run of the server is one of each part
-/

namespace GatewayServer

open Lib

variable [FrameCodec]

/-- The server: the threads `ι` run requests, and the workers `κ` write. -/
structure Gateway (ι κ : Type) where
  acceptor : AcceptProcess
  /-- The requests. The network thread, which is `none`, posts them and runs none. -/
  pool : WorkersPool (Option ι)
  /-- The calls of `SocketWriter::write` that a thread has come to and is about to make. -/
  calls : ι → List Task
  writers : SocketWriters κ ι

/-- What happens in the server and around it. -/
inductive GatewayLabel (ι κ : Type) where
  /-- An `async_accept` completes. -/
  | accept (peer : Option ℕ) (bufferHeader : HeaderBuffer)
  /-- Bytes arrive over the connection of a session. -/
  | arrive (session : SessionId) (bytes : Bytes)
  /-- The outstanding read of a session is tried. What is posted will run in `world`. -/
  | read (session : SessionId) (world : World)
  /-- The outstanding read of a session fails, with some bytes in its buffer. -/
  | fail (session : SessionId) (world : World) (size : ℕ)
  /-- A thread takes its next step in a request. -/
  | work (i : ι)
  /-- A thread calls `ThreadSafeQueue::push`. -/
  | push (i : ι)
  /-- A step of the queue, of its workers, or of a socket, other than a call of `push`. -/
  | socket (l : SocketLabel κ ι)

/-- The frame that the read loop has posted between two states, if it has posted one. -/
def ReadState.newFrame (s t : ReadState) : Option Frame := (t.posted.drop s.posted.length).head?

/-- A read that completes with an error. -/
def Connection.fail (c : Connection) (size : ℕ) : Connection where
  loop := ClientSession.feed c.loop ⟨true, c.arrived.take size, true⟩
  arrived := c.arrived.drop size

namespace Gateway

variable {ι κ : Type}

/-- The frame of a session as it is handed to `runAsync`. -/
def arrival (session : SessionId) (world : World) (frame : Frame) : Arrival :=
  ⟨world, session, frame.header, frame.request⟩

variable [Protocol]

/-- A server that has just been started on `d`. -/
def start (d : Postgres) : Gateway ι κ where
  acceptor := .construct
  pool := TaskPool.start (GatewayServer.start WrapperPg.database d).2
  calls _ := []
  writers := .start

/-- A session is replaced. -/
def setSession (g : Gateway ι κ) (id : SessionId) (session : Session) : Gateway ι κ :=
  { g with acceptor := { g.acceptor with sessions := g.acceptor.sessions.set id session } }

section Steps

variable [DecidableEq ι] [DecidableEq κ] [Fintype κ]

/-- The read loop of a session goes on, and a frame that it posts is handed to the threads. -/
def onRead (g : Gateway ι κ) (id : SessionId) (world : World) (f : Connection → Connection) :
    Gateway ι κ :=
  match g.acceptor.sessions[id]? with
  | none => g
  | some session =>
    { g.setSession id { session with connection := f session.connection } with
      pool :=
        match session.connection.loop.newFrame (f session.connection).loop with
        | none => g.pool
        | some frame => g.pool.step (.post none (arrival id world frame)) }

/-- A thread takes a step of its request, when it is not about to push a message. -/
def work (g : Gateway ι κ) (i : ι) : Gateway ι κ :=
  if g.calls i = [] ∧ (g.writers.queue.pushers i).isIdle = true then
    let pool := g.pool.step (.work (some i))
    { g with
      pool
      calls := Function.update g.calls i
        (pool.shared.queueTasks.drop g.pool.shared.queueTasks.length) }
  else g

/-- A thread calls `push` with the message that it has come to. -/
def callPush (g : Gateway ι κ) (i : ι) : Gateway ι κ :=
  match g.calls i with
  | [] => g
  | task :: rest =>
    if (g.writers.queue.pushers i).isIdle = true then
      { g with
        calls := Function.update g.calls i rest
        writers := g.writers.step (.queue (.push i task)) }
    else g

/-- A step that is not a call of `push`. -/
def onSocket (g : Gateway ι κ) : SocketLabel κ ι → Gateway ι κ
  | .queue (.push _ _) => g
  | l => { g with writers := g.writers.step l }

def step (g : Gateway ι κ) : GatewayLabel ι κ → Gateway ι κ
  | .accept peer bufferHeader => { g with acceptor := g.acceptor.complete peer bufferHeader }
  | .arrive id bytes =>
    match g.acceptor.sessions[id]? with
    | none => g
    | some session =>
      g.setSession id
        { session with
          connection := session.connection.step (.arrive bytes)
          received := session.received ++ bytes }
  | .read id world => g.onRead id world fun c => c.step .read
  | .fail id world size => g.onRead id world fun c => c.fail size
  | .work i => g.work i
  | .push i => g.callPush i
  | .socket l => g.onSocket l

omit [DecidableEq κ] [Fintype κ] in
theorem acceptor_work (g : Gateway ι κ) (i : ι) : (g.work i).acceptor = g.acceptor := by
  unfold work
  split <;> rfl

omit [Protocol] in
theorem acceptor_callPush (g : Gateway ι κ) (i : ι) : (g.callPush i).acceptor = g.acceptor := by
  unfold callPush
  split
  · rfl
  · split <;> rfl

omit [Protocol] in
theorem acceptor_onSocket (g : Gateway ι κ) (l : SocketLabel κ ι) :
    (g.onSocket l).acceptor = g.acceptor := by
  unfold onSocket
  split <;> rfl

/-! ## The parts -/

/-- What a read is for the threads. -/
def readLabel (g : Gateway ι κ) (id : SessionId) (world : World) (f : Connection → Connection) :
    Option (PoolLabel (Option ι) Arrival) :=
  (g.acceptor.sessions[id]?).bind fun session =>
    (session.connection.loop.newFrame (f session.connection).loop).map fun frame =>
      .post none (arrival id world frame)

/-- What a step is for the threads that run requests. -/
def poolLabel (g : Gateway ι κ) : GatewayLabel ι κ → Option (PoolLabel (Option ι) Arrival)
  | .read id world => g.readLabel id world fun c => c.step .read
  | .fail id world size => g.readLabel id world fun c => c.fail size
  | .work i =>
    if g.calls i = [] ∧ (g.writers.queue.pushers i).isIdle = true then some (.work (some i))
    else none
  | _ => none

/-- What a step is for the queue and the sockets. -/
def socketLabel (g : Gateway ι κ) : GatewayLabel ι κ → Option (SocketLabel κ ι)
  | .push i =>
    match g.calls i with
    | [] => none
    | task :: _ =>
      if (g.writers.queue.pushers i).isIdle = true then some (.queue (.push i task)) else none
  | .socket l =>
    match l with
    | .queue (.push _ _) => none
    | l => some l
  | _ => none

omit [Protocol] [DecidableEq ι] [DecidableEq κ] [Fintype κ] in
theorem eq_of_socketLabel_close {g : Gateway ι κ} {l : GatewayLabel ι κ} {session : SessionId}
    (h : g.socketLabel l = some (.close session)) : l = .socket (.close session) := by
  cases l with
  | push i =>
    simp only [socketLabel] at h
    split at h
    · exact absurd h (by simp)
    · split at h <;> exact absurd h (by simp)
  | socket l =>
    simp only [socketLabel] at h
    split at h
    · exact absurd h (by simp)
    · exact congrArg GatewayLabel.socket (Option.some.inj h)
  | _ => exact absurd h (by simp [socketLabel])

omit [DecidableEq κ] [Fintype κ] in
theorem pool_onRead (g : Gateway ι κ) (id : SessionId) (world : World)
    (f : Connection → Connection) :
    (g.onRead id world f).pool = (g.readLabel id world f).elim g.pool g.pool.step := by
  unfold onRead readLabel
  cases g.acceptor.sessions[id]? with
  | none => rfl
  | some session =>
    dsimp only [Option.bind_some]
    cases session.connection.loop.newFrame (f session.connection).loop <;> rfl

omit [DecidableEq κ] [Fintype κ] in
theorem writers_onRead (g : Gateway ι κ) (id : SessionId) (world : World)
    (f : Connection → Connection) : (g.onRead id world f).writers = g.writers := by
  unfold onRead
  split <;> rfl

theorem pool_step (g : Gateway ι κ) (l : GatewayLabel ι κ) :
    (g.step l).pool = (g.poolLabel l).elim g.pool g.pool.step := by
  cases l with
  | accept peer bufferHeader => rfl
  | arrive id bytes =>
    simp only [step, poolLabel, Option.elim]
    split <;> rfl
  | read id world => exact g.pool_onRead id world _
  | fail id world size => exact g.pool_onRead id world _
  | work i =>
    simp only [step, work, poolLabel]
    split <;> rfl
  | push i =>
    simp only [step, callPush, poolLabel, Option.elim]
    split
    · rfl
    · split <;> rfl
  | socket l =>
    simp only [step, onSocket, poolLabel, Option.elim]
    split <;> rfl

theorem writers_step (g : Gateway ι κ) (l : GatewayLabel ι κ) :
    (g.step l).writers = (g.socketLabel l).elim g.writers g.writers.step := by
  cases l with
  | accept peer bufferHeader => rfl
  | arrive id bytes =>
    simp only [step, socketLabel, Option.elim]
    split <;> rfl
  | read id world => exact g.writers_onRead id world _
  | fail id world size => exact g.writers_onRead id world _
  | work i =>
    simp only [step, work, socketLabel, Option.elim]
    split <;> rfl
  | push i =>
    simp only [step, callPush, socketLabel]
    split
    · rfl
    · split <;> rfl
  | socket l =>
    simp only [step, onSocket, socketLabel]
    split <;> rfl

/-- A run of the server is one of the queue and the sockets. -/
theorem writers_translate (g : Gateway ι κ) (labels : List (GatewayLabel ι κ)) :
    (labels.foldl step g).writers =
      (translate step socketLabel g labels).foldl SocketWriters.step g.writers :=
  foldl_translate (I := fun _ => True) writers (fun _ _ _ => trivial)
    (fun g l _ => g.writers_step l) trivial labels

end Steps

end Gateway

end GatewayServer
