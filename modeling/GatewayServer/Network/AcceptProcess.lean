import GatewayServer.Network.FrameStream
import Mathlib.Data.List.Induction

/-!
# Accepting connections

`AcceptProcess::doAccept`, a coroutine that waits for a connection, makes a session of it, and
starts over. All connections come to the same socket: a session moves its connection out of it, and
what is closed in the end is the socket that is left.

## Main definitions

* `Session` — a session and what has come over its connection
* `AcceptProcess`, `AcceptProcess.doAccept` — the coroutine
* `AcceptProcess.complete` — an `async_accept` that completes

## Main results

* `AcceptProcess.run_eq` — there is one session for each connection, in their order
-/

namespace GatewayServer

open Lib

variable [FrameCodec]

/-- A `ClientSession` object and the connection that its socket is for. -/
structure Session where
  /-- The connection. -/
  peer : ℕ
  connection : Connection
  /-- All the bytes that have arrived. -/
  received : Bytes

/-- What `doAccept` does and what it is told. -/
inductive AcceptEvent where
  | asyncAccept
  /-- The coroutine is resumed, with `ec.failed()`. -/
  | completed (failed : Bool)
  /-- A session is made, and starts to read. -/
  | session (peer : ℕ)
  /-- `socket_.close()`, with the connection that the socket still has. -/
  | closed (peer : Option ℕ)
  deriving DecidableEq, Repr

/-- Where the coroutine is suspended. -/
inductive AcceptPoint where
  | start
  | accepting
  deriving DecidableEq, Repr

structure AcceptProcess where
  coroAccept : AcceptPoint
  /-- The connection that `socket_` has. -/
  socket : Option ℕ
  /-- `sessions_`: a session is the one with its place as id. -/
  sessions : List Session
  trace : List AcceptEvent

namespace AcceptProcess

variable (a : AcceptProcess)

/-- The head of the loop, up to its `yield`. -/
def waitAccept : AcceptProcess :=
  { a with coroAccept := .accepting, trace := a.trace ++ [.asyncAccept] }

/-- A session takes the connection out of the socket and starts to read. -/
def makeSession (bufferHeader : HeaderBuffer) : AcceptProcess :=
  match a.socket with
  | none => a
  | some peer =>
    { a with
      socket := none
      sessions := a.sessions ++ [⟨peer, .connect bufferHeader, []⟩]
      trace := a.trace ++ [.session peer] }

def closeSocket : AcceptProcess :=
  { a with socket := none, trace := a.trace ++ [.closed a.socket] }

/-- `AcceptProcess::doAccept`, from where it was suspended to the next `yield`. -/
def doAccept (failed : Bool) (bufferHeader : HeaderBuffer) : AcceptProcess :=
  match a.coroAccept with
  | .start => a.waitAccept
  | .accepting =>
    if failed then a.closeSocket.waitAccept
    else (a.makeSession bufferHeader).closeSocket.waitAccept

/-- The outstanding `async_accept` completes, with a connection or with an error. -/
def complete (peer : Option ℕ) (bufferHeader : HeaderBuffer) : AcceptProcess :=
  let a : AcceptProcess :=
    { a with socket := peer, trace := a.trace ++ [.completed peer.isNone] }
  a.doAccept peer.isNone bufferHeader

/-- The constructor: the coroutine is started. -/
def construct : AcceptProcess := waitAccept ⟨.start, none, [], []⟩

example (bufferHeader : HeaderBuffer) :
    doAccept ⟨.start, none, [], []⟩ false bufferHeader = construct := rfl

/-- What one completion leads to. By the time the socket is closed, a session has its connection. -/
def events : Option ℕ → List AcceptEvent
  | some peer => [.completed false, .session peer, .closed none, .asyncAccept]
  | none => [.completed true, .closed none, .asyncAccept]

variable {a} {peer : Option ℕ} {bufferHeader : HeaderBuffer}

/-- A coroutine that waits does one round. -/
theorem complete_eq (h : a.coroAccept = .accepting) :
    a.complete peer bufferHeader =
      ⟨.accepting, none,
        a.sessions ++ (peer.map fun peer => ⟨peer, .connect bufferHeader, []⟩).toList,
        a.trace ++ events peer⟩ := by
  cases peer with
  | none => simp [complete, doAccept, h, closeSocket, waitAccept, events]
  | some peer => simp [complete, doAccept, h, makeSession, closeSocket, waitAccept, events]

/-- The coroutine after some completions. -/
def run (completions : List (Option ℕ × HeaderBuffer)) : AcceptProcess :=
  completions.foldl (fun a c => a.complete c.1 c.2) construct

/-- Whatever completes, the coroutine waits for the next connection, has made one session for each
connection that came, and has closed no connection. -/
theorem run_eq (completions : List (Option ℕ × HeaderBuffer)) :
    run completions =
      ⟨.accepting, none,
        completions.filterMap fun c => c.1.map fun peer => ⟨peer, .connect c.2, []⟩,
        .asyncAccept :: completions.flatMap fun c => events c.1⟩ := by
  unfold run
  induction completions using List.reverseRecOn with
  | nil => rfl
  | append_singleton completions c ih =>
    rw [List.foldl_append, ih, List.foldl_cons, List.foldl_nil, complete_eq rfl,
      List.filterMap_append, List.flatMap_append]
    cases hc : c.1 <;> simp [hc]

end AcceptProcess

end GatewayServer
