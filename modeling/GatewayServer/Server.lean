import GatewayServer.Database.Interface
import GatewayServer.Lib.IterationOrder
import Mathlib.Data.Finset.Insert

/-!
# The state of the server

What the managers hold in memory, the database they share, and the writes handed to sessions.
Channels are objects: the registry holds pointers, and an object once made keeps its place.

## Main definitions

* `User`, `Channel` — the objects of the managers
* `Server` — the state, over the state of a database
* `World` — what the environment decides while a request is handled
* `Server.registry` — the channel that the registry holds under an id
* `Server.liveSession` — the session that a message for a user goes to
-/

namespace GatewayServer

open Lib

/-- A `User` object. -/
structure User where
  session : SessionId
  login : String
  password : String
  id : UserId
  deriving DecidableEq, Repr

/-- A `Channel` object, its references to the managers aside. -/
structure Channel where
  name : String
  id : UserId
  idUsers : Finset UserId
  deriving DecidableEq

/-- A `std::shared_ptr` to a channel: its place among the objects. -/
abbrev ChannelPtr := ℕ

/-- A task of the `ThreadSafeQueue`: `SocketWriter::writeImpl_` bound to a message. -/
structure Task where
  session : SessionId
  message : Bytes
  deriving DecidableEq, Repr

/-- A call of `ISession::write`. `payload` is what the vector holds at the call and `response`
the message that the caller serialized into it. -/
structure Write where
  session : SessionId
  response : Response
  payload : Bytes
  deriving DecidableEq, Repr

/-- The state of the server over a database with state `δ`. -/
structure Server (δ : Type) where
  db : δ
  /-- `UserManager::idClients_`. -/
  idClients : UserId → Option User
  /-- The channel objects in the order in which they were made. -/
  objects : List Channel
  /-- `ChannelsManager::idChannels_`. -/
  idChannels : UserId → Option ChannelPtr
  /-- `ThreadSafeQueue::queueTasks_`. -/
  queueTasks : List Task
  /-- The calls of `ISession::write` so far. -/
  written : List Write

/-- What the environment decides while one request is handled. -/
structure World where
  /-- Which sessions a `std::weak_ptr<ISession>` still locks. -/
  alive : SessionId → Bool
  /-- Whether the sessions still lock their `ThreadSafeQueue`. -/
  queueAlive : Bool
  /-- Whether the sessions still lock the `QueryEngine`. -/
  engineAlive : Bool
  /-- The iteration order of `Channel::idUsers_`. -/
  order : IterationOrder UserId

/-- Every pointer locks and sets are iterated in ascending order. -/
def World.calm : World where
  alive _ := true
  queueAlive := true
  engineAlive := true
  order := .ascending

namespace Server

variable {δ : Type}

/-- A server in which no manager has done anything yet. -/
def initial (db : δ) : Server δ where
  db := db
  idClients _ := none
  objects := []
  idChannels _ := none
  queueTasks := []
  written := []

/-- The channel that the registry holds under an id. -/
def registry (s : Server δ) (k : UserId) : Option Channel :=
  (s.idChannels k).bind fun p => s.objects[p]?

/-- The live session of a known user. -/
def liveSession (s : Server δ) (w : World) (id : UserId) : Option SessionId :=
  match s.idClients id with
  | some user => if w.alive user.session then some user.session else none
  | none => none

theorem liveSession_congr {s t : Server δ} (h : t.idClients = s.idClients) (w : World)
    (id : UserId) : t.liveSession w id = s.liveSession w id := by
  simp only [liveSession, h]

/-- A live session is the session of the user under that id. -/
theorem liveSession_eq_some {s : Server δ} {w : World} {id : UserId} {session : SessionId}
    (h : s.liveSession w id = some session) :
    ∃ user, s.idClients id = some user ∧ w.alive user.session = true ∧
      user.session = session := by
  unfold liveSession at h
  split at h
  · next user huser =>
    split at h
    · next halive => exact ⟨user, huser, halive, Option.some.inj h⟩
    · exact absurd h (by simp)
  · exact absurd h (by simp)

theorem isLens_db : Prog.IsLens (@Server.db δ) fun db s => { s with db } :=
  ⟨fun _ _ => rfl, fun _ => rfl, fun _ _ _ => rfl⟩

/-- A program over the database as one over the server. -/
def inDb {α : Type} (p : Prog δ Exn α) : Prog (Server δ) Exn α :=
  p.zoom Server.db fun db s => { s with db }

theorem run_inDb {α : Type} (p : Prog δ Exn α) (s : Server δ) :
    (inDb p).run s = ((p.run s.db).1, { s with db := (p.run s.db).2 }) :=
  Prog.run_zoom isLens_db p s

theorem run_inDb_ok {α : Type} {p : Prog δ Exn α} {s : Server δ} {a : α} {d : δ}
    (h : p.run s.db = (.ok a, d)) : (inDb p).run s = (.ok a, { s with db := d }) := by
  rw [run_inDb, h]

theorem run_inDb_error {α : Type} {p : Prog δ Exn α} {s : Server δ} {e : Exn} {db : δ}
    (h : p.run s.db = (.error e, db)) : (inDb p).run s = (.error e, { s with db }) := by
  rw [run_inDb, h]

end Server

end GatewayServer
