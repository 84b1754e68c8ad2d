import GatewayServer.Server

/-!
# The users

`UserManager`: the users that have logged in since the server started, by id.

## Main definitions

* `UserManager.push` — a login enters a user or binds the known one to another session
* `UserManager.getUser` — the user with an id

## Main results

* `UserManager.run_push` — a login as an update of the map
-/

namespace GatewayServer.UserManager

open Lib

variable {δ : Type}

/-- `UserManager::push`. A known user keeps its name; only its session changes. -/
def push (data : User) : Prog (Server δ) Exn PUnit :=
  .modify fun s =>
    match s.idClients data.id with
    | some known =>
      { s with
        idClients := Function.update s.idClients data.id
          (some { known with session := data.session }) }
    | none => { s with idClients := Function.update s.idClients data.id (some data) }

/-- The user that stands under an id after a login: the known one with another session, or the new
one. -/
def pushed (known : Option User) (data : User) : User :=
  match known with
  | some user => { user with session := data.session }
  | none => data

theorem pushed_session (known : Option User) (data : User) :
    (pushed known data).session = data.session := by
  cases known <;> rfl

theorem pushed_id {known : Option User} (data : User)
    (h : ∀ user, known = some user → user.id = data.id) : (pushed known data).id = data.id := by
  cases known with
  | none => rfl
  | some user => exact h user rfl

/-- A login leaves the user under its id bound to the session of the login. -/
theorem run_push (data : User) (s : Server δ) :
    (push data).run s = (.ok ⟨⟩, { s with
      idClients := Function.update s.idClients data.id
        (some (pushed (s.idClients data.id) data)) }) := by
  cases hknown : s.idClients data.id with
  | none => simp [push, pushed, hknown]
  | some known => simp [push, pushed, hknown]

/-- `UserManager::getUser`. -/
def getUser (clientId : UserId) : Prog (Server δ) Exn (Option User) :=
  .read fun s => s.idClients clientId

/-- `UserManager::checkRegUser`. -/
def checkRegUser (db : IDatabase δ) (settings : InputSettings) :
    Prog (Server δ) Exn UserId :=
  Server.inDb (db.checkRegUser settings)

/-- `UserManager::checkAuthUser`. -/
def checkAuthUser (db : IDatabase δ) (settings : InputSettings) :
    Prog (Server δ) Exn UserId :=
  Server.inDb (db.checkAuthUser settings)

end GatewayServer.UserManager
