import GatewayServer.Common.Log
import GatewayServer.Protocol

/-!
# The database interface

`IDatabase`, the operations that the rest of the server uses, as programs over the state of an
implementation.

## Main definitions

* `InputSettings` — a login with its password
* `IDatabase` — the interface
-/

namespace GatewayServer

open Lib

/-- `db::InputSettings`. -/
structure InputSettings where
  clientName : String
  clientPassword : String
  deriving DecidableEq, Repr

/-- The answer for a login or a channel that is not there yet. -/
abbrev LOGIN_IS_FREE : UserId := 0

/-- The answer of a registration whose login is taken. -/
abbrev REG_LOGIN_IS_BUSY : UserId := 0

/-- The answer of an authentication that fails. -/
abbrev AUTH_LOGIN_IS_NOT_AVAILABLE : UserId := 0

/-- The class `IDatabase` over the state `δ` of an implementation. -/
structure IDatabase (δ : Type) where
  checkRegUser : InputSettings → Prog δ Exn UserId
  checkAuthUser : InputSettings → Prog δ Exn UserId
  getUserNameChannels : UserId → Prog δ Exn (List String)
  getChannelUsers : UserId → Prog δ Exn (List UserId)
  hasChannel : String → Prog δ Exn Bool
  createChannel : String → Prog δ Exn UserId
  joinClientChannel : UserId → String → Prog δ Exn PUnit
  addMsgHistory : UserId → ClientTextMsg → Prog δ Exn PUnit
  getHistory : UserId → Prog δ Exn (List ClientTextMsg)
  getChannelId : String → Prog δ Exn UserId
  getCurrentChannels : Prog δ Exn (List (UserId × String))

end GatewayServer
