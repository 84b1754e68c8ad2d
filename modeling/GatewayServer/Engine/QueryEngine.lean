import GatewayServer.Channels.ChannelsManager

/-!
# The query engine

`QueryEngine`: one function for each request. A request runs on a worker that catches what it
throws, so a run of the server goes on with the state that the exception left.

## Main definitions

* `QueryEngine.reg`, … — the requests
* `Call` — a request as the engine is called with it
* `serve` — one request served, also past an exception
* `start` — a server started on a database
-/

namespace GatewayServer

open Lib

namespace QueryEngine

variable {δ : Type} [Protocol] (db : IDatabase δ) (w : World)

/-- The response of `reg` and `auth`, to a session that is still there. -/
def reply (session : SessionId) (response : Response) : Prog (Server δ) Exn PUnit :=
  if w.alive session then do
    let _ ← ClientSession.write w session response (Protocol.serialize response)
    return ⟨⟩
  else
    return ⟨⟩

/-- `QueryEngine::reg`. -/
def reg (session : SessionId) (request : RegistrationRequest) : Prog (Server δ) Exn PUnit := do
  let clientId ← UserManager.checkRegUser db ⟨request.login, request.password⟩
  if clientId ≠ REG_LOGIN_IS_BUSY then
    UserManager.push
      { session, login := request.login, password := request.password, id := clientId }
  reply w session (.registrationResponse clientId)

/-- `QueryEngine::auth`. -/
def auth (session : SessionId) (request : AuthorisationRequest) : Prog (Server δ) Exn PUnit := do
  let clientId ← UserManager.checkAuthUser db ⟨request.login, request.password⟩
  if clientId ≠ AUTH_LOGIN_IS_NOT_AVAILABLE then
    UserManager.push
      { session, login := request.login, password := request.password, id := clientId }
  reply w session (.authorisationResponse clientId)

/-- `QueryEngine::getHistory`. -/
def getHistory (request : HistoryRequest) : Prog (Server δ) Exn PUnit := do
  let channel ← ChannelsManager.createOrGetChannelByName db request.channelName
  Channel.sendHistory db w channel request.clientId request.since

/-- `QueryEngine::getChannels`. The log line for an unknown client has no place for its
argument. -/
def getChannels (request : ChannelsRequest) : Prog (Server δ) Exn PUnit := do
  match ← UserManager.getUser request.clientId with
  | none => logFormat "client is nullptr" 1
  | some client =>
    if w.alive client.session then
      let channels ← ChannelsManager.getUserNameChannels db request.clientId
      let response := Response.channelsResponse channels
      let _ ← ClientSession.write w client.session response (Protocol.serialize response)
      return ⟨⟩
    else
      return ⟨⟩

/-- `QueryEngine::joinRoom`. -/
def joinRoom (request : JoinRoomRequest) : Prog (Server δ) Exn PUnit := do
  let channel ← ChannelsManager.createOrGetChannelByName db request.channelName
  match ← UserManager.getUser request.clientId with
  | none => return ⟨⟩
  | some client =>
    Channel.addUser w channel client.id
    ChannelsManager.joinClientChannel db request.clientId request.channelName

/-- The message that `sendText` makes of a request. -/
def textMessage (request : TextRequest) : ClientTextMsg where
  author := request.login
  text := request.text
  channelName := request.channelName
  dt := request.datetime

/-- `QueryEngine::sendText`. -/
def sendText (request : TextRequest) : Prog (Server δ) Exn PUnit := do
  let channel ← ChannelsManager.createOrGetChannelByName db request.channelName
  Channel.write db w channel (textMessage request)

end QueryEngine

/-- A request as the engine is called with it. -/
inductive Call where
  | reg (session : SessionId) (request : RegistrationRequest)
  | auth (session : SessionId) (request : AuthorisationRequest)
  | getHistory (request : HistoryRequest)
  | getChannels (request : ChannelsRequest)
  | joinRoom (request : JoinRoomRequest)
  | sendText (request : TextRequest)
  deriving DecidableEq, Repr

/-- The channel that a request names. -/
def Call.channelName : Call → Option String
  | .getHistory request => some request.channelName
  | .joinRoom request => some request.channelName
  | .sendText request => some request.channelName
  | _ => none

section Runs

variable {δ : Type} [Protocol] (db : IDatabase δ)

/-- The engine's function for a call. -/
def handle (w : World) : Call → Prog (Server δ) Exn PUnit
  | .reg session request => QueryEngine.reg db w session request
  | .auth session request => QueryEngine.auth db w session request
  | .getHistory request => QueryEngine.getHistory db w request
  | .getChannels request => QueryEngine.getChannels db w request
  | .joinRoom request => QueryEngine.joinRoom db w request
  | .sendText request => QueryEngine.sendText db w request

/-- A call with what the environment decides while it is handled. -/
structure Event where
  world : World
  call : Call

/-- One call served. A call that throws is abandoned at the throw. -/
def serve (s : Server δ) (e : Event) : Server δ := ((handle db e.world e.call).run s).2

/-- A server started on a database: the constructors of the managers. -/
def start (d : δ) : Except Exn PUnit × Server δ :=
  (ChannelsManager.createChannelFromDb db).run (Server.initial d)

end Runs

end GatewayServer
