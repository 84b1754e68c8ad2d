import GatewayServer.Channels.UserManager
import GatewayServer.Network.SessionWrite

/-!
# Channels

`Channel`: a name, an id and the set of its members. A channel looks its members up by id and
writes to the session that each of them is bound to.

## Main definitions

* `Channel.construct`, `Channel.makeShared` — the constructor, and a new object
* `Channel.addUser` — a client becomes a member
* `Channel.sendHistory` — the stored messages for one member
* `Channel.write` — a message for all members, and for the history
-/

namespace GatewayServer.Channel

open Lib

variable {δ : Type} (db : IDatabase δ)

/-- The constructor: a channel starts with the clients that the database holds for its id. -/
def construct (name : String) (id : UserId) : Prog (Server δ) Exn Channel :=
  if name = "" then .throw (.invalidArgument "Channel: empty name")
  else if id = 0 then .throw (.invalidArgument "Channel: id equal zero")
  else do
    let usersId ← Server.inDb (db.getChannelUsers id)
    return { name, id, idUsers := usersId.toFinset }

/-- `std::make_shared<Channel>`. The object is not visible before its pointer is stored, so
constructing and placing it count as one step. -/
def makeShared (name : String) (id : UserId) : Prog (Server δ) Exn ChannelPtr :=
  .atomically do
    let channel ← construct db name id
    .atomic fun s => (s.objects.length, { s with objects := s.objects ++ [channel] })

/-- The object behind a pointer. -/
def deref (channel : ChannelPtr) : Prog (Server δ) Exn (Option Channel) :=
  .read fun s => s.objects[channel]?

omit db in
theorem run_deref {s : Server δ} {channel : ChannelPtr} {this : Channel}
    (hthis : s.objects[channel]? = some this) :
    (deref channel : Prog (Server δ) Exn _).run s = (.ok (some this), s) := by
  rw [deref, Prog.run_read, hthis]

variable [Protocol] (w : World)

/-- `Channel::addUser`. -/
def addUser (channel : ChannelPtr) (clientId : UserId) : Prog (Server δ) Exn PUnit := do
  match ← deref channel with
  | none => return ⟨⟩
  | some this =>
    if clientId ∈ this.idUsers then
      return ⟨⟩
    else
      .modify fun s =>
        { s with
          objects := s.objects.set channel
            { this with idUsers := insert clientId this.idUsers } }
      match ← UserManager.getUser clientId with
      | none => return ⟨⟩
      | some user =>
        if w.alive user.session then
          let response := Response.joinRoomResponse this.name true
          let _ ← ClientSession.write w user.session response (Protocol.serialize response)
          return ⟨⟩
        else
          return ⟨⟩

/-- Whether `sendHistory` sends a message: all of them for a default `DateTime`. -/
def isSince (dt : DateTime) (message : ClientTextMsg) : Bool :=
  dt = Protocol.defaultDateTime ∨ dt < message.dt

/-- `Channel::sendHistory`. -/
def sendHistory (channel : ChannelPtr) (clientId : UserId) (dt : DateTime) :
    Prog (Server δ) Exn PUnit := do
  match ← deref channel with
  | none => return ⟨⟩
  | some this =>
    if clientId ∈ this.idUsers then
      match ← UserManager.getUser clientId with
      | none => return ⟨⟩
      | some client =>
        if w.alive client.session then
          let history ← Server.inDb (db.getHistory this.id)
          let responseHistory := history.filter (isSince dt)
          if responseHistory = [] then
            return ⟨⟩
          else
            let response := Response.historyResponse this.name responseHistory
            let _ ← ClientSession.write w client.session response (Protocol.serialize response)
            return ⟨⟩
        else
          return ⟨⟩
    else
      return ⟨⟩

omit [Protocol] in
/-- The loop of `Channel::write` over the members still to serve. Every `ISession::write` is
given the one `buffer`, and the next one finds in it what the last one left. -/
def writeLoop (message : ClientTextMsg) : List UserId → Bytes → Prog (Server δ) Exn Bytes
  | [], buffer => return buffer
  | id :: ids, buffer => do
    match ← UserManager.getUser id with
    | none => writeLoop message ids buffer
    | some user =>
      if w.alive user.session then
        let buffer ← ClientSession.write w user.session (.echoResponse message) buffer
        writeLoop message ids buffer
      else
        writeLoop message ids buffer

/-- `Channel::write`. -/
def write (channel : ChannelPtr) (message : ClientTextMsg) : Prog (Server δ) Exn PUnit := do
  match ← deref channel with
  | none => return ⟨⟩
  | some this =>
    let buffer := Protocol.serialize (.echoResponse message)
    let _ ← writeLoop w message (w.order.list this.idUsers) buffer
    Server.inDb (db.addMsgHistory this.id message)

end GatewayServer.Channel
