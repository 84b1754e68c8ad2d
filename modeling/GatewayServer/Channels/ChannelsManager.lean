import GatewayServer.Channels.Channel

/-!
# The channel registry

`ChannelsManager`: the channel objects by id. Names are looked up in the database; the sections
under `mutex_` are critical sections.

## Main definitions

* `ChannelsManager.createChannelFromDb` — the registry of a server that starts
* `ChannelsManager.createOrGetChannelByName` — the channel with a name
* `ChannelsManager.has`, `ChannelsManager.get` — lookups by name
-/

namespace GatewayServer.ChannelsManager

open Lib

variable {δ : Type} (db : IDatabase δ)

/-- `idChannels_[channel_id] = channel`. -/
def store (channelId : UserId) (channel : ChannelPtr) : Prog (Server δ) Exn PUnit :=
  .modify fun s => { s with idChannels := Function.update s.idChannels channelId (some channel) }

/-- The loop of `createChannelFromDb`. -/
def createChannels : List (UserId × String) → Prog (Server δ) Exn PUnit
  | [] => return ⟨⟩
  | (channelId, channelName) :: channels => do
    let channel ← Channel.makeShared db channelName channelId
    store channelId channel
    createChannels channels

/-- `ChannelsManager::createChannelFromDb`, the body of the constructor. -/
def createChannelFromDb : Prog (Server δ) Exn PUnit := do
  let channels ← Server.inDb db.getCurrentChannels
  createChannels db channels

/-- The critical section of `createOrGetChannelByName` for a name that the database has. -/
def getOrMake (channelName : String) (channelId : UserId) : Prog (Server δ) Exn ChannelPtr :=
  .atomically do
    match ← Prog.read fun s : Server δ => s.idChannels channelId with
    | some channel => return channel
    | none =>
      let channel ← Channel.makeShared db channelName channelId
      store channelId channel
      return channel

/-- `ChannelsManager::createOrGetChannelByName`. -/
def createOrGetChannelByName (channelName : String) : Prog (Server δ) Exn ChannelPtr := do
  if ← Server.inDb (db.hasChannel channelName) then
    let channelId ← Server.inDb (db.getChannelId channelName)
    getOrMake db channelName channelId
  else
    let channelId ← Server.inDb (db.createChannel channelName)
    let channel ← Channel.makeShared db channelName channelId
    store channelId channel
    return channel

/-- `ChannelsManager::has`. -/
def has (channelName : String) : Prog (Server δ) Exn Bool := do
  let channelId ← Server.inDb (db.getChannelId channelName)
  .read fun s => (s.idChannels channelId).isSome

/-- `ChannelsManager::get`. -/
def get (channelName : String) : Prog (Server δ) Exn ChannelPtr := do
  let channelId ← Server.inDb (db.getChannelId channelName)
  match ← Prog.read fun s : Server δ => s.idChannels channelId with
  | some channel => return channel
  | none => .throw .outOfRange

/-- `ChannelsManager::getUserNameChannels`. -/
def getUserNameChannels (clientId : UserId) : Prog (Server δ) Exn (List String) :=
  Server.inDb (db.getUserNameChannels clientId)

/-- `ChannelsManager::joinClientChannel`. -/
def joinClientChannel (clientId : UserId) (channelName : String) :
    Prog (Server δ) Exn PUnit :=
  Server.inDb (db.joinClientChannel clientId channelName)

end GatewayServer.ChannelsManager
