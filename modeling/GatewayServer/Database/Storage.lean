import GatewayServer.Database.Interface
import Mathlib.Logic.Function.Basic

/-!
# The database in memory

`Storage`, the implementation of `IDatabase` in hash maps. Users and channels get their ids from
one generator. The class takes no lock, and each of its functions is one step here.

## Main definitions

* `GeneratorId` — the counter that ids are taken from
* `Storage` — the hash maps
* `Storage.database` — the operations as an `IDatabase`
-/

namespace GatewayServer

open Lib

/-- `GeneratorId`: how many ids it has generated. The counter itself has 64 bits. -/
structure GeneratorId where
  generated : ℕ
  deriving DecidableEq, Repr

/-- `++counterId_`. -/
def GeneratorId.generate (generator : GeneratorId) : UserId × GeneratorId :=
  ((generator.generated + 1) % UInt64.size, ⟨generator.generated + 1⟩)

/-- The generated id, as long as the counter has not gone round. -/
theorem GeneratorId.generate_eq (generator : GeneratorId)
    (h : generator.generated + 1 < UInt64.size) :
    generator.generate = (generator.generated + 1, ⟨generator.generated + 1⟩) := by
  rw [generate, Nat.mod_eq_of_lt h]

/-- The entries of a hash map after one was set. -/
theorem update_eq_some_iff {α β : Type*} [DecidableEq α] {f : α → Option β} {a a' : α} {b b' : β} :
    Function.update f a (some b) a' = some b' ↔ a' = a ∧ b' = b ∨ a' ≠ a ∧ f a' = some b' := by
  by_cases ha : a' = a
  · simp [ha, eq_comm]
  · simp [ha]

/-- A `Storage` object. -/
structure Storage where
  generator : GeneratorId
  nameIdUsers : String → Option UserId
  nameSettingsUsers : UserId → Option InputSettings
  clientChannels : UserId → Option (List String)
  nameIdChannels : String → Option UserId
  history : UserId → Option (List ClientTextMsg)

namespace Storage

/-- A new object. -/
def empty : Storage where
  generator := ⟨0⟩
  nameIdUsers _ := none
  nameSettingsUsers _ := none
  clientChannels _ := none
  nameIdChannels _ := none
  history _ := none

/-- There is nothing to connect to. -/
def connect : Prog Storage Exn Bool := return true

def checkRegUser (settings : InputSettings) : Prog Storage Exn UserId :=
  .atomic fun s =>
    match s.nameIdUsers settings.clientName with
    | some _ => (REG_LOGIN_IS_BUSY, s)
    | none =>
      let (id, generator) := s.generator.generate
      (id, { s with
        generator
        nameIdUsers := Function.update s.nameIdUsers settings.clientName (some id)
        nameSettingsUsers := Function.update s.nameSettingsUsers id (some settings) })

def checkAuthUser (settings : InputSettings) : Prog Storage Exn UserId :=
  .read fun s =>
    match s.nameIdUsers settings.clientName with
    | some id =>
      match s.nameSettingsUsers id with
      | some known =>
        if known.clientPassword = settings.clientPassword then id else AUTH_LOGIN_IS_NOT_AVAILABLE
      | none => AUTH_LOGIN_IS_NOT_AVAILABLE
    | none => AUTH_LOGIN_IS_NOT_AVAILABLE

def getUserNameChannels (clientId : UserId) : Prog Storage Exn (List String) :=
  .read fun s => (s.clientChannels clientId).getD []

def getChannelUsers (_channelId : UserId) : Prog Storage Exn (List UserId) := return []

def hasChannel (channelName : String) : Prog Storage Exn Bool :=
  .read fun s => (s.nameIdChannels channelName).isSome

def createChannel (channelName : String) : Prog Storage Exn UserId :=
  .atomic fun s =>
    match s.nameIdChannels channelName with
    | some id => (id, s)
    | none =>
      let (id, generator) := s.generator.generate
      (id, { s with
        generator
        nameIdChannels := Function.update s.nameIdChannels channelName (some id) })

def joinClientChannel (clientId : UserId) (channelName : String) : Prog Storage Exn PUnit :=
  .modify fun s =>
    { s with
      clientChannels := Function.update s.clientChannels clientId
        (some ((s.clientChannels clientId).getD [] ++ [channelName])) }

def addMsgHistory (channelId : UserId) (msg : ClientTextMsg) : Prog Storage Exn PUnit :=
  .modify fun s =>
    { s with
      history := Function.update s.history channelId
        (some ((s.history channelId).getD [] ++ [msg])) }

def getHistory (channelId : UserId) : Prog Storage Exn (List ClientTextMsg) :=
  .read fun s => (s.history channelId).getD []

def getChannelId (_channelName : String) : Prog Storage Exn UserId := return 0

def getCurrentChannels : Prog Storage Exn (List (UserId × String)) := return []

/-- `Storage` behind its interface. -/
@[reducible] def database : IDatabase Storage where
  checkRegUser := checkRegUser
  checkAuthUser := checkAuthUser
  getUserNameChannels := getUserNameChannels
  getChannelUsers := getChannelUsers
  hasChannel := hasChannel
  createChannel := createChannel
  joinClientChannel := joinClientChannel
  addMsgHistory := addMsgHistory
  getHistory := getHistory
  getChannelId := getChannelId
  getCurrentChannels := getCurrentChannels

end Storage

end GatewayServer
