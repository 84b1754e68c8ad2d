import Mathlib.Data.List.Basic

/-!
# The chat protocol

The messages that clients and server exchange. Their encoding is not part of the repository:
`MsgFactory::serialize` and the values of a `DateTime` that the code does not compute are the
parameters of the class `Protocol`.

## Main definitions

* `DateTime` — a second of the calendar, ordered chronologically
* `Request`, `Header` — what a client sends, and the command that announces it
* `Response` — what the server sends
* `Protocol` — the external encoder
-/

namespace GatewayServer

/-- A user id or a channel id, `type_id_user`. -/
abbrev UserId := ℕ

/-- A `std::vector<uint8_t>`. -/
abbrev Bytes := List UInt8

/-- An `ISession` object. -/
abbrev SessionId := ℕ

structure Time where
  seconds : ℕ
  minutes : ℕ
  hours : ℕ
  deriving DecidableEq, Repr

structure Date where
  day : ℕ
  month : ℕ
  year : ℕ
  deriving DecidableEq, Repr

structure DateTime where
  time : Time
  date : Date
  deriving DecidableEq, Repr

namespace DateTime

/-- The fields from the year down to the second. -/
def fields (d : DateTime) : List ℕ :=
  [d.date.year, d.date.month, d.date.day, d.time.hours, d.time.minutes, d.time.seconds]

/-- Chronological order. -/
instance : LT DateTime where
  lt a b := a.fields < b.fields

instance (a b : DateTime) : Decidable (a < b) :=
  inferInstanceAs (Decidable (a.fields < b.fields))

end DateTime

/-- `command::ClientTextMsg`. -/
structure ClientTextMsg where
  author : String
  text : String
  channelName : String
  dt : DateTime
  deriving DecidableEq, Repr

/-! ## Requests -/

structure RegistrationRequest where
  login : String
  password : String
  deriving DecidableEq, Repr

structure AuthorisationRequest where
  login : String
  password : String
  deriving DecidableEq, Repr

structure HistoryRequest where
  clientId : UserId
  channelName : String
  since : DateTime
  deriving DecidableEq, Repr

structure ChannelsRequest where
  clientId : UserId
  deriving DecidableEq, Repr

structure JoinRoomRequest where
  clientId : UserId
  channelName : String
  deriving DecidableEq, Repr

structure TextRequest where
  login : String
  channelName : String
  text : String
  datetime : DateTime
  deriving DecidableEq, Repr

/-- `Serialize::Request`: each `has_…` of the message is the presence of a field. -/
structure Request where
  registrationRequest : Option RegistrationRequest := none
  authorisationRequest : Option AuthorisationRequest := none
  historyRequest : Option HistoryRequest := none
  channelsRequest : Option ChannelsRequest := none
  joinRoomRequest : Option JoinRoomRequest := none
  textRequest : Option TextRequest := none
  deriving DecidableEq, Repr

/-- `command::TypeCommand`; `unlisted` is a number that names no command. -/
inductive TypeCommand where
  | unknown
  | registrationRequest
  | registrationResponse
  | authorisationRequest
  | authorisationResponse
  | sendTextRequest
  | echoResponse
  | joinRoomRequest
  | joinRoomResponse
  | historyRequest
  | historyResponse
  | channelsRequest
  | channelsResponse
  | unlisted (value : ℕ)
  deriving DecidableEq, Repr

/-- `Serialize::Header`: the command and the length of the body that follows. -/
structure Header where
  command : TypeCommand
  length : ℕ
  deriving DecidableEq, Repr

/-! ## Responses -/

/-- The messages that `MsgFactory::serialize` is asked to encode. -/
inductive Response where
  | registrationResponse (clientId : UserId)
  | authorisationResponse (clientId : UserId)
  | joinRoomResponse (channelName : String) (status : Bool)
  | historyResponse (channelName : String) (messages : List ClientTextMsg)
  | channelsResponse (channels : List String)
  | echoResponse (message : ClientTextMsg)
  deriving DecidableEq, Repr

/-- The channel whose messages a response carries. -/
def Response.messageChannel : Response → Option String
  | .historyResponse channelName _ => some channelName
  | .echoResponse message => some message.channelName
  | _ => none

/-- The messages that a response carries. -/
def Response.messages : Response → List ClientTextMsg
  | .historyResponse _ messages => messages
  | .echoResponse message => [message]
  | _ => []

/-- The part of the protocol library that the repository does not contain. -/
class Protocol where
  /-- `MsgFactory::serialize`. -/
  serialize : Response → Bytes
  /-- `DateTime()`. -/
  defaultDateTime : DateTime
  /-- What a `DateTime` is assigned from a `std::tm` that was never written. -/
  uninitializedTm : DateTime

/-- An encoder with one byte for every message, to try the model on. -/
@[reducible] def Protocol.oneByte : Protocol where
  serialize _ := [1]
  defaultDateTime := ⟨⟨0, 0, 0⟩, ⟨0, 0, 0⟩⟩
  uninitializedTm := ⟨⟨0, 0, 0⟩, ⟨0, 0, 0⟩⟩

end GatewayServer
