import GatewayServer.Protocol

/-!
# The text of the queries

`WrapperPg` builds each query by concatenating fixed text with the strings and numbers it was
given.

## Main definitions

* `timestampText` — a date and time printed with the widths of `addMsgHistory`
* `TimeFormat`, `getTime` — the text of a timestamp read by `std::get_time`
* `QueryText` — one builder for each query
-/

namespace GatewayServer

/-- A number printed with `std::setfill('0') << std::setw(width)`. -/
def padded (width n : ℕ) : String :=
  String.ofList (List.replicate (width - (toString n).length) '0') ++ toString n

/-- The string stream of `addMsgHistory`. -/
def timestampText (dt : DateTime) : String :=
  padded 4 dt.date.year ++ "-" ++ padded 2 dt.date.month ++ "-" ++ padded 2 dt.date.day ++ " " ++
    padded 2 dt.time.hours ++ ":" ++ padded 2 dt.time.minutes ++ ":" ++ padded 2 dt.time.seconds

/-! ## Reading a timestamp -/

/-- At most `width` decimal digits, added to the value read so far; the rest follows. -/
def readDigits : ℕ → ℕ → List Char → ℕ × List Char
  | 0, value, rest => (value, rest)
  | _ + 1, value, [] => (value, [])
  | width + 1, value, c :: rest =>
    if c.isDigit then readDigits width (10 * value + (c.toNat - '0'.toNat)) rest
    else (value, c :: rest)

/-- A field of `std::get_time`: at least one digit, at most `width`, a value in the range. -/
def readField (width low high : ℕ) : List Char → Option (ℕ × List Char)
  | [] => none
  | c :: rest =>
    if c.isDigit then
      let (value, rest) := readDigits width 0 (c :: rest)
      if low ≤ value ∧ value ≤ high then some (value, rest) else none
    else none

/-- A character that the format of `std::get_time` has as itself. -/
def readChar (c : Char) : List Char → Option (List Char)
  | [] => none
  | c' :: rest => if c' = c then some rest else none

/-- What `std::get_time` has next in its format. -/
inductive TimeFormat where
  /-- A number for a member of the `std::tm`. -/
  | field (width low high : ℕ) (set : DateTime → ℕ → DateTime)
  | char (c : Char)

/-- Reading up to the end of the format. Where it fails, the members that were read are set, and the
others are as they were. -/
def readTime : List TimeFormat → DateTime → List Char → DateTime
  | [], tm, _ => tm
  | .field width low high set :: format, tm, text =>
    match readField width low high text with
    | none => tm
    | some (value, rest) => readTime format (set tm value) rest
  | .char c :: format, tm, text =>
    match readChar c text with
    | none => tm
    | some rest => readTime format tm rest

/-- `%Y-%m-%d %H:%M:%S`. The assignment of a `std::tm` to a `DateTime` adds back what a `std::tm`
subtracts from the year and the month. -/
def timestampFormat : List TimeFormat :=
  [.field 4 0 9999 fun tm year => { tm with date.year := year }, .char '-',
    .field 2 1 12 fun tm month => { tm with date.month := month }, .char '-',
    .field 2 1 31 fun tm day => { tm with date.day := day }, .char ' ',
    .field 2 0 23 fun tm hours => { tm with time.hours := hours }, .char ':',
    .field 2 0 59 fun tm minutes => { tm with time.minutes := minutes }, .char ':',
    .field 2 0 60 fun tm seconds => { tm with time.seconds := seconds }]

/-- `std::get_time` with that format, into a `std::tm`. -/
def getTime (text : String) (tm : DateTime) : DateTime :=
  readTime timestampFormat tm text.toList

example : getTime (timestampText ⟨⟨5, 4, 13⟩, ⟨2, 1, 2021⟩⟩) ⟨⟨0, 0, 0⟩, ⟨0, 0, 0⟩⟩ =
    ⟨⟨5, 4, 13⟩, ⟨2, 1, 2021⟩⟩ := by decide

/-- A year of five digits, of which four are read. -/
example : getTime "10000-01-02 13:04:05" ⟨⟨0, 0, 0⟩, ⟨0, 0, 0⟩⟩ = ⟨⟨0, 0, 0⟩, ⟨0, 0, 1000⟩⟩ := by
  decide

/-! ## The queries -/

namespace QueryText

def getClientId (clientName : String) : String :=
  "SELECT id FROM clients WHERE login='" ++ clientName ++ "';"

def getChannelId (channelName : String) : String :=
  "SELECT DISTINCT id FROM channels WHERE channel_name='" ++ channelName ++ "';"

def getChannelName (channelId : UserId) : String :=
  "SELECT channel_name FROM channels WHERE id='" ++ toString channelId ++ "';"

def getClientName (clientId : UserId) : String :=
  "SELECT login FROM clients WHERE id='" ++ toString clientId ++ "';"

def checkRegUser (clientName clientPassword : String) : String :=
  "INSERT INTO clients(login, password) VALUES ('" ++ clientName ++ "', '" ++ clientPassword ++
    "');"

def checkAuthUser (clientName : String) : String :=
  "SELECT id, password FROM clients WHERE login='" ++ clientName ++ "';"

def getUserNameChannels (clientId : UserId) : String :=
  "SELECT DISTINCT channel_name FROM history WHERE client_id=" ++ toString clientId ++ ";"

def getChannelUsers (channelId : UserId) : String :=
  "SELECT DISTINCT client_id FROM subscriptions WHERE channel_id=" ++ toString channelId ++ ";"

def hasChannel (channelName : String) : String :=
  "SELECT channel_name FROM channels WHERE channel_name='" ++ channelName ++ "';"

def createChannel (channelName : String) : String :=
  "INSERT INTO channels(channel_name) VALUES ('" ++ channelName ++ "');"

def hasChannelClient (channelId clientId : UserId) : String :=
  "SELECT * FROM subscriptions WHERE client_id='" ++ toString clientId ++
    "' AND channel_id='" ++ toString channelId ++ "';"

def joinClientChannel (clientId channelId : UserId) : String :=
  "INSERT INTO subscriptions VALUES(" ++ toString clientId ++ ", " ++ toString channelId ++ ");"

def addMsgHistory (authorId : UserId) (message : ClientTextMsg) : String :=
  "insert into history(client_id, channel_name, datetime, message) " ++
    "values (" ++ toString authorId ++ ", '" ++ message.channelName ++ "', '" ++
    timestampText message.dt ++ "', '" ++ message.text ++ "');"

def getHistory (channelName : String) : String :=
  "SELECT * FROM history WHERE channel_name='" ++ channelName ++ "';"

def getCurrentChannels : String := "SELECT * FROM channels;"

end QueryText

end GatewayServer
