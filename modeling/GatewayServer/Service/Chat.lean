import GatewayServer.Database.Tables
import GatewayServer.Network.ProcessRequest

/-!
# The chat

What the server is there for, without the ids of channels, channels as objects, tables of text and
copies of them in memory. There are accounts, rooms that exist as soon as somebody names them, posts
in the order in which they were sent, and for each account the session that it was last used from.

## Main definitions

* `Chat` — the state of the chat
* `Chat.register`, `Chat.authorise`, `Chat.join`, `Chat.post`, `Chat.history`, `Chat.rooms` — what
  can be asked of it
* `Chat.step`, `Chat.arrive` — a request, and a frame, with what the environment decides while it is
  handled
* `Chat.restart` — the sessions are gone, and nothing else
* `Chat.runLives` — the chat after some starts

## Main results

* `Chat.step_congr` — what is kept of a message matters when it is sent
-/

namespace GatewayServer

open Lib

/-- A message that the chat keeps, with the account of its author. -/
structure Post where
  author : UserId
  message : ClientTextMsg
  deriving DecidableEq, Repr

/-- A response for a session. -/
structure Delivery where
  session : SessionId
  response : Response
  deriving DecidableEq, Repr

/-- A response to the session that has asked, if it is still there. -/
def World.tell (w : World) (session : SessionId) (response : Response) : List Delivery :=
  if w.alive session then [⟨session, response⟩] else []

/-- The state of the chat. -/
structure Chat where
  /-- Names and passwords, under the ids that they were given. -/
  accounts : SerialTable Client
  /-- Who has joined a room. -/
  members : String → Finset UserId
  posts : List Post
  /-- The session that an account was last used from. -/
  online : UserId → Option SessionId
  /-- What has been handed to sessions since the start. -/
  sent : List Delivery

namespace Chat

/-- A chat that nobody has used. -/
def empty : Chat where
  accounts := .empty
  members _ := ∅
  posts := []
  online _ := none
  sent := []

variable (c : Chat) (w : World)

/-- The account with a name, zero when there is none. -/
def accountOf (login : String) : UserId := c.accounts.firstId fun a => a.login = login

/-- The session at which an account can be reached. -/
def reached (i : UserId) : Option SessionId := (c.online i).filter w.alive

def send (deliveries : List Delivery) : Chat := { c with sent := c.sent ++ deliveries }

/-- An account is used from a session. -/
def login (i : UserId) (session : SessionId) : Chat :=
  { c with online := Function.update c.online i (some session) }

/-- A response to an account, at its session. -/
def deliver (i : UserId) (response : Response) : List Delivery :=
  (c.reached w i).toList.map fun session => ⟨session, response⟩

/-- A message of an account is kept. -/
def keep (i : UserId) (message : ClientTextMsg) : Chat :=
  if i = 0 then c else { c with posts := c.posts ++ [⟨i, message⟩] }

/-! ## Requests -/

def register (session : SessionId) (request : RegistrationRequest) : Chat :=
  if c.accountOf request.login = 0 then
    let i := c.accounts.next
    ({ c with accounts := c.accounts.insert ⟨request.login, request.password⟩ }.login i
      session).send (w.tell session (.registrationResponse i))
  else
    c.send (w.tell session (.registrationResponse 0))

def authorise (session : SessionId) (request : AuthorisationRequest) : Chat :=
  let i := c.accountOf request.login
  if c.accounts.lookup i = some ⟨request.login, request.password⟩ then
    (c.login i session).send (w.tell session (.authorisationResponse i))
  else
    c.send (w.tell session (.authorisationResponse 0))

/-- An account that has been used since the start joins a room. It is told so the first time. -/
def join (i : UserId) (room : String) : Chat :=
  if (c.online i).isSome then
    { c with members := Function.update c.members room (insert i (c.members room)) }.send
      (if i ∈ c.members room then [] else c.deliver w i (.joinRoomResponse room true))
  else
    c

/-- A message goes to the members of its room, whoever its author is. It is kept, as `kept` has it,
when the author has an account. -/
def post (kept : ClientTextMsg → ClientTextMsg) (message : ClientTextMsg) : Chat :=
  (c.keep (c.accountOf message.author) (kept message)).send
    ((w.order.list (c.members message.channelName)).flatMap fun i =>
      c.deliver w i (.echoResponse message))

/-- The messages kept of a room. -/
def messages (room : String) : List ClientTextMsg :=
  (c.posts.map Post.message).filter fun m => m.channelName = room

/-- A member is sent what is kept of a room since a date. -/
def history [Protocol] (i : UserId) (room : String) (since : DateTime) : Chat :=
  let messages := (c.messages room).filter (Channel.isSince since)
  c.send (if i ∈ c.members room ∧ messages ≠ [] then
    c.deliver w i (.historyResponse room messages) else [])

/-- An account is sent the rooms in which it has posted. -/
def rooms (i : UserId) : Chat :=
  let posts := c.posts.filter fun p => p.author = i
  c.send (c.deliver w i (.channelsResponse (posts.map fun p => p.message.channelName).dedup))

/-- A request. Nothing can be done in a room without a name. -/
def step [Protocol] (kept : ClientTextMsg → ClientTextMsg) (c : Chat) (e : Event) : Chat :=
  if e.call.channelName = some "" then c
  else
    match e.call with
    | .reg session request => c.register e.world session request
    | .auth session request => c.authorise e.world session request
    | .getHistory request =>
      c.history e.world request.clientId request.channelName request.since
    | .getChannels request => c.rooms e.world request.clientId
    | .joinRoom request => c.join e.world request.clientId request.channelName
    | .sendText request => c.post e.world kept (QueryEngine.textMessage request)

/-- A frame. One that asks for nothing may be answered all the same. -/
def arrive [Protocol] (kept : ClientTextMsg → ClientTextMsg) (c : Chat) (a : Arrival) : Chat :=
  match a.call with
  | some call => if a.world.engineAlive then c.step kept ⟨a.world, call⟩ else c
  | none => c.send (a.answer.toList.map fun response => ⟨a.session, response⟩)

/-- The server is started again: nobody is online. -/
def restart : Chat := { c with online := fun _ => none, sent := [] }

/-- The chat after any number of starts, with requests after each of them. -/
def runLives [Protocol] (kept : ClientTextMsg → ClientTextMsg) (lives : List (List Event)) : Chat :=
  lives.foldl (fun c events => events.foldl (step kept) c.restart) empty

variable {c}

/-- Only a message that is sent is kept. -/
theorem step_congr [Protocol] {kept kept' : ClientTextMsg → ClientTextMsg} {e : Event}
    (hkept : ∀ request, e.call = .sendText request →
      kept (QueryEngine.textMessage request) = kept' (QueryEngine.textMessage request)) :
    c.step kept e = c.step kept' e := by
  obtain ⟨w, call⟩ := e
  cases call with
  | sendText request =>
    have hpost : c.post w kept (QueryEngine.textMessage request) =
        c.post w kept' (QueryEngine.textMessage request) := by
      rw [post, post, hkept request rfl]
    simp only [step, hpost]
  | _ => rfl

theorem runLives_concat [Protocol] (kept : ClientTextMsg → ClientTextMsg)
    (lives : List (List Event)) (events : List Event) :
    runLives kept (lives ++ [events]) = events.foldl (step kept) (runLives kept lives).restart := by
  rw [runLives, List.foldl_append]
  rfl

theorem runLives_congr [Protocol] {kept kept' : ClientTextMsg → ClientTextMsg}
    {lives : List (List Event)}
    (hkept : ∀ events ∈ lives, ∀ e ∈ events, ∀ request, e.call = .sendText request →
      kept (QueryEngine.textMessage request) = kept' (QueryEngine.textMessage request)) :
    runLives kept lives = runLives kept' lives := by
  apply List.foldl_ext
  intro c events hevents
  apply List.foldl_ext
  intro c e he
  exact step_congr fun request hrequest => hkept events hevents e he request hrequest

end Chat

end GatewayServer
