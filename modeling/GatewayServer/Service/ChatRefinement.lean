import GatewayServer.Engine.JoinLists
import GatewayServer.Lib.Refinement
import GatewayServer.Service.Chat

/-!
# The server is the chat

A server whose queries succeed, and that serves one request at a time, does to the chat that it is
in what the chat says: its registry, its copies of the members and the ids of its channels are not
seen from outside. When it is started again on its tables, nothing is lost but who is online.

## Main definitions

* `Server.chat` — the chat that a server is in

## Main results

* `chat_serve` — a request served is a step of the chat
* `chat_start` — a start finds the chat that the tables hold
* `chat_lives` — any number of starts, with any requests after each of them
-/

namespace GatewayServer

open Lib

/-- What a write hands to a session, whatever the vector holds. -/
def Write.delivery (x : Write) : Delivery := ⟨x.session, x.response⟩

section Chats

variable [Protocol]

/-- The rows of the history as posts. -/
def Database.posts (db : Database) : List Post :=
  db.history.map fun row =>
    ⟨row.clientId, WrapperPg.rowMessage row.channelName row (db.loginOf row.clientId)⟩

/-- The chat that a server is in. -/
def Server.chat (s : Server Postgres) : Chat where
  accounts := s.db.db.clients
  members := s.db.db.subscribersOf
  posts := s.db.db.posts
  online i := (s.idClients i).map User.session
  sent := s.written.map Write.delivery

end Chats

/-! ## The tables -/

namespace Database

variable [Protocol] {db db' : Database}

theorem posts_congr (hhistory : db'.history = db.history) (hclients : db'.clients = db.clients) :
    db'.posts = db.posts := by
  simp only [posts, loginOf, hhistory, hclients]

/-- A new account has written nothing. -/
theorem posts_insertClient (account : Client) : (db.insertClient account).posts = db.posts := by
  rw [posts, posts]
  apply List.map_congr_left
  intro row hrow
  obtain ⟨r, hr, hid⟩ := db.references row hrow
  have hlogin : (db.insertClient account).loginOf row.clientId = db.loginOf row.clientId := by
    rw [loginOf, loginOf, insertClient_clients, SerialTable.lookup_insert,
      if_neg (hid ▸ Nat.ne_of_lt (db.clients.id_lt r hr))]
  rw [hlogin]

theorem posts_store (m : ClientTextMsg) :
    (db.store m).posts = db.posts ++
      if db.clientId m.author = 0 then [] else [⟨db.clientId m.author, WrapperPg.reread m⟩] := by
  have hlogin : (db.store m).loginOf = db.loginOf := by
    funext i
    simp only [loginOf, store_clients]
  rw [posts, hlogin, store_history, List.map_append]
  by_cases hauthor : db.clientId m.author = 0
  · rw [if_pos hauthor, if_pos hauthor]
    rfl
  · rw [if_neg hauthor, if_neg hauthor, List.map_singleton, loginOf_clientId hauthor]
    rfl

/-- The messages kept of a room are those that the history has under its name. -/
theorem filter_posts (room : String) :
    (db.posts.map Post.message).filter (fun m => m.channelName = room) = db.messagesOf room := by
  rw [posts, List.map_map, List.filter_map, messagesOf]
  apply List.map_congr_left
  intro row hrow
  have hname : row.channelName = room := of_decide_eq_true (List.mem_filter.mp hrow).2
  rw [← hname]
  rfl

/-- The rooms in which an account has posted. -/
theorem map_posts (i : UserId) :
    ((db.posts.filter fun p => p.author = i).map fun p => p.message.channelName) =
      (db.history.filter fun row => row.clientId = i).map HistoryRow.channelName := by
  rw [posts, List.filter_map, List.map_map]
  rfl

end Database

/-! ## What is handed to sessions -/

section Deliveries

variable [Protocol] {s : Server Postgres} (w : World)

theorem chat_log (new : List Write) :
    (s.log w new).chat = s.chat.send (new.map Write.delivery) := by
  rw [Server.chat, Server.log_written, List.map_append]
  rfl

theorem reached_chat (i : UserId) : s.chat.reached w i = s.liveSession w i := by
  have honline : s.chat.online i = (s.idClients i).map User.session := rfl
  rw [Chat.reached, honline, Server.liveSession]
  cases s.idClients i with
  | none => rfl
  | some user => by_cases halive : w.alive user.session = true <;> simp [halive]

theorem deliver_chat (i : UserId) (response : Response) :
    s.chat.deliver w i response =
      (s.liveSession w i).toList.map fun session => ⟨session, response⟩ := by
  rw [Chat.deliver, reached_chat]

theorem delivery_replies (session : SessionId) (response : Response) :
    (QueryEngine.replies w session response).map Write.delivery = w.tell session response := by
  rw [QueryEngine.replies, World.tell]
  split <;> rfl

theorem delivery_handed (message : ClientTextMsg) (ids : List UserId) (buffer : Bytes) :
    (Channel.handed s w message ids buffer).map Write.delivery =
      ids.flatMap fun i => s.chat.deliver w i (.echoResponse message) := by
  induction ids generalizing buffer with
  | nil => rfl
  | cons i ids ih =>
    rw [List.flatMap_cons, deliver_chat, Channel.handed]
    cases s.liveSession w i with
    | none => exact ih buffer
    | some session => exact congrArg (_ :: ·) (ih _)

theorem delivery_welcome (this : Channel) (i : UserId) :
    (Channel.welcome this s w i).map Write.delivery =
      if i ∈ this.idUsers then []
      else s.chat.deliver w i (.joinRoomResponse this.name true) := by
  rw [Channel.welcome, deliver_chat]
  cases s.liveSession w i with
  | none => simp
  | some session =>
    by_cases hmember : i ∈ this.idUsers
    · simp [hmember]
    · simp only [if_neg hmember]
      rfl

theorem delivery_channelsFor (i : UserId) :
    (QueryEngine.channelsFor s w i).map Write.delivery = s.chat.deliver w i (.channelsResponse
      ((s.db.db.history.filter fun row => row.clientId = i).map
        HistoryRow.channelName).dedup) := by
  rw [QueryEngine.channelsFor, deliver_chat]
  cases s.liveSession w i <;> rfl

/-- The history of a channel that stands under the id of its name. -/
theorem delivery_historyFor {this : Channel} (hid : this.id = s.db.db.channelId this.name)
    (hn : s.db.db.channelId this.name ≠ 0) (i : UserId) (since : DateTime) :
    (Channel.historyFor this s w i since).map Write.delivery =
      if i ∈ this.idUsers ∧ (s.chat.messages this.name).filter (Channel.isSince since) ≠ [] then
        s.chat.deliver w i (.historyResponse this.name
          ((s.chat.messages this.name).filter (Channel.isSince since)))
      else [] := by
  have hmessages : WrapperPg.storedMessages s.db.db this.id = s.chat.messages this.name := by
    rw [WrapperPg.storedMessages, hid, Database.channelNameOf_channelId hn]
    exact (Database.filter_posts this.name).symm
  rw [Channel.historyFor, hmessages, deliver_chat]
  cases s.liveSession w i with
  | none => simp
  | some session =>
    dsimp only
    split <;> rfl

end Deliveries

/-! ## Requests that name a room -/

section Requests

variable [Protocol] {s t : Server Postgres}

/-- Naming a room changes nothing in the chat. -/
theorem chat_enters {n : String} (henters : s.Enters n t) (hsubs : s.db.db.Subscribed)
    (hdb : t.db.db = s.db.db.enter n) : t.chat = s.chat := by
  have hmembers : t.db.db.subscribersOf = s.db.db.subscribersOf := by
    funext room
    ext i
    rw [hdb, Database.mem_subscribersOf_enter hsubs]
  rw [Server.chat, hmembers, henters.clients, henters.idClients, henters.written,
    Database.posts_congr henters.history henters.clients]
  rfl

/-- A login binds the account to its session. -/
theorem chat_push (i : UserId) (data : User) :
    Server.chat { s with
      idClients := Function.update s.idClients i
        (some (UserManager.pushed (s.idClients i) data)) } = s.chat.login i data.session := by
  have honline : (fun j => (Function.update s.idClients i
      (some (UserManager.pushed (s.idClients i) data)) j).map User.session) =
      Function.update s.chat.online i (some data.session) := by
    funext j
    by_cases hj : j = i
    · rw [hj, Function.update_self, Function.update_self, Option.map_some,
        UserManager.pushed_session]
    · rw [Function.update_of_ne hj, Function.update_of_ne hj]
      rfl
  rw [Server.chat, honline]
  rfl

theorem chat_insertClient (account : Client) :
    Server.chat { s with db := { s.db with db := s.db.db.insertClient account } } =
      { s.chat with accounts := s.chat.accounts.insert account } := by
  rw [Server.chat, Database.posts_insertClient]
  rfl

/-- A client that the tables subscribe to a channel has joined its room. -/
theorem chat_subscribe {n : String} (hn : s.db.db.channelId n ≠ 0) (i : UserId)
    (objects : List Channel) :
    Server.chat { s with
      db := { s.db with db := s.db.db.subscribe ⟨i, s.db.db.channelId n⟩ }
      objects := objects } =
      { s.chat with
        members := Function.update s.chat.members n (insert i (s.chat.members n)) } := by
  -- only the room of this channel has a member more
  have hmembers : (s.db.db.subscribe ⟨i, s.db.db.channelId n⟩).subscribersOf =
      Function.update s.chat.members n (insert i (s.chat.members n)) := by
    funext room
    ext j
    rw [Database.mem_subscribersOf_subscribe hn]
    by_cases hroom : room = n
    · subst hroom
      rw [Function.update_self, Finset.mem_insert, or_comm, eq_comm, and_iff_left rfl]
      exact Iff.rfl
    · rw [Function.update_of_ne hroom, or_iff_left fun hj => hroom hj.2.symm]
      exact Iff.rfl
  have hclients : (s.db.db.subscribe ⟨i, s.db.db.channelId n⟩).clients = s.db.db.clients := by
    unfold Database.subscribe
    split <;> rfl
  have hhistory : (s.db.db.subscribe ⟨i, s.db.db.channelId n⟩).history = s.db.db.history := by
    unfold Database.subscribe
    split <;> rfl
  rw [Server.chat, hmembers, hclients, Database.posts_congr hhistory hclients]
  rfl

/-- A message that the tables take, or refuse, is kept or not. -/
theorem chat_store (m : ClientTextMsg) :
    Server.chat { s with db := { s.db with db := s.db.db.store m } } =
      s.chat.keep (s.chat.accountOf m.author) (WrapperPg.reread m) := by
  have hmembers : (s.db.db.store m).subscribersOf = s.db.db.subscribersOf := by
    funext room
    ext i
    simp only [Database.mem_subscribersOf, Database.channelId, Database.store_channels,
      Database.store_subscriptions]
  rw [Server.chat, hmembers, Database.store_clients, Database.posts_store, Chat.keep]
  show _ = if s.db.db.clientId m.author = 0 then _ else _
  split
  · rw [List.append_nil]
    rfl
  · rfl

namespace QueryEngine

/-- The channel of a room, as the chat has it. -/
theorem exists_room (h : s.Coherent) (hsubs : s.db.db.Subscribed) {n : String} (hne : n ≠ "") :
    ∃ p this t, (ChannelsManager.createOrGetChannelByName WrapperPg.database n).run s =
        (.ok p, t) ∧
      t.Coherent ∧ t.objects[p]? = some this ∧ this.name = n ∧
      this.id = t.db.db.channelId n ∧ t.db.db.channelId n ≠ 0 ∧
      this.idUsers = s.chat.members n ∧ t.idClients = s.idClients ∧ t.chat = s.chat := by
  obtain ⟨p, this, t, hrun, hcoherent, henters, hid, hp, hthis, hname, hmembers⟩ :=
    exists_channel h hne
  have hdb : t.db.db = s.db.db.enter n := by
    have hdb := ChannelsManager.run_createOrGetChannelByName_db h n
    rw [hrun] at hdb
    exact congrArg Postgres.db hdb
  have hchat : t.chat = s.chat := chat_enters henters hsubs hdb
  have hregistry : t.registry (t.db.db.channelId n) = some this := by
    rw [Server.registry, hp]
    exact hthis
  refine ⟨p, this, t, hrun, hcoherent, hthis, hname, hcoherent.id_eq hregistry, hid, ?_,
    henters.idClients, hchat⟩
  -- the members in memory are those of the tables
  ext i
  rw [hmembers, ← hchat]
  exact Database.mem_subscribersOf.symm

variable (h : s.Coherent) (hsubs : s.db.db.Subscribed)
include h hsubs

/-- Nothing can be done in a room without a name. -/
theorem chat_serve_empty {e : Event} (hname : e.call.channelName = some "") :
    (serve WrapperPg.database s e).chat = s.chat := by
  -- the call starts with the search for the room, which throws
  have hhandle : ∃ k, handle WrapperPg.database e.world e.call =
      ChannelsManager.createOrGetChannelByName WrapperPg.database "" >>= k := by
    obtain ⟨w, call⟩ := e
    cases call with
    | getHistory request =>
      rw [handle, getHistory, Option.some.inj hname]
      exact ⟨_, rfl⟩
    | joinRoom request =>
      rw [handle, joinRoom, Option.some.inj hname]
      exact ⟨_, rfl⟩
    | sendText request =>
      rw [handle, sendText, Option.some.inj hname]
      exact ⟨_, rfl⟩
    | _ => exact absurd hname (by simp [Call.channelName])
  obtain ⟨k, hhandle⟩ := hhandle
  obtain ⟨err, t, hrun, -, henters⟩ := ChannelsManager.createOrGetChannelByName_empty h
  have hdb := serve_db_empty h hhandle
  rw [serve_empty h hhandle, hrun] at hdb ⊢
  exact chat_enters henters hsubs (congrArg Postgres.db hdb)

variable (w : World)

theorem chat_getHistory (request : HistoryRequest) (hne : request.channelName ≠ "") :
    (serve WrapperPg.database s ⟨w, .getHistory request⟩).chat =
      s.chat.history w request.clientId request.channelName request.since := by
  obtain ⟨p, this, t, hrun, hcoherent, hthis, hname, hid, hn, hmembers, -, hchat⟩ :=
    exists_room h hsubs hne
  rw [← hname] at hid hn hmembers
  rw [serve_getHistory w request hrun hcoherent hthis, chat_log,
    delivery_historyFor w hid hn, hmembers, hchat, hname]
  rfl

theorem chat_joinRoom (request : JoinRoomRequest) (hne : request.channelName ≠ "") :
    (serve WrapperPg.database s ⟨w, .joinRoom request⟩).chat =
      s.chat.join w request.clientId request.channelName := by
  obtain ⟨p, this, t, hrun, hcoherent, hthis, hname, -, hn, hmembers, hclients, hchat⟩ :=
    exists_room h hsubs hne
  have honline : s.chat.online request.clientId =
      (t.idClients request.clientId).map User.session := by
    rw [hclients]
    rfl
  cases huser : t.idClients request.clientId with
  | none =>
    rw [serve_joinRoom_unknown w request hrun huser, hchat, Chat.join, honline, huser]
    rfl
  | some user =>
    rw [serve_joinRoom_known w request hrun hcoherent hthis huser, chat_log, delivery_welcome,
      chat_subscribe hn, hmembers, hname, hchat, Chat.join, honline, huser]
    rfl

theorem chat_sendText (request : TextRequest) (hne : request.channelName ≠ "") :
    (serve WrapperPg.database s ⟨w, .sendText request⟩).chat =
      s.chat.post w WrapperPg.reread (textMessage request) := by
  obtain ⟨p, this, t, hrun, hcoherent, hthis, hname, -, hn, hmembers, hclients, hchat⟩ :=
    exists_room h hsubs hne
  rw [serve_sendText w request hrun hcoherent hthis, chat_log, delivery_handed, chat_store,
    hmembers, hchat]
  rfl

omit hsubs in
theorem chat_getChannels (request : ChannelsRequest) :
    (serve WrapperPg.database s ⟨w, .getChannels request⟩).chat =
      s.chat.rooms w request.clientId := by
  rw [serve_getChannels h, chat_log, delivery_channelsFor, ← Database.map_posts]
  rfl

omit hsubs in
theorem chat_reg (session : SessionId) (request : RegistrationRequest) :
    (serve WrapperPg.database s ⟨w, .reg session request⟩).chat =
      s.chat.register w session request := by
  have hid : s.chat.accountOf request.login = s.db.db.clientId request.login := rfl
  rw [Chat.register, hid]
  by_cases hfree : s.db.db.clientId request.login = 0
  · rw [serve_reg_free h.faults w session request hfree, if_pos hfree, chat_log,
      delivery_replies]
    have hlogin := chat_push
      (s := { s with
        db := { s.db with db := s.db.db.insertClient ⟨request.login, request.password⟩ } })
      s.db.db.clients.next ⟨session, request.login, request.password, s.db.db.clients.next⟩
    rw [chat_insertClient] at hlogin
    exact congrArg (Chat.send · _) hlogin
  · rw [serve_reg_busy h.faults w session request hfree, if_neg hfree, chat_log,
      delivery_replies]

omit hsubs in
theorem chat_auth (session : SessionId) (request : AuthorisationRequest) :
    (serve WrapperPg.database s ⟨w, .auth session request⟩).chat =
      s.chat.authorise w session request := by
  obtain ⟨k, hcheck, hk⟩ :=
    WrapperPg.run_checkAuthUser_spec h.faults ⟨request.login, request.password⟩
  have hlookup : s.chat.accounts.lookup (s.chat.accountOf request.login) =
      some ⟨request.login, request.password⟩ ↔ k ≠ 0 ∧ k = s.chat.accountOf request.login := by
    rw [SerialTable.lookup_eq_some_iff, hk, and_iff_right]
    · exact Iff.rfl
    · rfl
  rw [Chat.authorise]
  by_cases hzero : k = 0
  · subst hzero
    rw [serve_auth_refused w session request hcheck, chat_log, delivery_replies, if_neg]
    exact fun hright => (hlookup.mp hright).1 rfl
  · have hright := hlookup.mpr ⟨hzero, ((hk k).mp ⟨hzero, rfl⟩).1.symm⟩
    have hid : s.chat.accountOf request.login = k := ((hk k).mp ⟨hzero, rfl⟩).1
    rw [serve_auth w session request hcheck hzero, chat_log, delivery_replies, if_pos hright,
      chat_push, hid]

end QueryEngine

variable (h : s.Coherent) (hsubs : s.db.db.Subscribed)
include h hsubs

/-- A request served is a step of the chat. -/
theorem chat_serve (e : Event) :
    (serve WrapperPg.database s e).chat = s.chat.step WrapperPg.reread e := by
  by_cases hname : e.call.channelName = some ""
  · rw [QueryEngine.chat_serve_empty h hsubs hname, Chat.step, if_pos hname]
  · rw [Chat.step, if_neg hname]
    obtain ⟨w, call⟩ := e
    cases call with
    | reg session request => exact QueryEngine.chat_reg h w session request
    | auth session request => exact QueryEngine.chat_auth h w session request
    | getHistory request =>
      exact QueryEngine.chat_getHistory h hsubs w request fun hne => hname (congrArg some hne)
    | getChannels request => exact QueryEngine.chat_getChannels h w request
    | joinRoom request =>
      exact QueryEngine.chat_joinRoom h hsubs w request fun hne => hname (congrArg some hne)
    | sendText request =>
      exact QueryEngine.chat_sendText h hsubs w request fun hne => hname (congrArg some hne)

/-- A run of requests is a run of the chat. -/
theorem chat_foldl (events : List Event) :
    (events.foldl (serve WrapperPg.database) s).chat =
      events.foldl (Chat.step WrapperPg.reread) s.chat :=
  foldl_forget (I := fun s => s.Coherent ∧ s.db.db.Subscribed) Server.chat
    (fun _ e hs => serve_subscribed e hs) (fun _ e hs => chat_serve hs.1 hs.2 e) ⟨h, hsubs⟩ events

end Requests

/-! ## Frames -/

section Frames

variable [Protocol]

/-- A frame asks for a call, or is answered, or ignored. -/
theorem arrive_eq (s : Server Postgres) (a : Arrival) :
    arrive WrapperPg.database s a =
      match a.call with
      | some call =>
        if a.world.engineAlive then serve WrapperPg.database s ⟨a.world, call⟩ else s
      | none => s.log a.world (a.answer.toList.map fun response =>
          ⟨a.session, response, Protocol.serialize response⟩) := by
  rw [arrive]
  cases hcall : a.call with
  | some call =>
    rw [processRequest_of_call _ hcall, ClientSession.toEngine]
    dsimp only
    split <;> rfl
  | none =>
    rw [processRequest_of_no_call _ hcall]
    cases a.answer with
    | none => exact (s.log_nil a.world).symm
    | some response =>
      dsimp only
      rw [ClientSession.mismatch, Prog.run_bind_ok (ClientSession.run_write _ _ _ _ _)]
      rfl

variable {s : Server Postgres} (h : s.Coherent) (hsubs : s.db.db.Subscribed) (a : Arrival)
include h hsubs

theorem arrive_subscribed : (arrive WrapperPg.database s a).Coherent ∧
    (arrive WrapperPg.database s a).db.db.Subscribed := by
  rw [arrive_eq]
  cases a.call with
  | some call =>
    dsimp only
    split
    · exact serve_subscribed _ ⟨h, hsubs⟩
    · exact ⟨h, hsubs⟩
  | none => exact ⟨h.log a.world _, hsubs⟩

/-- A frame is what the chat says of it. -/
theorem chat_arrive :
    (arrive WrapperPg.database s a).chat = s.chat.arrive WrapperPg.reread a := by
  rw [arrive_eq, Chat.arrive]
  cases a.call with
  | some call =>
    dsimp only
    split
    · exact chat_serve h hsubs ⟨a.world, call⟩
    · rfl
  | none =>
    dsimp only
    rw [chat_log, List.map_map]
    rfl

end Frames

/-! ## Starting again -/

section Starts

variable [Protocol]

/-- A start finds the chat that the tables hold, with nobody online. -/
theorem chat_start {s : Server Postgres} (faults : s.db.faults = [])
    (hnames : ∀ r ∈ s.db.db.channels.rows, r.data ≠ "") :
    (start WrapperPg.database s.db).2.chat = s.chat.restart := by
  obtain ⟨t, hstart, -, hdb, hnobody, hwritten⟩ := start_coherent faults hnames
  have honline : (fun i => (t.idClients i).map User.session) = fun _ => none := by
    funext i
    rw [hnobody]
    rfl
  rw [hstart, Server.chat, honline, hdb, hwritten]
  rfl

/-- A server that is started, and ends after some requests, again and again on the same tables. -/
def runLives (lives : List (List Event)) : Server Postgres :=
  lives.foldl (fun s events => runFrom s.db events) (Server.initial emptyTables)

/-- What the tables of a server must be like for it to be started on them. -/
structure Server.Restartable (s : Server Postgres) : Prop where
  faults : s.db.faults = []
  names : ∀ r ∈ s.db.db.channels.rows, r.data ≠ ""
  subscribed : s.db.db.Subscribed

namespace Server.Restartable

omit [Protocol] in
theorem initial : (Server.initial emptyTables).Restartable where
  faults := rfl
  names := emptyTables_names
  subscribed := emptyTables_subscribed

variable {s : Server Postgres} (h : s.Restartable)
include h

/-- Requests with names for their rooms leave tables to start on. -/
theorem runFrom {events : List Event} (hevents : ∀ e ∈ events, e.call.channelName ≠ some "") :
    (runFrom s.db events).Restartable where
  faults := (runFrom_coherent h.faults h.names events).faults
  names := by
    intro r hr hname
    have hid : (GatewayServer.runFrom s.db events).db.db.channelId "" ≠ 0 :=
      SerialTable.firstId_ne_zero_of_mem hr (by simpa using hname)
    rcases (runFrom_names h.faults h.names events "").mp hid with hold | ⟨e, he, hempty⟩
    · exact h.names _ (Database.row_of_channelId hold) rfl
    · exact hevents e he hempty
  subscribed := runFrom_subscribed h.faults h.names events h.subscribed

/-- A start, and some requests after it. -/
theorem chat_runFrom (events : List Event) :
    (GatewayServer.runFrom s.db events).chat =
      events.foldl (Chat.step WrapperPg.reread) s.chat.restart := by
  obtain ⟨t, hstart, hcoherent, hdb, -⟩ := start_coherent h.faults h.names
  have ht : t.chat = s.chat.restart := by
    rw [← chat_start h.faults h.names, hstart]
  rw [GatewayServer.runFrom, hstart, ← ht]
  exact chat_foldl hcoherent (hdb ▸ h.subscribed) events

end Server.Restartable

theorem runLives_concat (lives : List (List Event)) (events : List Event) :
    runLives (lives ++ [events]) = runFrom (runLives lives).db events := by
  rw [runLives, List.foldl_append]
  rfl

theorem runLives_restartable {lives : List (List Event)}
    (hlives : ∀ events ∈ lives, ∀ e ∈ events, e.call.channelName ≠ some "") :
    (runLives lives).Restartable :=
  List.foldlRecOn (motive := Server.Restartable) lives _ .initial
    fun _ h events hevents => h.runFrom (hlives events hevents)

theorem chat_runLives {lives : List (List Event)}
    (hlives : ∀ events ∈ lives, ∀ e ∈ events, e.call.channelName ≠ some "") :
    (runLives lives).chat = Chat.runLives WrapperPg.reread lives := by
  induction lives using List.reverseRecOn with
  | nil => rfl
  | append_singleton lives events ih =>
    have hlives' : ∀ events ∈ lives, ∀ e ∈ events, e.call.channelName ≠ some "" :=
      fun events hevents => hlives events (List.mem_append_left _ hevents)
    rw [runLives_concat, Chat.runLives_concat, ← ih hlives']
    exact (runLives_restartable hlives').chat_runFrom events

/-- The last of the lives may have any requests. -/
theorem chat_runLives_concat {lives : List (List Event)}
    (hlives : ∀ events ∈ lives, ∀ e ∈ events, e.call.channelName ≠ some "")
    (events : List Event) :
    (runLives (lives ++ [events])).chat = Chat.runLives WrapperPg.reread (lives ++ [events]) := by
  rw [runLives_concat, Chat.runLives_concat, ← chat_runLives hlives]
  exact (runLives_restartable hlives).chat_runFrom events

/-- Messages with dates of the calendar are kept as they were sent. -/
theorem runLives_reread {lives : List (List Event)}
    (hdates : ∀ events ∈ lives, ∀ e ∈ events, ∀ request, e.call = .sendText request →
      request.datetime.Valid) :
    Chat.runLives WrapperPg.reread lives = Chat.runLives id lives :=
  Chat.runLives_congr fun events hevents e he request hrequest =>
    WrapperPg.reread_of_valid (hdates events hevents e he request hrequest)

/-- However often the server is started again, as long as no room without a name was asked for
before, it is in the state that the chat comes to by the same requests, and has handed out what the
chat hands out. When the dates of all messages are dates of the calendar, the messages are kept as
they were sent. -/
theorem chat_lives (lives : List (List Event)) (events : List Event)
    (hlives : ∀ events ∈ lives, ∀ e ∈ events, e.call.channelName ≠ some "") :
    (runLives (lives ++ [events])).chat = Chat.runLives WrapperPg.reread (lives ++ [events]) ∧
      ((∀ events' ∈ lives ++ [events], ∀ e ∈ events', ∀ request, e.call = .sendText request →
          request.datetime.Valid) →
        (runLives (lives ++ [events])).chat = Chat.runLives id (lives ++ [events])) := by
  have hchat := chat_runLives_concat hlives events
  exact ⟨hchat, fun hdates => hchat.trans (runLives_reread hdates)⟩

omit [Protocol] in
theorem chat_lives_annJoins :
    letI := Protocol.oneByte
    (runLives ([annJoins] ++ [annJoins])).chat =
        Chat.runLives WrapperPg.reread ([annJoins] ++ [annJoins]) ∧
      ((∀ events' ∈ [annJoins] ++ [annJoins], ∀ e ∈ events', ∀ request,
          e.call = .sendText request → request.datetime.Valid) →
        (runLives ([annJoins] ++ [annJoins])).chat =
          Chat.runLives id ([annJoins] ++ [annJoins])) :=
  @chat_lives Protocol.oneByte [annJoins] annJoins (by simp [annJoins, Call.channelName])

end Starts

end GatewayServer
