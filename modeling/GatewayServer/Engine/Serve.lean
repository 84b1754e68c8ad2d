import GatewayServer.Channels.Coherence
import GatewayServer.Database.HistoryRoundTrip
import GatewayServer.Engine.QueryEngine

/-!
# What serving a request does

One account of everything that a request can do to a coherent server whose queries succeed. The
properties of whole runs are read off this account.

## Main definitions

* `Database.Binds` — a request that gives a session a client id, by name and password
* `Served` — what holds between the server before and after a request

## Main results

* `served` — every request does what `Served` says
-/

namespace GatewayServer

open Lib

/-- The registration or authentication that gives the client `i` to `session`: the login is
free and `i` the next id, or `i` is the client with this login and password. -/
def Database.Binds (db : Database) (i : UserId) (session : SessionId) : Call → Prop
  | .reg session' request =>
    session' = session ∧ db.clientId request.login = 0 ∧ i = db.clients.next
  | .auth session' request =>
    session' = session ∧ db.clientId request.login = i ∧
      ⟨i, ⟨request.login, request.password⟩⟩ ∈ db.clients.rows
  | _ => False

theorem Database.not_binds {db : Database} {call : Call} {n : String}
    (hname : call.channelName = some n) (i : UserId) (session : SessionId) :
    ¬ db.Binds i session call := by
  cases call with
  | reg session' request => exact absurd hname (by simp [Call.channelName])
  | auth session' request => exact absurd hname (by simp [Call.channelName])
  | getHistory request => exact id
  | getChannels request => exact id
  | joinRoom request => exact id
  | sendText request => exact id

/-- A message of the channel `n` goes to the session of a client that subscribes to it. The
request that sends it leaves `subscriptions` as they are. -/
def Delivers (w : World) (s t : Server Postgres) (x : Write) (n : String) : Prop :=
  t.db.db.channelId n ≠ 0 ∧ t.db.db.subscriptions = s.db.db.subscriptions ∧
    ∃ i, ⟨i, t.db.db.channelId n⟩ ∈ s.db.db.subscriptions ∧
      s.liveSession w i = some x.session

/-- What the request of `e` may do between `s` and `t`. -/
structure Served (e : Event) (s t : Server Postgres) : Prop where
  coherent : t.Coherent
  /-- The channel names in the tables grow by the name in the request. -/
  names : ∀ m, t.db.db.channelId m ≠ 0 ↔
    s.db.db.channelId m ≠ 0 ∨ e.call.channelName = some m
  /-- Users change by registrations and authentications only. -/
  users : ∀ i,
    (t.idClients i = s.idClients i ∧ ∀ session, ¬ s.db.db.Binds i session e.call) ∨
      ∃ user, t.idClients i = some user ∧ s.db.db.Binds i user.session e.call
  /-- The messages of a channel go to its members. -/
  written : ∃ new, t.written = s.written ++ new ∧
    ∀ x ∈ new, ∀ n, x.response.messageChannel = some n → Delivers e.world s t x n

/-- A request that finds or makes a channel, and then writes and stores something. -/
theorem Served.of_enters {e : Event} {s t₀ t : Server Postgres} {n : String}
    (hname : e.call.channelName = some n) (henters : s.Enters n t₀) (hcoherent : t.Coherent)
    (hchannels : t.db.db.channels = t₀.db.db.channels) (hidClients : t.idClients = t₀.idClients)
    {new : List Write} (hwritten : t.written = t₀.written ++ new)
    (hnew : ∀ x ∈ new, ∀ m, x.response.messageChannel = some m → Delivers e.world s t x m) :
    Served e s t where
  coherent := hcoherent
  names m := by
    have hid : t.db.db.channelId m = t₀.db.db.channelId m := by
      simp only [Database.channelId, hchannels]
    rw [hid, henters.names, hname, Option.some.injEq, eq_comm (a := m)]
  users i := by
    left
    constructor
    · rw [hidClients, henters.idClients]
    · intro session
      exact Database.not_binds hname i session
  written := ⟨new, by rw [hwritten, henters.written], hnew⟩

/-- A request that names no channel and is answered by itself. -/
theorem Served.of_reply {e : Event} {s t : Server Postgres} (hname : e.call.channelName = none)
    (hcoherent : t.Coherent) (hchannels : t.db.db.channels = s.db.db.channels)
    (husers : ∀ i,
      (t.idClients i = s.idClients i ∧ ∀ session, ¬ s.db.db.Binds i session e.call) ∨
        ∃ user, t.idClients i = some user ∧ s.db.db.Binds i user.session e.call)
    {new : List Write} (hwritten : t.written = s.written ++ new)
    (hnew : ∀ x ∈ new, x.response.messageChannel = none) : Served e s t where
  coherent := hcoherent
  names m := by
    simp [Database.channelId, hchannels, hname]
  users := husers
  written := by
    refine ⟨new, hwritten, ?_⟩
    intro x hx n hn
    rw [hnew x hx] at hn
    exact absurd hn (by simp)

section Requests

variable [Protocol] {s : Server Postgres}

/-! ## Requests that name a channel -/

namespace QueryEngine

/-- A request with an empty channel name ends with the exception of the constructor. -/
theorem serve_empty (h : s.Coherent) {e : Event}
    {k : ChannelPtr → Prog (Server Postgres) Exn PUnit}
    (hhandle : handle WrapperPg.database e.world e.call =
      ChannelsManager.createOrGetChannelByName WrapperPg.database "" >>= k) :
    serve WrapperPg.database s e =
      ((ChannelsManager.createOrGetChannelByName WrapperPg.database "").run s).2 := by
  obtain ⟨err, t, hrun, -⟩ := ChannelsManager.createOrGetChannelByName_empty h
  rw [serve, hhandle, Prog.run_bind_error hrun, hrun]

theorem served_empty (h : s.Coherent) {e : Event}
    {k : ChannelPtr → Prog (Server Postgres) Exn PUnit} (hname : e.call.channelName = some "")
    (hhandle : handle WrapperPg.database e.world e.call =
      ChannelsManager.createOrGetChannelByName WrapperPg.database "" >>= k) :
    Served e s (serve WrapperPg.database s e) := by
  obtain ⟨err, t, hrun, hcoherent, henters⟩ := ChannelsManager.createOrGetChannelByName_empty h
  rw [serve_empty h hhandle, hrun]
  exact .of_enters hname henters hcoherent rfl rfl (List.append_nil _).symm (by simp)

/-- The channel that a request with a name works on, with the members of the tables. -/
theorem exists_channel (h : s.Coherent) {n : String} (hne : n ≠ "") :
    ∃ p this t, (ChannelsManager.createOrGetChannelByName WrapperPg.database n).run s =
        (.ok p, t) ∧
      t.Coherent ∧ s.Enters n t ∧ t.db.db.channelId n ≠ 0 ∧
      t.idChannels (t.db.db.channelId n) = some p ∧ t.objects[p]? = some this ∧
      this.name = n ∧
      ∀ i, i ∈ this.idUsers ↔ ⟨i, t.db.db.channelId n⟩ ∈ t.db.db.subscriptions := by
  obtain ⟨p, t, hrun, hcoherent, henters, hp⟩ :=
    ChannelsManager.run_createOrGetChannelByName h hne
  have hid : t.db.db.channelId n ≠ 0 := (henters.names n).mpr (Or.inr rfl)
  obtain ⟨p', hp', hthis⟩ := hcoherent.exists_channel hid hne
  obtain rfl : p = p' := Option.some.inj (hp.symm.trans hp')
  exact ⟨p, _, t, hrun, hcoherent, henters, hid, hp, hthis, rfl, fun i => by simp⟩

/-! ### The server after each of them -/

section Found

variable {n : String} {p : ChannelPtr} {this : Channel} {t : Server Postgres} (w : World)

theorem serve_getHistory (request : HistoryRequest)
    (hrun : (ChannelsManager.createOrGetChannelByName WrapperPg.database
      request.channelName).run s = (.ok p, t))
    (hcoherent : t.Coherent) (hthis : t.objects[p]? = some this) :
    serve WrapperPg.database s ⟨w, .getHistory request⟩ =
      t.log w (Channel.historyFor this t w request.clientId request.since) := by
  rw [serve, handle, getHistory, Prog.run_bind_ok hrun,
    Channel.run_sendHistory hcoherent.faults hthis]

/-- A client that nobody knows joins nothing, but the channel is made. -/
theorem serve_joinRoom_unknown (request : JoinRoomRequest)
    (hrun : (ChannelsManager.createOrGetChannelByName WrapperPg.database
      request.channelName).run s = (.ok p, t))
    (huser : t.idClients request.clientId = none) :
    serve WrapperPg.database s ⟨w, .joinRoom request⟩ = t := by
  rw [serve, handle, joinRoom, Prog.run_bind_ok hrun]
  simp [UserManager.getUser, Prog.run_bind, huser]

/-- A known client enters the channel that is found, and then the tables. -/
theorem run_joinRoom_known {δ : Type} (db : IDatabase δ) {s t : Server δ}
    (request : JoinRoomRequest)
    (hrun : (ChannelsManager.createOrGetChannelByName db request.channelName).run s = (.ok p, t))
    (hthis : t.objects[p]? = some this) {user : User}
    (huser : t.idClients request.clientId = some user) (hkey : user.id = request.clientId) :
    (joinRoom db w request).run s =
      (((db.joinClientChannel request.clientId request.channelName).run t.db).1,
        Server.log { t with
          db := ((db.joinClientChannel request.clientId request.channelName).run t.db).2
          objects := t.objects.set p
            { this with idUsers := insert request.clientId this.idUsers } } w
          (Channel.welcome this t w request.clientId)) := by
  have hget : (UserManager.getUser request.clientId : Prog (Server δ) Exn _).run t =
      (.ok (some user), t) := by
    simp [UserManager.getUser, huser]
  rw [joinRoom, Prog.run_bind_ok hrun, Prog.run_bind_ok hget]
  simp only []
  rw [Prog.run_bind_ok (Channel.run_addUser hthis w user.id), ChannelsManager.joinClientChannel,
    Server.run_inDb, hkey]
  rfl

theorem serve_joinRoom_known (request : JoinRoomRequest)
    (hrun : (ChannelsManager.createOrGetChannelByName WrapperPg.database
      request.channelName).run s = (.ok p, t))
    (hcoherent : t.Coherent) (hthis : t.objects[p]? = some this) {user : User}
    (huser : t.idClients request.clientId = some user) :
    serve WrapperPg.database s ⟨w, .joinRoom request⟩ =
      Server.log { t with
        db := { t.db with
          db := t.db.db.subscribe
            ⟨request.clientId, t.db.db.channelId request.channelName⟩ }
        objects := t.objects.set p
          { this with idUsers := insert request.clientId this.idUsers } } w
        (Channel.welcome this t w request.clientId) := by
  -- a user is found under its own id, so both sides enter the same member
  have hkey : user.id = request.clientId := hcoherent.keyed _ _ huser
  obtain ⟨r, hjoin⟩ := WrapperPg.run_joinClientChannel
    (s := t.db) hcoherent.faults request.clientId request.channelName
  rw [serve, handle, run_joinRoom_known w _ request hrun hthis huser hkey, hjoin]

theorem serve_sendText (request : TextRequest)
    (hrun : (ChannelsManager.createOrGetChannelByName WrapperPg.database
      request.channelName).run s = (.ok p, t))
    (hcoherent : t.Coherent) (hthis : t.objects[p]? = some this) :
    serve WrapperPg.database s ⟨w, .sendText request⟩ =
      Server.log { t with
        db := { t.db with db := t.db.db.store (textMessage request) } } w
        (Channel.handed t w (textMessage request) (w.order.list this.idUsers)
          (Protocol.serialize (.echoResponse (textMessage request)))) := by
  have hstored := WrapperPg.run_addMsgHistory (s := t.db) hcoherent.faults this.id
    (textMessage request)
  rw [serve, handle, sendText, Prog.run_bind_ok hrun, Channel.run_write _ w hthis,
    Server.run_inDb_ok (by simpa using hstored)]
  rfl

end Found

/-! ### What they may do -/

theorem served_getHistory (h : s.Coherent) (w : World) (request : HistoryRequest) :
    Served ⟨w, .getHistory request⟩ s
      (serve WrapperPg.database s ⟨w, .getHistory request⟩) := by
  by_cases hne : request.channelName = ""
  -- the constructor throws after the name is entered
  · exact served_empty h (congrArg some hne) (by rw [handle, getHistory, hne])
  obtain ⟨p, this, t, hrun, hcoherent, henters, hid, -, hthis, hthisName, hmembers⟩ :=
    exists_channel h hne
  rw [serve_getHistory w request hrun hcoherent hthis]
  refine .of_enters rfl henters (hcoherent.log w _) rfl rfl rfl ?_
  intro x hx m hm
  obtain ⟨⟨messages, hresponse⟩, hmember, hlive⟩ := Channel.mem_historyFor hx
  obtain rfl : request.channelName = m := by
    simpa [hresponse, Response.messageChannel, hthisName] using hm
  -- finding the channel has changed neither users nor members
  have hsame : s.liveSession w request.clientId = t.liveSession w request.clientId :=
    (Server.liveSession_congr henters.idClients w _).symm
  have hsub := (hmembers _).mp hmember
  rw [henters.subscriptions] at hsub
  exact ⟨hid, henters.subscriptions, request.clientId, hsub, hsame.trans hlive⟩

theorem served_joinRoom (h : s.Coherent) (w : World) (request : JoinRoomRequest) :
    Served ⟨w, .joinRoom request⟩ s
      (serve WrapperPg.database s ⟨w, .joinRoom request⟩) := by
  by_cases hne : request.channelName = ""
  · exact served_empty h (congrArg some hne) (by rw [handle, joinRoom, hne])
  obtain ⟨p, this, t, hrun, hcoherent, henters, -, hp, hthis, -, -⟩ := exists_channel h hne
  cases huser : t.idClients request.clientId with
  | none =>
    rw [serve_joinRoom_unknown w request hrun huser]
    exact .of_enters rfl henters hcoherent rfl rfl (List.append_nil _).symm (by simp)
  | some user =>
    rw [serve_joinRoom_known w request hrun hcoherent hthis huser]
    refine .of_enters rfl henters ((hcoherent.join hp hthis request.clientId).log w _) ?_ rfl
      rfl ?_
    · exact Database.subscribe_channels _ _
    · intro x hx m hm
      exact absurd hm (by simp [Channel.response_of_mem_welcome hx, Response.messageChannel])

theorem served_sendText (h : s.Coherent) (w : World) (request : TextRequest) :
    Served ⟨w, .sendText request⟩ s
      (serve WrapperPg.database s ⟨w, .sendText request⟩) := by
  by_cases hne : request.channelName = ""
  · exact served_empty h (congrArg some hne) (by rw [handle, sendText, hne])
  obtain ⟨p, this, t, hrun, hcoherent, henters, hid, -, hthis, -, hmembers⟩ :=
    exists_channel h hne
  rw [serve_sendText w request hrun hcoherent hthis]
  have hchannels := t.db.db.store_channels (textMessage request)
  have hsubs := t.db.db.store_subscriptions (textMessage request)
  refine .of_enters rfl henters ((hcoherent.withDb hchannels hsubs).log w _) hchannels rfl rfl ?_
  intro x hx m hm
  obtain ⟨hresponse, i, hi, hlive⟩ := Channel.mem_handed hx
  obtain rfl : request.channelName = m := by
    simpa [hresponse, Response.messageChannel, textMessage] using hm
  -- the loop goes over the members, who are the subscribers of the tables
  have hmember := (hmembers i).mp ((w.order.mem_list _ i).mp hi)
  rw [henters.subscriptions] at hmember
  have hsame : s.liveSession w i = t.liveSession w i :=
    (Server.liveSession_congr henters.idClients w i).symm
  have hkeep := congrArg (·.firstId fun n => n = request.channelName) hchannels
  refine ⟨?_, hsubs.trans henters.subscriptions, i, ?_, hsame.trans hlive⟩
  · rw [Server.log_db, Database.channelId, hkeep]
    exact hid
  · rw [Server.log_db, Database.channelId, hkeep]
    exact hmember

/-! ## Requests that name no channel -/

/-- The write of `reply`, to a session that is still there. -/
def replies (w : World) (session : SessionId) (response : Response) : List Write :=
  if w.alive session then [⟨session, response, Protocol.serialize response⟩] else []

theorem response_of_mem_replies {w : World} {session : SessionId} {response : Response} {x : Write}
    (hx : x ∈ replies w session response) : x.response = response := by
  unfold replies at hx
  split at hx
  · rw [List.mem_singleton.mp hx]
  · exact absurd hx List.not_mem_nil

theorem run_reply {δ : Type} (w : World) (session : SessionId) (response : Response)
    (s : Server δ) :
    (reply w session response).run s = (.ok ⟨⟩, s.log w (replies w session response)) := by
  by_cases halive : w.alive session = true
  · rw [reply, replies, if_pos halive, if_pos halive,
      Prog.run_bind_ok (ClientSession.run_write _ _ _ _ _)]
    rfl
  · rw [reply, replies, if_neg halive, if_neg halive, Server.log_nil]
    rfl

omit [Protocol] in
/-- The users after a login under the id `data.id`. -/
theorem users_push {e : Event} (data : User) {user : User} (hsession : user.session = data.session)
    (hbinds : ∀ i session,
      s.db.db.Binds i session e.call ↔ i = data.id ∧ session = data.session) (i : UserId) :
    (Function.update s.idClients data.id (some user) i = s.idClients i ∧
        ∀ session, ¬ s.db.db.Binds i session e.call) ∨
      ∃ known, Function.update s.idClients data.id (some user) i = some known ∧
        s.db.db.Binds i known.session e.call := by
  by_cases hi : i = data.id
  · right
    refine ⟨user, by rw [hi, Function.update_self], ?_⟩
    exact (hbinds i user.session).mpr ⟨hi, hsession⟩
  · left
    refine ⟨Function.update_of_ne hi _ _, ?_⟩
    intro session hbind
    exact hi ((hbinds i session).mp hbind).1

/-- The users after a login that the database has answered with the id of `data`. Zero is the answer
of one that fails. -/
def usersAfter {δ : Type} (s : Server δ) (data : User) : UserId → Option User :=
  if data.id = 0 then s.idClients
  else
    Function.update s.idClients data.id (some (UserManager.pushed (s.idClients data.id) data))

theorem run_reg {δ : Type} (db : IDatabase δ) (w : World) (session : SessionId)
    (request : RegistrationRequest) {s : Server δ} {i : UserId} {d : δ}
    (hcheck : (db.checkRegUser ⟨request.login, request.password⟩).run s.db = (.ok i, d)) :
    (reg db w session request).run s = (.ok ⟨⟩, Server.log
      { s with db := d, idClients := usersAfter s ⟨session, request.login, request.password, i⟩ }
      w (replies w session (.registrationResponse i))) := by
  rw [reg, UserManager.checkRegUser, Prog.run_bind_ok (Server.run_inDb_ok hcheck)]
  by_cases hi : i = 0
  · subst hi
    exact run_reply w session _ _
  · rw [if_pos hi, Prog.run_bind_ok (UserManager.run_push _ _), run_reply, usersAfter, if_neg hi]

theorem run_auth {δ : Type} (db : IDatabase δ) (w : World) (session : SessionId)
    (request : AuthorisationRequest) {s : Server δ} {i : UserId} {d : δ}
    (hcheck : (db.checkAuthUser ⟨request.login, request.password⟩).run s.db = (.ok i, d)) :
    (auth db w session request).run s = (.ok ⟨⟩, Server.log
      { s with db := d, idClients := usersAfter s ⟨session, request.login, request.password, i⟩ }
      w (replies w session (.authorisationResponse i))) := by
  rw [auth, UserManager.checkAuthUser, Prog.run_bind_ok (Server.run_inDb_ok hcheck)]
  by_cases hi : i = 0
  · subst hi
    exact run_reply w session _ _
  · rw [if_pos hi, Prog.run_bind_ok (UserManager.run_push _ _), run_reply, usersAfter, if_neg hi]

/-- A free login is entered, and the user under the next id bound to the session. -/
theorem serve_reg_free (faults : s.db.faults = []) (w : World) (session : SessionId)
    (request : RegistrationRequest) (hfree : s.db.db.clientId request.login = 0) :
    serve WrapperPg.database s ⟨w, .reg session request⟩ =
      Server.log { s with
        db := { s.db with db := s.db.db.insertClient ⟨request.login, request.password⟩ }
        idClients := Function.update s.idClients s.db.db.clients.next
          (some (UserManager.pushed (s.idClients s.db.db.clients.next)
            ⟨session, request.login, request.password, s.db.db.clients.next⟩)) } w
        (replies w session (.registrationResponse s.db.db.clients.next)) := by
  have hcheck := WrapperPg.run_checkRegUser_free faults ⟨request.login, request.password⟩ hfree
  rw [serve, handle, run_reg _ w session request hcheck, usersAfter,
    if_neg (Nat.ne_of_gt s.db.db.clients.next_pos)]

theorem serve_reg_busy (faults : s.db.faults = []) (w : World) (session : SessionId)
    (request : RegistrationRequest) (hbusy : s.db.db.clientId request.login ≠ 0) :
    serve WrapperPg.database s ⟨w, .reg session request⟩ =
      s.log w (replies w session (.registrationResponse 0)) := by
  have hcheck := WrapperPg.run_checkRegUser_busy faults ⟨request.login, request.password⟩ hbusy
  rw [serve, handle, run_reg _ w session request hcheck]
  rfl

theorem served_reg (h : s.Coherent) (w : World) (session : SessionId)
    (request : RegistrationRequest) :
    Served ⟨w, .reg session request⟩ s
      (serve WrapperPg.database s ⟨w, .reg session request⟩) := by
  by_cases hfree : s.db.db.clientId request.login = 0
  · have hid := UserManager.pushed_id
      ⟨session, request.login, request.password, s.db.db.clients.next⟩ (h.keyed _)
    -- the new row is in `clients`, the new user under its id
    have hcoherent := (h.withDb (d := s.db.db.insertClient ⟨request.login, request.password⟩)
      rfl rfl).withUser (UserManager.pushed (s.idClients s.db.db.clients.next)
        ⟨session, request.login, request.password, s.db.db.clients.next⟩)
    rw [serve_reg_free h.faults w session request hfree]
    refine .of_reply rfl (Server.Coherent.log ?_ w _) rfl ?_ rfl ?_
    · rwa [hid] at hcoherent
    · refine users_push ⟨session, request.login, request.password, _⟩
        (UserManager.pushed_session _ _) ?_
      intro i session'
      simp only [Database.Binds, hfree, true_and]
      tauto
    · intro x hx
      rw [response_of_mem_replies hx]
      rfl
  · rw [serve_reg_busy h.faults w session request hfree]
    refine .of_reply rfl (h.log w _) rfl ?_ rfl ?_
    · intro i
      exact Or.inl ⟨rfl, fun session' hbind => hfree hbind.2.1⟩
    · intro x hx
      rw [response_of_mem_replies hx]
      rfl

/-- A login with its password binds the user under its id to the session. -/
theorem serve_auth (w : World) (session : SessionId) (request : AuthorisationRequest) {k : UserId}
    (hcheck : (WrapperPg.connected.checkAuthUser ⟨request.login, request.password⟩).run s.db =
      (.ok k, s.db)) (hk : k ≠ 0) :
    serve WrapperPg.database s ⟨w, .auth session request⟩ =
      Server.log { s with
        idClients := Function.update s.idClients k (some (UserManager.pushed (s.idClients k)
          ⟨session, request.login, request.password, k⟩)) } w
        (replies w session (.authorisationResponse k)) := by
  rw [serve, handle, run_auth _ w session request hcheck, usersAfter, if_neg hk]

theorem serve_auth_refused (w : World) (session : SessionId) (request : AuthorisationRequest)
    (hcheck : (WrapperPg.connected.checkAuthUser ⟨request.login, request.password⟩).run s.db =
      (.ok 0, s.db)) :
    serve WrapperPg.database s ⟨w, .auth session request⟩ =
      s.log w (replies w session (.authorisationResponse 0)) := by
  rw [serve, handle, run_auth _ w session request hcheck]
  rfl

theorem served_auth (h : s.Coherent) (w : World) (session : SessionId)
    (request : AuthorisationRequest) :
    Served ⟨w, .auth session request⟩ s
      (serve WrapperPg.database s ⟨w, .auth session request⟩) := by
  obtain ⟨k, hcheck, hk⟩ :=
    WrapperPg.run_checkAuthUser_spec h.faults ⟨request.login, request.password⟩
  -- zero stands for a login or password that is wrong
  by_cases hzero : k = 0
  · subst hzero
    rw [serve_auth_refused w session request hcheck]
    refine .of_reply rfl (h.log w _) rfl ?_ rfl ?_
    · intro i
      refine Or.inl ⟨rfl, ?_⟩
      rintro session' ⟨-, hlogin⟩
      exact ((hk i).mpr hlogin).1 rfl
    · intro x hx
      rw [response_of_mem_replies hx]
      rfl
  · have hid := UserManager.pushed_id
      ⟨session, request.login, request.password, k⟩ (h.keyed k)
    have hcoherent := h.withUser (UserManager.pushed (s.idClients k)
      ⟨session, request.login, request.password, k⟩)
    rw [serve_auth w session request hcheck hzero]
    refine .of_reply rfl (Server.Coherent.log ?_ w _) rfl ?_ rfl ?_
    · rwa [hid] at hcoherent
    · refine users_push ⟨session, request.login, request.password, k⟩
        (UserManager.pushed_session _ _) ?_
      intro i session'
      constructor
      · rintro ⟨rfl, hlogin⟩
        exact ⟨((hk i).mpr hlogin).2.symm, rfl⟩
      · rintro ⟨rfl, rfl⟩
        exact ⟨rfl, (hk _).mp ⟨hzero, rfl⟩⟩
    · intro x hx
      rw [response_of_mem_replies hx]
      rfl

/-- The write of `getChannels`: the channel names that the tables give, for a client online. -/
def channelsFor (s : Server Postgres) (w : World) (i : UserId) : List Write :=
  let channels :=
    ((s.db.db.history.filter fun row => row.clientId = i).map HistoryRow.channelName).dedup
  match s.liveSession w i with
  | some session =>
    [⟨session, .channelsResponse channels, Protocol.serialize (.channelsResponse channels)⟩]
  | none => []

theorem serve_getChannels (h : s.Coherent) (w : World) (request : ChannelsRequest) :
    serve WrapperPg.database s ⟨w, .getChannels request⟩ =
      s.log w (channelsFor s w request.clientId) := by
  rw [serve, handle, getChannels, channelsFor]
  cases huser : s.idClients request.clientId with
  | none =>
    -- the log line about an unknown client throws
    have hlive : s.liveSession w request.clientId = none := by simp [Server.liveSession, huser]
    rw [Prog.run_bind_ok (t := s) (a := none) (by simp [UserManager.getUser, huser]), hlive,
      Server.log_nil]
    simp only []
    rw [logFormat_of_lt (by decide)]
    rfl
  | some client =>
    rw [Prog.run_bind_ok (t := s) (a := some client) (by simp [UserManager.getUser, huser])]
    by_cases halive : w.alive client.session = true
    · have hlive : s.liveSession w request.clientId = some client.session := by
        simp [Server.liveSession, huser, halive]
      have hchannels := Server.run_inDb_ok
        (WrapperPg.run_getUserNameChannels h.faults request.clientId)
      simp only [if_pos halive, ChannelsManager.getUserNameChannels, hlive]
      rw [Prog.run_bind_ok hchannels, Prog.run_bind_ok (ClientSession.run_write _ _ _ _ _)]
      rfl
    -- the session of the client is gone
    · have hlive : s.liveSession w request.clientId = none := by
        simp [Server.liveSession, huser, halive]
      simp only [if_neg halive, hlive, Server.log_nil]
      rfl

theorem served_getChannels (h : s.Coherent) (w : World) (request : ChannelsRequest) :
    Served ⟨w, .getChannels request⟩ s
      (serve WrapperPg.database s ⟨w, .getChannels request⟩) := by
  rw [serve_getChannels h]
  refine .of_reply rfl (h.log w _) rfl (fun i => Or.inl ⟨rfl, fun _ => id⟩) rfl ?_
  intro x hx
  unfold channelsFor at hx
  cases hlive : s.liveSession w request.clientId with
  | none => simp [hlive] at hx
  | some session =>
    obtain rfl : x = _ := by simpa [hlive] using hx
    rfl

end QueryEngine

/-- What any request may do to a coherent server. -/
theorem served (h : s.Coherent) (e : Event) : Served e s (serve WrapperPg.database s e) := by
  obtain ⟨w, call⟩ := e
  cases call with
  | reg session request => exact QueryEngine.served_reg h w session request
  | auth session request => exact QueryEngine.served_auth h w session request
  | getHistory request => exact QueryEngine.served_getHistory h w request
  | getChannels request => exact QueryEngine.served_getChannels h w request
  | joinRoom request => exact QueryEngine.served_joinRoom h w request
  | sendText request => exact QueryEngine.served_sendText h w request

end Requests

end GatewayServer
