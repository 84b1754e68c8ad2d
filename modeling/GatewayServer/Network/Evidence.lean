import GatewayServer.Database.RowRules
import GatewayServer.Network.ProcessRequest

/-!
# What the server may go by

All that a server knows comes from the frames that came over its sessions, and from those that came
before it was started, which have left the tables that it found. Every row that it stores, every
user and channel that it holds, and every message that it writes to a session is accounted for by
these. Who has logged in is forgotten at the end of a life, so that only its own frames say it.

## Main definitions

* `Database.Referenced` — the references between the tables that the schema does not enforce
* `Evidence` — the frames that came, and what a life has begun with
* `Evidence.LoggedIn` — somebody has registered or authenticated over a session
* `Evidence.Joined`, `Evidence.Sent` — what the frames say of clients and messages
* `Evidence.Warranted` — why a response may be written to a session
* `Evidence.Sound` — everything that the server holds is accounted for
* `Evidence.contract` — the server stays sound, and does not forget

## Main results

* `Sound.inDb`, `Sound.log`, … — the kinds of steps that keep it so
-/

namespace GatewayServer

open Lib

/-- Subscriptions are of clients, and messages are under names of channels. The subscription of a
client whose channel was not found has zero in its place. -/
structure Database.Referenced (db : Database) : Prop where
  client : ∀ sub ∈ db.subscriptions, ∃ login, db.Registered sub.clientId login
  channel : ∀ sub ∈ db.subscriptions, sub.channelId ≠ 0 → ∃ n, db.Named sub.channelId n
  name : ∀ row ∈ db.history, row.channelName ≠ "" ∧ ∃ k, db.Named k row.channelName

/-- The frames that came, and what a life of the server has begun with. -/
structure Evidence where
  /-- The tables that the life began with. -/
  tables : Database
  /-- The frames of the lives before it. -/
  earlier : Arrival → Prop
  /-- The frames of the life itself. -/
  came : Arrival → Prop
  /-- Some query of the life may fail. -/
  failing : Prop

namespace Evidence

variable (ev : Evidence) (db : Database)

/-- A frame of the life asked for a call. -/
def Asked (call : Call) : Prop := ∃ a, ev.came a ∧ a.call = some call

/-- A frame of the life asked for a call, or a frame of one before it. -/
def EverAsked (call : Call) : Prop := ∃ a, (ev.earlier a ∨ ev.came a) ∧ a.call = some call

/-- A registration that got an id: the id is one of the login. Unless a query has failed, nobody had
the login when the life began, and a row has it with the password. -/
def Registers (i : UserId) (request : RegistrationRequest) : Prop :=
  db.Registered i request.login ∧
    (ev.failing ∨ ev.tables.clientId request.login = 0 ∧
      ∃ j, db.HasClient j request.login request.password)

/-- In this life somebody registered over the session and got the id, or authenticated over it with
the login and the password of the client. -/
def LoggedIn (session : SessionId) (i : UserId) : Prop :=
  (∃ request, ev.Asked (.reg session request) ∧ ev.Registers db i request) ∨
    ∃ request, ev.Asked (.auth session request) ∧ db.HasClient i request.login request.password

/-- A frame asked to let the client join the channel. -/
def Joined (i : UserId) (n : String) : Prop := ev.EverAsked (.joinRoom ⟨i, n⟩)

/-- A frame sent the message under the login of the client. -/
def Sent (row : HistoryRow) : Prop :=
  ∃ request, ev.EverAsked (.sendText request) ∧ db.Registered row.clientId request.login ∧
    row = ⟨row.clientId, request.channelName, timestampText request.datetime, request.text⟩

/-- What the rows of `subscriptions` and `history` are. -/
def rules : RowRules where
  taken login := ev.tables.clientId login ≠ 0
  failing := ev.failing
  subscription db sub :=
    (∃ login, db.Registered sub.clientId login) ∧
      (∃ n, ev.Joined sub.clientId n ∧ (sub.channelId ≠ 0 → db.Named sub.channelId n)) ∧
      (sub.channelId ≠ 0 → ∃ n, db.Named sub.channelId n)
  history db row :=
    (row.channelName ≠ "" ∧ ∃ k, db.Named k row.channelName) ∧ ev.Sent db row
  subscription_later := by
    rintro db db' sub hlater ⟨⟨login, hlogin⟩, ⟨n, hjoined, hnamed⟩, hchannel⟩
    refine ⟨⟨login, hlogin.later hlater⟩, ⟨n, hjoined, fun hne => ?_⟩, fun hne => ?_⟩
    · exact (hnamed hne).later hlater
    · obtain ⟨n, hn⟩ := hchannel hne
      exact ⟨n, hn.later hlater⟩
  history_later := by
    rintro db db' row hlater ⟨⟨hne, k, hk⟩, request, hasked, hregistered, hrow⟩
    exact ⟨⟨hne, k, hk.later hlater⟩, request, hasked, hregistered.later hlater, hrow⟩

variable [Protocol]

/-- Why a response may be written to a session. -/
inductive Warranted (session : SessionId) : Response → Prop where
  /-- The answer to a registration that came over the session. -/
  | registration (request : RegistrationRequest) (i : UserId)
    (asked : ev.Asked (.reg session request)) (id : i ≠ 0 → ev.Registers db i request) :
    Warranted session (.registrationResponse i)
  /-- The answer to an authentication that came over the session. -/
  | authorisation (request : AuthorisationRequest) (i : UserId)
    (asked : ev.Asked (.auth session request))
    (id : i ≠ 0 → db.HasClient i request.login request.password) :
    Warranted session (.authorisationResponse i)
  /-- The answer to a frame of the session whose body does not carry what its header announces. -/
  | mismatch (a : Arrival) (response : Response) (came : ev.came a)
    (same : a.session = session) (call : a.call = none) (answer : a.answer = some response) :
    Warranted session response
  /-- The channels that a client has sent messages to. -/
  | channels (i : UserId) (names : List String) (login : ev.LoggedIn db session i)
    (asked : ev.Asked (.getChannels ⟨i⟩))
    (written : ∀ n ∈ names, ∃ row ∈ db.history, row.clientId = i ∧ row.channelName = n) :
    Warranted session (.channelsResponse names)
  /-- A client has joined a channel. -/
  | joined (i : UserId) (n : String) (login : ev.LoggedIn db session i)
    (asked : ev.Asked (.joinRoom ⟨i, n⟩)) : Warranted session (.joinRoomResponse n true)
  /-- A message that was sent to a channel, for a member of it. -/
  | echo (i : UserId) (request : TextRequest) (login : ev.LoggedIn db session i)
    (member : ev.Joined i request.channelName) (asked : ev.Asked (.sendText request)) :
    Warranted session (.echoResponse (QueryEngine.textMessage request))
  /-- The stored messages of a channel, for a member of it. -/
  | history (i : UserId) (n : String) (since : DateTime) (messages : List ClientTextMsg)
    (login : ev.LoggedIn db session i) (member : ev.Joined i n)
    (asked : ev.Asked (.getHistory ⟨i, n, since⟩))
    (sent : ∀ m ∈ messages, ∃ row ∈ db.history, ∃ author, ev.Sent db row ∧
      m = WrapperPg.rowMessage n row author ∧ row.channelName = n ∧
        (author ≠ "" → db.Registered row.clientId author)) :
    Warranted session (.historyResponse n messages)

variable {ev} {db} {db' : Database} {session : SessionId} {i : UserId} {n : String}

/-! ## Later tables -/

omit [Protocol] in
theorem Registers.later {request : RegistrationRequest} (h : ev.Registers db i request)
    (hlater : db.Precedes db') : ev.Registers db' i request := by
  obtain ⟨hregistered, hrow⟩ := h
  refine ⟨hregistered.later hlater, hrow.imp_right ?_⟩
  rintro ⟨hfree, j, hj⟩
  exact ⟨hfree, j, hj.later hlater⟩

omit [Protocol] in
theorem LoggedIn.later (h : ev.LoggedIn db session i) (hlater : db.Precedes db') :
    ev.LoggedIn db' session i := by
  rcases h with ⟨request, hasked, hregisters⟩ | ⟨request, hasked, hclient⟩
  · exact Or.inl ⟨request, hasked, hregisters.later hlater⟩
  · exact Or.inr ⟨request, hasked, hclient.later hlater⟩

omit [Protocol] in
theorem Sent.later {row : HistoryRow} (h : ev.Sent db row) (hlater : db.Precedes db') :
    ev.Sent db' row := by
  obtain ⟨request, hasked, hregistered, hrow⟩ := h
  exact ⟨request, hasked, hregistered.later hlater, hrow⟩

theorem Warranted.later {response : Response} (h : ev.Warranted db session response)
    (hlater : db.Precedes db') : ev.Warranted db' session response := by
  cases h with
  | registration request i asked id =>
    exact .registration request i asked fun h => (id h).later hlater
  | authorisation request i asked id =>
    exact .authorisation request i asked fun h => (id h).later hlater
  | mismatch a _ came same call answer => exact .mismatch a _ came same call answer
  | channels i names login asked written =>
    refine .channels i names (login.later hlater) asked fun n hn => ?_
    obtain ⟨row, hrow, hsame⟩ := written n hn
    exact ⟨row, hlater.history.mem hrow, hsame⟩
  | joined i n login asked => exact .joined i n (login.later hlater) asked
  | echo i request login member asked =>
    exact .echo i request (login.later hlater) member asked
  | history i n since messages login member asked sent =>
    refine .history i n since messages (login.later hlater) member asked ?_
    intro m hm
    obtain ⟨row, hrow, author, horigin, hmessage, hname, hauthor⟩ := sent m hm
    exact ⟨row, hlater.history.mem hrow, author, horigin.later hlater, hmessage, hname,
      fun hne => (hauthor hne).later hlater⟩

/-! ## The server -/

variable (ev) (db)

omit [Protocol] in
/-- A channel has a name of the tables, and its members are clients that joined it. -/
structure Founded (c : Channel) : Prop where
  name : c.name ≠ ""
  named : db.Named c.id c.name
  member : ∀ i ∈ c.idUsers, (∃ login, db.Registered i login) ∧ ev.Joined i c.name

omit [Protocol] in
/-- A user stands under an id of the tables, and is bound to a session that has logged in with
it. -/
structure Entitled (i : UserId) (user : User) : Prop where
  id : user.id = i
  registered : db.Registered i user.login
  login : ev.LoggedIn db user.session i

/-- What a session is given is the message of the response. A vector that was moved from is
empty. -/
def Carries (x : Write) : Prop :=
  x.payload = Protocol.serialize x.response ∨ x.payload = [] ∧ ∃ m, x.response = .echoResponse m

/-- Everything that the server holds is accounted for. -/
structure Sound (s : Server Postgres) : Prop where
  tables : ev.rules.Inv s.db
  user : ∀ i user, s.idClients i = some user → ev.Entitled s.db.db i user
  object : ∀ c ∈ s.objects, ev.Founded s.db.db c
  registry : ∀ k p, s.idChannels k = some p → ∃ c, s.objects[p]? = some c ∧ c.id = k
  written : ∀ x ∈ s.written, ev.Warranted s.db.db x.session x.response ∧ Carries x
  queued : ∀ task ∈ s.queueTasks,
    ∃ x ∈ s.written, x.session = task.session ∧ x.payload = task.message

variable {ev} {db}

omit [Protocol] in
theorem Founded.later {c : Channel} (h : ev.Founded db c) (hlater : db.Precedes db') :
    ev.Founded db' c := by
  refine ⟨h.name, h.named.later hlater, fun i hi => ?_⟩
  obtain ⟨⟨login, hregistered⟩, hjoined⟩ := h.member i hi
  exact ⟨⟨login, hregistered.later hlater⟩, hjoined⟩

omit [Protocol] in
theorem Entitled.later {user : User} (h : ev.Entitled db i user) (hlater : db.Precedes db') :
    ev.Entitled db' i user :=
  ⟨h.id, h.registered.later hlater, h.login.later hlater⟩

end Evidence

/-- What a server does not forget: rows, the logins of users, the ids and names of channels, what
was written, and what was pushed to the queue. -/
structure Server.Precedes (s t : Server Postgres) : Prop where
  tables : s.db.db.Precedes t.db.db
  user : ∀ i user, s.idClients i = some user →
    ∃ user', t.idClients i = some user' ∧ user'.id = user.id ∧ user'.login = user.login
  object : ∀ (p : ChannelPtr) c, s.objects[p]? = some c →
    ∃ c', t.objects[p]? = some c' ∧ c'.id = c.id ∧ c'.name = c.name
  registry : ∀ k, (s.idChannels k).isSome → (t.idChannels k).isSome
  written : s.written <+: t.written
  queued : s.queueTasks <+: t.queueTasks

namespace Server.Precedes

variable {s t u : Server Postgres}

/-- A step that keeps the users and the channels. -/
theorem of_same (htables : s.db.db.Precedes t.db.db) (husers : t.idClients = s.idClients)
    (hobjects : t.objects = s.objects) (hchannels : t.idChannels = s.idChannels)
    (hwritten : s.written <+: t.written) (hqueued : s.queueTasks <+: t.queueTasks) :
    s.Precedes t where
  tables := htables
  user i user hi := ⟨user, by rw [husers, hi], rfl, rfl⟩
  object p c hp := ⟨c, by rw [hobjects, hp], rfl, rfl⟩
  registry k hk := by rwa [hchannels]
  written := hwritten
  queued := hqueued

theorem refl (s : Server Postgres) : s.Precedes s :=
  .of_same (.refl _) rfl rfl rfl (List.prefix_refl _) (List.prefix_refl _)

theorem trans (hst : s.Precedes t) (htu : t.Precedes u) : s.Precedes u where
  tables := hst.tables.trans htu.tables
  user i user hi := by
    obtain ⟨user', hi', hid, hlogin⟩ := hst.user i user hi
    obtain ⟨user'', hi'', hid', hlogin'⟩ := htu.user i user' hi'
    exact ⟨user'', hi'', hid'.trans hid, hlogin'.trans hlogin⟩
  object p c hp := by
    obtain ⟨c', hp', hid, hname⟩ := hst.object p c hp
    obtain ⟨c'', hp'', hid', hname'⟩ := htu.object p c' hp'
    exact ⟨c'', hp'', hid'.trans hid, hname'.trans hname⟩
  registry k hk := htu.registry k (hst.registry k hk)
  written := hst.written.trans htu.written
  queued := hst.queued.trans htu.queued

end Server.Precedes

namespace Evidence

variable [Protocol] {ev : Evidence} {s : Server Postgres}

omit [Protocol] in
/-- What is asked for now has been asked for. -/
theorem Asked.ever {call : Call} (h : ev.Asked call) : ev.EverAsked call := by
  obtain ⟨a, ha, hcall⟩ := h
  exact ⟨a, Or.inr ha, hcall⟩

/-- The server stays sound, and does not forget. -/
def contract (ev : Evidence) : Contract (Server Postgres) where
  inv := ev.Sound
  rel := Server.Precedes
  refl := .refl
  trans _ _ _ := .trans

namespace Sound

variable (h : ev.Sound s)
include h

theorem inDb {d : Postgres} (hd : ev.rules.contract.Allows s.db d) :
    ev.contract.Allows s { s with db := d } := by
  have hlater : s.db.db.Precedes d.db := hd.rel
  refine ⟨⟨hd.inv, ?_, ?_, h.registry, ?_, h.queued⟩,
    .of_same hlater rfl rfl rfl (List.prefix_refl _) (List.prefix_refl _)⟩
  · intro i user hi
    exact (h.user i user hi).later hlater
  · intro c hc
    exact (h.object c hc).later hlater
  · intro x hx
    obtain ⟨hwarranted, hcarries⟩ := h.written x hx
    exact ⟨hwarranted.later hlater, hcarries⟩

/-- A known user keeps its login, which is the one of the id. -/
theorem push {data : User} (hregistered : s.db.db.Registered data.id data.login)
    (hlogin : ev.LoggedIn s.db.db data.session data.id) :
    ev.contract.Allows s ((UserManager.push data).run s).2 := by
  rw [UserManager.run_push]
  refine ⟨⟨h.tables, ?_, h.object, h.registry, h.written, h.queued⟩, ?_⟩
  · intro i user hi
    dsimp only at hi
    by_cases hdata : i = data.id
    · subst hdata
      rw [Function.update_self] at hi
      obtain rfl := Option.some.inj hi
      -- a user that is known keeps its login, and gets the session
      cases hknown : s.idClients data.id with
      | none => exact ⟨rfl, hregistered, hlogin⟩
      | some known =>
        have hentitled := h.user _ known hknown
        exact ⟨hentitled.id, hentitled.registered, hlogin⟩
    · rw [Function.update_of_ne hdata] at hi
      exact h.user i user hi
  · refine ⟨.refl _, fun i user hi => ?_, fun p c hp => ⟨c, hp, rfl, rfl⟩, fun _ => id,
      List.prefix_refl _, List.prefix_refl _⟩
    by_cases hdata : i = data.id
    · subst hdata
      exact ⟨_, Function.update_self .., by rw [hi]; rfl, by rw [hi]; rfl⟩
    · exact ⟨user, (Function.update_of_ne hdata ..).trans hi, rfl, rfl⟩

theorem write {x : Write} (hwarranted : ev.Warranted s.db.db x.session x.response)
    (hcarries : Carries x) :
    ev.contract.Allows s { s with written := s.written ++ [x] } := by
  refine ⟨⟨h.tables, h.user, h.object, h.registry, ?_, ?_⟩,
    .of_same (.refl _) rfl rfl rfl (List.prefix_append _ _) (List.prefix_refl _)⟩
  · intro x' hx'
    rcases List.mem_append.mp hx' with hx' | hx'
    · exact h.written x' hx'
    · rw [List.mem_singleton.mp hx']
      exact ⟨hwarranted, hcarries⟩
  · intro task htask
    obtain ⟨x', hx', hsame⟩ := h.queued task htask
    exact ⟨x', List.mem_append_left _ hx', hsame⟩

theorem queue {x : Write} (hx : x ∈ s.written) :
    ev.contract.Allows s
      { s with queueTasks := s.queueTasks ++ [⟨x.session, x.payload⟩] } := by
  refine ⟨⟨h.tables, h.user, h.object, h.registry, h.written, ?_⟩,
    .of_same (.refl _) rfl rfl rfl (List.prefix_refl _) (List.prefix_append _ _)⟩
  intro task htask
  rcases List.mem_append.mp htask with htask | htask
  · exact h.queued task htask
  · rw [List.mem_singleton.mp htask]
    exact ⟨x, hx, rfl, rfl⟩

/-- A channel is changed, but not its id and its name. -/
theorem setChannel {p : ChannelPtr} {c c' : Channel} (hp : s.objects[p]? = some c)
    (hid : c'.id = c.id) (hname : c'.name = c.name) (hc' : ev.Founded s.db.db c') :
    ev.contract.Allows s { s with objects := s.objects.set p c' } := by
  have hobject (p' : ChannelPtr) (d : Channel) (hd : s.objects[p']? = some d) :
      ∃ d', (s.objects.set p c')[p']? = some d' ∧ d'.id = d.id ∧ d'.name = d.name := by
    by_cases hne : p = p'
    · subst hne
      obtain rfl : c = d := Option.some.inj (hp.symm.trans hd)
      refine ⟨c', ?_, hid, hname⟩
      rw [List.getElem?_set_self', hp]
      rfl
    · exact ⟨d, by rw [List.getElem?_set_ne hne, hd], rfl, rfl⟩
  refine ⟨⟨h.tables, h.user, fun d hd => ?_, fun k p' hk => ?_, h.written, h.queued⟩,
    ⟨.refl _, fun i user hi => ⟨user, hi, rfl, rfl⟩, hobject, fun _ => id, List.prefix_refl _,
      List.prefix_refl _⟩⟩
  · rcases List.mem_or_eq_of_mem_set hd with hd | rfl
    · exact h.object d hd
    · exact hc'
  · obtain ⟨d, hd, rfl⟩ := h.registry k p' hk
    obtain ⟨d', hd', hsame, -⟩ := hobject p' d hd
    exact ⟨d', hd', hsame⟩

theorem newChannel {c : Channel} (hc : ev.Founded s.db.db c) :
    ev.contract.Allows s { s with objects := s.objects ++ [c] } := by
  have hobject (p : ChannelPtr) (d : Channel) (hd : s.objects[p]? = some d) :
      (s.objects ++ [c])[p]? = some d := by
    obtain ⟨hlt, -⟩ := List.getElem?_eq_some_iff.mp hd
    rw [List.getElem?_append_left hlt, hd]
  refine ⟨⟨h.tables, h.user, fun d hd => ?_, fun k p hk => ?_, h.written, h.queued⟩,
    ⟨.refl _, fun i user hi => ⟨user, hi, rfl, rfl⟩, fun p d hd => ⟨d, hobject p d hd, rfl, rfl⟩,
      fun _ => id, List.prefix_refl _, List.prefix_refl _⟩⟩
  · rcases List.mem_append.mp hd with hd | hd
    · exact h.object d hd
    · rw [List.mem_singleton.mp hd]
      exact hc
  · obtain ⟨d, hd, hid⟩ := h.registry k p hk
    exact ⟨d, hobject p d hd, hid⟩

theorem store {k : UserId} {p : ChannelPtr} {c : Channel} (hp : s.objects[p]? = some c)
    (hid : c.id = k) :
    ev.contract.Allows s { s with idChannels := Function.update s.idChannels k (some p) } := by
  refine ⟨⟨h.tables, h.user, h.object, fun k' p' hk' => ?_, h.written, h.queued⟩,
    ⟨.refl _, fun i user hi => ⟨user, hi, rfl, rfl⟩, fun p c hp => ⟨c, hp, rfl, rfl⟩,
      fun k' hk' => ?_, List.prefix_refl _, List.prefix_refl _⟩⟩
  · dsimp only at hk'
    by_cases hne : k' = k
    · rw [hne, Function.update_self] at hk'
      obtain rfl := Option.some.inj hk'
      exact ⟨c, hp, hid.trans hne.symm⟩
    · rw [Function.update_of_ne hne] at hk'
      exact h.registry k' p' hk'
  · by_cases hne : k' = k
    · simp [hne]
    · simpa [Function.update_of_ne hne] using hk'

end Sound

end Evidence

end GatewayServer
