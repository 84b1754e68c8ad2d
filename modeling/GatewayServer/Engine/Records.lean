import GatewayServer.Engine.Restart
import GatewayServer.Lib.Run

/-!
# What requests record

The requests as functions on the tables: which rows each of them leaves behind, as far as the
tables and the known users decide it. Over a run, the history of a client and its subscriptions
are those of the start and those that the requests of the run have recorded.

## Main definitions

* `Server.tablesAfter` — the tables after a request
* `Database.Posts`, `Server.Joins` — a request that stores a message, and one that joins
* `Database.Joined` — a client subscribes to a channel with a name
* `Database.Subscribed` — subscriptions are to channels that are there

## Main results

* `serve_db` — serving a request leaves `tablesAfter`
* `wrote_iff_postedIn`, `joined_iff_joinedIn` — messages and subscriptions after a run
-/

namespace GatewayServer

open Lib

/-- The tables after a request. -/
def Server.tablesAfter (s : Server Postgres) : Call → Database
  | .reg _ request =>
    if s.db.db.clientId request.login = 0 then
      s.db.db.insertClient ⟨request.login, request.password⟩
    else
      s.db.db
  | .auth _ _ => s.db.db
  | .getHistory request => s.db.db.enter request.channelName
  | .getChannels _ => s.db.db
  | .joinRoom request =>
    let db := s.db.db.enter request.channelName
    if request.channelName ≠ "" ∧ (s.idClients request.clientId).isSome then
      db.subscribe ⟨request.clientId, db.channelId request.channelName⟩
    else
      db
  | .sendText request =>
    let db := s.db.db.enter request.channelName
    if request.channelName = "" then db else db.store (QueryEngine.textMessage request)

section Serve

variable [Protocol] {s : Server Postgres}

namespace QueryEngine

/-- The tables after a request with an empty channel name. -/
theorem serve_db_empty (h : s.Coherent) {e : Event}
    {k : ChannelPtr → Prog (Server Postgres) Exn PUnit}
    (hhandle : handle WrapperPg.database e.world e.call =
      ChannelsManager.createOrGetChannelByName WrapperPg.database "" >>= k) :
    (serve WrapperPg.database s e).db = { s.db with db := s.db.db.enter "" } := by
  rw [serve_empty h hhandle]
  exact ChannelsManager.run_createOrGetChannelByName_db h ""

/-- The channel of a name, with the tables in which it was found. -/
theorem exists_channel_db (h : s.Coherent) {n : String} (hne : n ≠ "") :
    ∃ p this t, (ChannelsManager.createOrGetChannelByName WrapperPg.database n).run s =
        (.ok p, t) ∧
      t.Coherent ∧ t.objects[p]? = some this ∧ t.idClients = s.idClients ∧
      t.db = { s.db with db := s.db.db.enter n } := by
  obtain ⟨p, this, t, hrun, hcoherent, henters, -, -, hthis, -⟩ := exists_channel h hne
  have hdb := ChannelsManager.run_createOrGetChannelByName_db h n
  rw [hrun] at hdb
  exact ⟨p, this, t, hrun, hcoherent, hthis, henters.idClients, hdb⟩

theorem serve_db_getHistory (h : s.Coherent) (w : World) (request : HistoryRequest) :
    (serve WrapperPg.database s ⟨w, .getHistory request⟩).db =
      { s.db with db := s.tablesAfter (.getHistory request) } := by
  simp only [Server.tablesAfter]
  by_cases hne : request.channelName = ""
  · rw [hne]
    exact serve_db_empty h (by rw [handle, getHistory, hne])
  · obtain ⟨p, this, t, hrun, hcoherent, hthis, -, hdb⟩ := exists_channel_db h hne
    rw [serve_getHistory w request hrun hcoherent hthis]
    exact hdb

theorem serve_db_joinRoom (h : s.Coherent) (w : World) (request : JoinRoomRequest) :
    (serve WrapperPg.database s ⟨w, .joinRoom request⟩).db =
      { s.db with db := s.tablesAfter (.joinRoom request) } := by
  simp only [Server.tablesAfter]
  by_cases hne : request.channelName = ""
  · simp only [hne, ne_eq, not_true, false_and, if_false]
    exact serve_db_empty h (by rw [handle, joinRoom, hne])
  obtain ⟨p, this, t, hrun, hcoherent, hthis, hclients, hdb⟩ := exists_channel_db h hne
  cases huser : s.idClients request.clientId with
  | none =>
    rw [serve_joinRoom_unknown w request hrun (by rw [hclients, huser]), hdb]
    simp
  | some user =>
    have huser' : t.idClients request.clientId = some user := by rw [hclients, huser]
    rw [serve_joinRoom_known w request hrun hcoherent hthis huser', Server.log_db, hdb]
    simp [hne]

theorem serve_db_sendText (h : s.Coherent) (w : World) (request : TextRequest) :
    (serve WrapperPg.database s ⟨w, .sendText request⟩).db =
      { s.db with db := s.tablesAfter (.sendText request) } := by
  simp only [Server.tablesAfter]
  by_cases hne : request.channelName = ""
  · simp only [hne, if_true]
    exact serve_db_empty h (by rw [handle, sendText, hne])
  · obtain ⟨p, this, t, hrun, hcoherent, hthis, -, hdb⟩ := exists_channel_db h hne
    rw [serve_sendText w request hrun hcoherent hthis, Server.log_db, hdb]
    simp only [hne, if_false]

theorem serve_db_reg (h : s.Coherent) (w : World) (session : SessionId)
    (request : RegistrationRequest) :
    (serve WrapperPg.database s ⟨w, .reg session request⟩).db =
      { s.db with db := s.tablesAfter (.reg session request) } := by
  simp only [Server.tablesAfter]
  by_cases hfree : s.db.db.clientId request.login = 0
  · rw [serve_reg_free h.faults w session request hfree, if_pos hfree]
    rfl
  · rw [serve_reg_busy h.faults w session request hfree, if_neg hfree]
    rfl

theorem serve_db_auth (h : s.Coherent) (w : World) (session : SessionId)
    (request : AuthorisationRequest) :
    (serve WrapperPg.database s ⟨w, .auth session request⟩).db =
      { s.db with db := s.tablesAfter (.auth session request) } := by
  obtain ⟨k, hcheck, -⟩ :=
    WrapperPg.run_checkAuthUser_spec h.faults ⟨request.login, request.password⟩
  by_cases hzero : k = 0
  · subst hzero
    rw [serve_auth_refused w session request hcheck]
    rfl
  · rw [serve_auth w session request hcheck hzero]
    rfl

end QueryEngine

/-- Serving a request leaves the tables that it is said to leave. -/
theorem serve_db (h : s.Coherent) (e : Event) :
    (serve WrapperPg.database s e).db = { s.db with db := s.tablesAfter e.call } := by
  obtain ⟨w, call⟩ := e
  cases call with
  | reg session request => exact QueryEngine.serve_db_reg h w session request
  | auth session request => exact QueryEngine.serve_db_auth h w session request
  | getHistory request => exact QueryEngine.serve_db_getHistory h w request
  | getChannels request =>
    rw [QueryEngine.serve_getChannels h]
    rfl
  | joinRoom request => exact QueryEngine.serve_db_joinRoom h w request
  | sendText request => exact QueryEngine.serve_db_sendText h w request

end Serve

/-! ## Messages and subscriptions -/

namespace Database

variable (db : Database) (i : UserId) (n : String)

/-- The history has a message of a client in the channel of a name. -/
def Wrote : Prop := ∃ row ∈ db.history, row.clientId = i ∧ row.channelName = n

/-- A client subscribes to a channel of a name. -/
def Joined : Prop := ∃ k, ⟨i, k⟩ ∈ db.subscriptions ∧ ⟨k, n⟩ ∈ db.channels.rows

/-- Every subscription is to a channel that is there. -/
def Subscribed : Prop := ∀ sub ∈ db.subscriptions, ∃ r ∈ db.channels.rows, r.id = sub.channelId

/-- A text request with the name of a channel and the login of the client `i`. -/
def Posts : Call → Prop
  | .sendText request => request.channelName = n ∧ n ≠ "" ∧ db.clientId request.login = i ∧ i ≠ 0
  | _ => False

variable {db i n}

theorem Wrote.congr {db' : Database} (h : db'.history = db.history) :
    db'.Wrote i n ↔ db.Wrote i n := by
  simp only [Wrote, h]

theorem Joined.congr {db' : Database} (hchannels : db'.channels = db.channels)
    (hsubs : db'.subscriptions = db.subscriptions) : db'.Joined i n ↔ db.Joined i n := by
  simp only [Joined, hchannels, hsubs]

theorem Subscribed.congr {db' : Database} (hchannels : db'.channels = db.channels)
    (hsubs : db'.subscriptions = db.subscriptions) : db'.Subscribed ↔ db.Subscribed := by
  simp only [Subscribed, hchannels, hsubs]

/-- A name that is entered gets an id that nobody subscribes to. -/
theorem joined_enter (h : db.Subscribed) (m : String) :
    (db.enter m).Joined i n ↔ db.Joined i n := by
  unfold enter
  by_cases hm : db.channelId m = 0
  · rw [if_pos hm]
    constructor
    · rintro ⟨k, hsub, hrow⟩
      rcases List.mem_append.mp hrow with hrow | hnew
      · exact ⟨k, hsub, hrow⟩
      · obtain ⟨rfl, -⟩ := Row.mk.inj (List.mem_singleton.mp hnew)
        obtain ⟨r, hr, hid⟩ := h _ hsub
        exact absurd hid (Nat.ne_of_lt (db.channels.id_lt r hr))
    · rintro ⟨k, hsub, hrow⟩
      exact ⟨k, hsub, List.mem_append_left _ hrow⟩
  · rw [if_neg hm]

theorem Subscribed.enter (h : db.Subscribed) (m : String) : (db.enter m).Subscribed := by
  unfold Database.enter
  split
  · intro sub hsub
    obtain ⟨r, hr, hid⟩ := h sub hsub
    exact ⟨r, List.mem_append_left _ hr, hid⟩
  · exact h

theorem mem_subscribe {sub sub' : Subscription} :
    sub' ∈ (db.subscribe sub).subscriptions ↔ sub' ∈ db.subscriptions ∨ sub' = sub := by
  unfold subscribe
  split
  · next hmem =>
    constructor
    · exact Or.inl
    · rintro (hsub | rfl)
      · exact hsub
      · exact hmem
  · simp

theorem joined_subscribe {m : String} (hm : db.channelId m ≠ 0) (j : UserId) :
    (db.subscribe ⟨j, db.channelId m⟩).Joined i n ↔ db.Joined i n ∨ (j = i ∧ m = n) := by
  have hrow := row_of_channelId hm
  simp only [Joined, subscribe_channels, mem_subscribe]
  constructor
  · rintro ⟨k, hsub | hnew, hk⟩
    · exact Or.inl ⟨k, hsub, hk⟩
    · obtain ⟨rfl, rfl⟩ := Subscription.mk.inj hnew
      -- the row under the id of `m` has the name `m`
      have hrows := SerialTable.eq_of_id_eq hrow hk rfl
      exact Or.inr ⟨rfl, congrArg Row.data hrows⟩
  · rintro (⟨k, hsub, hk⟩ | ⟨rfl, rfl⟩)
    · exact ⟨k, Or.inl hsub, hk⟩
    · exact ⟨_, Or.inr rfl, hrow⟩

theorem Subscribed.subscribe (h : db.Subscribed) {m : String} (hm : db.channelId m ≠ 0)
    (j : UserId) : (db.subscribe ⟨j, db.channelId m⟩).Subscribed := by
  intro sub hsub
  rw [subscribe_channels]
  rcases mem_subscribe.mp hsub with hsub | rfl
  · exact h sub hsub
  · exact ⟨_, row_of_channelId hm, rfl⟩

end Database

theorem emptyTables_subscribed : emptyTables.db.Subscribed := List.forall_mem_nil _

namespace Server

/-- A request of a known client to join the channel of a name. -/
def Joins (s : Server Postgres) (i : UserId) (n : String) : Call → Prop
  | .joinRoom request =>
    request.clientId = i ∧ request.channelName = n ∧ n ≠ "" ∧ (s.idClients i).isSome
  | _ => False

variable (s : Server Postgres)

theorem wrote_tablesAfter (call : Call) (i : UserId) (n : String) :
    (s.tablesAfter call).Wrote i n ↔ s.db.db.Wrote i n ∨ s.db.db.Posts i n call := by
  cases call with
  | reg session request =>
    simp only [tablesAfter, Database.Posts, or_false]
    split <;> exact Database.Wrote.congr rfl
  | auth session request => simp [tablesAfter, Database.Posts]
  | getHistory request =>
    simp only [tablesAfter, Database.Posts, or_false]
    exact Database.Wrote.congr (Database.enter_history _ _)
  | getChannels request => simp [tablesAfter, Database.Posts]
  | joinRoom request =>
    simp only [tablesAfter, Database.Posts, or_false]
    split
    · refine Database.Wrote.congr ?_
      unfold Database.subscribe
      split <;> simp
    · exact Database.Wrote.congr (Database.enter_history _ _)
  | sendText request =>
    obtain ⟨login, channelName, text, datetime⟩ := request
    simp only [tablesAfter, Database.Posts]
    by_cases hne : channelName = ""
    · rw [if_pos hne, Database.Wrote.congr (Database.enter_history _ _)]
      constructor
      · exact Or.inl
      · rintro (hwrote | ⟨rfl, hn, -⟩)
        · exact hwrote
        · exact absurd hne hn
    · rw [if_neg hne, Database.Wrote, Database.store_history, Database.enter_history]
      simp only [QueryEngine.textMessage, Database.clientId_enter]
      by_cases hzero : s.db.db.clientId login = 0
      -- the row is refused, and no client has the login
      · rw [if_pos hzero, List.append_nil]
        constructor
        · exact Or.inl
        · rintro (hwrote | ⟨-, -, rfl, hi⟩)
          · exact hwrote
          · exact absurd hzero hi
      · rw [if_neg hzero]
        simp only [Database.Wrote, List.mem_append, List.mem_singleton]
        constructor
        · rintro ⟨row, hrow | rfl, rfl, rfl⟩
          · exact Or.inl ⟨row, hrow, rfl, rfl⟩
          · exact Or.inr ⟨rfl, hne, rfl, hzero⟩
        · rintro (⟨row, hrow, hi, hn⟩ | ⟨rfl, -, rfl, -⟩)
          · exact ⟨row, Or.inl hrow, hi, hn⟩
          · exact ⟨_, Or.inr rfl, rfl, rfl⟩

variable {s}

/-- The two facts about subscriptions that a request keeps and adds to. -/
theorem subscribed_tablesAfter (h : s.db.db.Subscribed) (call : Call) :
    (s.tablesAfter call).Subscribed ∧
      ∀ i n, (s.tablesAfter call).Joined i n ↔ s.db.db.Joined i n ∨ s.Joins i n call := by
  cases call with
  | reg session request =>
    simp only [tablesAfter, Joins, or_false]
    split
    -- a registration touches the clients only
    · exact ⟨(Database.Subscribed.congr rfl rfl).mpr h, fun i n => Database.Joined.congr rfl rfl⟩
    · exact ⟨h, fun i n => Iff.rfl⟩
  | auth session request => simpa [tablesAfter, Joins] using h
  | getHistory request =>
    simp only [tablesAfter, Joins, or_false]
    exact ⟨h.enter _, fun i n => Database.joined_enter h _⟩
  | getChannels request => simpa [tablesAfter, Joins] using h
  | joinRoom request =>
    obtain ⟨j, m⟩ := request
    simp only [tablesAfter, Joins]
    split
    · next hjoins =>
      -- the channel is entered first, so the subscription is not of id zero
      have hm := @Database.channelId_enter_ne_zero s.db.db m
      refine ⟨(h.enter m).subscribe hm j, ?_⟩
      intro i n
      rw [Database.joined_subscribe hm, Database.joined_enter h]
      constructor
      · rintro (hjoined | ⟨rfl, rfl⟩)
        · exact Or.inl hjoined
        · exact Or.inr ⟨rfl, rfl, hjoins.1, hjoins.2⟩
      · rintro (hjoined | ⟨rfl, rfl, -⟩)
        · exact Or.inl hjoined
        · exact Or.inr ⟨rfl, rfl⟩
    · next hrefused =>
      -- refused for an empty name or an unknown client: at most the channel is new
      refine ⟨h.enter m, ?_⟩
      intro i n
      rw [Database.joined_enter h]
      constructor
      · exact Or.inl
      · rintro (hjoined | ⟨rfl, rfl, hn, hknown⟩)
        · exact hjoined
        · exact absurd ⟨hn, hknown⟩ hrefused
  | sendText request =>
    simp only [tablesAfter, Joins, or_false]
    split
    · exact ⟨h.enter _, fun i n => Database.joined_enter h _⟩
    -- a message leaves the other tables as they are
    · have hchannels := (s.db.db.enter request.channelName).store_channels
        (QueryEngine.textMessage request)
      have hsubs := (s.db.db.enter request.channelName).store_subscriptions
        (QueryEngine.textMessage request)
      refine ⟨(Database.Subscribed.congr hchannels hsubs).mpr (h.enter _), ?_⟩
      intro i n
      rw [Database.Joined.congr hchannels hsubs, Database.joined_enter h]

end Server

/-! ## Runs -/

section Runs

variable [Protocol]

/-- In the run of `events`, or before it, a message of `i` was stored for the channel `n`. -/
def PostedIn (d : Postgres) (events : List Event) (i : UserId) (n : String) : Prop :=
  d.db.Wrote i n ∨ Sometime (serve WrapperPg.database)
    (fun s e => s.db.db.Posts i n e.call) (start WrapperPg.database d).2 events

/-- In the run of `events`, or before it, `i` has joined the channel `n`. -/
def JoinedIn (d : Postgres) (events : List Event) (i : UserId) (n : String) : Prop :=
  d.db.Joined i n ∨ Sometime (serve WrapperPg.database)
    (fun s e => s.Joins i n e.call) (start WrapperPg.database d).2 events

variable {d : Postgres} (faults : d.faults = [])
  (hnames : ∀ r ∈ d.db.channels.rows, r.data ≠ "") (events : List Event) (i : UserId)
  (n : String)
include faults hnames

theorem wrote_iff_postedIn : (runFrom d events).db.db.Wrote i n ↔ PostedIn d events i n := by
  obtain ⟨s, hstart, hcoherent, hdb, -⟩ := start_coherent faults hnames
  have hadd : ∀ (s : Server Postgres) (e : Event), s.Coherent →
      ((serve WrapperPg.database s e).db.db.Wrote i n ↔
        s.db.db.Wrote i n ∨ s.db.db.Posts i n e.call) := by
    intro s e hs
    rw [serve_db hs]
    exact s.wrote_tablesAfter e.call i n
  have hrun := foldl_iff_sometime (I := Server.Coherent)
    (Q := fun s => s.db.db.Wrote i n) (fun s e hs => (served hs e).coherent) hadd hcoherent events
  rw [hdb] at hrun
  rw [runFrom, PostedIn, hstart]
  exact hrun

omit faults hnames i n d events in
/-- No request subscribes a client to a channel that is not there. -/
theorem serve_subscribed {s : Server Postgres} (e : Event)
    (h : s.Coherent ∧ s.db.db.Subscribed) :
    (serve WrapperPg.database s e).Coherent ∧
      (serve WrapperPg.database s e).db.db.Subscribed := by
  refine ⟨(served h.1 e).coherent, ?_⟩
  rw [serve_db h.1]
  exact (Server.subscribed_tablesAfter h.2 e.call).1

omit i n in
/-- No run subscribes a client to a channel that is not there. -/
theorem runFrom_subscribed (hsubs : d.db.Subscribed) : (runFrom d events).db.db.Subscribed := by
  obtain ⟨s, hstart, hcoherent, hdb, -⟩ := start_coherent faults hnames
  rw [runFrom, hstart]
  exact (List.foldlRecOn (motive := fun s => s.Coherent ∧ s.db.db.Subscribed) events
    (serve WrapperPg.database) ⟨hcoherent, hdb ▸ hsubs⟩ fun _ hs e _ => serve_subscribed e hs).2

theorem joined_iff_joinedIn (hsubs : d.db.Subscribed) :
    (runFrom d events).db.db.Joined i n ↔ JoinedIn d events i n := by
  obtain ⟨s, hstart, hcoherent, hdb, -⟩ := start_coherent faults hnames
  have hadd : ∀ (s : Server Postgres) (e : Event), s.Coherent ∧ s.db.db.Subscribed →
      ((serve WrapperPg.database s e).db.db.Joined i n ↔
        s.db.db.Joined i n ∨ s.Joins i n e.call) := by
    rintro s e ⟨hs, hsubs⟩
    rw [serve_db hs]
    exact (Server.subscribed_tablesAfter hsubs e.call).2 i n
  have hkeep : ∀ (s : Server Postgres) (e : Event), s.Coherent ∧ s.db.db.Subscribed →
      (serve WrapperPg.database s e).Coherent ∧
        (serve WrapperPg.database s e).db.db.Subscribed := fun s e hs => serve_subscribed e hs
  have hrun := foldl_iff_sometime (Q := fun s => s.db.db.Joined i n) hkeep hadd
    ⟨hcoherent, hdb ▸ hsubs⟩ events
  rw [hdb] at hrun
  rw [runFrom, JoinedIn, hstart]
  exact hrun

end Runs

end GatewayServer
