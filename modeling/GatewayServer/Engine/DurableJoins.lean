import GatewayServer.Channels.Backing
import GatewayServer.Engine.Restart
import GatewayServer.Engine.Steps
import GatewayServer.Lib.Run

/-!
# Joins that last

A client that joins a channel becomes a member in memory, and is told so, before the tables are. A
query that fails in between leaves a member that the tables do not know.

## Main definitions

* `Server.HasMember`, `Server.HasStored` — a client in the channel of a name, and in the tables
* `Server.Acknowledged` — a client was told that it joined
* `JoinsDurable` — whoever was told, or is a member, is in the tables from the join on
* `Server.StoresJoin` — the queries that enter a new member do not fail

## Main results

* `grows_serve` — the tables only grow, whichever queries fail
* `backed_serve` — a join that is stored keeps the members backed, and so does every other call
* `joinsDurable_iff` — when joins last
-/

namespace GatewayServer

open Lib

/-! ## What every call keeps -/

theorem keptByQueries_grows : WrapperPg.KeptByQueries Database.Grows where
  refl := .refl
  insertClient _ _ := .of_channels rfl fun _ => id
  insertChannel := .insertChannel
  insertSubscription _ _ := .of_channels rfl fun _ hsub => List.mem_append_left _ hsub

/-- A stored message is in neither of the two tables. -/
theorem Database.grows_insertHistory (db : Database) (row : HistoryRow) (db' : Database)
    (h : db.insertHistory row = some db') : db.Grows db' := by
  obtain ⟨-, -, -, hchannels, hsubs⟩ := Database.insertHistory_eq_some h
  exact .of_channels hchannels fun _ hsub => hsubs ▸ hsub

theorem keptByRequests_grows :
    Server.KeptByRequests Database.Grows (fun _ => True)
      fun s t => s.db.db.Grows t.db.db where
  refl _ := .refl _
  db _ _ hd := hd
  push s data := by
    rw [UserManager.run_push]
    exact .refl _
  written _ _ _ _ _ := .refl _
  queued _ _ := .refl _
  trans _ _ _ := .trans
  objects _ _ := .refl _
  idChannels _ _ := .refl _

theorem keptBySteps_backed :
    Server.KeptBySteps Database.Grows (fun _ => True) fun s t => s.Backed → t.Backed where
  refl _ := id
  db _ _ hd h := h.of_grows hd
  push _ data h := h.push data
  written _ _ _ _ _ h := ⟨h.keyed, h.valid, h.registry⟩
  queued _ _ h := ⟨h.keyed, h.valid, h.registry⟩

variable [Protocol]

/-- Whichever queries fail, the tables only grow. -/
theorem grows_serve (s : Server Postgres) (e : Event) :
    s.db.db.Grows (serve WrapperPg.database s e).db.db :=
  (keptByRequests_grows.handle keptByQueries_grows Database.grows_insertHistory
    (fun _ => trivial) e.world e.call).run keptByRequests_grows.refl keptByRequests_grows.trans s

theorem grows_foldl_serve (s : Server Postgres) (events : List Event) :
    s.db.db.Grows (events.foldl (serve WrapperPg.database) s).db.db := by
  induction events generalizing s with
  | nil => exact .refl _
  | cons e events ih => exact (grows_serve s e).trans (ih _)

/-! ## Joins -/

namespace Server

/-- The client is in the channel that the registry holds for the name. -/
def HasMember (s : Server Postgres) (request : JoinRoomRequest) : Prop :=
  ∃ c ∈ s.registry (s.db.db.channelId request.channelName), request.clientId ∈ c.idUsers

/-- The pair of the client and the channel's id is in the tables. -/
def HasStored (s : Server Postgres) (request : JoinRoomRequest) : Prop :=
  ⟨request.clientId, s.db.db.channelId request.channelName⟩ ∈ s.db.db.subscriptions

/-- Between `s` and `t` it was written that somebody joined the channel with the name. -/
def Acknowledged (s t : Server Postgres) (channelName : String) : Prop :=
  ∃ x ∈ t.written.drop s.written.length, x.response = .joinRoomResponse channelName true

/-- A known client for whom the channel is found is in the tables already, or the two queries
succeed that enter it: the lookup of the channel, and the `INSERT`. -/
def Stores (s : Server Postgres) (request : JoinRoomRequest) : Prop :=
  s.idClients request.clientId ≠ none → s.Finds request.channelName →
    ⟨request.clientId, (s.db.db.enter request.channelName).channelId request.channelName⟩ ∈
        s.db.db.subscriptions ∨
      s.db.fails (s.lookups request.channelName) = false ∧
        s.db.fails (s.lookups request.channelName + 2) = false

/-- What is asked of the queries of a call. -/
def StoresJoin (s : Server Postgres) (e : Event) : Prop :=
  match e.call with
  | .joinRoom request => s.Stores request
  | _ => True

omit [Protocol] in
/-- Members are in the tables when the channels in memory are backed. -/
theorem Backed.hasStored {s : Server Postgres} (h : s.Backed) {request : JoinRoomRequest}
    (hmember : s.HasMember request) : s.HasStored request := by
  obtain ⟨c, hc, hi⟩ := hmember
  exact (h.registry _ c hc).members _ hi

end Server

/-- Whoever is told that it joined is in the tables from then on, and so is, after it has asked to
join, whoever is a member. -/
def JoinsDurable (s : Server Postgres) (events : List Event) : Prop :=
  ∀ before w request after, before ++ ⟨w, .joinRoom request⟩ :: after <+: events →
    let asked := before.foldl (serve WrapperPg.database) s
    let joined := serve WrapperPg.database asked ⟨w, .joinRoom request⟩
    let later := after.foldl (serve WrapperPg.database) joined
    asked.Acknowledged joined request.channelName ∨ later.HasMember request →
      later.HasStored request

section Join

variable {s t : Server Postgres} {p : ChannelPtr} (w : World) {request : JoinRoomRequest}

/-- A join for which no channel is found writes nothing. -/
theorem serve_joinRoom_not_finds (h : s.Backed) (hfinds : ¬ s.Finds request.channelName) :
    (serve WrapperPg.database s ⟨w, .joinRoom request⟩).Backed ∧
      (serve WrapperPg.database s ⟨w, .joinRoom request⟩).written = s.written := by
  obtain ⟨e, d, hrun, htables⟩ :=
    ChannelsManager.run_createOrGetChannelByName_not_finds h.named hfinds
  rw [serve, handle, QueryEngine.joinRoom, Prog.run_bind_error hrun]
  exact ⟨h.of_grows (htables ▸ s.grows_tablesSearched _), rfl⟩

/-- The join of a known client: a member in memory, and a pair in the tables unless one of two
queries fails. -/
theorem serve_joinRoom_gets (hrun : (ChannelsManager.createOrGetChannelByName
    WrapperPg.database request.channelName).run s = (.ok p, t))
    (hgets : s.Gets request.channelName p t) {user : User}
    (huser : t.idClients request.clientId = some user) :
    ∃ this d, t.objects[p]? = some this ∧
      serve WrapperPg.database s ⟨w, .joinRoom request⟩ =
        Server.log { t with
          db := d
          objects := t.objects.set p
            { this with idUsers := insert request.clientId this.idUsers } } w
          (Channel.welcome this t w request.clientId) ∧
      t.db.db.Grows d.db ∧ d.db.channels = t.db.db.channels ∧
      (⟨request.clientId, t.db.db.channelId request.channelName⟩ ∈ d.db.subscriptions ↔
        ⟨request.clientId, t.db.db.channelId request.channelName⟩ ∈ t.db.db.subscriptions ∨
          t.db.fails 0 = false ∧ t.db.fails 2 = false) := by
  obtain ⟨this, hthis, hknows⟩ := hgets.backed.exists_object hgets.pointer
  obtain ⟨r, d, hjoin, hchannels, hsubs, hpair⟩ := WrapperPg.run_joinClientChannel_fails t.db
    request.clientId hknows.ne_zero
  -- a user is found under its own id, so both sides enter the same member
  have hkey : user.id = request.clientId := hgets.backed.keyed _ _ huser
  refine ⟨this, d, hthis, ?_, .of_channels hchannels hsubs, hchannels, hpair⟩
  rw [serve, handle, QueryEngine.run_joinRoom_known w _ request hrun hthis huser hkey, hjoin]

omit [Protocol] in
/-- What a join stores, in terms of the server that has found the channel. -/
theorem stores_iff_of_gets (hfinds : s.Finds request.channelName)
    (hgets : s.Gets request.channelName p t) {user : User}
    (huser : t.idClients request.clientId = some user) :
    s.Stores request ↔
      ⟨request.clientId, t.db.db.channelId request.channelName⟩ ∈ t.db.db.subscriptions ∨
        t.db.fails 0 = false ∧ t.db.fails 2 = false := by
  have hknown : s.idClients request.clientId ≠ none := by
    rw [← hgets.idClients, huser]
    exact Option.some_ne_none _
  rw [Server.Stores, hgets.db, Postgres.after_db, Postgres.fails_after, Postgres.fails_after,
    Database.enter_subscriptions]
  exact ⟨fun h => h hknown hfinds, fun h _ _ => h⟩

/-- A join that is stored keeps the members backed, and is not acknowledged in vain. -/
theorem serve_joinRoom_stores (h : s.Backed) (hstores : s.Stores request) :
    (serve WrapperPg.database s ⟨w, .joinRoom request⟩).Backed ∧
      (s.Acknowledged (serve WrapperPg.database s ⟨w, .joinRoom request⟩) request.channelName →
        (serve WrapperPg.database s ⟨w, .joinRoom request⟩).db.db.channelId
            request.channelName ≠ 0 ∧
          (serve WrapperPg.database s ⟨w, .joinRoom request⟩).HasStored request) := by
  -- nothing is acknowledged without a write
  have hsilent {u : Server Postgres} (hwritten : u.written = s.written) :
      ¬ s.Acknowledged u request.channelName := by
    rintro ⟨x, hx, -⟩
    rw [hwritten, List.drop_length] at hx
    exact absurd hx List.not_mem_nil
  by_cases hfinds : s.Finds request.channelName
  · obtain ⟨p, t, hrun, hgets⟩ :=
      ChannelsManager.run_createOrGetChannelByName_finds h hfinds
    cases huser : t.idClients request.clientId with
    | none =>
      rw [QueryEngine.serve_joinRoom_unknown w request hrun huser]
      exact ⟨hgets.backed, fun hack => absurd hack (hsilent hgets.written)⟩
    | some user =>
      obtain ⟨this, d, hthis, hserve, hgrows, hchannels, hpair⟩ :=
        serve_joinRoom_gets w hrun hgets huser
      obtain ⟨_, -, hknows⟩ := hgets.backed.exists_object hgets.pointer
      -- the join is stored, so the new member has its row
      have hstored := hpair.mpr ((stores_iff_of_gets hfinds hgets huser).mp hstores)
      have hid : d.db.channelId request.channelName = t.db.db.channelId request.channelName := by
        simp only [Database.channelId, hchannels]
      rw [hserve]
      refine ⟨((hgets.backed.of_grows hgrows).addMember hgets.pointer hthis hstored).log w _,
        fun _ => ⟨?_, ?_⟩⟩
      · exact hid ▸ hknows.ne_zero
      · rw [Server.HasStored, Server.log_db, hid]
        exact hstored
  · obtain ⟨hbacked, hwritten⟩ := serve_joinRoom_not_finds w h hfinds
    exact ⟨hbacked, fun hack => absurd hack (hsilent hwritten)⟩

/-- A join that is not stored leaves a member that is not in the tables. -/
theorem serve_joinRoom_not_stores (h : s.Backed) (hstores : ¬ s.Stores request) :
    (serve WrapperPg.database s ⟨w, .joinRoom request⟩).HasMember request ∧
      ¬ (serve WrapperPg.database s ⟨w, .joinRoom request⟩).HasStored request := by
  -- a join that finds no client or no channel counts as stored
  obtain ⟨hknown, hfinds⟩ :
      s.idClients request.clientId ≠ none ∧ s.Finds request.channelName := by
    by_contra hnot
    exact hstores fun hknown hfinds => absurd ⟨hknown, hfinds⟩ hnot
  obtain ⟨p, t, hrun, hgets⟩ := ChannelsManager.run_createOrGetChannelByName_finds h hfinds
  obtain ⟨user, huser⟩ := Option.ne_none_iff_exists'.mp (hgets.idClients ▸ hknown)
  obtain ⟨this, d, hthis, hserve, hgrows, hchannels, hpair⟩ :=
    serve_joinRoom_gets w hrun hgets huser
  have hid : d.db.channelId request.channelName = t.db.db.channelId request.channelName := by
    simp only [Database.channelId, hchannels]
  rw [hserve]
  constructor
  · have hlt := hgets.backed.valid _ p hgets.pointer
    refine ⟨{ this with idUsers := insert request.clientId this.idUsers }, ?_,
      Finset.mem_insert_self _ _⟩
    simp [Server.registry, hid, hgets.pointer, hlt]
  · intro hstored
    rw [Server.HasStored, Server.log_db, hid] at hstored
    exact hstores ((stores_iff_of_gets hfinds hgets huser).mpr (hpair.mp hstored))

end Join

/-! ## Every call -/

section Keeps

variable {I : Server Postgres → Prop}
  (hsteps : Server.KeptBySteps Database.Grows (fun _ => True) fun s t => I s → I t)
include hsteps

omit [Protocol] hsteps in
/-- An invariant of every step is one of a run. -/
theorem run_keeps {q : Prog (Server Postgres) Exn PUnit} (hq : q.Guarantees fun s t => I s → I t)
    {s : Server Postgres} (h : I s) : I (q.run s).2 :=
  hq.run (fun _ => id) (fun _ _ _ hst htu hs => htu (hst hs)) s h

variable (hnamed : ∀ s, I s → s.Named) (hfound : ∀ s n, I s → I (s.found n).2)
include hnamed hfound

/-- What follows a search keeps an invariant when each of its steps does. -/
theorem search_keeps {s : Server Postgres} (h : I s) (n : String)
    {next : ChannelPtr → Prog (Server Postgres) Exn PUnit}
    (hnext : ∀ p, (next p).Guarantees fun s t => I s → I t) :
    I ((ChannelsManager.createOrGetChannelByName WrapperPg.database n >>= next).run s).2 := by
  by_cases hfinds : s.Finds n
  · rw [Prog.run_bind_ok
      (ChannelsManager.run_createOrGetChannelByName_found (hnamed s h) hfinds)]
    exact run_keeps (hnext _) (hfound s n h)
  · obtain ⟨e, d, hrun, htables⟩ :=
      ChannelsManager.run_createOrGetChannelByName_not_finds (hnamed s h) hfinds
    have hgrows : s.db.db.Grows d.db := htables ▸ s.grows_tablesSearched n
    rw [Prog.run_bind_error hrun]
    exact hsteps.db s d hgrows h

/-- A call keeps an invariant that the steps and the searches keep; a join has to be looked at by
itself. -/
theorem serve_keeps {s : Server Postgres} (h : I s) (e : Event)
    (hjoin : ∀ request, e.call = .joinRoom request → I (serve WrapperPg.database s e)) :
    I (serve WrapperPg.database s e) := by
  obtain ⟨w, call⟩ := e
  cases call with
  | reg session request =>
    exact run_keeps (hsteps.reg keptByQueries_grows (fun _ => trivial) w session request) h
  | auth session request =>
    exact run_keeps (hsteps.auth keptByQueries_grows (fun _ => trivial) w session request) h
  | getChannels request =>
    exact run_keeps (hsteps.getChannels keptByQueries_grows (fun _ => trivial) w request) h
  | getHistory request =>
    exact search_keeps hsteps hnamed hfound h _ fun p =>
      hsteps.sendHistory keptByQueries_grows (fun _ _ => trivial) w p _ _
  | joinRoom request => exact hjoin request rfl
  | sendText request =>
    exact search_keeps hsteps hnamed hfound h _ fun p =>
      hsteps.channelWrite keptByQueries_grows Database.grows_insertHistory trivial w p

end Keeps

/-- A call keeps the members backed, a join when it is stored. -/
theorem backed_serve (s : Server Postgres) (e : Event) (h : s.Backed) (hstores : s.StoresJoin e) :
    (serve WrapperPg.database s e).Backed := by
  refine serve_keeps keptBySteps_backed (fun _ hs => hs.named)
    (fun _ _ hs => hs.gets_found.backed) h e ?_
  rintro request hcall
  obtain ⟨w, call⟩ := e
  obtain rfl : call = .joinRoom request := hcall
  exact (serve_joinRoom_stores w h hstores).1

/-! ## Runs of a started server -/

/-- A start that the tables bear out, as far as it comes. -/
theorem backed_createChannels {s : Server Postgres} (h : s.Backed)
    {channels : List (UserId × String)}
    (hrows : ∀ c ∈ channels, ⟨c.1, c.2⟩ ∈ s.db.db.channels.rows) :
    ((ChannelsManager.createChannels WrapperPg.database channels).run s).2.Backed := by
  induction channels generalizing s with
  | nil => exact h
  | cons c channels ih =>
    obtain ⟨k, n⟩ := c
    have hrow := hrows ⟨k, n⟩ List.mem_cons_self
    have hloop : ChannelsManager.createChannels WrapperPg.database ((k, n) :: channels) =
        (Channel.makeShared WrapperPg.database n k >>= fun channel => do
          ChannelsManager.store k channel
          return channel) >>= fun _ =>
            ChannelsManager.createChannels WrapperPg.database channels := by
      rw [ChannelsManager.createChannels]
      simp only [bind_assoc, pure_bind]
    rw [hloop]
    by_cases hn : n = ""
    -- a channel without a name ends the start
    · obtain ⟨e, hrun⟩ := Channel.run_makeShared_error (s := s) (k := k) (Or.inl hn)
      rw [Prog.run_bind_error (Prog.run_bind_error hrun _)]
      exact h
    · have hk : k ≠ 0 := Nat.ne_of_gt (s.db.db.channels.id_pos _ hrow)
      rw [Prog.run_bind_ok (ChannelsManager.run_make_store hn hk)]
      exact ih (h.made hrow) fun c hc => hrows c (List.mem_cons_of_mem _ hc)

/-- A server that is started on any tables, while any queries fail, has backed members. -/
theorem backed_start (d : Postgres) : (start WrapperPg.database d).2.Backed := by
  have hcurrent : WrapperPg.connected.getCurrentChannels.run d =
      (.ok (if d.fails 0 then [] else d.db.channels.rows.map fun r => (r.id, r.data)),
        d.after 1 d.db) := by
    simp only [WrapperPg.getCurrentChannels, WrapperPg.connected, if_true, Prog.run_bind,
      WrapperPg.run_select_fails]
    cases d.fails 0 <;> rfl
  have hlooked : Server.Backed { Server.initial d with db := d.after 1 d.db } :=
    (Server.Backed.initial d).of_grows (.refl _)
  rw [start, ChannelsManager.createChannelFromDb,
    Prog.run_bind_ok (Server.run_inDb_ok (s := Server.initial d) hcurrent)]
  refine backed_createChannels hlooked fun c hc => ?_
  cases hfails : d.fails 0 with
  | true => exact absurd hc (by simp [hfails])
  | false =>
    obtain ⟨r, hr, rfl⟩ : ∃ r ∈ d.db.channels.rows, (r.id, r.data) = c := by
      simpa [hfails] using hc
    exact hr

/-- On a server that is started on any tables, and whichever queries fail, joins last exactly when
every join of a known client that comes to its channel is stored. -/
theorem joinsDurable_iff (d : Postgres) (events : List Event) :
    JoinsDurable (start WrapperPg.database d).2 events ↔
      Along (serve WrapperPg.database) Server.StoresJoin (start WrapperPg.database d).2 events := by
  constructor
  · intro hdurable
    by_contra hnot
    -- at the first join that is not stored there is a member that the tables do not know
    obtain ⟨before, ⟨w, call⟩, after, rfl, hbefore, hlost⟩ := exists_first_of_not_along hnot
    have hbacked := foldl_invariant backed_serve (backed_start d) hbefore
    cases call with
    | joinRoom request =>
      obtain ⟨hmember, hstored⟩ := serve_joinRoom_not_stores w hbacked hlost
      refine hstored (hdurable before w request [] ⟨after, ?_⟩ (Or.inr hmember))
      simp
    | _ => exact hlost trivial
  · rintro halong before w request after ⟨rest, rfl⟩
    have hrun := (along_append.mp halong).1
    obtain ⟨hbefore, hjoin, hafter⟩ := along_append.mp hrun
    have hasked := foldl_invariant backed_serve (backed_start d) hbefore
    obtain ⟨hjoined, hacknowledged⟩ := serve_joinRoom_stores w hasked hjoin
    rintro asked joined later (hack | hmember)
    · obtain ⟨hid, hstored⟩ := hacknowledged hack
      have hgrows : joined.db.db.Grows later.db.db := grows_foldl_serve joined after
      rw [Server.HasStored, hgrows.channelId _ hid]
      exact hgrows.subscriptions _ hstored
    · exact (foldl_invariant backed_serve hjoined hafter).hasStored hmember

/-- Ann registers, and joins a channel that is made for her. -/
def annRegistersAndJoins : List Event :=
  [⟨.calm, .reg 1 ⟨"ann", "a"⟩⟩, ⟨.calm, .joinRoom ⟨1, "room"⟩⟩]

omit [Protocol] in
/-- The last query of her join fails, which is the `INSERT`. -/
theorem not_joinsDurable_failed_insert :
    letI := Protocol.oneByte
    ¬ JoinsDurable
      (start WrapperPg.database { db := .empty, faults := List.replicate 11 false ++ [true] }).2
      annRegistersAndJoins := by
  intro h
  have hstored := h [⟨.calm, .reg 1 ⟨"ann", "a"⟩⟩] .calm ⟨1, "room"⟩ [] (List.prefix_refl _)
    (Or.inr ⟨⟨"room", 1, {1}⟩, by decide +kernel, by decide⟩)
  exact absurd hstored (by unfold Server.HasStored; decide +kernel)

end GatewayServer
