import GatewayServer.Engine.JoinReply

/-!
# Requests that are refused

A join by an unknown client and a history for a client who is no member are refused. The refusal
comes after the channel was looked up by its name. That search enters a name that is not there, and
it makes a channel for a name that has none in memory.

## Main definitions

* `Server.Refuses` — a request that the server refuses
* `Server.Unchanged` — the server is as it was
* `Server.OnlyLooks` — a search that enters no name and makes no channel

## Main results

* `unchanged_serve_refused_iff` — when a request that is refused leaves the server as it was
* `not_unchanged_serve_refused` — a join that is refused and makes a channel
-/

namespace GatewayServer

open Lib

namespace Server

/-- The members of the channel with a name: those in memory, or those that it would be made with.
A channel that is not in the tables has none. -/
def membersOf (s : Server Postgres) (n : String) : Finset UserId :=
  if s.db.db.channelId n = 0 then ∅ else s.membersAsked n

/-- A request to join from a client nobody knows, or a request for a history from such a client or
from one who is not a member of the channel. -/
def Refuses (s : Server Postgres) : Call → Prop
  | .joinRoom request => s.idClients request.clientId = none
  | .getHistory request =>
    s.idClients request.clientId = none ∨
      request.clientId ∉ s.membersOf request.channelName
  | _ => False

/-- From `s` to `t` nothing has changed but which queries are to fail from now on. -/
def Unchanged (s t : Server Postgres) : Prop :=
  t = { s with db := ⟨s.db.db, t.db.faults⟩ }

/-- A search enters no name and makes no channel. The query for the name fails; or the name is not
there, and its `INSERT` fails; or it is there, and the query for its id fails, its channel is in the
registry, or it is empty. -/
def OnlyLooks (s : Server Postgres) (n : String) : Prop :=
  s.db.fails 0 = true ∨
    if s.db.db.channelId n = 0 then s.db.fails 2 = true
    else s.db.fails 1 = true ∨ (s.idChannels (s.db.db.channelId n)).isSome ∨ n = ""

variable {s t : Server Postgres} {n : String}

theorem refuses_joinRoom_iff {request : JoinRoomRequest} :
    s.Refuses (.joinRoom request) ↔ s.idClients request.clientId = none := Iff.rfl

theorem Unchanged.tables (h : s.Unchanged t) : t.db.db = s.db.db :=
  congrArg (fun t => t.db.db) h

theorem Unchanged.objects (h : s.Unchanged t) : t.objects = s.objects :=
  congrArg (fun t => t.objects) h

theorem unchanged_iff_db (d : Postgres) : s.Unchanged { s with db := d } ↔ d.db = s.db.db := by
  constructor
  · exact Unchanged.tables
  · intro h
    rw [Unchanged, ← h]

/-- Tables with another channel are other tables. -/
theorem insertChannel_ne (db : Database) (n : String) : db.insertChannel n ≠ db := by
  intro h
  have hlength := congrArg (fun db => db.channels.rows.length) h
  simp at hlength

/-- A search that comes to no channel can still enter its name. -/
theorem tablesSearched_eq_iff (hfinds : ¬ s.Finds n) :
    s.tablesSearched n = s.db.db ↔ s.OnlyLooks n := by
  by_cases henters : s.db.db.channelId n = 0 ∧ s.db.fails 0 = false ∧ s.db.fails 2 = false
  · obtain ⟨hn, hasked, hinsert⟩ := henters
    simp [tablesSearched, OnlyLooks, hn, hasked, hinsert, insertChannel_ne]
  · refine iff_of_true (if_neg henters) ?_
    by_contra hnot
    simp only [OnlyLooks, not_or, Bool.not_eq_true] at hnot
    obtain ⟨hasked, hrest⟩ := hnot
    by_cases hn : s.db.db.channelId n = 0
    · rw [if_pos hn, Bool.not_eq_true] at hrest
      exact henters ⟨hn, hasked, hrest⟩
    · -- all that a search depends on is there
      rw [if_neg hn, not_or, not_or, Bool.not_eq_true] at hrest
      exact hfinds ⟨hasked, (if_neg hn).mpr ⟨hrest.1, Or.inr hrest.2.2⟩⟩

/-- A search that comes to a channel finds it in the registry, or it makes it. -/
theorem Named.unchanged_found_iff (h : s.Named) (hfinds : s.Finds n) :
    s.Unchanged (s.found n).2 ↔ s.OnlyLooks n := by
  cases hp : s.idChannels (s.db.db.channelId n) with
  | some p =>
    have hn : s.db.db.channelId n ≠ 0 := by
      intro hn
      rw [hn, h.idChannels_zero] at hp
      exact absurd hp (by simp)
    refine iff_of_true ?_ (Or.inr ((if_neg hn).mpr (Or.inr (Or.inl (by rw [hp]; rfl)))))
    simp only [Server.found, hp, searched]
    exact (unchanged_iff_db _).mpr (by rw [Postgres.after_db, Database.enter, if_neg hn])
  | none =>
    obtain ⟨hasked, hrest⟩ := hfinds
    refine iff_of_false (fun hsame => ?_) ?_
    · have hlength := congrArg List.length hsame.objects
      simp [Server.found, hp, Server.made, searched] at hlength
    · rintro (hfails | hlooks)
      · exact absurd (hasked.symm.trans hfails) (by simp)
      · by_cases hn : s.db.db.channelId n = 0
        · rw [if_pos hn] at hlooks hrest
          exact absurd (hrest.1.symm.trans hlooks) (by simp)
        · rw [if_neg hn] at hlooks hrest
          simp [hrest.1, hp] at hlooks hrest
          exact hrest hlooks

/-- While no query fails and the registry holds what the tables do, a search only looks when its
name is there. -/
theorem Coherent.onlyLooks_iff (h : s.Coherent) : s.OnlyLooks n ↔ s.db.db.channelId n ≠ 0 := by
  have hfails (k : ℕ) : s.db.fails k = false := by simp [Postgres.fails, h.faults]
  by_cases hn : s.db.db.channelId n = 0
  · simp [OnlyLooks, hfails, hn]
  · refine iff_of_true (Or.inr ((if_neg hn).mpr (Or.inr ?_))) hn
    by_cases hne : n = ""
    · exact Or.inr hne
    · obtain ⟨p, hp, -⟩ := h.exists_channel hn hne
      exact Or.inl (by rw [hp]; rfl)

end Server

variable [Protocol] {s : Server Postgres} {n : String}

/-- Whoever is unknown or no member is sent nothing, and no query is made. -/
theorem Channel.run_sendHistory_refused (w : World) {p : ChannelPtr} {this : Channel}
    (hthis : s.objects[p]? = some this) {i : UserId}
    (hrefused : s.idClients i = none ∨ i ∉ this.idUsers) (dt : DateTime) :
    (sendHistory WrapperPg.database w p i dt).run s = (.ok ⟨⟩, s) := by
  rw [sendHistory, Prog.run_bind_ok (run_deref hthis)]
  by_cases hi : i ∈ this.idUsers
  · have hunknown : s.idClients i = none := hrefused.resolve_right fun hnot => hnot hi
    simp [hi, UserManager.getUser, Prog.run_bind, hunknown]
  · simp [hi]

/-- What names a channel searches for it first. What comes after that forgets no channel. -/
theorem exists_search (w : World) {call : Call} (hname : call.channelName = some n) :
    ∃ next : ChannelPtr → Prog (Server Postgres) Exn PUnit,
      handle WrapperPg.database w call =
        ChannelsManager.createOrGetChannelByName WrapperPg.database n >>= next ∧
      ∀ p, (next p).Guarantees fun s t => s.db.db.Grows t.db.db := by
  cases call with
  | getHistory request =>
    obtain rfl := Option.some.inj hname
    exact ⟨_, rfl, fun p => keptByRequests_grows.sendHistory keptByQueries_grows
      (fun _ _ => trivial) w p _ _⟩
  | joinRoom request =>
    obtain rfl := Option.some.inj hname
    refine ⟨_, rfl, fun p => ?_⟩
    apply Prog.Guarantees.bind (keptByRequests_grows.read _)
    intro user
    cases user with
    | none => trivial
    | some client =>
      exact (keptByRequests_grows.addUser (fun _ => trivial) w p _).bind fun _ =>
        keptByRequests_grows.inDb (keptByQueries_grows.joinClientChannel WrapperPg.connected _ _)
  | sendText request =>
    obtain rfl := Option.some.inj hname
    exact ⟨_, rfl, fun p => keptByRequests_grows.channelWrite keptByQueries_grows
      Database.grows_insertHistory trivial w p⟩
  | _ => exact absurd hname (by simp [Call.channelName])

/-- A request that is refused for a channel of the tables does nothing after the search. -/
theorem serve_refused_found (h : s.Named) (w : World) {call : Call}
    (hname : call.channelName = some n) (hrefuses : s.Refuses call) (hfinds : s.Finds n)
    (hn : s.db.db.channelId n ≠ 0) :
    serve WrapperPg.database s ⟨w, call⟩ = (s.found n).2 := by
  have hrun := ChannelsManager.run_createOrGetChannelByName_found h hfinds
  cases call with
  | joinRoom request =>
    obtain rfl := Option.some.inj hname
    have hunknown := Server.refuses_joinRoom_iff.mp hrefuses
    exact QueryEngine.serve_joinRoom_unknown w request hrun
      (by rw [Server.found_idClients, hunknown])
  | getHistory request =>
    obtain rfl := Option.some.inj hname
    obtain ⟨this, hthis, -, hmembers⟩ := h.found_object request.channelName
    rw [Server.Refuses, Server.membersOf, if_neg hn, ← hmembers,
      ← Server.found_idClients (n := request.channelName)] at hrefuses
    rw [serve, handle, QueryEngine.getHistory, Prog.run_bind_ok hrun,
      Channel.run_sendHistory_refused w hthis hrefuses]
  | _ => exact hrefuses.elim

/-- Whichever queries fail, and whether it ends with an exception or not, a request that is refused
leaves the server as it was exactly when the search for its channel only looks. -/
theorem unchanged_serve_refused_iff (d : Postgres) (events : List Event) (w : World) {call : Call}
    {n : String} (hname : call.channelName = some n) (hrefuses : (runFrom d events).Refuses call) :
    (runFrom d events).Unchanged (serve WrapperPg.database (runFrom d events) ⟨w, call⟩) ↔
      (runFrom d events).OnlyLooks n := by
  have h : (runFrom d events).Named := named_foldl_serve (backed_start d).named events
  generalize runFrom d events = s at h hrefuses ⊢
  obtain ⟨next, hhandle, hgrows⟩ := exists_search w hname
  by_cases hfinds : s.Finds n
  · have hrun := ChannelsManager.run_createOrGetChannelByName_found h hfinds
    by_cases hn : s.db.db.channelId n = 0
    · -- the name is entered, and whatever follows it stays in the tables
      have hlater : (s.found n).2.db.db.Grows (serve WrapperPg.database s ⟨w, call⟩).db.db := by
        rw [serve, hhandle, Prog.run_bind_ok hrun]
        exact (hgrows _).run keptByRequests_grows.refl keptByRequests_grows.trans _
      have hentered : (s.found n).2.db.db.channelId n ≠ 0 := by
        rw [h.found_db]
        exact Database.channelId_enter_ne_zero n
      refine iff_of_false (fun hsame => ?_) ?_
      · have hid := hlater.channelId n hentered
        rw [hsame.tables, hn] at hid
        exact hentered hid.symm
      · have hrest := hfinds.2
        rw [if_pos hn] at hrest
        simp [Server.OnlyLooks, hfinds.1, hn, hrest.1]
    · rw [serve_refused_found h w hname hrefuses hfinds hn]
      exact h.unchanged_found_iff hfinds
  · obtain ⟨e, d, hrun, htables⟩ :=
      ChannelsManager.run_createOrGetChannelByName_not_finds h hfinds
    rw [serve, hhandle, Prog.run_bind_error hrun]
    exact (Server.unchanged_iff_db d).trans (htables ▸ Server.tablesSearched_eq_iff hfinds)

omit [Protocol] in
/-- A client who is unknown and asks to join the channel of `annJoins`. -/
theorem unchanged_serve_refused_iff_stranger :
    letI := Protocol.oneByte
    (runFrom emptyTables annJoins).Unchanged
      (serve WrapperPg.database (runFrom emptyTables annJoins)
        ⟨.calm, .joinRoom ⟨7, "room"⟩⟩) := by
  let _ := Protocol.oneByte
  have hcoherent : (runFrom emptyTables annJoins).Coherent :=
    runFrom_coherent rfl emptyTables_names annJoins
  have hrefuses : (runFrom emptyTables annJoins).Refuses (.joinRoom ⟨7, "room"⟩) :=
    Server.refuses_joinRoom_iff.mpr (by decide +kernel)
  have hroom : (runFrom emptyTables annJoins).db.db.channelId "room" ≠ 0 := by decide +kernel
  exact (unchanged_serve_refused_iff emptyTables annJoins .calm rfl hrefuses).mpr
    (hcoherent.onlyLooks_iff.mpr hroom)

omit [Protocol] in
/-- On empty tables: a join that is refused makes a channel. -/
theorem not_unchanged_serve_refused :
    letI := Protocol.oneByte
    ¬ ∀ (d : Postgres) (events : List Event) (w : World) (call : Call),
      (runFrom d events).Refuses call →
        (runFrom d events).Unchanged (serve WrapperPg.database (runFrom d events) ⟨w, call⟩) := by
  let _ := Protocol.oneByte
  intro hall
  have hrefuses : (runFrom emptyTables []).Refuses (.joinRoom ⟨7, "room"⟩) :=
    Server.refuses_joinRoom_iff.mpr (by decide +kernel)
  have hsame := hall emptyTables [] .calm (.joinRoom ⟨7, "room"⟩) hrefuses
  have hafter : (serve WrapperPg.database (runFrom emptyTables [])
      ⟨.calm, .joinRoom ⟨7, "room"⟩⟩).objects.length = 1 := by decide +kernel
  rw [hsame.objects] at hafter
  exact absurd hafter (by decide +kernel)

end GatewayServer
