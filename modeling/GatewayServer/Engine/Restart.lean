import GatewayServer.Engine.Serve
import GatewayServer.Engine.Startup

/-!
# Restarting a server

A server that ran for a while leaves a database behind. Started on it again, a server builds the
registry that the first one had in memory, unless a request has entered the empty channel name:
then the start fails.

## Main definitions

* `runFrom` — the server after a start and some requests

## Main results

* `runFrom_coherent`, `runFrom_names` — what a run keeps, and which names it enters
* `restart_iff_no_empty_name` — when the database of a run can be started on
* `registry_eq_restart` — the registry in memory is the one of a restart
-/

namespace GatewayServer

open Lib

variable [Protocol]

/-- The server after it was started on `d` and has served some requests. -/
def runFrom (d : Postgres) (events : List Event) : Server Postgres :=
  events.foldl (serve WrapperPg.database) (start WrapperPg.database d).2

theorem foldl_serve_coherent {s : Server Postgres} (h : s.Coherent) (events : List Event) :
    (events.foldl (serve WrapperPg.database) s).Coherent :=
  List.foldlRecOn events (serve WrapperPg.database) h fun _ hs e _ => (served hs e).coherent

/-- The channel names after a run are those before it and those in its requests. -/
theorem foldl_serve_names {s : Server Postgres} (h : s.Coherent) (events : List Event)
    (m : String) :
    (events.foldl (serve WrapperPg.database) s).db.db.channelId m ≠ 0 ↔
      s.db.db.channelId m ≠ 0 ∨ ∃ e ∈ events, e.call.channelName = some m := by
  induction events generalizing s with
  | nil => simp
  | cons e events ih =>
    have hserved := served h e
    rw [List.foldl_cons, ih hserved.coherent, hserved.names]
    simp [or_assoc]

theorem runFrom_coherent {d : Postgres} (faults : d.faults = [])
    (hnames : ∀ r ∈ d.db.channels.rows, r.data ≠ "") (events : List Event) :
    (runFrom d events).Coherent := by
  obtain ⟨s, hstart, hcoherent, -⟩ := start_coherent faults hnames
  rw [runFrom, hstart]
  exact foldl_serve_coherent hcoherent events

theorem runFrom_names {d : Postgres} (faults : d.faults = [])
    (hnames : ∀ r ∈ d.db.channels.rows, r.data ≠ "") (events : List Event) (m : String) :
    (runFrom d events).db.db.channelId m ≠ 0 ↔
      d.db.channelId m ≠ 0 ∨ ∃ e ∈ events, e.call.channelName = some m := by
  obtain ⟨s, hstart, hcoherent, hdb, -⟩ := start_coherent faults hnames
  rw [runFrom, hstart, foldl_serve_names hcoherent, hdb]

/-! ## The start after a run -/

/-- PostgreSQL with the schema and no rows. -/
def emptyTables : Postgres := { db := .empty }

omit [Protocol] in
theorem emptyTables_names : ∀ r ∈ emptyTables.db.channels.rows, r.data ≠ "" :=
  List.forall_mem_nil _

/-- The database that a run leaves can be started on exactly when no request of the run had an
empty channel name. -/
theorem restart_iff_no_empty_name (events : List Event) :
    (start WrapperPg.database (runFrom emptyTables events).db).1 = .ok ⟨⟩ ↔
      ∀ e ∈ events, e.call.channelName ≠ some "" := by
  have hcoherent := runFrom_coherent (d := emptyTables) rfl emptyTables_names events
  have hnames := runFrom_names (d := emptyTables) rfl emptyTables_names events ""
  have hfresh : emptyTables.db.channelId "" = 0 := rfl
  constructor
  · intro hok e he hname
    -- the name is in the tables now, and the start fails at its row
    have hid := hnames.mpr (Or.inr ⟨e, he, hname⟩)
    exact start_error hcoherent.faults ⟨_, Database.row_of_channelId hid, rfl⟩ hok
  · intro hevents
    have hrows : ∀ r ∈ (runFrom emptyTables events).db.db.channels.rows, r.data ≠ "" := by
      intro r hr hname
      have hid : (runFrom emptyTables events).db.db.channelId "" ≠ 0 :=
        SerialTable.firstId_ne_zero_of_mem hr (by simpa using hname)
      rcases hnames.mp hid with hold | ⟨e, he, hname⟩
      · exact hold hfresh
      · exact hevents e he hname
    -- no row has an empty name, so the loop of the constructor goes through
    obtain ⟨t, hstart, -⟩ := start_coherent hcoherent.faults hrows
    rw [hstart]

omit [Protocol] in
/-- One request to join a channel with an empty name, and the next start fails. -/
theorem not_restart_after_empty_name :
    letI := Protocol.oneByte
    ¬ ∀ events : List Event,
      (start WrapperPg.database (runFrom emptyTables events).db).1 = .ok ⟨⟩ := by
  let _ := Protocol.oneByte
  intro hall
  have hjoin := hall [⟨.calm, .joinRoom ⟨1, ""⟩⟩]
  have hfails : (start WrapperPg.database
      (runFrom emptyTables [⟨.calm, .joinRoom ⟨1, ""⟩⟩]).db).1 =
        .error (.invalidArgument "Channel: empty name") := by rfl
  rw [hfails] at hjoin
  exact absurd hjoin (by simp)

/-! ## The registry and the one of a restart -/

/-- After any requests with names that are not empty, the registry in memory is the one that a
restart would build: the ids and names of `channels`, with the members of `subscriptions`. -/
theorem registry_eq_restart {d : Postgres} (faults : d.faults = [])
    (hnames : ∀ r ∈ d.db.channels.rows, r.data ≠ "") (events : List Event)
    (hevents : ∀ e ∈ events, e.call.channelName ≠ some "") :
    (start WrapperPg.database d).1 = .ok ⟨⟩ ∧
    (start WrapperPg.database (runFrom d events).db).1 = .ok ⟨⟩ ∧
    (∀ k, (runFrom d events).registry k =
      (start WrapperPg.database (runFrom d events).db).2.registry k) ∧
    (∀ k, ((runFrom d events).idChannels k).isSome ↔
      ∃ r ∈ (runFrom d events).db.db.channels.rows, r.id = k) ∧
    ∀ k p, (runFrom d events).idChannels k = some p →
      ∃ c, (runFrom d events).objects[p]? = some c ∧ c.id = k ∧
        ⟨k, c.name⟩ ∈ (runFrom d events).db.db.channels.rows ∧
        ∀ i, i ∈ c.idUsers ↔ ⟨i, k⟩ ∈ (runFrom d events).db.db.subscriptions := by
  have hcoherent := runFrom_coherent faults hnames events
  have hentered := runFrom_names faults hnames events ""
  -- what follows is about any coherent server without an empty channel name
  generalize runFrom d events = s at hcoherent hentered ⊢
  have hrows : ∀ r ∈ s.db.db.channels.rows, r.data ≠ "" := by
    intro r hr hname
    have hid : s.db.db.channelId "" ≠ 0 :=
      SerialTable.firstId_ne_zero_of_mem hr (by simpa using hname)
    rcases hentered.mp hid with hold | ⟨e, he, hname⟩
    · exact hnames _ (Database.row_of_channelId hold) rfl
    · exact hevents e he hname
  obtain ⟨s₀, hstart₀, -⟩ := start_coherent faults hnames
  obtain ⟨t, hstart, htcoherent, htdb, -⟩ := start_coherent hcoherent.faults hrows
  have hobject : ∀ k p, s.idChannels k = some p →
      ∃ c, s.objects[p]? = some c ∧ c.id = k ∧ ⟨k, c.name⟩ ∈ s.db.db.channels.rows ∧
        ∀ i, i ∈ c.idUsers ↔ ⟨i, k⟩ ∈ s.db.db.subscriptions := by
    intro k p hp
    have hlt := hcoherent.valid k p hp
    refine ⟨s.objects[p], List.getElem?_eq_getElem hlt, ?_⟩
    have hregistry : s.registry k = some s.objects[p] := by
      simp [Server.registry, hp, hlt]
    rw [hcoherent.registry, Database.channelOf_eq_some_iff] at hregistry
    obtain ⟨n, hrow, -, hc⟩ := hregistry
    rw [hc]
    exact ⟨rfl, hrow, fun i => by simp⟩
  refine ⟨by rw [hstart₀], by rw [hstart], ?_, ?_, hobject⟩
  -- both registries are the one that the same tables determine
  · intro k
    rw [hstart, hcoherent.registry, htcoherent.registry, htdb]
  · intro k
    constructor
    · intro hsome
      obtain ⟨p, hp⟩ := Option.isSome_iff_exists.mp hsome
      obtain ⟨c, -, -, hrow, -⟩ := hobject k p hp
      exact ⟨_, hrow, rfl⟩
    · rintro ⟨r, hr, rfl⟩
      have hof := Database.channelOf_eq_some_iff.mpr ⟨r.data, hr, hrows r hr, rfl⟩
      rw [← hcoherent.registry, Server.registry, Option.bind_eq_some_iff] at hof
      obtain ⟨p, hp, -⟩ := hof
      rw [hp]
      rfl

/-- A user who registers and joins a channel. -/
def annJoins : List Event :=
  [⟨.calm, .reg 10 ⟨"ann", "a"⟩⟩, ⟨.calm, .joinRoom ⟨1, "room"⟩⟩]

omit [Protocol] in
theorem registry_eq_restart_annJoins :
    letI := Protocol.oneByte
    (start WrapperPg.database (runFrom emptyTables annJoins).db).1 = .ok ⟨⟩ ∧
    ∀ k, (runFrom emptyTables annJoins).registry k =
      (start WrapperPg.database (runFrom emptyTables annJoins).db).2.registry k := by
  have h := @registry_eq_restart Protocol.oneByte emptyTables rfl emptyTables_names annJoins
    (by simp [annJoins, Call.channelName])
  exact ⟨h.2.1, h.2.2.1⟩

end GatewayServer
