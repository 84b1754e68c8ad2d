import GatewayServer.Database.WrapperPg
import GatewayServer.Lib.Run

/-!
# Queries that fail

`WrapperPg` when any of its queries may fail. A lookup that fails answers zero, which is also the
answer for a name that is not there, and a registration or a new channel goes on to its `INSERT`.
No column but the ids is declared unique in the schema.

## Main definitions

* `Postgres.fails` — whether one of the next queries fails
* `WrapperPg.Entry`, `WrapperPg.enter` — the calls that enter a name, and the tables after one
* `Database.Unique` — no login and no channel name stands in two rows
* `WrapperPg.NeverRepeats` — a run in which that holds all the time
* `WrapperPg.Guarded` — a lookup does not fail on a name that is there, unless the `INSERT` does

## Main results

* `run_select_fails`, `run_insert_fails` — queries that may fail
* `enter_db` — when a call enters a row
* `neverRepeats_iff` — when names stay unique
-/

namespace GatewayServer

open Lib

/-! ## One query -/

/-- The query that comes after `k` others fails. -/
def Postgres.fails (s : Postgres) (k : ℕ) : Bool := s.faults[k]? = some true

/-- PostgreSQL after `k` queries that leave the tables `db`. -/
def Postgres.after (s : Postgres) (k : ℕ) (db : Database) : Postgres where
  db := db
  faults := s.faults.drop k

namespace Postgres

variable (s : Postgres) (k k' : ℕ) (db db' : Database)

@[simp] theorem after_db : (s.after k db).db = db := rfl

@[simp] theorem after_after : (s.after k db).after k' db' = s.after (k + k') db' := by
  rw [after, after, after, List.drop_drop]

@[simp] theorem fails_after : (s.after k db).fails k' = s.fails (k + k') := by
  simp only [fails, after, List.getElem?_drop]

end Postgres

namespace WrapperPg

section Queries

variable (s : Postgres)

/-- A query with an effect that the schema does not refuse. -/
theorem exec_fails {β : Type} (rows : Database → β) (effect : Database → Database) :
    exec (fun db => some (rows db, effect db)) s =
      if s.fails 0 then (none, s.after 1 s.db)
      else (some (rows s.db), s.after 1 (effect s.db)) := by
  obtain ⟨db, faults⟩ := s
  cases faults with
  | nil => rfl
  | cons fault faults => cases fault <;> rfl

theorem run_select_fails {β : Type} (query : String) (rows : Database → β) :
    (select query rows).run s =
      (.ok (if s.fails 0 then none else some (rows s.db)), s.after 1 s.db) := by
  have hexec := exec_fails s rows id
  simp only [id] at hexec
  rw [select, execThreadSafe, Prog.run_atomic, hexec]
  cases s.fails 0 <;> rfl

theorem run_insert_fails (query : String) (effect : Database → Database) :
    (insert query fun db => some (effect db)).run s =
      if s.fails 0 then (.ok none, s.after 1 s.db)
      else (.ok (some ⟨⟩), s.after 1 (effect s.db)) := by
  rw [insert, execThreadSafe, Prog.run_atomic]
  simp only [Option.map_some]
  rw [exec_fails s (fun _ => PUnit.unit) effect]
  cases s.fails 0 <;> rfl

/-- An `INSERT` that the schema may refuse. -/
theorem run_insert_refusable (query : String) (effect : Database → Option Database) :
    ∃ r, (insert query effect).run s =
      (.ok r, s.after 1 (if s.fails 0 then s.db else (effect s.db).getD s.db)) := by
  obtain ⟨db, faults⟩ := s
  rcases faults with _ | ⟨_ | _, faults⟩ <;> cases heffect : effect db <;>
    simp [insert, execThreadSafe, exec, Postgres.after, Postgres.fails, heffect]

/-- A failed `INSERT` and one that succeeds are followed by the same. -/
theorem run_insert_bind_fails {β : Type} (query : String) (effect : Database → Database)
    (p : Prog Postgres Exn β) :
    (insert query (fun db => some (effect db)) >>= fun _ => p).run s =
      p.run (s.after 1 (if s.fails 0 then s.db else effect s.db)) := by
  rw [Prog.run_bind, run_insert_fails]
  cases s.fails 0 <;> rfl

theorem run_getClientId_fails (n : String) :
    (connected.getClientId n).run s =
      (.ok (if s.fails 0 then 0 else s.db.clientId n), s.after 1 s.db) := by
  simp only [getClientId, connected, if_true, Prog.run_bind, run_select_fails]
  cases s.fails 0 <;> rfl

theorem run_getChannelId_fails (n : String) :
    (connected.getChannelId n).run s =
      (.ok (if s.fails 0 then 0 else s.db.channelId n), s.after 1 s.db) := by
  simp only [getChannelId, connected, if_true, Prog.run_bind, run_select_fails]
  cases s.fails 0 <;> rfl

theorem run_getChannelUsers_fails (k : UserId) :
    (connected.getChannelUsers k).run s =
      (.ok (if s.fails 0 then [] else s.db.subscribers k), s.after 1 s.db) := by
  simp only [getChannelUsers, connected, if_true, Prog.run_bind, run_select_fails]
  cases s.fails 0 <;> rfl

/-- The question whether a channel is there is the only one whose failure is not an answer. -/
theorem run_hasChannel_fails (n : String) :
    (connected.hasChannel n).run s =
      (if s.fails 0 then .error (.invalidArgument "wrong hasChannel")
        else .ok (decide (s.db.channelId n ≠ 0)), s.after 1 s.db) := by
  simp only [hasChannel, connected, if_true, Prog.run_bind, run_select_fails,
    Database.exists_channel_iff]
  cases s.fails 0 <;> rfl

/-- A name that is not there is entered unless the `INSERT` fails, and its id is known unless the
lookup after that does. -/
theorem run_createChannel_new_fails {n : String} (hn : s.db.channelId n = 0) :
    (connected.createChannel n).run s =
      (.ok (if s.fails 1 ∨ s.fails 2 then 0 else s.db.channels.next),
        s.after 3 (if s.fails 1 then s.db else s.db.insertChannel n)) := by
  have hlookup : (connected.getChannelId n).run s = (.ok 0, s.after 1 s.db) := by
    rw [run_getChannelId_fails, hn, ite_self]
  have hid : (s.db.insertChannel n).channelId n = s.db.channels.next :=
    SerialTable.firstId_insert_of_none hn (by simp)
  rw [createChannel, if_pos (show connected.isConnected = true from rfl),
    Prog.run_bind_ok hlookup, if_pos rfl, run_insert_bind_fails, run_getChannelId_fails]
  cases hinsert : s.fails 1 <;> cases hagain : s.fails 2 <;> simp [hinsert, hagain, hn, hid]

theorem run_hasChannelClient_fails (k i : UserId) :
    (connected.hasChannelClient k i).run s =
      (.ok (!s.fails 0 && decide (⟨i, k⟩ ∈ s.db.subscriptions)), s.after 1 s.db) := by
  simp only [hasChannelClient, connected, if_true, Prog.run_bind, run_select_fails]
  cases s.fails 0 <;> rfl

/-- Joining enters the pair of a client and a channel unless one of two queries fails: the lookup
of the channel or the `INSERT`. -/
theorem run_joinClientChannel_fails (i : UserId) {n : String} (hn : s.db.channelId n ≠ 0) :
    ∃ r t, (connected.joinClientChannel i n).run s = (r, t) ∧ t.db.channels = s.db.channels ∧
      (∀ sub ∈ s.db.subscriptions, sub ∈ t.db.subscriptions) ∧
      (⟨i, s.db.channelId n⟩ ∈ t.db.subscriptions ↔
        ⟨i, s.db.channelId n⟩ ∈ s.db.subscriptions ∨
          s.fails 0 = false ∧ s.fails 2 = false) := by
  -- a lookup that fails makes the rest work on the pair with zero
  obtain ⟨k, hlookup, hk⟩ : ∃ k, (connected.getChannelId n).run s = (.ok k, s.after 1 s.db) ∧
      (s.fails 0 = false ↔ k = s.db.channelId n) := by
    refine ⟨_, run_getChannelId_fails s n, ?_⟩
    cases s.fails 0 <;> simp [hn.symm]
  have hasked : (connected.hasChannelClient k i).run (s.after 1 s.db) =
      (.ok (!s.fails 1 && decide (⟨i, k⟩ ∈ s.db.subscriptions)), s.after 2 s.db) := by
    rw [run_hasChannelClient_fails, Postgres.fails_after, Postgres.after_after]
    rfl
  rw [joinClientChannel, if_pos (show connected.isConnected = true from rfl),
    Prog.run_bind_ok hlookup, Prog.run_bind_ok hasked]
  by_cases hfound : (!s.fails 1 && decide (⟨i, k⟩ ∈ s.db.subscriptions)) = true
  · have hmem : ⟨i, k⟩ ∈ s.db.subscriptions := of_decide_eq_true (Bool.and_eq_true_iff.mp hfound).2
    rw [if_pos hfound]
    refine ⟨.ok ⟨⟩, s.after 2 s.db, rfl, rfl, fun _ => id, Or.inl, ?_⟩
    rintro (hold | ⟨hok, -⟩)
    · exact hold
    · rwa [hk.mp hok] at hmem
  · rw [if_neg hfound, Prog.run_bind, run_insert_fails]
    cases hinsert : s.fails 2 with
    | true =>
      refine ⟨.ok ⟨⟩, s.after 3 s.db, by simp [hinsert], rfl, fun _ => id, ?_⟩
      simp
    | false =>
      have hformat : expectedArgs
          "joinClientChannel: successfully add client_id=%1% to channel=".toList < 2 := by decide
      refine ⟨.error .tooManyArgs, s.after 3 (s.db.insertSubscription ⟨i, k⟩), ?_, rfl,
        fun sub hsub => List.mem_append_left _ hsub, ?_⟩
      · simp [hinsert, logFormat_of_lt hformat]
      · simp [hk, eq_comm]

end Queries

/-! ## Calls that enter a name -/

/-- The calls that look a name up and enter it when the lookup finds none. -/
inductive Entry where
  | checkRegUser (settings : InputSettings)
  | createChannel (channelName : String)
  deriving DecidableEq, Repr

namespace Entry

/-- The id that the table gives the name. -/
def idIn (db : Database) : Entry → UserId
  | .checkRegUser settings => db.clientId settings.clientName
  | .createChannel channelName => db.channelId channelName

/-- The row that the call enters. -/
def insert (db : Database) : Entry → Database
  | .checkRegUser settings => db.insertClient ⟨settings.clientName, settings.clientPassword⟩
  | .createChannel channelName => db.insertChannel channelName

end Entry

/-- PostgreSQL after a call. -/
def enter (pg : WrapperPg) (s : Postgres) : Entry → Postgres
  | .checkRegUser settings => ((pg.checkRegUser settings).run s).2
  | .createChannel channelName => ((pg.createChannel channelName).run s).2

theorem connected_enter_db (s : Postgres) (e : Entry) :
    (connected.enter s e).db =
      if (s.fails 0 ∨ e.idIn s.db = 0) ∧ ¬ s.fails 1 then e.insert s.db else s.db := by
  -- a lookup that fails is taken for a name that nobody has
  have hzero (id : UserId) : (if s.fails 0 then 0 else id) = 0 ↔ s.fails 0 ∨ id = 0 := by
    cases s.fails 0 <;> simp
  cases e with
  | checkRegUser settings =>
    have hlookup := run_getClientId_fails s settings.clientName
    rw [enter, checkRegUser, if_pos (show connected.isConnected = true from rfl),
      Prog.run_bind_ok hlookup]
    by_cases hfree : s.fails 0 ∨ s.db.clientId settings.clientName = 0
    · rw [if_pos ((hzero _).mpr hfree), run_insert_bind_fails, run_getClientId_fails]
      cases hinsert : s.fails 1 <;> simp [hfree, hinsert, Entry.idIn, Entry.insert]
    · rw [if_neg fun h => hfree ((hzero _).mp h), if_neg fun h => hfree h.1]
      rfl
  | createChannel channelName =>
    have hlookup := run_getChannelId_fails s channelName
    rw [enter, createChannel, if_pos (show connected.isConnected = true from rfl),
      Prog.run_bind_ok hlookup]
    by_cases hfree : s.fails 0 ∨ s.db.channelId channelName = 0
    · rw [if_pos ((hzero _).mpr hfree), run_insert_bind_fails, run_getChannelId_fails]
      cases hinsert : s.fails 1 <;> simp [hfree, hinsert, Entry.idIn, Entry.insert]
    · have hskip : ¬ ((s.fails 0 ∨ s.db.channelId channelName = 0) ∧ ¬ s.fails 1) :=
        fun h => hfree h.1
      rw [if_neg fun h => hfree ((hzero _).mp h), Entry.idIn, if_neg hskip]
      rfl

/-- A call enters a row when its lookup fails or finds nothing, and its `INSERT` does not fail. -/
theorem enter_db (pg : WrapperPg) (s : Postgres) (e : Entry) :
    (pg.enter s e).db =
      if pg.isConnected ∧ (s.fails 0 ∨ e.idIn s.db = 0) ∧ ¬ s.fails 1 then e.insert s.db
      else s.db := by
  obtain ⟨isConnected⟩ := pg
  cases isConnected with
  | false => cases e <;> rfl
  | true =>
    rw [show (⟨true⟩ : WrapperPg) = connected from rfl, connected_enter_db]
    simp [connected]

/-! ## Names that stay unique -/

end WrapperPg

/-- No two rows have the same login, and no two the same channel name. -/
def Database.Unique (db : Database) : Prop :=
  db.clients.Distinct Client.login ∧ db.channels.Distinct id

namespace WrapperPg

/-- A row keeps the names unique when its name was not there, and only then. -/
theorem Entry.unique_insert_iff (db : Database) (e : Entry) :
    (e.insert db).Unique ↔ db.Unique ∧ e.idIn db = 0 := by
  cases e with
  | checkRegUser settings =>
    have hclients :
        (db.clients.insert ⟨settings.clientName, settings.clientPassword⟩).Distinct Client.login ↔
          db.clients.Distinct Client.login ∧ db.clientId settings.clientName = 0 :=
      SerialTable.distinct_insert_iff
    rw [Database.Unique, Entry.insert, Database.insertClient_clients,
      Database.insertClient_channels, hclients, Database.Unique, Entry.idIn]
    exact and_right_comm
  | createChannel channelName =>
    have hchannels : (db.channels.insert channelName).Distinct id ↔
        db.channels.Distinct id ∧ db.channelId channelName = 0 :=
      SerialTable.distinct_insert_iff
    rw [Database.Unique, Entry.insert, Database.insertChannel_clients,
      Database.insertChannel_channels, hchannels, Database.Unique, Entry.idIn]
    exact and_assoc.symm

/-- When the lookup of a call fails on a name that is there, its `INSERT` fails too. -/
def Guarded (pg : WrapperPg) (s : Postgres) (e : Entry) : Prop :=
  pg.isConnected → s.fails 0 → e.idIn s.db ≠ 0 → s.fails 1

instance (pg : WrapperPg) (s : Postgres) (e : Entry) : Decidable (pg.Guarded s e) := by
  unfold Guarded
  infer_instance

/-- The names are unique all the time. -/
def NeverRepeats (pg : WrapperPg) (s : Postgres) (calls : List Entry) : Prop :=
  ∀ before, before <+: calls → (before.foldl pg.enter s).db.Unique

theorem unique_enter_iff {pg : WrapperPg} {s : Postgres} (e : Entry) (h : s.db.Unique) :
    (pg.enter s e).db.Unique ↔ pg.Guarded s e := by
  rw [enter_db]
  split
  · next hinsert =>
    obtain ⟨hconnected, hlookup, hok⟩ := hinsert
    rw [Entry.unique_insert_iff, and_iff_right h]
    constructor
    · intro hfree _ _ hne
      exact absurd hfree hne
    · intro hguarded
      by_contra hne
      exact hok (hguarded hconnected (hlookup.resolve_right hne) hne)
  · next hskip =>
    refine iff_of_true h fun hconnected hfails _ => ?_
    by_contra hok
    exact hskip ⟨hconnected, Or.inl hfails, hok⟩

/-- A name that stands in two rows stays in both. -/
theorem unique_of_unique_enter {pg : WrapperPg} {s : Postgres} (e : Entry)
    (h : (pg.enter s e).db.Unique) : s.db.Unique := by
  rw [enter_db] at h
  split at h
  · exact ((Entry.unique_insert_iff ..).mp h).1
  · exact h

/-- In a run from unique names, whichever queries fail, the names stay unique exactly when no lookup
fails on a name that is there before an `INSERT` that succeeds. -/
theorem neverRepeats_iff (pg : WrapperPg) {s : Postgres} (h : s.db.Unique) (calls : List Entry) :
    pg.NeverRepeats s calls ↔ Along pg.enter pg.Guarded s calls := by
  have hrun (before : List Entry) := foldl_iff_along (I := fun s : Postgres => s.db.Unique)
    (fun s e => @unique_enter_iff pg s e) (fun s e => unique_of_unique_enter e) h before
  constructor
  · intro hunique
    exact (hrun calls).mp (hunique calls (List.prefix_refl _))
  · rintro hguarded before ⟨after, rfl⟩
    exact (hrun before).mpr (along_append.mp hguarded).1

/-- Two lookups fail: the first on a login that is not there, the second before an `INSERT` that
fails too. -/
theorem neverRepeats_iff_two_failures :
    ({ db := .empty, faults := [true, false, false, true, true] } : Postgres).db.Unique ∧
      connected.NeverRepeats { db := .empty, faults := [true, false, false, true, true] }
        [.checkRegUser ⟨"ann", "1"⟩, .checkRegUser ⟨"ann", "2"⟩, .createChannel "room"] := by
  have hempty : Database.empty.Unique := ⟨.empty, .empty⟩
  exact ⟨hempty, (neverRepeats_iff connected hempty _).mpr (by decide +kernel)⟩

/-- A login is registered, and registered again while its lookup fails. -/
theorem not_neverRepeats_failed_lookup :
    ({ db := .empty, faults := [false, false, false, true] } : Postgres).db.Unique ∧
      ¬ connected.NeverRepeats { db := .empty, faults := [false, false, false, true] }
        [.checkRegUser ⟨"ann", "1"⟩, .checkRegUser ⟨"ann", "2"⟩] := by
  refine ⟨⟨.empty, .empty⟩, fun h => ?_⟩
  have hlogins := (h _ (List.prefix_refl _)).1
  exact absurd hlogins (by unfold SerialTable.Distinct; decide +kernel)

end WrapperPg

end GatewayServer
