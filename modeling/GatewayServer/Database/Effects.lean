import GatewayServer.Database.WrapperPg

/-!
# What queries may change

The tables before and after a query of `WrapperPg`, whether the query fails or not. A relation
between tables that the possible insertions keep holds across every step of every operation,
whatever runs beside it.

## Main definitions

* `WrapperPg.Across` — the tables before and after a step are related
* `WrapperPg.KeptByQueries` — the relation holds across every query, storing a message aside

## Main results

* `KeptByQueries.checkRegUser`, … — it holds across every step of the operations
-/

namespace GatewayServer.WrapperPg

open Lib

/-- The tables of two states of PostgreSQL are related. -/
def Across (D : Database → Database → Prop) (s t : Postgres) : Prop := D s.db t.db

/-- A relation that holds when nothing changes, and when a row is inserted into any table but
`history`. -/
structure KeptByQueries (D : Database → Database → Prop) : Prop where
  refl : ∀ db, D db db
  insertClient : ∀ db c, D db (db.insertClient c)
  insertChannel : ∀ db n, D db (db.insertChannel n)
  insertSubscription : ∀ db sub, D db (db.insertSubscription sub)

namespace KeptByQueries

variable {D : Database → Database → Prop} (h : KeptByQueries D)
include h

theorem execThreadSafe {β : Type} (query : String) {effect : Database → Option (β × Database)}
    (heffect : ∀ db rows db', effect db = some (rows, db') → D db db') :
    (execThreadSafe query effect).Guarantees (Across D) := by
  refine .atomic ?_
  intro s
  obtain ⟨db, faults⟩ := s
  unfold exec
  -- the query fails, or has its effect
  cases hresult : effect db with
  | none => rcases faults with - | ⟨- | -, faults⟩ <;> exact h.refl db
  | some result =>
    have hD := heffect db result.1 result.2 hresult
    rcases faults with - | ⟨- | -, faults⟩
    · exact hD
    · exact hD
    · exact h.refl db

theorem select {β : Type} (query : String) (rows : Database → β) :
    (WrapperPg.select query rows).Guarantees (Across D) := by
  apply h.execThreadSafe query
  intro db r db' heffect
  obtain ⟨-, rfl⟩ := Prod.mk.inj (Option.some.inj heffect)
  exact h.refl db

theorem insert {query : String} {effect : Database → Option Database}
    (heffect : ∀ db db', effect db = some db' → D db db') :
    (WrapperPg.insert query effect).Guarantees (Across D) := by
  apply h.execThreadSafe query
  intro db r db' hresult
  obtain ⟨db'', hdb, heq⟩ := Option.map_eq_some_iff.mp hresult
  obtain ⟨-, rfl⟩ := Prod.mk.inj heq
  exact heffect db db'' hdb

variable (pg : WrapperPg)

/-! ## The operations -/

theorem getClientId (n : String) : (pg.getClientId n).Guarantees (Across D) := by
  unfold WrapperPg.getClientId
  split
  · exact (h.select _ _).bind fun _ => trivial
  · trivial

theorem getChannelId (n : String) : (pg.getChannelId n).Guarantees (Across D) := by
  unfold WrapperPg.getChannelId
  split
  · exact (h.select _ _).bind fun _ => trivial
  · trivial

theorem checkRegUser (settings : InputSettings) :
    (pg.checkRegUser settings).Guarantees (Across D) := by
  unfold WrapperPg.checkRegUser
  split
  · refine (h.getClientId pg _).bind fun found => ?_
    split
    · refine (h.insert ?_).bind fun _ => h.getClientId pg _
      rintro db _ ⟨⟩
      exact h.insertClient db _
    · trivial
  · trivial

theorem checkAuthUser (settings : InputSettings) :
    (pg.checkAuthUser settings).Guarantees (Across D) := by
  unfold WrapperPg.checkAuthUser
  split
  · exact (h.select _ _).bind fun _ => trivial
  · trivial

theorem getUserNameChannels (i : UserId) :
    (pg.getUserNameChannels i).Guarantees (Across D) := by
  unfold WrapperPg.getUserNameChannels
  split
  · exact (h.select _ _).bind fun _ => trivial
  · trivial

theorem getChannelUsers (k : UserId) : (pg.getChannelUsers k).Guarantees (Across D) := by
  unfold WrapperPg.getChannelUsers
  split
  · exact (h.select _ _).bind fun _ => trivial
  · trivial

theorem hasChannel (n : String) : (pg.hasChannel n).Guarantees (Across D) := by
  unfold WrapperPg.hasChannel
  split
  · refine (h.select _ _).bind fun res => ?_
    cases res <;> trivial
  · trivial

theorem createChannel (n : String) : (pg.createChannel n).Guarantees (Across D) := by
  unfold WrapperPg.createChannel
  split
  · refine (h.getChannelId pg n).bind fun channelId => ?_
    split
    · refine (h.insert ?_).bind fun _ => h.getChannelId pg n
      rintro db _ ⟨⟩
      exact h.insertChannel db n
    · trivial
  · trivial

theorem hasChannelClient (k i : UserId) :
    (pg.hasChannelClient k i).Guarantees (Across D) := by
  unfold WrapperPg.hasChannelClient
  split
  · exact (h.select _ _).bind fun _ => trivial
  · trivial

theorem joinClientChannel (i : UserId) (n : String) :
    (pg.joinClientChannel i n).Guarantees (Across D) := by
  unfold WrapperPg.joinClientChannel
  split
  · refine (h.getChannelId pg n).bind fun channelId => ?_
    refine (h.hasChannelClient pg channelId i).bind fun joined => ?_
    split
    · trivial
    · refine (h.insert ?_).bind fun res => ?_
      · rintro db _ ⟨⟩
        exact h.insertSubscription db _
      · cases res with
        | none => trivial
        | some _ =>
          unfold logFormat
          split <;> trivial
  · trivial

/-- Storing a message needs that the relation holds when the row is stored. -/
theorem addMsgHistory (hhistory : ∀ db row db', db.insertHistory row = some db' → D db db')
    (k : UserId) (m : ClientTextMsg) : (pg.addMsgHistory k m).Guarantees (Across D) :=
  (h.getClientId pg m.author).bind fun _ =>
    (h.insert fun db db' => hhistory db _ db').bind fun _ => trivial

theorem getClientName (i : UserId) : (pg.getClientName i).Guarantees (Across D) := by
  unfold WrapperPg.getClientName
  split
  · exact (h.select _ _).bind fun _ => trivial
  · trivial

theorem getChannelName (k : UserId) : (pg.getChannelName k).Guarantees (Across D) := by
  unfold WrapperPg.getChannelName
  split
  · exact (h.select _ _).bind fun _ => trivial
  · trivial

theorem historyMessages [Protocol] (n : String) (rows : List HistoryRow) :
    (pg.historyMessages n rows).Guarantees (Across D) := by
  induction rows with
  | nil => trivial
  | cons row rows ih =>
    exact (h.getClientName pg row.clientId).bind fun _ => ih.bind fun _ => trivial

theorem getHistory [Protocol] (k : UserId) : (pg.getHistory k).Guarantees (Across D) := by
  unfold WrapperPg.getHistory
  split
  · exact (h.getChannelName pg k).bind fun n =>
      (h.select _ _).bind fun res => h.historyMessages pg n _
  · trivial

end KeptByQueries

end GatewayServer.WrapperPg
