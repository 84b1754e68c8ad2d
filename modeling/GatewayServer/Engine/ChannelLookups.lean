import GatewayServer.Channels.Backing
import GatewayServer.Engine.Restart

/-!
# Looking channels up by name

`createOrGetChannelByName`, `has` and `get` go from a name to an id in the tables, and from the id
to an object in the registry. Once a name has led to an object, it leads there for good, on
whichever of their branches a lookup comes to it.

## Main definitions

* `ChannelsManager.afterLookup` — the server after a call of `createOrGetChannelByName`
* `Server.Holds` — the registry holds an object for a name

## Main results

* `run_createOrGetChannelByName_holds` — the call returns an object, and the registry holds it
* `Holds.afterLookup`, `Coherent.holds_inj` — it stays there, and no other name leads to it
* `registry_lookups` — all lookups by name agree, over any run
-/

namespace GatewayServer

open Lib

namespace Server

/-- The registry holds the object `p` under the id of the name `n`. -/
def Holds (s : Server Postgres) (n : String) (p : ChannelPtr) : Prop :=
  s.db.db.channelId n ≠ 0 ∧ s.idChannels (s.db.db.channelId n) = some p

namespace Coherent

variable {s : Server Postgres} (h : s.Coherent)
include h

/-- The object behind a pointer of the registry has the id and the name of its row. -/
theorem exists_row {k : UserId} {p : ChannelPtr} (hp : s.idChannels k = some p) :
    ∃ c, s.objects[p]? = some c ∧ c.id = k ∧ s.db.db.channels.lookup k = some c.name := by
  have hlt := h.valid k p hp
  refine ⟨s.objects[p], List.getElem?_eq_getElem hlt, ?_⟩
  have hregistry : s.registry k = some s.objects[p] := by simp [Server.registry, hp, hlt]
  rw [h.registry, Database.channelOf_eq_some_iff] at hregistry
  obtain ⟨n, hrow, -, hc⟩ := hregistry
  rw [hc]
  exact ⟨rfl, SerialTable.lookup_eq_some_iff.mpr hrow⟩

/-- One object is held for one name only. -/
theorem holds_inj {n m : String} {p : ChannelPtr} (hn : s.Holds n p) (hm : s.Holds m p) :
    m = n := by
  have hid := h.idChannels_inj hn.2 hm.2
  have hrows := SerialTable.eq_of_id_eq (Database.row_of_channelId hm.1)
    (Database.row_of_channelId hn.1) hid
  exact congrArg Row.data hrows

end Coherent

end Server

namespace ChannelsManager

variable [Protocol] {s : Server Postgres}

/-- The server after a call of `createOrGetChannelByName`, also past an exception. -/
def afterLookup (s : Server Postgres) (n : String) : Server Postgres :=
  ((createOrGetChannelByName WrapperPg.database n).run s).2

/-! ## One call -/

/-- A name whose object is held leads to it, and nothing changes. -/
theorem run_of_holds (h : s.Coherent) {n : String} {p : ChannelPtr} (hheld : s.Holds n p) :
    (createOrGetChannelByName WrapperPg.database n).run s = (.ok p, s) :=
  run_createOrGetChannelByName_stored h.faults hheld.1 hheld.2

/-- A call returns an object, and the registry holds it for the name from then on. -/
theorem run_createOrGetChannelByName_holds (h : s.Coherent) {n : String} (hne : n ≠ "") :
    ∃ p, (createOrGetChannelByName WrapperPg.database n).run s = (.ok p, afterLookup s n) ∧
      (afterLookup s n).Coherent ∧ (afterLookup s n).Holds n p := by
  obtain ⟨p, t, hrun, hcoherent, henters, hp⟩ := run_createOrGetChannelByName h hne
  have hafter : afterLookup s n = t := by rw [afterLookup, hrun]
  rw [hafter]
  exact ⟨p, hrun, hcoherent, (henters.names n).mpr (Or.inr rfl), hp⟩

/-- What the registry holds it still holds after a call for any name. -/
theorem holds_afterLookup (h : s.Coherent) {n : String} {p : ChannelPtr} (hheld : s.Holds n p)
    {m : String} (hne : m ≠ "") : (afterLookup s m).Holds n p := by
  by_cases hm : s.db.db.channelId m = 0
  · -- the new channel stands under the next id, which no name has had
    have hid : (s.db.db.insertChannel m).channelId n = s.db.db.channelId n :=
      SerialTable.firstId_insert_of_ne_zero hheld.1
    have hnext : s.db.db.channelId n ≠ s.db.db.channels.next :=
      Nat.ne_of_lt (SerialTable.firstId_lt_next _)
    rw [afterLookup, run_createOrGetChannelByName_new h hne hm]
    constructor
    · simpa only [hid] using hheld.1
    · simpa only [hid, Function.update_of_ne hnext] using hheld.2
  · obtain ⟨p', hp', -⟩ := h.exists_channel hm hne
    rw [afterLookup, run_of_holds h ⟨hm, hp'⟩]
    exact hheld

/-! ## Runs of calls -/

theorem foldl_afterLookup_coherent (h : s.Coherent) {names : List String}
    (hne : ∀ n ∈ names, n ≠ "") : (names.foldl afterLookup s).Coherent := by
  refine List.foldlRecOn (motive := Server.Coherent) names afterLookup h fun _ hs n hn => ?_
  obtain ⟨_, -, hcoherent, -⟩ := run_createOrGetChannelByName_holds hs (hne n hn)
  exact hcoherent

theorem foldl_afterLookup_holds (h : s.Coherent) {n : String} {p : ChannelPtr}
    (hheld : s.Holds n p) {names : List String} (hne : ∀ m ∈ names, m ≠ "") :
    (names.foldl afterLookup s).Holds n p := by
  refine (List.foldlRecOn (motive := fun t : Server Postgres => t.Coherent ∧ t.Holds n p) names
    afterLookup ⟨h, hheld⟩ fun t ht m hm => ⟨?_, holds_afterLookup ht.1 ht.2 (hne m hm)⟩).2
  obtain ⟨_, -, hcoherent, -⟩ := run_createOrGetChannelByName_holds ht.1 (hne m hm)
  exact hcoherent

/-- No run enters the empty name. -/
theorem foldl_afterLookup_no_empty_name (h : s.Coherent) (hempty : s.db.db.channelId "" = 0)
    {names : List String} (hne : ∀ n ∈ names, n ≠ "") :
    (names.foldl afterLookup s).db.db.channelId "" = 0 := by
  refine (List.foldlRecOn (motive := fun t : Server Postgres =>
    t.Coherent ∧ t.db.db.channelId "" = 0) names afterLookup ⟨h, hempty⟩ fun t ht n hn => ?_).2
  obtain ⟨p, u, hrun, hcoherent, henters, -⟩ := run_createOrGetChannelByName ht.1 (hne n hn)
  rw [afterLookup, hrun]
  refine ⟨hcoherent, ?_⟩
  by_contra hid
  rcases (henters.names "").mp hid with hold | hname
  · exact hold ht.2
  · exact hne n hn hname.symm

/-- A call returns the channel with the name, under the id that the tables give the name. -/
theorem run_createOrGetChannelByName_object (h : s.Coherent) {n : String} (hne : n ≠ "") :
    ∃ p t c, (createOrGetChannelByName WrapperPg.database n).run s = (.ok p, t) ∧
      t.Coherent ∧ t.Holds n p ∧ t.objects[p]? = some c ∧ c.name = n ∧
      (WrapperPg.connected.getChannelId n).run t.db = (.ok c.id, t.db) := by
  obtain ⟨p, hrun, hcoherent, hheld⟩ := run_createOrGetChannelByName_holds h hne
  obtain ⟨c, hc, hid, hlookup⟩ := hcoherent.exists_row hheld.2
  refine ⟨p, _, c, hrun, hcoherent, hheld, hc, ?_, ?_⟩
  · have hrows := SerialTable.eq_of_id_eq (SerialTable.lookup_eq_some_iff.mp hlookup)
      (Database.row_of_channelId hheld.1) rfl
    exact congrArg Row.data hrows
  · rw [hid]
    exact WrapperPg.run_getChannelId hcoherent.faults n

/-- After an object is held for `n`, later calls return it for `n` and for no other name. -/
theorem run_later (h : s.Coherent) {n : String} {p : ChannelPtr} (hheld : s.Holds n p)
    {later : List String} (hlater : ∀ m ∈ later, m ≠ "") {m : String} (hne : m ≠ "") :
    ∃ q t, (createOrGetChannelByName WrapperPg.database m).run (later.foldl afterLookup s) =
      (.ok q, t) ∧ (q = p ↔ m = n) := by
  have hcoherent := foldl_afterLookup_coherent h hlater
  have hkept := foldl_afterLookup_holds h hheld hlater
  obtain ⟨q, hrun, hcoherent', hm⟩ := run_createOrGetChannelByName_holds hcoherent hne
  have hn := holds_afterLookup hcoherent hkept hne
  refine ⟨q, _, hrun, ?_⟩
  constructor
  · rintro rfl
    exact hcoherent'.holds_inj hn hm
  · rintro rfl
    exact Option.some.inj (hm.2.symm.trans hn.2)

/-! ## The other lookups -/

omit [Protocol] in
/-- An object that stands under the id of a name is held for the name. -/
theorem holds_of_isSome (h : s.Coherent) {n : String}
    (hsome : (s.idChannels (s.db.db.channelId n)).isSome) : ∃ p, s.Holds n p := by
  obtain ⟨p, hp⟩ := Option.isSome_iff_exists.mp hsome
  obtain ⟨c, -, -, hrow⟩ := h.exists_row hp
  have hpos := s.db.db.channels.id_pos _ (SerialTable.lookup_eq_some_iff.mp hrow)
  exact ⟨p, Nat.ne_of_gt hpos, hp⟩

/-- `has` is true exactly of the names in the tables. -/
theorem run_has (h : s.Coherent) (hempty : s.db.db.channelId "" = 0) (n : String) :
    (has WrapperPg.database n).run s =
      (.ok (decide (∃ r ∈ s.db.db.channels.rows, r.data = n)), s) := by
  have hiff : (s.idChannels (s.db.db.channelId n)).isSome =
      decide (∃ r ∈ s.db.db.channels.rows, r.data = n) := by
    rw [Bool.eq_iff_iff, decide_eq_true_iff]
    constructor
    · intro hsome
      obtain ⟨p, hheld⟩ := holds_of_isSome h hsome
      exact ⟨_, Database.row_of_channelId hheld.1, rfl⟩
    · rintro ⟨r, hr, rfl⟩
      have hid : s.db.db.channelId r.data ≠ 0 :=
        SerialTable.firstId_ne_zero_of_mem hr (by simp)
      have hne : r.data ≠ "" := fun hdata => hid (hdata ▸ hempty)
      obtain ⟨p, hp, -⟩ := h.exists_channel hid hne
      rw [hp]
      rfl
  rw [has, Prog.run_bind_ok (Server.run_inDb_ok (WrapperPg.run_getChannelId h.faults n)),
    Prog.run_read, hiff]

theorem run_get_of_holds (h : s.Coherent) {n : String} {p : ChannelPtr} (hheld : s.Holds n p) :
    (get WrapperPg.database n).run s = (.ok p, s) := by
  rw [get, Prog.run_bind_ok (Server.run_inDb_ok (WrapperPg.run_getChannelId h.faults n)),
    Prog.run_bind_ok (Prog.run_read _ _)]
  simp only [hheld.2]
  rfl

end ChannelsManager

variable [Protocol]

/-- Over any calls of `createOrGetChannelByName`, all lookups of channels by name agree. -/
theorem registry_lookups {d : Postgres} (faults : d.faults = [])
    (hnames : ∀ r ∈ d.db.channels.rows, r.data ≠ "") (names : List String)
    (hne : ∀ n ∈ names, n ≠ "") :
    let s := names.foldl ChannelsManager.afterLookup (start WrapperPg.database d).2
    (start WrapperPg.database d).1 = .ok ⟨⟩ ∧
    -- the registry and the rows of `channels`
    (∀ k p, s.idChannels k = some p →
      ∃ c, s.objects[p]? = some c ∧ c.id = k ∧ s.db.db.channels.lookup k = some c.name) ∧
    -- the channel of a name, now and in every later call
    (∀ n, n ≠ "" → ∃ p t c,
      (ChannelsManager.createOrGetChannelByName WrapperPg.database n).run s = (.ok p, t) ∧
      t.objects[p]? = some c ∧ c.name = n ∧
      (WrapperPg.connected.getChannelId n).run t.db = (.ok c.id, t.db) ∧
      ∀ later : List String, (∀ m ∈ later, m ≠ "") → ∀ m, m ≠ "" → ∃ q u,
        (ChannelsManager.createOrGetChannelByName WrapperPg.database m).run
          (later.foldl ChannelsManager.afterLookup t) = (.ok q, u) ∧ (q = p ↔ m = n)) ∧
    -- `has` and `get`
    (∀ n, (ChannelsManager.has WrapperPg.database n).run s =
      (.ok (decide (∃ r ∈ s.db.db.channels.rows, r.data = n)), s)) ∧
    ∀ n, ((ChannelsManager.has WrapperPg.database n).run s).1 = .ok true → ∃ p,
      (ChannelsManager.get WrapperPg.database n).run s = (.ok p, s) ∧
      (ChannelsManager.createOrGetChannelByName WrapperPg.database n).run s = (.ok p, s) := by
  obtain ⟨s₀, hstart, hcoherent₀, hdb, -⟩ := start_coherent faults hnames
  have hempty₀ : s₀.db.db.channelId "" = 0 := by
    rw [hdb, Database.channelId, SerialTable.firstId_eq_zero_iff_forall]
    intro r hr
    simpa using hnames r hr
  rw [hstart]
  intro s
  have hcoherent : s.Coherent := ChannelsManager.foldl_afterLookup_coherent hcoherent₀ hne
  have hempty : s.db.db.channelId "" = 0 :=
    ChannelsManager.foldl_afterLookup_no_empty_name hcoherent₀ hempty₀ hne
  refine ⟨rfl, fun k p hp => hcoherent.exists_row hp, ?_, ?_, ?_⟩
  · intro n hn
    obtain ⟨p, t, c, hrun, ht, hheld, hc, hname, hid⟩ :=
      ChannelsManager.run_createOrGetChannelByName_object hcoherent hn
    refine ⟨p, t, c, hrun, hc, hname, hid, ?_⟩
    intro later hlater m hm
    exact ChannelsManager.run_later ht hheld hlater hm
  · exact ChannelsManager.run_has hcoherent hempty
  · intro n hhas
    rw [ChannelsManager.run_has hcoherent hempty n] at hhas
    obtain ⟨r, hr, rfl⟩ : ∃ r ∈ s.db.db.channels.rows, r.data = n := by simpa using hhas
    have hid : s.db.db.channelId r.data ≠ 0 := SerialTable.firstId_ne_zero_of_mem hr (by simp)
    have hdata : r.data ≠ "" := fun hdata => hid (hdata ▸ hempty)
    obtain ⟨p, hp, -⟩ := hcoherent.exists_channel hid hdata
    exact ⟨p, ChannelsManager.run_get_of_holds hcoherent ⟨hid, hp⟩,
      ChannelsManager.run_of_holds hcoherent ⟨hid, hp⟩⟩

omit [Protocol] in
/-- Two channels made on empty tables, and the first of them looked up. -/
theorem registry_lookups_two_rooms :
    letI := Protocol.oneByte
    let s := ["room", "hall"].foldl ChannelsManager.afterLookup
      (start WrapperPg.database emptyTables).2
    ∃ p, (ChannelsManager.get WrapperPg.database "room").run s = (.ok p, s) ∧
      (ChannelsManager.createOrGetChannelByName WrapperPg.database "room").run s = (.ok p, s) := by
  have h := @registry_lookups Protocol.oneByte emptyTables rfl emptyTables_names ["room", "hall"]
    (by decide)
  exact h.2.2.2.2 "room" rfl

end GatewayServer
