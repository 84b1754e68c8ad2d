import GatewayServer.Channels.Coherence
import GatewayServer.Database.FailedQueries

/-!
# Members that the tables know

When queries may fail, the registry no longer holds what a start would make of the tables. What can
be kept is that every member of a channel in memory is a subscriber in the tables.

## Main definitions

* `Database.Grows` — channels, their ids by name, and subscriptions are only added to
* `Server.Named` — channels in memory stand under ids and names of the tables
* `Database.Knows`, `Server.Backed` — the tables have a channel and its members, and all of them
* `Server.Finds`, `Server.lookups` — whether `createOrGetChannelByName` comes to a channel, and
  with how many queries
* `Server.found` — the channel it comes to
* `Server.tablesSearched` — the tables after a search

## Main results

* `Backed.of_grows`, `Backed.store`, `Backed.addMember` — what keeps members backed
* `run_createOrGetChannelByName_found`, `run_createOrGetChannelByName_not_finds` — the channel of a
  name, whichever queries fail
-/

namespace GatewayServer

open Lib

/-- What is in `channels` and `subscriptions` stays there, and the id of a name stays its id. -/
structure Database.Grows (db db' : Database) : Prop where
  rows : ∀ r ∈ db.channels.rows, r ∈ db'.channels.rows
  channelId : ∀ n, db.channelId n ≠ 0 → db'.channelId n = db.channelId n
  subscriptions : ∀ sub ∈ db.subscriptions, sub ∈ db'.subscriptions

namespace Database.Grows

variable {db db' : Database}

theorem of_channels (hchannels : db'.channels = db.channels)
    (hsubs : ∀ sub ∈ db.subscriptions, sub ∈ db'.subscriptions) : db.Grows db' where
  rows r hr := hchannels ▸ hr
  channelId n _ := by simp only [Database.channelId, hchannels]
  subscriptions := hsubs

theorem refl (db : Database) : db.Grows db := .of_channels rfl fun _ => id

theorem trans {db'' : Database} (h : db.Grows db') (h' : db'.Grows db'') : db.Grows db'' where
  rows r hr := h'.rows r (h.rows r hr)
  channelId n hn := by
    have hid := h.channelId n hn
    rw [h'.channelId n (hid.symm ▸ hn), hid]
  subscriptions sub hsub := h'.subscriptions sub (h.subscriptions sub hsub)

theorem insertChannel (db : Database) (n : String) : db.Grows (db.insertChannel n) where
  rows _ hr := List.mem_append_left _ hr
  channelId _ hm := SerialTable.firstId_insert_of_ne_zero hm
  subscriptions _ := id

theorem enter (db : Database) (n : String) : db.Grows (db.enter n) := by
  unfold Database.enter
  split
  · exact .insertChannel _ _
  · exact .refl _

end Database.Grows

/-- The tables know a channel with the id `k`, and its members as subscribers. -/
structure Database.Knows (db : Database) (k : UserId) (c : Channel) : Prop where
  id_eq : c.id = k
  row : ⟨k, c.name⟩ ∈ db.channels.rows
  members : ∀ i ∈ c.idUsers, ⟨i, k⟩ ∈ db.subscriptions

namespace Database.Knows

variable {db db' : Database} {k : UserId} {c : Channel}

theorem of_grows (h : db.Knows k c) (hgrows : db.Grows db') : db'.Knows k c where
  id_eq := h.id_eq
  row := hgrows.rows _ h.row
  members i hi := hgrows.subscriptions _ (h.members i hi)

theorem insert (h : db.Knows k c) {i : UserId} (hi : ⟨i, k⟩ ∈ db.subscriptions) :
    db.Knows k { c with idUsers := insert i c.idUsers } where
  id_eq := h.id_eq
  row := h.row
  members j hj := by
    rcases Finset.mem_insert.mp hj with rfl | hj
    · exact hi
    · exact h.members j hj

theorem ne_zero (h : db.Knows k c) : k ≠ 0 := Nat.ne_of_gt (db.channels.id_pos _ h.row)

end Database.Knows

namespace Server

/-- Users stand under their ids, and channels in memory under the ids and names of the tables. -/
structure Named (s : Server Postgres) : Prop where
  keyed : ∀ i user, s.idClients i = some user → user.id = i
  /-- A pointer of the registry points to an object. -/
  valid : ∀ k p, s.idChannels k = some p → p < s.objects.length
  registry : ∀ k c, s.registry k = some c → c.id = k ∧ ⟨k, c.name⟩ ∈ s.db.db.channels.rows

namespace Named

variable {s : Server Postgres} (h : s.Named)
include h

theorem of_grows {d : Postgres} (hgrows : s.db.db.Grows d.db) : Named { s with db := d } where
  keyed := h.keyed
  valid := h.valid
  registry k c hc := (h.registry k c hc).imp_right fun hrow => hgrows.rows _ hrow

theorem log (w : World) (new : List Write) : (s.log w new).Named where
  keyed := h.keyed
  valid := h.valid
  registry := h.registry

theorem push (data : User) : ((UserManager.push data).run s).2.Named := by
  rw [UserManager.run_push]
  refine ⟨?_, h.valid, h.registry⟩
  intro i known hknown
  by_cases hi : i = data.id
  · obtain rfl : UserManager.pushed (s.idClients data.id) data = known := by
      simpa [hi] using hknown
    rw [hi]
    exact UserManager.pushed_id data fun user huser => h.keyed _ user huser
  · exact h.keyed i known (by simpa [hi] using hknown)

/-- A new channel with an id and a name of the tables. -/
theorem store {k : UserId} {c : Channel} (hid : c.id = k)
    (hrow : ⟨k, c.name⟩ ∈ s.db.db.channels.rows) :
    Named { s with
      objects := s.objects ++ [c]
      idChannels := Function.update s.idChannels k (some s.objects.length) } where
  keyed := h.keyed
  valid k' p hp := by
    rw [List.length_append]
    by_cases hk : k' = k
    · obtain rfl : s.objects.length = p := by simpa [hk] using hp
      exact Nat.lt_succ_self _
    · exact Nat.lt_succ_of_lt (h.valid k' p (by simpa [hk] using hp))
  registry k' c' hc' := by
    rw [registry_store h.valid] at hc'
    by_cases hk : k' = k
    · obtain rfl : c = c' := by simpa [hk] using hc'
      rw [hk]
      exact ⟨hid, hrow⟩
    · exact h.registry k' c' (by simpa [hk] using hc')

/-- The object behind a pointer of the registry. -/
theorem exists_object {k : UserId} {p : ChannelPtr} (hp : s.idChannels k = some p) :
    ∃ this, s.objects[p]? = some this ∧ s.registry k = some this := by
  have hlt := h.valid k p hp
  exact ⟨s.objects[p], List.getElem?_eq_getElem hlt, by simp [Server.registry, hp, hlt]⟩

/-- No two ids have the same pointer. -/
theorem idChannels_inj {k k' : UserId} {p : ChannelPtr} (hp : s.idChannels k = some p)
    (hp' : s.idChannels k' = some p) : k' = k := by
  obtain ⟨this, hthis, hregistry⟩ := h.exists_object hp
  obtain ⟨this', hthis', hregistry'⟩ := h.exists_object hp'
  obtain rfl := Option.some.inj (hthis.symm.trans hthis')
  rw [← (h.registry k this hregistry).1, ← (h.registry k' this hregistry').1]

/-- The members of a channel may change. -/
theorem setMembers {k : UserId} {p : ChannelPtr} (hp : s.idChannels k = some p) {this : Channel}
    (hthis : s.objects[p]? = some this) (idUsers : Finset UserId) :
    Named { s with objects := s.objects.set p { this with idUsers } } where
  keyed := h.keyed
  valid k' p' hp' := by
    rw [List.length_set]
    exact h.valid k' p' hp'
  registry k' c hc := by
    rw [Server.registry_set hp (h.valid k p hp) fun k' hp' => h.idChannels_inj hp hp'] at hc
    by_cases hk : k' = k
    · obtain rfl := Option.some.inj ((if_pos hk).symm.trans hc)
      have hregistry : s.registry k = some this := by simp [Server.registry, hp, hthis]
      exact hk ▸ h.registry k this hregistry
    · exact h.registry k' c ((if_neg hk).symm.trans hc)

/-- A channel under the id of a name has this name. -/
theorem name_eq {n : String} {c : Channel} (hc : s.registry (s.db.db.channelId n) = some c) :
    c.name = n := by
  have hrow := (h.registry _ c hc).2
  have hn : s.db.db.channelId n ≠ 0 := Nat.ne_of_gt (s.db.db.channels.id_pos _ hrow)
  have hrows := SerialTable.eq_of_id_eq hrow (Database.row_of_channelId hn) rfl
  exact congrArg Row.data hrows

/-- Zero is the id of no channel. -/
theorem idChannels_zero : s.idChannels 0 = none := by
  cases hp : s.idChannels 0 with
  | none => rfl
  | some p =>
    obtain ⟨this, -, hregistry⟩ := h.exists_object hp
    exact absurd rfl (Nat.ne_of_gt (s.db.db.channels.id_pos _ (h.registry 0 this hregistry).2))

end Named

/-- A coherent server has the channels of its tables. -/
theorem Coherent.named {s : Server Postgres} (h : s.Coherent) : s.Named where
  keyed := h.keyed
  valid := h.valid
  registry k c hc := by
    obtain ⟨n, hrow, -, rfl⟩ := Database.channelOf_eq_some_iff.mp ((h.registry k).symm.trans hc)
    exact ⟨rfl, hrow⟩

/-- The tables know the channels in memory, and every member of them. -/
structure Backed (s : Server Postgres) : Prop where
  /-- A user stands under its own id. -/
  keyed : ∀ i user, s.idClients i = some user → user.id = i
  /-- A pointer of the registry points to an object. -/
  valid : ∀ k p, s.idChannels k = some p → p < s.objects.length
  registry : ∀ k c, s.registry k = some c → s.db.db.Knows k c

namespace Backed

variable {s : Server Postgres}

theorem of_named (h : s.Named)
    (members : ∀ k c, s.registry k = some c → ∀ i ∈ c.idUsers, ⟨i, k⟩ ∈ s.db.db.subscriptions) :
    s.Backed where
  keyed := h.keyed
  valid := h.valid
  registry k c hc := ⟨(h.registry k c hc).1, (h.registry k c hc).2, members k c hc⟩

theorem initial (d : Postgres) : (Server.initial d).Backed where
  keyed _ _ hi := absurd hi (by simp [Server.initial])
  valid _ _ hk := absurd hk (by simp [Server.initial])
  registry _ _ hk := absurd hk (by simp [Server.initial, Server.registry])

variable (h : s.Backed)
include h

theorem named : s.Named where
  keyed := h.keyed
  valid := h.valid
  registry k c hc := ⟨(h.registry k c hc).id_eq, (h.registry k c hc).row⟩

/-- Tables that grow still know the members. -/
theorem of_grows {d : Postgres} (hgrows : s.db.db.Grows d.db) : Backed { s with db := d } where
  keyed := h.keyed
  valid := h.valid
  registry k c hc := (h.registry k c hc).of_grows hgrows

theorem log (w : World) (new : List Write) : (s.log w new).Backed where
  keyed := h.keyed
  valid := h.valid
  registry := h.registry

theorem push (data : User) : ((UserManager.push data).run s).2.Backed := by
  refine .of_named (h.named.push data) ?_
  rw [UserManager.run_push]
  exact fun k c hc => (h.registry k c hc).members

/-- A new channel that the tables know. -/
theorem store {k : UserId} {c : Channel} (hc : s.db.db.Knows k c) :
    Backed { s with
      objects := s.objects ++ [c]
      idChannels := Function.update s.idChannels k (some s.objects.length) } := by
  refine .of_named (h.named.store hc.id_eq hc.row) ?_
  intro k' c' hc'
  rw [registry_store h.valid] at hc'
  by_cases hk : k' = k
  · obtain rfl : c = c' := by simpa [hk] using hc'
    exact hk ▸ hc.members
  · exact (h.registry k' c' (by simpa [hk] using hc')).members

/-- The object behind a pointer of the registry. -/
theorem exists_object {k : UserId} {p : ChannelPtr} (hp : s.idChannels k = some p) :
    ∃ this, s.objects[p]? = some this ∧ s.db.db.Knows k this := by
  obtain ⟨this, hthis, hregistry⟩ := h.named.exists_object hp
  exact ⟨this, hthis, h.registry k this hregistry⟩

/-- A new member that the tables know by then. -/
theorem addMember {k : UserId} {p : ChannelPtr} (hp : s.idChannels k = some p) {this : Channel}
    (hthis : s.objects[p]? = some this) {i : UserId} (hi : ⟨i, k⟩ ∈ s.db.db.subscriptions) :
    Backed { s with
      objects := s.objects.set p { this with idUsers := insert i this.idUsers } } := by
  refine .of_named (h.named.setMembers hp hthis _) ?_
  intro k' c hc
  rw [Server.registry_set hp (h.valid k p hp) fun k' hp' => h.named.idChannels_inj hp hp'] at hc
  by_cases hk : k' = k
  · obtain rfl := Option.some.inj ((if_pos hk).symm.trans hc)
    have hknows : s.registry k = some this := by simp [Server.registry, hp, hthis]
    exact hk ▸ ((h.registry k this hknows).insert hi).members
  · exact (h.registry k' c ((if_neg hk).symm.trans hc)).members

end Backed

/-- The search for a channel comes to one: no query fails that it depends on, and a channel that
has to be made has a name. -/
def Finds (s : Server Postgres) (n : String) : Prop :=
  s.db.fails 0 = false ∧
    if s.db.db.channelId n = 0 then s.db.fails 2 = false ∧ s.db.fails 3 = false ∧ n ≠ ""
    else s.db.fails 1 = false ∧ ((s.idChannels (s.db.db.channelId n)).isSome ∨ n ≠ "")

instance (s : Server Postgres) (n : String) : Decidable (s.Finds n) := by
  unfold Finds
  infer_instance

/-- The tables after a search: a name that is not there is entered, unless one of two queries
fails. -/
def tablesSearched (s : Server Postgres) (n : String) : Database :=
  if s.db.db.channelId n = 0 ∧ s.db.fails 0 = false ∧ s.db.fails 2 = false then
    s.db.db.insertChannel n
  else s.db.db

theorem grows_tablesSearched (s : Server Postgres) (n : String) :
    s.db.db.Grows (s.tablesSearched n) := by
  unfold tablesSearched
  split
  · exact .insertChannel _ _
  · exact .refl _

/-- How many queries a search that comes to a channel makes. -/
def lookups (s : Server Postgres) (n : String) : ℕ :=
  if s.db.db.channelId n = 0 then 5
  else if (s.idChannels (s.db.db.channelId n)).isSome then 2 else 3

/-- The server after a channel was made and stored, with the members that the tables hold, or with
none when the query for them fails. -/
def made (s : Server Postgres) (n : String) (k : UserId) : Server Postgres :=
  { s with
    db := s.db.after 1 s.db.db
    objects := s.objects ++
      [⟨n, k, (if s.db.fails 0 then [] else s.db.db.subscribers k).toFinset⟩]
    idChannels := Function.update s.idChannels k (some s.objects.length) }

@[simp] theorem made_db (s : Server Postgres) (n : String) (k : UserId) :
    (s.made n k).db = s.db.after 1 s.db.db := rfl

/-- The server in which a search has come to the id of its channel. -/
def searched (s : Server Postgres) (n : String) : Server Postgres :=
  { s with db := s.db.after (if s.db.db.channelId n = 0 then 4 else 2) (s.db.db.enter n) }

/-- The channel that a search comes to, and the server after it. -/
def found (s : Server Postgres) (n : String) : ChannelPtr × Server Postgres :=
  match s.idChannels (s.db.db.channelId n) with
  | some p => (p, s.searched n)
  | none => (s.objects.length, (s.searched n).made n ((s.db.db.enter n).channelId n))

/-- From `s` to `t` the search for a channel has come to the one behind `p`. -/
structure Gets (n : String) (p : ChannelPtr) (s t : Server Postgres) : Prop where
  backed : t.Backed
  pointer : t.idChannels (t.db.db.channelId n) = some p
  db : t.db = s.db.after (s.lookups n) (s.db.db.enter n)
  idClients : t.idClients = s.idClients
  written : t.written = s.written

section Found

variable {s : Server Postgres} {n : String}

theorem Named.made (h : s.Named) {k : UserId} (hrow : ⟨k, n⟩ ∈ s.db.db.channels.rows) :
    (s.made n k).Named :=
  (h.of_grows (d := s.db.after 1 s.db.db) (.refl _)).store rfl hrow

theorem Backed.made (h : s.Backed) {k : UserId} (hrow : ⟨k, n⟩ ∈ s.db.db.channels.rows) :
    (s.made n k).Backed := by
  -- the members are the subscribers, or there are none
  refine (h.of_grows (d := s.db.after 1 s.db.db) (.refl _)).store ⟨rfl, hrow, ?_⟩
  intro i hi
  cases hfails : s.db.fails 0 with
  | true => exact absurd hi (by simp [hfails])
  | false => simpa [hfails] using hi

theorem found_idClients : (s.found n).2.idClients = s.idClients := by
  unfold found
  split <;> rfl

theorem found_written : (s.found n).2.written = s.written := by
  unfold found
  split <;> rfl

namespace Named

variable (h : s.Named)
include h

theorem found_pointer :
    (s.found n).2.idChannels ((s.db.db.enter n).channelId n) = some (s.found n).1 := by
  unfold found
  split
  · next p hp =>
    -- the name is in the tables, since zero is the id of no channel
    have hn : s.db.db.channelId n ≠ 0 := by
      intro hn
      rw [hn, h.idChannels_zero] at hp
      exact absurd hp (by simp)
    rw [Database.enter, if_neg hn]
    exact hp
  · exact Function.update_self ..

theorem found_db : (s.found n).2.db = s.db.after (s.lookups n) (s.db.db.enter n) := by
  by_cases hn : s.db.db.channelId n = 0
  · simp [Server.found, searched, lookups, hn, h.idChannels_zero]
  · cases hp : s.idChannels (s.db.db.channelId n) <;>
      simp [Server.found, searched, lookups, hp, hn]

theorem found : (s.found n).2.Named := by
  have hsearched : (s.searched n).Named := h.of_grows (d := (s.searched n).db) (.enter _ n)
  unfold Server.found
  split
  · exact hsearched
  · exact hsearched.made (Database.row_of_channelId (Database.channelId_enter_ne_zero n))

end Named

theorem Backed.gets_found (h : s.Backed) : s.Gets n (s.found n).1 (s.found n).2 where
  backed := by
    have hsearched : (s.searched n).Backed := h.of_grows (d := (s.searched n).db) (.enter _ n)
    unfold Server.found
    split
    · exact hsearched
    · exact hsearched.made (Database.row_of_channelId (Database.channelId_enter_ne_zero n))
  pointer := by
    rw [h.named.found_db]
    exact h.named.found_pointer
  db := h.named.found_db
  idClients := found_idClients
  written := found_written

end Found

end Server

/-! ## Finding a channel while queries fail -/

section Search

variable [Protocol] {s : Server Postgres}

/-- Without a name or an id there is no channel. -/
theorem Channel.run_makeShared_error {n : String} {k : UserId} (h : n = "" ∨ k = 0) :
    ∃ e, (makeShared WrapperPg.database n k).run s = (.error e, s) := by
  by_cases hn : n = ""
  · subst hn
    exact ⟨_, run_makeShared_empty k⟩
  · refine ⟨.invalidArgument "Channel: id equal zero", ?_⟩
    rw [makeShared, Prog.run_atomically, construct, if_neg hn, if_pos (h.resolve_left hn)]
    rfl

/-- A channel is made with the members that the tables hold, or with none. -/
theorem Channel.run_makeShared_fails {n : String} (hn : n ≠ "") {k : UserId} (hk : k ≠ 0) :
    (makeShared WrapperPg.database n k).run s =
      (.ok s.objects.length,
        { s with
          db := s.db.after 1 s.db.db
          objects := s.objects ++
            [⟨n, k, (if s.db.fails 0 then [] else s.db.db.subscribers k).toFinset⟩] }) := by
  rw [makeShared, Prog.run_atomically, construct, if_neg hn, if_neg hk, bind_assoc,
    Prog.run_bind_ok (Server.run_inDb_ok (WrapperPg.run_getChannelUsers_fails s.db k))]
  rfl

namespace ChannelsManager

/-- A channel is made and stored. -/
theorem run_make_store {n : String} (hn : n ≠ "") {k : UserId} (hk : k ≠ 0) :
    (Channel.makeShared WrapperPg.database n k >>= fun channel => do
        store k channel
        return channel).run s = (.ok s.objects.length, s.made n k) := by
  rw [Prog.run_bind_ok (Channel.run_makeShared_fails hn hk)]
  rfl

/-- The critical section makes a channel that the registry does not hold. -/
theorem run_getOrMake_missing (n : String) {k : UserId} (hp : s.idChannels k = none) :
    (getOrMake WrapperPg.database n k).run s =
      (Channel.makeShared WrapperPg.database n k >>= fun channel => do
        store k channel
        return channel).run s := by
  rw [getOrMake, Prog.run_atomically, Prog.run_bind_ok (Prog.run_read _ _)]
  simp only [hp]

/-! ### The queries of a search -/

/-- The search after its first query. -/
theorem run_createOrGetChannelByName_asked (n : String) :
    (createOrGetChannelByName WrapperPg.database n).run s =
      if s.db.fails 0 then
        (.error (.invalidArgument "wrong hasChannel"), { s with db := s.db.after 1 s.db.db })
      else if s.db.db.channelId n = 0 then
        (Server.inDb (WrapperPg.connected.createChannel n) >>= fun k =>
          Channel.makeShared WrapperPg.database n k >>= fun channel => do
            store k channel
            return channel).run { s with db := s.db.after 1 s.db.db }
      else
        (Server.inDb (WrapperPg.connected.getChannelId n) >>= fun k =>
          getOrMake WrapperPg.database n k).run { s with db := s.db.after 1 s.db.db } := by
  have hasked := WrapperPg.run_hasChannel_fails s.db n
  rw [createOrGetChannelByName]
  -- `hasChannel` throws when its query fails, and so does the search
  cases hfails : s.db.fails 0 with
  | true =>
    rw [hfails] at hasked
    rw [Prog.run_bind_error (Server.run_inDb_error hasked)]
    rfl
  | false =>
    rw [hfails] at hasked
    rw [Prog.run_bind_ok (Server.run_inDb_ok hasked)]
    by_cases hn : s.db.db.channelId n = 0 <;> simp [hn]

/-- A name that is not there is entered, and a channel made under the id that comes of it. -/
theorem run_createOrGetChannelByName_missing_fails {n : String} (hasked : s.db.fails 0 = false)
    (hn : s.db.db.channelId n = 0) :
    (createOrGetChannelByName WrapperPg.database n).run s =
      (Channel.makeShared WrapperPg.database n
          (if s.db.fails 2 ∨ s.db.fails 3 then 0 else s.db.db.channels.next) >>=
        fun channel => do
          store (if s.db.fails 2 ∨ s.db.fails 3 then 0 else s.db.db.channels.next) channel
          return channel).run
        { s with
          db := s.db.after 4 (if s.db.fails 2 then s.db.db else s.db.db.insertChannel n) } := by
  have hcreate := WrapperPg.run_createChannel_new_fails (s.db.after 1 s.db.db) hn
  simp only [Postgres.fails_after, Postgres.after_after, Postgres.after_db] at hcreate
  rw [run_createOrGetChannelByName_asked, hasked, if_neg Bool.false_ne_true, if_pos hn,
    Prog.run_bind_ok (Server.run_inDb_ok hcreate)]

/-- A name that is there is looked up, and the channel found or made under the id that comes of
it. -/
theorem run_createOrGetChannelByName_known_fails {n : String} (hasked : s.db.fails 0 = false)
    (hn : s.db.db.channelId n ≠ 0) :
    (createOrGetChannelByName WrapperPg.database n).run s =
      (getOrMake WrapperPg.database n (if s.db.fails 1 then 0 else s.db.db.channelId n)).run
        { s with db := s.db.after 2 s.db.db } := by
  have hlookup := WrapperPg.run_getChannelId_fails (s.db.after 1 s.db.db) n
  simp only [Postgres.fails_after, Postgres.after_after, Postgres.after_db] at hlookup
  rw [run_createOrGetChannelByName_asked, hasked, if_neg Bool.false_ne_true, if_neg hn,
    Prog.run_bind_ok (Server.run_inDb_ok hlookup)]

/-- A search that depends on no query that fails comes to the channel of the name. -/
theorem run_createOrGetChannelByName_found (h : s.Named) {n : String} (hfinds : s.Finds n) :
    (createOrGetChannelByName WrapperPg.database n).run s =
      (.ok (s.found n).1, (s.found n).2) := by
  obtain ⟨hasked, hrest⟩ := hfinds
  by_cases hn : s.db.db.channelId n = 0
  -- the row is inserted and looked up again, and an object is made for it
  · rw [if_pos hn] at hrest
    obtain ⟨hinsert, hagain, hne⟩ := hrest
    have hid : (s.db.db.insertChannel n).channelId n = s.db.db.channels.next :=
      SerialTable.firstId_insert_of_none hn (by simp)
    have hp : s.idChannels (s.db.db.channelId n) = none := by rw [hn, h.idChannels_zero]
    have hfound : s.found n =
        (s.objects.length, (s.searched n).made n s.db.db.channels.next) := by
      simp only [Server.found, hp, Database.enter, if_pos hn, hid]
    have hsearched : s.searched n =
        { s with db := s.db.after 4 (s.db.db.insertChannel n) } := by
      rw [Server.searched, Database.enter, if_pos hn, if_pos hn]
    rw [run_createOrGetChannelByName_missing_fails hasked hn, hfound, hsearched]
    simp only [hinsert, hagain, Bool.false_eq_true, or_self, if_false]
    exact run_make_store hne (Nat.ne_of_gt s.db.db.channels.next_pos)
  -- the row is there, and its object may be in the registry
  · rw [if_neg hn] at hrest
    obtain ⟨hlookup, hmade⟩ := hrest
    have hsearched : s.searched n = { s with db := s.db.after 2 s.db.db } := by
      rw [Server.searched, Database.enter, if_neg hn, if_neg hn]
    rw [run_createOrGetChannelByName_known_fails hasked hn, hlookup, if_neg Bool.false_ne_true]
    cases hp : s.idChannels (s.db.db.channelId n) with
    | some p =>
      have hfound : s.found n = (p, s.searched n) := by simp only [Server.found, hp]
      rw [hfound, hsearched]
      exact run_getOrMake_stored n hp
    | none =>
      have hne : n ≠ "" := by simpa [hp] using hmade
      have hfound : s.found n =
          (s.objects.length, (s.searched n).made n (s.db.db.channelId n)) := by
        simp only [Server.found, hp, Database.enter, if_neg hn]
      rw [run_getOrMake_missing (s := { s with db := s.db.after 2 s.db.db }) n hp, hfound,
        hsearched]
      exact run_make_store hne hn

theorem run_createOrGetChannelByName_finds (h : s.Backed) {n : String} (hfinds : s.Finds n) :
    ∃ p t, (createOrGetChannelByName WrapperPg.database n).run s = (.ok p, t) ∧
      s.Gets n p t :=
  ⟨_, _, run_createOrGetChannelByName_found h.named hfinds, h.gets_found⟩

/-- A search that depends on one ends with an exception. Only the tables may have changed. -/
theorem run_createOrGetChannelByName_not_finds (h : s.Named) {n : String}
    (hfinds : ¬ s.Finds n) :
    ∃ e d, (createOrGetChannelByName WrapperPg.database n).run s =
        (.error e, { s with db := d }) ∧
      d.db = s.tablesSearched n := by
  cases hasked : s.db.fails 0 with
  | true =>
    rw [run_createOrGetChannelByName_asked, hasked, if_pos rfl]
    exact ⟨_, _, rfl, by simp [Server.tablesSearched, hasked]⟩
  | false =>
    by_cases hn : s.db.db.channelId n = 0
    · rw [run_createOrGetChannelByName_missing_fails hasked hn]
      have htables : (if s.db.fails 2 then s.db.db else s.db.db.insertChannel n) =
          s.tablesSearched n := by
        cases hinsert : s.db.fails 2 <;> simp [Server.tablesSearched, hn, hasked, hinsert]
      -- there is no id, or no name
      have hnone : n = "" ∨
          (if s.db.fails 2 ∨ s.db.fails 3 then 0 else s.db.db.channels.next) = 0 := by
        by_contra hboth
        refine hfinds ⟨hasked, (if_pos hn).mpr ?_⟩
        cases hinsert : s.db.fails 2 <;> cases hagain : s.db.fails 3 <;>
          simp_all
      obtain ⟨e, hrun⟩ := Channel.run_makeShared_error hnone
      rw [Prog.run_bind_error hrun]
      exact ⟨e, _, rfl, htables⟩
    · rw [run_createOrGetChannelByName_known_fails hasked hn]
      have hpointer : s.idChannels (if s.db.fails 1 then 0 else s.db.db.channelId n) = none := by
        cases hlookup : s.db.fails 1 with
        | true => exact h.idChannels_zero
        | false =>
          by_contra hmade
          refine hfinds ⟨hasked, (if_neg hn).mpr ⟨hlookup, Or.inl ?_⟩⟩
          exact Option.isSome_iff_ne_none.mpr hmade
      have hnone : n = "" ∨ (if s.db.fails 1 then 0 else s.db.db.channelId n) = 0 := by
        by_contra hboth
        refine hfinds ⟨hasked, (if_neg hn).mpr ?_⟩
        cases hlookup : s.db.fails 1 <;> simp_all
      obtain ⟨e, hrun⟩ := Channel.run_makeShared_error hnone
      rw [run_getOrMake_missing (s := { s with db := s.db.after 2 s.db.db }) n hpointer,
        Prog.run_bind_error hrun]
      exact ⟨e, _, rfl, by simp [Server.tablesSearched, hn]⟩

end ChannelsManager

end Search

end GatewayServer
