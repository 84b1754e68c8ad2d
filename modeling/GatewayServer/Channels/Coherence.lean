import GatewayServer.Channels.Broadcast
import GatewayServer.Channels.ChannelsManager

/-!
# The registry and the tables

What a start of the server would make of a database, as a function from ids to channels, and the
invariant that the registry in memory is this function. Channels come and go through names, the
registry and the subscriptions through ids; the invariant ties the two together.

## Main definitions

* `Database.channelOf` — the channel that a start makes for an id
* `Server.Coherent` — the registry holds what a start would make
* `Server.Enters` — a channel name is entered, and nothing that users see changes

## Main results

* `run_createOrGetChannelByName` — the channel of a name is found or made, coherently
* `run_addUser`, `run_sendHistory` — what the operations of a channel do
* `Coherent.join` — a new member in memory and in the tables
-/

namespace GatewayServer

open Lib

namespace Database

variable (db : Database)

/-- The channel that a start makes for an id. The constructor refuses a row with an empty name,
so there is none for it. -/
def channelOf (k : UserId) : Option Channel :=
  (db.channels.lookup k).bind fun n =>
    if n = "" then none else some ⟨n, k, (db.subscribers k).toFinset⟩

/-- `subscriptions` with a pair that is entered once. -/
def subscribe (sub : Subscription) : Database :=
  if sub ∈ db.subscriptions then db else db.insertSubscription sub

theorem subscribe_channels (sub : Subscription) : (db.subscribe sub).channels = db.channels := by
  unfold subscribe
  split <;> rfl

/-- `channels` with a name that is entered once. -/
def enter (n : String) : Database := if db.channelId n = 0 then db.insertChannel n else db

@[simp] theorem enter_clients (n : String) : (db.enter n).clients = db.clients := by
  unfold enter
  split <;> rfl

@[simp] theorem enter_subscriptions (n : String) :
    (db.enter n).subscriptions = db.subscriptions := by
  unfold enter
  split <;> rfl

@[simp] theorem clientId_enter (n login : String) :
    (db.enter n).clientId login = db.clientId login := by
  simp only [clientId, enter_clients]

@[simp] theorem enter_history (n : String) : (db.enter n).history = db.history := by
  unfold enter
  split <;> rfl

variable {db}

theorem channelOf_eq_some_iff {k : UserId} {c : Channel} :
    db.channelOf k = some c ↔
      ∃ n, ⟨k, n⟩ ∈ db.channels.rows ∧ n ≠ "" ∧ c = ⟨n, k, (db.subscribers k).toFinset⟩ := by
  simp only [channelOf, Option.bind_eq_some_iff, SerialTable.lookup_eq_some_iff]
  constructor
  · rintro ⟨n, hrow, hc⟩
    by_cases hn : n = ""
    · exact absurd hc (by simp [hn])
    · rw [if_neg hn] at hc
      exact ⟨n, hrow, hn, (Option.some.inj hc).symm⟩
  · rintro ⟨n, hrow, hn, rfl⟩
    exact ⟨n, hrow, if_neg hn⟩

theorem channelOf_congr {db' : Database} (hchannels : db'.channels = db.channels)
    (hsubs : db'.subscriptions = db.subscriptions) (k : UserId) :
    db'.channelOf k = db.channelOf k := by
  simp only [channelOf, subscribers, hchannels, hsubs]

theorem channelOf_insertChannel (n : String) (k : UserId) :
    (db.insertChannel n).channelOf k =
      if k = db.channels.next then
        if n = "" then none else some ⟨n, k, (db.subscribers k).toFinset⟩
      else db.channelOf k := by
  by_cases hk : k = db.channels.next
  · simp [channelOf, SerialTable.lookup_insert, hk, subscribers]
  · simp [channelOf, SerialTable.lookup_insert, hk, subscribers]

theorem subscribers_subscribe (i k k' : UserId) :
    ((db.subscribe ⟨i, k⟩).subscribers k').toFinset =
      if k' = k then insert i (db.subscribers k').toFinset else (db.subscribers k').toFinset := by
  -- a pair that is there already is not entered twice
  ext j
  by_cases hmem : ⟨i, k⟩ ∈ db.subscriptions
  · by_cases hk : k' = k
    · subst hk
      simp only [subscribe, if_pos hmem, if_true, Finset.mem_insert, List.mem_toFinset,
        mem_subscribers]
      constructor
      · exact Or.inr
      · rintro (rfl | hj)
        · exact hmem
        · exact hj
    · simp [subscribe, hmem, hk]
  · by_cases hk : k' = k
    · simp [subscribe, hmem, hk, or_comm]
    · simp [subscribe, hmem, hk]

theorem channelOf_subscribe (i k k' : UserId) :
    (db.subscribe ⟨i, k⟩).channelOf k' =
      if k' = k then
        (db.channelOf k).map fun c => { c with idUsers := insert i c.idUsers }
      else db.channelOf k' := by
  by_cases hk : k' = k
  · subst hk
    rw [if_pos rfl, channelOf, channelOf, subscribe_channels, subscribers_subscribe, if_pos rfl]
    cases db.channels.lookup k' with
    | none => rfl
    | some n => by_cases hn : n = "" <;> simp [hn]
  · simp only [channelOf, subscribe_channels, subscribers_subscribe, if_neg hk]

theorem channelId_insertChannel_ne_zero (n m : String) :
    (db.insertChannel n).channelId m ≠ 0 ↔ db.channelId m ≠ 0 ∨ m = n := by
  by_cases hm : db.channelId m = 0
  · by_cases hmn : m = n
    · have hid : (db.insertChannel n).channelId m = db.channels.next :=
        SerialTable.firstId_insert_of_none hm (by simp [hmn])
      simp [hmn ▸ hid, hmn, Nat.ne_of_gt db.channels.next_pos]
    · have hnone : (db.insertChannel n).channelId m = 0 := by
        rw [channelId, SerialTable.firstId_eq_zero_iff_forall] at hm ⊢
        intro r hr
        rcases List.mem_append.mp hr with hr | hr
        · exact hm r hr
        · rw [List.mem_singleton.mp hr]
          simpa [eq_comm] using hmn
      simp [hm, hnone, hmn]
  · have hsame : (db.insertChannel n).channelId m = db.channelId m :=
      SerialTable.firstId_insert_of_ne_zero hm
    simp [hsame, hm]

theorem channelId_enter_ne_zero (m : String) : (db.enter m).channelId m ≠ 0 := by
  by_cases hm : db.channelId m = 0
  · rw [enter, if_pos hm]
    exact (channelId_insertChannel_ne_zero m m).mpr (Or.inr rfl)
  · rwa [enter, if_neg hm]

/-- The row that a lookup by name finds. -/
theorem row_of_channelId {n : String} (hn : db.channelId n ≠ 0) :
    ⟨db.channelId n, n⟩ ∈ db.channels.rows := by
  obtain ⟨⟨k, m⟩, hr, hid, hm⟩ := SerialTable.exists_row_of_firstId_ne_zero hn
  obtain rfl : m = n := of_decide_eq_true hm
  obtain rfl : k = db.channelId m := hid
  exact hr

/-- The name that has an id is the name of the id. -/
theorem channelNameOf_channelId {n : String} (hn : db.channelId n ≠ 0) :
    db.channelNameOf (db.channelId n) = n := by
  rw [channelNameOf, SerialTable.lookup_eq_some_iff.mpr (row_of_channelId hn), Option.getD_some]

end Database

/-- Joining enters the pair once, whatever the log line does after it. -/
theorem WrapperPg.run_joinClientChannel {s : Postgres} (faults : s.faults = []) (i : UserId)
    (n : String) :
    ∃ r, (connected.joinClientChannel i n).run s =
      (r, { s with db := s.db.subscribe ⟨i, s.db.channelId n⟩ }) := by
  by_cases hmem : ⟨i, s.db.channelId n⟩ ∈ s.db.subscriptions
  · refine ⟨.ok ⟨⟩, ?_⟩
    rw [run_joinClientChannel_member faults hmem, Database.subscribe, if_pos hmem]
  · refine ⟨.error .tooManyArgs, ?_⟩
    rw [run_joinClientChannel_new faults hmem, Database.subscribe, if_neg hmem]

namespace Server

/-- The registry holds what a start would make of the tables. -/
structure Coherent (s : Server Postgres) : Prop where
  /-- Every query to come succeeds. -/
  faults : s.db.faults = []
  /-- A user stands under its own id. -/
  keyed : ∀ i user, s.idClients i = some user → user.id = i
  /-- A pointer of the registry points to an object. -/
  valid : ∀ k p, s.idChannels k = some p → p < s.objects.length
  registry : ∀ k, s.registry k = s.db.db.channelOf k

/-- From `s` to `t` the channel name `n` is entered if it is missing. Users, clients, members
and messages stay as they are. -/
structure Enters (n : String) (s t : Server Postgres) : Prop where
  names : ∀ m, t.db.db.channelId m ≠ 0 ↔ s.db.db.channelId m ≠ 0 ∨ m = n
  idClients : t.idClients = s.idClients
  written : t.written = s.written
  clients : t.db.db.clients = s.db.db.clients
  subscriptions : t.db.db.subscriptions = s.db.db.subscriptions
  history : t.db.db.history = s.db.db.history

theorem Enters.of_known {n : String} {s : Server Postgres} (hn : s.db.db.channelId n ≠ 0) :
    s.Enters n s where
  names m := by
    constructor
    · exact Or.inl
    · rintro (hm | rfl)
      · exact hm
      · exact hn
  idClients := rfl
  written := rfl
  clients := rfl
  subscriptions := rfl
  history := rfl

section Objects

variable {δ : Type} {s : Server δ}

/-- The registry after a new object is made and stored. -/
theorem registry_store (valid : ∀ k p, s.idChannels k = some p → p < s.objects.length)
    (k : UserId) (c : Channel) (k' : UserId) :
    registry { s with
      objects := s.objects ++ [c]
      idChannels := Function.update s.idChannels k (some s.objects.length) } k' =
      if k' = k then some c else s.registry k' := by
  by_cases hk : k' = k
  · subst hk
    simp [registry]
  · rw [if_neg hk]
    simp only [registry, Function.update_of_ne hk]
    cases hp : s.idChannels k' with
    | none => rfl
    | some p =>
      -- older pointers stay within the older objects
      exact List.getElem?_append_left (valid k' p hp)

/-- The registry after the object of one id changes. -/
theorem registry_set {k : UserId} {p : ChannelPtr} (hp : s.idChannels k = some p)
    (valid : p < s.objects.length) (unique : ∀ k', s.idChannels k' = some p → k' = k)
    (c : Channel) (k' : UserId) :
    registry { s with objects := s.objects.set p c } k' =
      if k' = k then some c else s.registry k' := by
  by_cases hk : k' = k
  · subst hk
    simp [registry, hp, valid]
  · rw [if_neg hk]
    simp only [registry]
    cases hp' : s.idChannels k' with
    | none => rfl
    | some p' =>
      have hne : p ≠ p' := by
        intro heq
        exact hk (unique k' (heq ▸ hp'))
      exact List.getElem?_set_ne hne

end Objects

namespace Coherent

variable {s : Server Postgres} (h : s.Coherent)
include h

theorem log (w : World) (new : List Write) : (s.log w new).Coherent where
  faults := h.faults
  keyed := h.keyed
  valid := h.valid
  registry := h.registry

/-- A channel of the registry carries the id under which it stands. -/
theorem id_eq {k : UserId} {c : Channel} (hc : s.registry k = some c) : c.id = k := by
  rw [h.registry, Database.channelOf_eq_some_iff] at hc
  obtain ⟨n, -, -, rfl⟩ := hc
  rfl

/-- No two ids have the same pointer. -/
theorem idChannels_inj {k k' : UserId} {p : ChannelPtr} (hp : s.idChannels k = some p)
    (hp' : s.idChannels k' = some p) : k' = k := by
  have hlt := h.valid k p hp
  have hobject : s.objects[p]? = some s.objects[p] := List.getElem?_eq_getElem hlt
  -- both ids lead to one object, and the object carries the id it stands under
  have hk : s.registry k = some s.objects[p] := by simp [Server.registry, hp, hobject]
  have hk' : s.registry k' = some s.objects[p] := by simp [Server.registry, hp', hobject]
  rw [← h.id_eq hk, ← h.id_eq hk']

/-- The pointer and the object of a name that the tables have. -/
theorem exists_channel {n : String} (hn : s.db.db.channelId n ≠ 0) (hne : n ≠ "") :
    ∃ p, s.idChannels (s.db.db.channelId n) = some p ∧
      s.objects[p]? = some ⟨n, s.db.db.channelId n,
        (s.db.db.subscribers (s.db.db.channelId n)).toFinset⟩ := by
  have hof := Database.channelOf_eq_some_iff.mpr ⟨n, Database.row_of_channelId hn, hne, rfl⟩
  rw [← h.registry, Server.registry, Option.bind_eq_some_iff] at hof
  exact hof

/-- What changes neither `channels` nor `subscriptions` changes nothing for the registry. -/
theorem withDb {d : Database} (hchannels : d.channels = s.db.db.channels)
    (hsubs : d.subscriptions = s.db.db.subscriptions) :
    Coherent { s with db := { s.db with db := d } } where
  faults := h.faults
  keyed := h.keyed
  valid := h.valid
  registry k := (h.registry k).trans (Database.channelOf_congr hchannels hsubs k).symm

/-- A user that is entered under its own id. -/
theorem withUser (user : User) :
    Coherent { s with idClients := Function.update s.idClients user.id (some user) } where
  faults := h.faults
  keyed := by
    intro i known hknown
    by_cases hi : i = user.id
    · subst hi
      obtain rfl : user = known := by simpa using hknown
      rfl
    · exact h.keyed i known (by simpa [Function.update_of_ne hi] using hknown)
  valid := h.valid
  registry := h.registry

/-- A member that joins in the tables and in the object of the channel. -/
theorem join {k : UserId} {p : ChannelPtr} (hp : s.idChannels k = some p) {this : Channel}
    (hthis : s.objects[p]? = some this) (i : UserId) :
    Coherent { s with
      db := { s.db with db := s.db.db.subscribe ⟨i, k⟩ }
      objects := s.objects.set p { this with idUsers := insert i this.idUsers } } where
  faults := h.faults
  keyed := h.keyed
  valid k' p' hp' := by
    rw [List.length_set]
    exact h.valid k' p' hp'
  registry k' := by
    have hset := Server.registry_set hp (h.valid k p hp)
      (fun k' hp' => h.idChannels_inj hp hp') { this with idUsers := insert i this.idUsers } k'
    apply hset.trans
    rw [Database.channelOf_subscribe, ← h.registry, ← h.registry]
    have hk : s.registry k = some this := by simp [Server.registry, hp, hthis]
    by_cases hk' : k' = k
    · simp [hk', hk]
    · simp [hk']

end Coherent

end Server

/-! ## Making and finding channels -/

section Channels

variable [Protocol] {s : Server Postgres}

/-- A channel with a name and an id is made with the members that the tables hold. -/
theorem Channel.run_makeShared (faults : s.db.faults = []) {n : String} (hn : n ≠ "")
    {k : UserId} (hk : k ≠ 0) :
    (Channel.makeShared WrapperPg.database n k).run s =
      (.ok s.objects.length,
        { s with objects := s.objects ++ [⟨n, k, (s.db.db.subscribers k).toFinset⟩] }) := by
  rw [makeShared, Prog.run_atomically, construct, if_neg hn, if_neg hk, bind_assoc,
    Prog.run_bind_ok (Server.run_inDb_ok (WrapperPg.run_getChannelUsers faults k))]
  rfl

/-- No channel is made with an empty name. -/
theorem Channel.run_makeShared_empty (k : UserId) :
    (Channel.makeShared WrapperPg.database "" k).run s =
      (.error (.invalidArgument "Channel: empty name"), s) := by
  rw [makeShared, Prog.run_atomically, construct, if_pos rfl]
  rfl

namespace ChannelsManager

/-- The critical section returns what the registry holds. -/
theorem run_getOrMake_stored (n : String) {k : UserId} {p : ChannelPtr}
    (hp : s.idChannels k = some p) : (getOrMake WrapperPg.database n k).run s = (.ok p, s) := by
  rw [getOrMake, Prog.run_atomically]
  simp [Prog.run_bind, hp]

/-- A name that the tables have leads to the object that the registry holds for its id. -/
theorem run_createOrGetChannelByName_stored (faults : s.db.faults = []) {n : String}
    (hn : s.db.db.channelId n ≠ 0) {p : ChannelPtr}
    (hp : s.idChannels (s.db.db.channelId n) = some p) :
    (createOrGetChannelByName WrapperPg.database n).run s = (.ok p, s) := by
  rw [createOrGetChannelByName,
    Prog.run_bind_ok (Server.run_inDb_ok (WrapperPg.run_hasChannel faults n)),
    if_pos (by simpa using hn),
    Prog.run_bind_ok (Server.run_inDb_ok (WrapperPg.run_getChannelId faults n)),
    run_getOrMake_stored n hp]

/-- A name that the tables do not have is entered, and an object for it made and stored. -/
theorem run_createOrGetChannelByName_new (h : s.Coherent) {n : String} (hne : n ≠ "")
    (hn : s.db.db.channelId n = 0) :
    (createOrGetChannelByName WrapperPg.database n).run s =
      (.ok s.objects.length,
        { s with
          db := { s.db with db := s.db.db.insertChannel n }
          objects := s.objects ++ [⟨n, s.db.db.channels.next,
            (s.db.db.subscribers s.db.db.channels.next).toFinset⟩]
          idChannels := Function.update s.idChannels s.db.db.channels.next
            (some s.objects.length) }) := by
  have hid : s.db.db.channels.next ≠ 0 := Nat.ne_of_gt s.db.db.channels.next_pos
  have hmake := Channel.run_makeShared
    (s := { s with db := { s.db with db := s.db.db.insertChannel n } }) h.faults hne hid
  rw [createOrGetChannelByName,
    Prog.run_bind_ok (Server.run_inDb_ok (WrapperPg.run_hasChannel h.faults n)),
    if_neg (by simpa using hn),
    Prog.run_bind_ok (Server.run_inDb_ok (WrapperPg.run_createChannel_new h.faults hn)),
    Prog.run_bind_ok hmake]
  rfl

/-- The constructor refuses the empty name after the tables have taken it. -/
theorem run_createOrGetChannelByName_empty (h : s.Coherent) :
    ∃ e t, (createOrGetChannelByName WrapperPg.database "").run s = (.error e, t) ∧
      t = { s with db := t.db } ∧ t.db.faults = [] ∧
      t.db.db = if s.db.db.channelId "" = 0 then s.db.db.insertChannel "" else s.db.db := by
  by_cases hn : s.db.db.channelId "" = 0
  · refine ⟨.invalidArgument "Channel: empty name",
      { s with db := { s.db with db := s.db.db.insertChannel "" } }, ?_, rfl, h.faults,
      (if_pos hn).symm⟩
    rw [createOrGetChannelByName,
      Prog.run_bind_ok (Server.run_inDb_ok (WrapperPg.run_hasChannel h.faults "")),
      if_neg (by simpa using hn),
      Prog.run_bind_ok (Server.run_inDb_ok (WrapperPg.run_createChannel_new h.faults hn)),
      Prog.run_bind_error (Channel.run_makeShared_empty _)]
  · -- the registry has no channel for the row, and making one fails again
    have hnone : s.registry (s.db.db.channelId "") = none := by
      rw [h.registry, Option.eq_none_iff_forall_not_mem]
      intro c hc
      obtain ⟨m, hrow, hm, -⟩ := Database.channelOf_eq_some_iff.mp hc
      have hrows := SerialTable.eq_of_id_eq hrow (Database.row_of_channelId hn) rfl
      exact hm (congrArg Row.data hrows)
    have hpointer : s.idChannels (s.db.db.channelId "") = none := by
      cases hp : s.idChannels (s.db.db.channelId "") with
      | none => rfl
      | some p =>
        have hlt := h.valid _ p hp
        exact absurd hnone (by simp [Server.registry, hp, hlt])
    refine ⟨.invalidArgument "Channel: empty name", s, ?_, rfl, h.faults, (if_neg hn).symm⟩
    rw [createOrGetChannelByName,
      Prog.run_bind_ok (Server.run_inDb_ok (WrapperPg.run_hasChannel h.faults "")),
      if_pos (by simpa using hn),
      Prog.run_bind_ok (Server.run_inDb_ok (WrapperPg.run_getChannelId h.faults "")),
      getOrMake, Prog.run_atomically, Prog.run_bind_ok (Prog.run_read _ _)]
    simp only [hpointer]
    rw [Prog.run_bind_error (Channel.run_makeShared_empty _)]

/-- A channel with a name is found or made; the registry stays coherent and has it. -/
theorem run_createOrGetChannelByName (h : s.Coherent) {n : String} (hne : n ≠ "") :
    ∃ p t, (createOrGetChannelByName WrapperPg.database n).run s = (.ok p, t) ∧
      t.Coherent ∧ s.Enters n t ∧ t.idChannels (t.db.db.channelId n) = some p := by
  by_cases hn : s.db.db.channelId n = 0
  · refine ⟨_, _, run_createOrGetChannelByName_new h hne hn, ?_, ?_, ?_⟩
    · constructor
      · exact h.faults
      · exact h.keyed
      · intro k p hp
        rw [List.length_append]
        by_cases hk : k = s.db.db.channels.next
        · subst hk
          obtain rfl : s.objects.length = p := by simpa using hp
          exact Nat.lt_succ_self _
        -- pointers that were there stay below the number of objects, which has grown
        · have hlt := h.valid k p (by simpa [Function.update_of_ne hk] using hp)
          exact Nat.lt_succ_of_lt hlt
      · intro k
        refine (Server.registry_store h.valid _ _ k).trans ?_
        rw [Database.channelOf_insertChannel, h.registry]
        by_cases hk : k = s.db.db.channels.next
        · simp [hk, hne]
        · simp [hk]
    · exact ⟨Database.channelId_insertChannel_ne_zero n, rfl, rfl, rfl, rfl, rfl⟩
    · have hid : (s.db.db.insertChannel n).channelId n = s.db.db.channels.next :=
        SerialTable.firstId_insert_of_none hn (by simp)
      simp [hid]
  · obtain ⟨p, hp, -⟩ := h.exists_channel hn hne
    exact ⟨p, s, run_createOrGetChannelByName_stored h.faults hn hp, h, .of_known hn, hp⟩

/-- The empty name is entered into the tables and nowhere else. -/
theorem createOrGetChannelByName_empty (h : s.Coherent) :
    ∃ e t, (createOrGetChannelByName WrapperPg.database "").run s = (.error e, t) ∧
      t.Coherent ∧ s.Enters "" t := by
  obtain ⟨e, t, hrun, ht, hfaults, hdb⟩ := run_createOrGetChannelByName_empty h
  obtain ⟨⟨db, faults⟩, idClients, objects, idChannels, queueTasks, written⟩ := t
  obtain ⟨rfl, rfl, rfl, rfl, rfl⟩ : idClients = s.idClients ∧ objects = s.objects ∧
      idChannels = s.idChannels ∧ queueTasks = s.queueTasks ∧ written = s.written := by
    simpa using ht
  obtain rfl : faults = [] := hfaults
  obtain rfl : db = _ := hdb
  refine ⟨e, _, hrun, ⟨rfl, h.keyed, h.valid, ?_⟩, ?_⟩
  · intro k
    refine (h.registry k).trans ?_
    by_cases hn : s.db.db.channelId "" = 0
    · simp only [if_pos hn, Database.channelOf_insertChannel]
      by_cases hk : k = s.db.db.channels.next
      · -- the new row has no channel, and no channel had its id before
        subst hk
        have hfresh : s.db.db.channelOf s.db.db.channels.next = none := by
          simp [Database.channelOf, SerialTable.lookup_next]
        simp [hfresh]
      · simp [hk]
    · simp only [if_neg hn]
  · by_cases hn : s.db.db.channelId "" = 0
    · simp only [if_pos hn]
      exact ⟨Database.channelId_insertChannel_ne_zero "", rfl, rfl, rfl, rfl, rfl⟩
    · simp only [if_neg hn]
      exact ⟨(Server.Enters.of_known hn).names, rfl, rfl, rfl, rfl, rfl⟩

/-- In the tables nothing is left of the search for a channel but its name. -/
theorem run_createOrGetChannelByName_db (h : s.Coherent) (n : String) :
    ((createOrGetChannelByName WrapperPg.database n).run s).2.db =
      { s.db with db := s.db.db.enter n } := by
  unfold Database.enter
  by_cases hne : n = ""
  · subst hne
    obtain ⟨e, t, hrun, -, hfaults, hdb⟩ := run_createOrGetChannelByName_empty h
    have hsame : t.db.faults = s.db.faults := hfaults.trans h.faults.symm
    rw [hrun, ← hdb]
    exact congrArg (Postgres.mk t.db.db) hsame
  · by_cases hn : s.db.db.channelId n = 0
    · rw [run_createOrGetChannelByName_new h hne hn, if_pos hn]
    · obtain ⟨p, hp, -⟩ := h.exists_channel hn hne
      rw [run_createOrGetChannelByName_stored h.faults hn hp, if_neg hn]

end ChannelsManager

/-! ## What the operations of a channel do -/

namespace Channel

/-- The write of `addUser`: a client that is online and was no member is told that it joined. -/
def welcome {δ : Type} (this : Channel) (s : Server δ) (w : World) (i : UserId) : List Write :=
  match s.liveSession w i with
  | some session =>
    if i ∈ this.idUsers then []
    else
      [⟨session, .joinRoomResponse this.name true,
        Protocol.serialize (.joinRoomResponse this.name true)⟩]
  | none => []

theorem response_of_mem_welcome {δ : Type} {this : Channel} {s : Server δ} {w : World} {i : UserId}
    {x : Write} (hx : x ∈ welcome this s w i) : x.response = .joinRoomResponse this.name true := by
  simp only [welcome] at hx
  split at hx
  · split at hx
    · exact absurd hx List.not_mem_nil
    · rw [List.mem_singleton.mp hx]
  · exact absurd hx List.not_mem_nil

/-- A client that joins is a member; only its joining is written. -/
theorem run_addUser {δ : Type} {s : Server δ} {p : ChannelPtr} {this : Channel}
    (hthis : s.objects[p]? = some this) (w : World) (i : UserId) :
    (addUser w p i).run s =
      (.ok ⟨⟩, Server.log { s with
        objects := s.objects.set p { this with idUsers := insert i this.idUsers } } w
        (welcome this s w i)) := by
  have hderef := run_deref hthis
  by_cases hmem : i ∈ this.idUsers
  · -- a member that joins again changes nothing
    have hset : s.objects.set p { this with idUsers := insert i this.idUsers } = s.objects := by
      rw [Finset.insert_eq_of_mem hmem]
      obtain ⟨hp, rfl⟩ := List.getElem?_eq_some_iff.mp hthis
      exact List.set_getElem_self hp
    have hnone : welcome this s w i = [] := by
      cases hlive : s.liveSession w i <;> simp [welcome, hlive, hmem]
    rw [addUser, Prog.run_bind_ok hderef, hnone, Server.log_nil, hset]
    simp [hmem]
  · cases huser : s.idClients i with
    | none =>
      have hlive : s.liveSession w i = none := by simp [Server.liveSession, huser]
      rw [addUser, Prog.run_bind_ok hderef, welcome, hlive, Server.log_nil]
      simp [hmem, Prog.run_bind, UserManager.getUser, huser]
    | some user =>
      by_cases halive : w.alive user.session = true
      · have hlive : s.liveSession w i = some user.session := by
          simp [Server.liveSession, huser, halive]
        rw [addUser, Prog.run_bind_ok hderef]
        simp [hmem, Prog.run_bind, UserManager.getUser, huser, halive, ClientSession.run_write,
          welcome, hlive]
      · have hlive : s.liveSession w i = none := by simp [Server.liveSession, huser, halive]
        rw [addUser, Prog.run_bind_ok hderef, welcome, hlive, Server.log_nil]
        simp [hmem, Prog.run_bind, UserManager.getUser, huser, halive]

/-- The write of `sendHistory`: what is stored since a date, for a member who is online. -/
def historyFor (this : Channel) (s : Server Postgres) (w : World) (i : UserId) (dt : DateTime) :
    List Write :=
  let messages := (WrapperPg.storedMessages s.db.db this.id).filter (isSince dt)
  match s.liveSession w i with
  | some session =>
    if i ∈ this.idUsers ∧ messages ≠ [] then
      [⟨session, .historyResponse this.name messages,
        Protocol.serialize (.historyResponse this.name messages)⟩]
    else
      []
  | none => []

/-- A history goes to the session of a member. -/
theorem mem_historyFor {this : Channel} {w : World} {i : UserId} {dt : DateTime} {x : Write}
    (hx : x ∈ historyFor this s w i dt) :
    (∃ messages, x.response = .historyResponse this.name messages) ∧
      i ∈ this.idUsers ∧ s.liveSession w i = some x.session := by
  simp only [historyFor] at hx
  split at hx
  · next session hlive =>
    split at hx
    · next hmember =>
      obtain rfl := List.mem_singleton.mp hx
      exact ⟨⟨_, rfl⟩, hmember.1, hlive⟩
    · exact absurd hx List.not_mem_nil
  · exact absurd hx List.not_mem_nil

/-- A member who is online is sent what the database gives since a date, unless there is nothing. -/
theorem run_sendHistory_live {δ : Type} {db : IDatabase δ} {s : Server δ} {p : ChannelPtr}
    {this : Channel} (hthis : s.objects[p]? = some this) {w : World} {i : UserId}
    {session : SessionId} (hmem : i ∈ this.idUsers) (hlive : s.liveSession w i = some session)
    {history : List ClientTextMsg} {d : δ}
    (hhistory : (db.getHistory this.id).run s.db = (.ok history, d)) (dt : DateTime) :
    (sendHistory db w p i dt).run s =
      (.ok ⟨⟩, Server.log { s with db := d } w
        (if history.filter (isSince dt) = [] then []
        else [⟨session, .historyResponse this.name (history.filter (isSince dt)),
          Protocol.serialize (.historyResponse this.name (history.filter (isSince dt)))⟩])) := by
  obtain ⟨user, huser, halive, rfl⟩ := Server.liveSession_eq_some hlive
  have hget : (UserManager.getUser i : Prog (Server δ) Exn _).run s = (.ok (some user), s) := by
    simp [UserManager.getUser, huser]
  rw [sendHistory, Prog.run_bind_ok (run_deref hthis)]
  simp only [hmem, if_true]
  rw [Prog.run_bind_ok hget]
  simp only [halive, if_true]
  rw [Prog.run_bind_ok (Server.run_inDb_ok hhistory)]
  by_cases hempty : history.filter (isSince dt) = []
  · simp [hempty]
  · simp only [if_neg hempty]
    rw [Prog.run_bind_ok (ClientSession.run_write _ _ _ _ _)]
    rfl

theorem run_sendHistory (faults : s.db.faults = []) {p : ChannelPtr} {this : Channel}
    (hthis : s.objects[p]? = some this) (w : World) (i : UserId) (dt : DateTime) :
    (sendHistory WrapperPg.database w p i dt).run s =
      (.ok ⟨⟩, s.log w (historyFor this s w i dt)) := by
  have hderef := run_deref hthis
  by_cases hmem : i ∈ this.idUsers
  · cases hlive : s.liveSession w i with
    | some session =>
      have hhistory := WrapperPg.run_getHistory faults this.id
      rw [run_sendHistory_live hthis hmem hlive hhistory]
      by_cases hempty : (WrapperPg.storedMessages s.db.db this.id).filter (isSince dt) = []
      · simp [historyFor, hlive, hempty]
      · simp [historyFor, hlive, hmem, hempty]
    | none =>
      -- a member that is not online is sent nothing
      rw [sendHistory, Prog.run_bind_ok hderef]
      cases huser : s.idClients i with
      | none => simp [hmem, Prog.run_bind, UserManager.getUser, huser, historyFor, hlive]
      | some user =>
        have halive : w.alive user.session = false := by
          simpa [Server.liveSession, huser] using hlive
        simp [hmem, Prog.run_bind, UserManager.getUser, huser, halive, historyFor, hlive]
  -- who is no member is sent nothing
  · rw [sendHistory, Prog.run_bind_ok hderef]
    cases hlive : s.liveSession w i <;> simp [hmem, historyFor, hlive]

end Channel

end Channels

end GatewayServer
