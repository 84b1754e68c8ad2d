import GatewayServer.Engine.Records

/-!
# Joining in any order

A list of requests to join, by clients that are known or not. Channels get their ids in the order in
which their names come up, so the ids depend on the list. Who is a member of which name does not.

## Main definitions

* `Server.members` — the members of the channel of a name, in memory
* `Database.subscribersOf` — the clients that the tables hold for the channel of a name
* `joinIn` — one request to join

## Main results

* `mem_subscribersOf_foldl` — the subscribers after a list of requests
* `membership_of_joins` — the membership depends on the set of pairs that the list asks for
-/

namespace GatewayServer

open Lib

namespace Database

variable {db : Database} {i : UserId} {n : String}

/-- The clients that `subscriptions` holds for the channel of a name. -/
def subscribersOf (db : Database) (n : String) : Finset UserId :=
  (db.subscribers (db.channelId n)).toFinset

theorem mem_subscribersOf : i ∈ db.subscribersOf n ↔ ⟨i, db.channelId n⟩ ∈ db.subscriptions := by
  rw [subscribersOf, List.mem_toFinset, mem_subscribers]

/-- A name that is entered has no subscribers, and the others keep theirs. -/
theorem mem_subscribersOf_enter (h : db.Subscribed) (m : String) :
    i ∈ (db.enter m).subscribersOf n ↔ i ∈ db.subscribersOf n := by
  rw [mem_subscribersOf, mem_subscribersOf, enter_subscriptions]
  by_cases hm : db.channelId m = 0
  · rw [enter, if_pos hm]
    have hid : (db.insertChannel m).channelId n =
        if n = m then db.channels.next else db.channelId n :=
      @SerialTable.firstId_insert_key _ _ db.channels _ id m hm n
    rw [hid]
    split
    · next hn =>
      subst hn
      -- neither zero nor the next id is the id of a row
      constructor
      · intro hsub
        obtain ⟨r, hr, hrid⟩ := h _ hsub
        exact absurd hrid (Nat.ne_of_lt (db.channels.id_lt r hr))
      · intro hsub
        obtain ⟨r, hr, hrid⟩ := h _ hsub
        exact absurd (hrid.trans hm) (Nat.ne_of_gt (db.channels.id_pos r hr))
    · exact Iff.rfl
  · rw [enter, if_neg hm]

theorem mem_subscribersOf_subscribe {m : String} (hm : db.channelId m ≠ 0) (j : UserId) :
    i ∈ (db.subscribe ⟨j, db.channelId m⟩).subscribersOf n ↔
      i ∈ db.subscribersOf n ∨ (j = i ∧ m = n) := by
  have hid : (db.subscribe ⟨j, db.channelId m⟩).channelId n = db.channelId n := by
    simp only [channelId, subscribe_channels]
  rw [mem_subscribersOf, mem_subscribersOf, hid, mem_subscribe, Subscription.mk.injEq]
  refine or_congr_right ?_
  constructor
  · rintro ⟨rfl, hids⟩
    have hn : db.channelId n ≠ 0 := hids ▸ hm
    have hrows := SerialTable.eq_of_id_eq (row_of_channelId hm) (row_of_channelId hn) hids.symm
    exact ⟨rfl, congrArg Row.data hrows⟩
  · rintro ⟨rfl, rfl⟩
    exact ⟨rfl, rfl⟩

/-- A pair that is there is not entered again. -/
theorem nodup_subscribe (h : db.subscriptions.Nodup) (sub : Subscription) :
    (db.subscribe sub).subscriptions.Nodup := by
  unfold subscribe
  split
  · exact h
  · next hnew =>
    rw [insertSubscription_subscriptions, List.nodup_append']
    exact ⟨h, List.nodup_singleton _, by simpa using hnew⟩

end Database

/-- The members of the channel of a name, when the registry has one. -/
def Server.members (s : Server Postgres) (n : String) : Option (Finset UserId) :=
  (s.registry (s.db.db.channelId n)).map Channel.idUsers

/-- The members in memory are the subscribers of the tables. -/
theorem Server.Coherent.members_eq {s : Server Postgres} (h : s.Coherent) (n : String) :
    s.members n =
      if s.db.db.channelId n ≠ 0 ∧ n ≠ "" then some (s.db.db.subscribersOf n) else none := by
  rw [Server.members, h.registry, Database.channelOf]
  by_cases hid : s.db.db.channelId n = 0
  · have hnone : s.db.db.channels.lookup (s.db.db.channelId n) = none := by
      rw [Option.eq_none_iff_forall_not_mem]
      intro m hm
      exact absurd hid (Nat.ne_of_gt
        (s.db.db.channels.id_pos _ (SerialTable.lookup_eq_some_iff.mp hm)))
    rw [hnone, if_neg fun h => h.1 hid]
    rfl
  · have hlookup := SerialTable.lookup_eq_some_iff.mpr (Database.row_of_channelId hid)
    rw [hlookup]
    by_cases hn : n = ""
    · simp [hn]
    · simp [hn, hid, Database.subscribersOf]

section Joins

variable [Protocol] {s : Server Postgres}

/-- One request to join. -/
def joinIn (s : Server Postgres) (e : World × JoinRoomRequest) : Server Postgres :=
  serve WrapperPg.database s ⟨e.1, .joinRoom e.2⟩

/-- A server with the users of `s`, and with tables in which no subscription dangles. -/
structure Server.ReadyToJoin (s t : Server Postgres) : Prop where
  coherent : t.Coherent
  subscribed : t.db.db.Subscribed
  users : t.idClients = s.idClients

/-- What a request enters for the client `i` and the channel `n`. -/
def Server.Enrolls (s : Server Postgres) (i : UserId) (n : String) (e : World × JoinRoomRequest) :
    Prop :=
  e.2 = ⟨i, n⟩ ∧ n ≠ "" ∧ (s.idClients i).isSome

namespace Server.ReadyToJoin

variable {t : Server Postgres} (h : s.ReadyToJoin t) (e : World × JoinRoomRequest)
include h

theorem joinIn : s.ReadyToJoin (joinIn t e) where
  coherent := (served h.coherent _).coherent
  subscribed := (serve_subscribed _ ⟨h.coherent, h.subscribed⟩).2
  users := by
    funext i
    rcases (served h.coherent ⟨e.1, .joinRoom e.2⟩).users i with ⟨hsame, -⟩ | ⟨user, -, hbinds⟩
    · exact hsame.trans (congrFun h.users i)
    · exact absurd hbinds (Database.not_binds rfl i user.session)

theorem mem_subscribersOf_joinIn (i : UserId) (n : String) :
    i ∈ (GatewayServer.joinIn t e).db.db.subscribersOf n ↔
      i ∈ t.db.db.subscribersOf n ∨ s.Enrolls i n e := by
  obtain ⟨w, j, m⟩ := e
  rw [GatewayServer.joinIn, serve_db h.coherent]
  simp only [Server.tablesAfter, Server.Enrolls, h.users, JoinRoomRequest.mk.injEq]
  by_cases hjoins : m ≠ "" ∧ (s.idClients j).isSome
  · rw [if_pos hjoins, Database.mem_subscribersOf_subscribe (Database.channelId_enter_ne_zero m),
      Database.mem_subscribersOf_enter h.subscribed]
    refine or_congr_right ?_
    constructor
    · rintro ⟨rfl, rfl⟩
      exact ⟨⟨rfl, rfl⟩, hjoins⟩
    · exact And.left
  -- an unknown client and an empty name enter no pair
  · rw [if_neg hjoins, Database.mem_subscribersOf_enter h.subscribed]
    constructor
    · exact Or.inl
    · rintro (hold | ⟨⟨rfl, rfl⟩, hnew⟩)
      · exact hold
      · exact absurd hnew hjoins

theorem nodup_joinIn (hnodup : t.db.db.subscriptions.Nodup) :
    (GatewayServer.joinIn t e).db.db.subscriptions.Nodup := by
  rw [GatewayServer.joinIn, serve_db h.coherent]
  simp only [Server.tablesAfter]
  split
  · exact Database.nodup_subscribe (by rwa [Database.enter_subscriptions]) _
  · rwa [Database.enter_subscriptions]

theorem channelId_joinIn (n : String) :
    (GatewayServer.joinIn t e).db.db.channelId n ≠ 0 ↔
      t.db.db.channelId n ≠ 0 ∨ e.2.channelName = n := by
  have hnames := (served h.coherent ⟨e.1, .joinRoom e.2⟩).names n
  rwa [Call.channelName, Option.some.injEq] at hnames

end Server.ReadyToJoin

/-! ## Lists of requests -/

variable (h : s.ReadyToJoin s) (joins : List (World × JoinRoomRequest))
include h

theorem foldl_joinIn_ready : s.ReadyToJoin (joins.foldl joinIn s) :=
  List.foldlRecOn (motive := s.ReadyToJoin) joins joinIn h fun _ ht e _ => ht.joinIn e

/-- The subscribers of a name are those before the list and those whose requests are in it. -/
theorem mem_subscribersOf_foldl (i : UserId) (n : String) :
    i ∈ (joins.foldl joinIn s).db.db.subscribersOf n ↔
      i ∈ s.db.db.subscribersOf n ∨
        ⟨i, n⟩ ∈ joins.map Prod.snd ∧ n ≠ "" ∧ (s.idClients i).isSome := by
  rw [foldl_iff_sometime (I := s.ReadyToJoin) (Q := fun t => i ∈ t.db.db.subscribersOf n)
    (fun t e ht => ht.joinIn e) (fun t e ht => ht.mem_subscribersOf_joinIn e i n) h,
    sometime_iff_exists_mem]
  simp only [Server.Enrolls, List.mem_map]
  refine or_congr_right ?_
  constructor
  · rintro ⟨e, he, hrequest, hrest⟩
    exact ⟨⟨e, he, hrequest⟩, hrest⟩
  · rintro ⟨⟨e, he, hrequest⟩, hrest⟩
    exact ⟨e, he, hrequest, hrest⟩

theorem channelId_foldl (n : String) :
    (joins.foldl joinIn s).db.db.channelId n ≠ 0 ↔
      s.db.db.channelId n ≠ 0 ∨ n ∈ joins.map fun e => e.2.channelName := by
  rw [foldl_iff_sometime (I := s.ReadyToJoin) (Q := fun t => t.db.db.channelId n ≠ 0)
    (fun t e ht => ht.joinIn e) (fun t e ht => ht.channelId_joinIn e n) h,
    sometime_iff_exists_mem, List.mem_map]

theorem nodup_foldl (hnodup : s.db.db.subscriptions.Nodup) :
    (joins.foldl joinIn s).db.db.subscriptions.Nodup :=
  (List.foldlRecOn (motive := fun t => s.ReadyToJoin t ∧ t.db.db.subscriptions.Nodup) joins joinIn
    ⟨h, hnodup⟩ fun _ ht e _ => ⟨ht.1.joinIn e, ht.1.nodup_joinIn e ht.2⟩).2

variable {joins} {joins' : List (World × JoinRoomRequest)}

/-- Lists with the same requests leave the same subscribers. -/
theorem subscribersOf_congr
    (hsame : ∀ request, request ∈ joins.map Prod.snd ↔ request ∈ joins'.map Prod.snd) (n : String) :
    (joins.foldl joinIn s).db.db.subscribersOf n =
      (joins'.foldl joinIn s).db.db.subscribersOf n := by
  ext i
  rw [mem_subscribersOf_foldl h, mem_subscribersOf_foldl h, hsame]

/-- Lists with the same requests leave the same members in memory. -/
theorem members_congr
    (hsame : ∀ request, request ∈ joins.map Prod.snd ↔ request ∈ joins'.map Prod.snd) (n : String) :
    (joins.foldl joinIn s).members n = (joins'.foldl joinIn s).members n := by
  have hnames : (n ∈ joins.map fun e => e.2.channelName) ↔
      n ∈ joins'.map fun e => e.2.channelName := by
    have hmap (l : List (World × JoinRoomRequest)) :
        (l.map fun e => e.2.channelName) = (l.map Prod.snd).map JoinRoomRequest.channelName := by
      rw [List.map_map]
      rfl
    rw [hmap, hmap, List.mem_map, List.mem_map]
    exact exists_congr fun request => and_congr_left fun _ => hsame request
  have hid : (joins.foldl joinIn s).db.db.channelId n ≠ 0 ↔
      (joins'.foldl joinIn s).db.db.channelId n ≠ 0 := by
    rw [channelId_foldl h, channelId_foldl h, hnames]
  rw [(foldl_joinIn_ready h joins).coherent.members_eq,
    (foldl_joinIn_ready h joins').coherent.members_eq, subscribersOf_congr h hsame]
  simp only [hid]

end Joins

variable [Protocol]

/-- In a server that was started and has served some requests, lists of requests to join that ask
for the same pairs leave the same members of every channel name, in memory and in the tables. No
list enters a pair twice. -/
theorem membership_of_joins {d : Postgres} (faults : d.faults = [])
    (hnames : ∀ r ∈ d.db.channels.rows, r.data ≠ "") (hsubs : d.db.Subscribed)
    (before : List Event) :
    let s := runFrom d before
    (∀ joins joins' : List (World × JoinRoomRequest),
      (∀ request, request ∈ joins.map Prod.snd ↔ request ∈ joins'.map Prod.snd) →
      ∀ n, (joins.foldl joinIn s).members n = (joins'.foldl joinIn s).members n ∧
        (joins.foldl joinIn s).db.db.subscribersOf n =
          (joins'.foldl joinIn s).db.db.subscribersOf n) ∧
    (s.db.db.subscriptions.Nodup → ∀ joins : List (World × JoinRoomRequest),
      (joins.foldl joinIn s).db.db.subscriptions.Nodup) := by
  intro s
  have hs : s.ReadyToJoin s :=
    ⟨runFrom_coherent faults hnames before, runFrom_subscribed faults hnames before hsubs, rfl⟩
  refine ⟨?_, fun hnodup joins => nodup_foldl hs joins hnodup⟩
  intro joins joins' hsame n
  exact ⟨members_congr hs hsame n, subscribersOf_congr hs hsame n⟩

/-- Two clients who have logged in. -/
def annAndBob : List Event :=
  [⟨.calm, .reg 10 ⟨"ann", "a"⟩⟩, ⟨.calm, .reg 20 ⟨"bob", "b"⟩⟩]

omit [Protocol] in
/-- Ann joins two channels in one order, and twice in the other. -/
theorem membership_of_joins_ann :
    letI := Protocol.oneByte
    let s := runFrom emptyTables annAndBob
    ([(World.calm, ⟨1, "room"⟩), (World.calm, ⟨1, "hall"⟩)].foldl joinIn s).members "hall" =
      ([(World.calm, ⟨1, "hall"⟩), (World.calm, ⟨1, "room"⟩),
        (World.calm, ⟨1, "hall"⟩)].foldl joinIn s).members "hall" := by
  let _ := Protocol.oneByte
  have h := membership_of_joins (d := emptyTables) rfl emptyTables_names emptyTables_subscribed
    annAndBob
  refine (h.1 [(World.calm, ⟨1, "room"⟩), (World.calm, ⟨1, "hall"⟩)]
    [(World.calm, ⟨1, "hall"⟩), (World.calm, ⟨1, "room"⟩), (World.calm, ⟨1, "hall"⟩)] ?_
    "hall").1
  intro request
  simp only [List.map_cons, List.map_nil, List.mem_cons, List.not_mem_nil, or_false]
  tauto

end GatewayServer
