import GatewayServer.Database.WrapperPg
import GatewayServer.Lib.RelyGuarantee

/-!
# Tables that only grow

The operations of `WrapperPg` beside those of other threads, with queries that may fail. Rows are
only appended, so what an operation has found in the tables is still there when it goes on. What
the rows of `subscriptions` and `history` may be is left open: an operation that is given such rows
only stores rows of this kind. So is which logins are in use from the beginning, and whether a query
may fail at all.

## Main definitions

* `Database.Precedes` — rows are appended
* `RowRules` — what the operations may go by
* `RowRules.contract` — the rules hold, and the tables grow

## Main results

* `RowRules.checkRegUser`, … — what each operation returns, and that it honours the contract
-/

namespace GatewayServer

open Lib

namespace Database

/-- Rows are appended to the tables, and none is changed. -/
structure Precedes (db db' : Database) : Prop where
  clients : db.clients.rows <+: db'.clients.rows
  channels : db.channels.rows <+: db'.channels.rows
  subscriptions : db.subscriptions <+: db'.subscriptions
  history : db.history <+: db'.history

theorem Precedes.refl (db : Database) : db.Precedes db :=
  ⟨List.prefix_refl _, List.prefix_refl _, List.prefix_refl _, List.prefix_refl _⟩

theorem Precedes.trans {db db' db'' : Database} (h : db.Precedes db') (h' : db'.Precedes db'') :
    db.Precedes db'' :=
  ⟨h.clients.trans h'.clients, h.channels.trans h'.channels,
    h.subscriptions.trans h'.subscriptions, h.history.trans h'.history⟩

theorem precedes_insertClient (db : Database) (c : Client) : db.Precedes (db.insertClient c) :=
  ⟨List.prefix_append _ _, List.prefix_refl _, List.prefix_refl _, List.prefix_refl _⟩

theorem precedes_insertChannel (db : Database) (n : String) : db.Precedes (db.insertChannel n) :=
  ⟨List.prefix_refl _, List.prefix_append _ _, List.prefix_refl _, List.prefix_refl _⟩

theorem precedes_insertSubscription (db : Database) (sub : Subscription) :
    db.Precedes (db.insertSubscription sub) :=
  ⟨List.prefix_refl _, List.prefix_refl _, List.prefix_append _ _, List.prefix_refl _⟩

theorem precedes_insertHistory {db db' : Database} {row : HistoryRow}
    (h : db.insertHistory row = some db') : db.Precedes db' := by
  obtain ⟨-, hhistory, hclients, hchannels, hsubs⟩ := insertHistory_eq_some h
  refine ⟨hclients ▸ List.prefix_refl _, hchannels ▸ List.prefix_refl _,
    hsubs ▸ List.prefix_refl _, ?_⟩
  rw [hhistory]
  exact List.prefix_append _ _

/-- A client with an id and a login is registered. -/
def Registered (db : Database) (i : UserId) (login : String) : Prop :=
  ∃ password, ⟨i, ⟨login, password⟩⟩ ∈ db.clients.rows

/-- A client has an id, a login and a password. -/
def HasClient (db : Database) (i : UserId) (login password : String) : Prop :=
  ⟨i, ⟨login, password⟩⟩ ∈ db.clients.rows

/-- A channel has an id and a name. -/
def Named (db : Database) (k : UserId) (n : String) : Prop := ⟨k, n⟩ ∈ db.channels.rows

variable {db db' : Database} {i k : UserId} {login n n' : String}

theorem Registered.later (h : db.Registered i login) (hlater : db.Precedes db') :
    db'.Registered i login := by
  obtain ⟨password, hrow⟩ := h
  exact ⟨password, hlater.clients.mem hrow⟩

theorem HasClient.later {password : String} (h : db.HasClient i login password)
    (hlater : db.Precedes db') : db'.HasClient i login password :=
  hlater.clients.mem h

theorem HasClient.registered {password : String} (h : db.HasClient i login password) :
    db.Registered i login :=
  ⟨password, h⟩

theorem Named.later (h : db.Named k n) (hlater : db.Precedes db') : db'.Named k n :=
  hlater.channels.mem h

/-- A client id has one login. -/
theorem Registered.eq {login' : String} (h : db.Registered i login)
    (h' : db.Registered i login') : login = login' := by
  obtain ⟨password, hrow⟩ := h
  obtain ⟨password', hrow'⟩ := h'
  have heq := SerialTable.eq_of_id_eq hrow hrow' rfl
  exact congrArg (fun r => r.data.login) heq

/-- A channel id has one name. -/
theorem Named.eq (h : db.Named k n) (h' : db.Named k n') : n = n' :=
  congrArg Row.data (SerialTable.eq_of_id_eq h h' rfl)

theorem Named.ne_zero (h : db.Named k n) : k ≠ 0 :=
  Nat.ne_of_gt (db.channels.id_pos _ h)

theorem registered_clientId (h : db.clientId login ≠ 0) :
    db.Registered (db.clientId login) login := by
  obtain ⟨⟨i, client⟩, hr, hid, hlogin⟩ := SerialTable.exists_row_of_firstId_ne_zero h
  obtain rfl : client.login = login := of_decide_eq_true hlogin
  exact ⟨client.password, by rwa [clientId, ← hid]⟩

/-- A login stays in use. -/
theorem clientId_later (h : db.clientId login ≠ 0) (hlater : db.Precedes db') :
    db'.clientId login ≠ 0 := by
  obtain ⟨r, hr, -, hlogin⟩ := SerialTable.exists_row_of_firstId_ne_zero h
  exact SerialTable.firstId_ne_zero_of_mem (hlater.clients.mem hr) hlogin

theorem named_channelId (h : db.channelId n ≠ 0) : db.Named (db.channelId n) n := by
  obtain ⟨⟨k, name⟩, hr, hid, hname⟩ := SerialTable.exists_row_of_firstId_ne_zero h
  obtain rfl : name = n := of_decide_eq_true hname
  rwa [Named, channelId, ← hid]

theorem registered_loginOf (h : db.loginOf i ≠ "") : db.Registered i (db.loginOf i) := by
  cases hlookup : db.clients.lookup i with
  | none => exact absurd (by rw [loginOf, hlookup]; rfl) h
  | some client =>
    have hlogin : db.loginOf i = client.login := by rw [loginOf, hlookup]; rfl
    rw [hlogin]
    exact ⟨client.password, SerialTable.lookup_eq_some_iff.mp hlookup⟩

theorem named_channelNameOf (h : db.channelNameOf k ≠ "") : db.Named k (db.channelNameOf k) := by
  cases hlookup : db.channels.lookup k with
  | none => exact absurd (by rw [channelNameOf, hlookup]; rfl) h
  | some name =>
    have hname : db.channelNameOf k = name := by rw [channelNameOf, hlookup]; rfl
    rw [hname]
    exact SerialTable.lookup_eq_some_iff.mp hlookup

end Database

/-- What the operations may go by: which logins are in use from the beginning, whether a query may
fail, and what the rows of `subscriptions` and `history` may be. What may be there may stay there
when the tables grow. -/
structure RowRules where
  taken : String → Prop
  failing : Prop
  subscription : Database → Subscription → Prop
  history : Database → HistoryRow → Prop
  subscription_later : ∀ db db' sub, db.Precedes db' → subscription db sub → subscription db' sub
  history_later : ∀ db db' row, db.Precedes db' → history db row → history db' row

namespace RowRules

/-- All rows are as they may be. -/
structure Holds (rules : RowRules) (db : Database) : Prop where
  subscription : ∀ sub ∈ db.subscriptions, rules.subscription db sub
  history : ∀ row ∈ db.history, rules.history db row

/-- Besides, the logins are in use, and a query fails only when one may. -/
structure Inv (rules : RowRules) (s : Postgres) : Prop extends rules.Holds s.db where
  taken : ∀ login, rules.taken login → s.db.clientId login ≠ 0
  faults : true ∈ s.faults → rules.failing

/-- The rules hold, and the tables grow. -/
def contract (rules : RowRules) : Contract Postgres where
  inv := rules.Inv
  rel s t := s.db.Precedes t.db
  refl s := .refl s.db
  trans _ _ _ := .trans

variable {rules : RowRules} {db db' : Database}

/-- Tables that have grown, but not those that the rules are about. -/
theorem Holds.later (h : rules.Holds db) (hlater : db.Precedes db')
    (hsubs : db'.subscriptions = db.subscriptions) (hhistory : db'.history = db.history) :
    rules.Holds db' := by
  refine ⟨fun sub hsub => ?_, fun row hrow => ?_⟩
  · rw [hsubs] at hsub
    exact rules.subscription_later db db' sub hlater (h.subscription sub hsub)
  · rw [hhistory] at hrow
    exact rules.history_later db db' row hlater (h.history row hrow)

theorem Holds.insertSubscription (h : rules.Holds db) {sub : Subscription}
    (hsub : rules.subscription db sub) : rules.Holds (db.insertSubscription sub) := by
  have hlater := db.precedes_insertSubscription sub
  refine ⟨fun sub' hsub' => ?_, fun row hrow => ?_⟩
  · refine rules.subscription_later db _ sub' hlater ?_
    rcases List.mem_append.mp hsub' with hold | hnew
    · exact h.subscription sub' hold
    · rw [List.mem_singleton.mp hnew]
      exact hsub
  · exact rules.history_later db _ row hlater (h.history row hrow)

theorem Holds.insertHistory (h : rules.Holds db) {row : HistoryRow}
    (hrow : rules.history db row) (hins : db.insertHistory row = some db') : rules.Holds db' := by
  have hlater := Database.precedes_insertHistory hins
  obtain ⟨-, hhistory, -, -, hsubs⟩ := Database.insertHistory_eq_some hins
  refine ⟨fun sub hsub => ?_, fun row' hrow' => ?_⟩
  · rw [hsubs] at hsub
    exact rules.subscription_later db _ sub hlater (h.subscription sub hsub)
  · refine rules.history_later db _ row' hlater ?_
    rw [hhistory] at hrow'
    rcases List.mem_append.mp hrow' with hold | hnew
    · exact h.history row' hold
    · rw [List.mem_singleton.mp hnew]
      exact hrow

/-! ## Queries -/

variable {s : Postgres} {β : Type}

/-- A query fails, or has its effect on the tables that it finds. -/
theorem execThreadSafe {query : String} {effect : Database → Option (β × Database)}
    (post : Option β → Database → Prop)
    (heffect : ∀ db rows db', rules.Holds db → s.db.Precedes db → effect db = some (rows, db') →
      rules.Holds db' ∧ db.Precedes db' ∧ post (some rows) db')
    (hfail : ∀ db, s.db.Precedes db → rules.failing ∨ effect db = none → post none db) :
    (WrapperPg.execThreadSafe query effect).Honours rules.contract
      (fun a s => post a s.db) s := by
  refine .atomic fun t ht => ?_
  obtain ⟨db, faults⟩ := t
  have hinv : rules.Inv ⟨db, faults⟩ := ht.inv
  have hfaults : true ∈ faults.tail → rules.failing := fun h =>
    hinv.faults (List.mem_of_mem_tail h)
  have hfailed (hwhy : rules.failing ∨ effect db = none) :
      rules.contract.Allows ⟨db, faults⟩ ⟨db, faults.tail⟩ ∧ post none db :=
    ⟨⟨⟨hinv.toHolds, hinv.taken, hfaults⟩, .refl db⟩, hfail db ht.rel hwhy⟩
  unfold WrapperPg.exec
  cases hresult : effect db with
  | none => rcases faults with - | ⟨- | -, faults⟩ <;> exact hfailed (Or.inr hresult)
  | some result =>
    obtain ⟨hholds, hlater, hpost⟩ :=
      heffect db result.1 result.2 hinv.toHolds ht.rel hresult
    have htaken (login : String) (hlogin : rules.taken login) : result.2.clientId login ≠ 0 :=
      Database.clientId_later (hinv.taken login hlogin) hlater
    rcases faults with - | ⟨- | -, faults⟩
    · exact ⟨⟨⟨hholds, htaken, hfaults⟩, hlater⟩, hpost⟩
    · exact ⟨⟨⟨hholds, htaken, hfaults⟩, hlater⟩, hpost⟩
    · exact hfailed (Or.inl (hinv.faults List.mem_cons_self))

theorem select {query : String} {rows : Database → β} (post : Option β → Database → Prop)
    (hrows : ∀ db, rules.Holds db → s.db.Precedes db → post (some (rows db)) db)
    (hfail : ∀ db, s.db.Precedes db → rules.failing → post none db) :
    (WrapperPg.select query rows).Honours rules.contract (fun a s => post a s.db) s := by
  refine execThreadSafe post (fun db r db' hholds hlater heffect => ?_) fun db hlater hwhy => ?_
  · obtain ⟨rfl, rfl⟩ := Prod.mk.inj (Option.some.inj heffect)
    exact ⟨hholds, .refl db, hrows db hholds hlater⟩
  · exact hfail db hlater (hwhy.resolve_right (Option.some_ne_none _))

/-- An `INSERT` that the schema does not refuse: unless a query may fail, `post` holds after it. -/
theorem insert {query : String} {effect : Database → Option Database} (post : Database → Prop)
    (heffect : ∀ db db', rules.Holds db → s.db.Precedes db → effect db = some db' →
      rules.Holds db' ∧ db.Precedes db' ∧ post db')
    (hrefused : ∀ db, effect db = none → post db) :
    (WrapperPg.insert query effect).Honours rules.contract
      (fun _ s => rules.failing ∨ post s.db) s := by
  refine execThreadSafe (fun _ db => rules.failing ∨ post db) ?_ fun db _ hwhy => ?_
  · intro db r db' hholds hlater hresult
    obtain ⟨db'', hdb, heq⟩ := Option.map_eq_some_iff.mp hresult
    obtain ⟨-, rfl⟩ := Prod.mk.inj heq
    obtain ⟨hholds', hlater', hpost⟩ := heffect db db'' hholds hlater hdb
    exact ⟨hholds', hlater', Or.inr hpost⟩
  · exact hwhy.imp_right fun hnone => hrefused db (Option.map_eq_none_iff.mp hnone)

/-! ## Operations -/

variable (hs : rules.Inv s) (pg : WrapperPg)
include hs

theorem getClientId (login : String) :
    (pg.getClientId login).Honours rules.contract
      (fun i s => i ≠ 0 → s.db.Registered i login) s := by
  unfold WrapperPg.getClientId
  split
  · refine .bind hs (select (fun res db => res.getD 0 ≠ 0 → db.Registered (res.getD 0) login)
      (fun db _ _ hne => Database.registered_clientId hne) fun _ _ _ hne => absurd rfl hne) ?_
    intro res t _ hres
    exact hres
  · exact fun hne => absurd rfl hne

/-- A lookup that finds nobody has failed, or nobody has had the login. -/
theorem getClientId_free (hconnected : pg.isConnected = true) (login : String) :
    (pg.getClientId login).Honours rules.contract
      (fun i _ => i = 0 → rules.failing ∨ ¬ rules.taken login) s := by
  rw [WrapperPg.getClientId, if_pos hconnected]
  refine .bind hs (select (fun res _ => res.getD 0 = 0 → rules.failing ∨ ¬ rules.taken login)
    (fun db _ hlater hzero => ?_) fun _ _ hfailing _ => Or.inl hfailing) ?_
  · exact Or.inr fun hlogin => Database.clientId_later (hs.taken login hlogin) hlater hzero
  · intro res t _ hres
    exact hres

theorem getChannelId (n : String) :
    (pg.getChannelId n).Honours rules.contract (fun k s => k ≠ 0 → s.db.Named k n) s := by
  unfold WrapperPg.getChannelId
  split
  · refine .bind hs (select (fun res db => res.getD 0 ≠ 0 → db.Named (res.getD 0) n)
      (fun db _ _ hne => Database.named_channelId hne) fun _ _ _ hne => absurd rfl hne) ?_
    intro res t _ hres
    exact hres
  · exact fun hne => absurd rfl hne

theorem getChannelName (k : UserId) :
    (pg.getChannelName k).Honours rules.contract (fun n s => n ≠ "" → s.db.Named k n) s := by
  unfold WrapperPg.getChannelName
  split
  · refine .bind hs (select (fun res db => res.getD "" ≠ "" → db.Named k (res.getD ""))
      (fun db _ _ hne => Database.named_channelNameOf hne) fun _ _ _ hne => absurd rfl hne) ?_
    intro res t _ hres
    exact hres
  · exact fun hne => absurd rfl hne

theorem getClientName (i : UserId) :
    (pg.getClientName i).Honours rules.contract
      (fun login s => login ≠ "" → s.db.Registered i login) s := by
  unfold WrapperPg.getClientName
  split
  · refine .bind hs (select (fun res db => res.getD "" ≠ "" → db.Registered i (res.getD ""))
      (fun db _ _ hne => Database.registered_loginOf hne) fun _ _ _ hne => absurd rfl hne) ?_
    intro res t _ hres
    exact hres
  · exact fun hne => absurd rfl hne

/-- The id is one of the login. Unless a query may fail, the login was not in use from the
beginning, and a row has it with the password. -/
theorem checkRegUser (settings : InputSettings) :
    (pg.checkRegUser settings).Honours rules.contract
      (fun i s => i ≠ 0 → s.db.Registered i settings.clientName ∧
        (rules.failing ∨ ¬ rules.taken settings.clientName ∧
          ∃ j, s.db.HasClient j settings.clientName settings.clientPassword)) s := by
  unfold WrapperPg.checkRegUser
  split
  next hconnected =>
    refine .bind hs (getClientId_free hs pg hconnected settings.clientName) ?_
    intro found t ht hfree
    split
    next hzero =>
      have hinsert : (WrapperPg.insert
          (QueryText.checkRegUser settings.clientName settings.clientPassword) fun db =>
            some (db.insertClient ⟨settings.clientName, settings.clientPassword⟩)).Honours
          rules.contract (fun _ s => rules.failing ∨
            ∃ j, s.db.HasClient j settings.clientName settings.clientPassword) t := by
        refine insert (fun db => ∃ j, db.HasClient j _ _) (fun db db' hholds _ hdb => ?_)
          fun db hnone => absurd hnone (Option.some_ne_none _)
        obtain rfl := Option.some.inj hdb
        have hlater := db.precedes_insertClient ⟨settings.clientName, settings.clientPassword⟩
        exact ⟨hholds.later hlater rfl rfl, hlater, db.clients.next,
          List.mem_append_right _ List.mem_cons_self⟩
      refine .bind ht.inv hinsert fun _ u hu hrow => ?_
      refine ((getClientId hu.inv pg settings.clientName).tracked hu.inv).mono ?_
      rintro i v ⟨hv, hi⟩ hne
      refine ⟨hi hne, ?_⟩
      -- the row that was inserted is still there
      rcases hrow with hfailing | ⟨j, hj⟩
      · exact Or.inl hfailing
      · exact (hfree hzero).imp_right fun hlogin => ⟨hlogin, j, hj.later hv.rel⟩
    · exact fun hne => absurd rfl hne
  · exact fun hne => absurd rfl hne

/-- The id is that of a row with the login and the password. -/
theorem checkAuthUser (settings : InputSettings) :
    (pg.checkAuthUser settings).Honours rules.contract
      (fun i s => i ≠ 0 → s.db.HasClient i settings.clientName settings.clientPassword) s := by
  unfold WrapperPg.checkAuthUser
  split
  · refine .bind hs (select
      (fun res db => WrapperPg.authResult settings res ≠ 0 →
        db.HasClient (WrapperPg.authResult settings res) settings.clientName
          settings.clientPassword)
      (fun db _ _ => ?_) fun _ _ _ hne => absurd rfl hne) ?_
    -- an id that is not zero is the one of the first row of the login
    · cases hrows : db.clients.select fun c => c.login = settings.clientName with
      | nil => exact fun hne => absurd rfl hne
      | cons r rs =>
        obtain ⟨hr, hlogin⟩ := SerialTable.mem_select.mp (hrows ▸ List.mem_cons_self (l := rs))
        have hlogin : r.data.login = settings.clientName := of_decide_eq_true hlogin
        simp only [List.map_cons, WrapperPg.authResult]
        split
        next hpassword =>
          intro _
          rw [Database.HasClient, ← hlogin, hpassword]
          exact hr
        · exact fun hne => absurd rfl hne
    · intro res t _ hres
      exact hres
  · exact fun hne => absurd rfl hne

theorem getUserNameChannels (i : UserId) :
    (pg.getUserNameChannels i).Honours rules.contract
      (fun names s => ∀ n ∈ names, ∃ row ∈ s.db.history, row.clientId = i ∧ row.channelName = n)
      s := by
  unfold WrapperPg.getUserNameChannels
  split
  · refine .bind hs (select
      (fun res db => ∀ n ∈ res.getD [], ∃ row ∈ db.history, row.clientId = i ∧ row.channelName = n)
      (fun db _ _ n hn => ?_) fun _ _ _ n hn => absurd hn List.not_mem_nil) ?_
    · obtain ⟨row, hrow, rfl⟩ := List.mem_map.mp (List.mem_dedup.mp hn)
      obtain ⟨hmem, hid⟩ := List.mem_filter.mp hrow
      exact ⟨row, hmem, of_decide_eq_true hid, rfl⟩
    · intro res t _ hres
      exact hres
  · exact fun n hn => absurd hn List.not_mem_nil

theorem getChannelUsers (k : UserId) :
    (pg.getChannelUsers k).Honours rules.contract
      (fun ids s => ∀ i ∈ ids, ⟨i, k⟩ ∈ s.db.subscriptions) s := by
  unfold WrapperPg.getChannelUsers
  split
  · refine .bind hs (select (fun res db => ∀ i ∈ res.getD [], ⟨i, k⟩ ∈ db.subscriptions)
      (fun db _ _ i hi => Database.mem_subscribers.mp hi)
      fun _ _ _ i hi => absurd hi List.not_mem_nil) ?_
    intro res t _ hres
    exact hres
  · exact fun i hi => absurd hi List.not_mem_nil

theorem hasChannel (n : String) :
    (pg.hasChannel n).Honours rules.contract (fun _ _ => True) s := by
  unfold WrapperPg.hasChannel
  split
  · refine .bind hs (select (fun _ _ => True) (fun _ _ _ => trivial) fun _ _ _ => trivial) ?_
    intro res _ _ _
    cases res <;> trivial
  · trivial

theorem createChannel (n : String) :
    (pg.createChannel n).Honours rules.contract (fun k s => k ≠ 0 → s.db.Named k n) s := by
  unfold WrapperPg.createChannel
  split
  · refine .bind hs (getChannelId hs pg n) fun found t ht hfound => ?_
    split
    · refine .bind ht.inv (insert (fun _ => True) (fun db db' hholds _ hdb => ?_)
        fun _ _ => trivial) fun _ u hu _ => getChannelId hu.inv pg n
      obtain rfl := Option.some.inj hdb
      have hlater := db.precedes_insertChannel n
      exact ⟨hholds.later hlater rfl rfl, hlater, trivial⟩
    · exact hfound
  · exact fun hne => absurd rfl hne

theorem hasChannelClient (k i : UserId) :
    (pg.hasChannelClient k i).Honours rules.contract (fun _ _ => True) s := by
  unfold WrapperPg.hasChannelClient
  split
  · exact .bind hs (select (fun _ _ => True) (fun _ _ _ => trivial) fun _ _ _ => trivial)
      fun _ _ _ _ => trivial
  · trivial

/-- A pair may be stored whatever id the lookup of the name returns. -/
theorem joinClientChannel {i : UserId} {n : String}
    (hrule : ∀ db k, s.db.Precedes db → (k ≠ 0 → db.Named k n) → rules.subscription db ⟨i, k⟩) :
    (pg.joinClientChannel i n).Honours rules.contract (fun _ _ => True) s := by
  unfold WrapperPg.joinClientChannel
  split
  · refine .bind hs (getChannelId hs pg n) fun k t ht hk => ?_
    refine .bind ht.inv (hasChannelClient ht.inv pg k i) fun joined u hu _ => ?_
    split
    · trivial
    · refine .bind hu.inv (insert (fun _ => True) (fun db db' hholds hlater hdb => ?_)
        fun _ _ => trivial) fun res _ _ _ => ?_
      · obtain rfl := Option.some.inj hdb
        have hall : s.db.Precedes db := ht.rel.trans (hu.rel.trans hlater)
        have hnamed : k ≠ 0 → db.Named k n := fun hne => (hk hne).later (hu.rel.trans hlater)
        exact ⟨hholds.insertSubscription (hrule db k hall hnamed),
          db.precedes_insertSubscription _, trivial⟩
      · cases res with
        | none => trivial
        | some _ =>
          unfold logFormat
          split <;> trivial
  · trivial

/-- A message may be stored under any id of its author. -/
theorem addMsgHistory {m : ClientTextMsg} (k : UserId)
    (hrule : ∀ db i, s.db.Precedes db → db.Registered i m.author →
      rules.history db ⟨i, m.channelName, timestampText m.dt, m.text⟩) :
    (pg.addMsgHistory k m).Honours rules.contract (fun _ _ => True) s := by
  refine .bind hs (getClientId hs pg m.author) fun i t ht hi => ?_
  refine .bind ht.inv (insert (fun _ => True) (fun db db' hholds hlater hdb => ?_)
    fun _ _ => trivial) fun _ _ _ _ => trivial
  -- the schema accepts no row without a client, so that the author was found
  have hne : i ≠ 0 := Database.ne_zero_of_insertHistory hdb
  have hrow := hrule db i (ht.rel.trans hlater) ((hi hne).later hlater)
  exact ⟨hholds.insertHistory hrow hdb, Database.precedes_insertHistory hdb, trivial⟩

theorem getCurrentChannels :
    pg.getCurrentChannels.Honours rules.contract
      (fun channels s => ∀ c ∈ channels, s.db.Named c.1 c.2) s := by
  unfold WrapperPg.getCurrentChannels
  split
  · refine .bind hs (select (fun res db => ∀ c ∈ res.getD [], db.Named c.1 c.2)
      (fun db _ _ c hc => ?_) fun _ _ _ c hc => absurd hc List.not_mem_nil) ?_
    · obtain ⟨r, hr, rfl⟩ := List.mem_map.mp hc
      exact hr
    · intro res t _ hres
      exact hres
  · exact fun c hc => absurd hc List.not_mem_nil

variable [Protocol]

/-- Each message is one of the rows, under the login of its client or no author. -/
theorem historyMessages {n : String} {rows : List HistoryRow} :
    (pg.historyMessages n rows).Honours rules.contract
      (fun messages s => ∀ m ∈ messages, ∃ row ∈ rows, ∃ author,
        m = WrapperPg.rowMessage n row author ∧
          (author ≠ "" → s.db.Registered row.clientId author)) s := by
  induction rows generalizing s with
  | nil => exact fun m hm => absurd hm List.not_mem_nil
  | cons row rows ih =>
    refine .bind hs (getClientName hs pg row.clientId) fun author t ht hauthor => ?_
    refine .bind ht.inv (ih ht.inv) fun messages u hu hmessages => ?_
    intro m hm
    rcases List.mem_cons.mp hm with rfl | hm
    · exact ⟨row, List.mem_cons_self, author, rfl, fun hne => (hauthor hne).later hu.rel⟩
    · obtain ⟨row', hrow', hmessage⟩ := hmessages m hm
      exact ⟨row', List.mem_cons_of_mem row hrow', hmessage⟩

/-- The history of a channel consists of rows with the name of the channel. When the lookup of the
name fails, it consists of rows without a name. -/
theorem getHistory (k : UserId) :
    (pg.getHistory k).Honours rules.contract
      (fun messages s => ∀ m ∈ messages, ∃ row ∈ s.db.history, ∃ author,
        m = WrapperPg.rowMessage row.channelName row author ∧
          (row.channelName ≠ "" → s.db.Named k row.channelName) ∧
          (author ≠ "" → s.db.Registered row.clientId author)) s := by
  unfold WrapperPg.getHistory
  split
  · refine .bind hs (getChannelName hs pg k) fun n t ht hn => ?_
    refine .bind ht.inv (select
      (fun res db => ∀ row ∈ res.getD [], row ∈ db.history ∧ row.channelName = n)
      (fun db _ _ row hrow => ?_) fun _ _ _ row hrow => absurd hrow List.not_mem_nil) ?_
    -- the rows that are read have the name that was found
    · obtain ⟨hmem, hname⟩ := List.mem_filter.mp hrow
      exact ⟨hmem, of_decide_eq_true hname⟩
    · intro res u hu hres
      refine ((historyMessages hu.inv pg).tracked hu.inv).mono ?_
      rintro messages v ⟨hv, hmessages⟩ m hm
      obtain ⟨row, hrow, author, rfl, hauthor⟩ := hmessages m hm
      obtain ⟨hmem, rfl⟩ := hres row hrow
      exact ⟨row, hv.rel.history.mem hmem, author, rfl,
        fun hne => (hn hne).later (hu.rel.trans hv.rel), hauthor⟩
  · exact fun m hm => absurd hm List.not_mem_nil

end RowRules

end GatewayServer
