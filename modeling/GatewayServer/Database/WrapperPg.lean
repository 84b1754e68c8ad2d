import GatewayServer.Database.Interface
import GatewayServer.Database.QueryText
import GatewayServer.Database.Tables

/-!
# The database over PostgreSQL

`WrapperPg`, function by function. Each query is one atomic step: its text stands next to the
effect that the text is written to have, and a query that fails has no effect. The text is handed to
PostgreSQL as it is, so this is an assumption about its strings: that they bring in no SQL, as is so
when they have no quote and no zero byte, and that those that are stored are not cut to fit their
columns. What PostgreSQL refuses is a query that fails.

## Main definitions

* `WrapperPg.exec`, `WrapperPg.execThreadSafe` — one query
* `WrapperPg.checkRegUser`, … — the operations of the class
* `WrapperPg.database` — the operations of a connected object as an `IDatabase`

## Main results

* `run_getClientId`, `run_checkRegUser_free`, … — what each operation does when its queries succeed
-/

namespace GatewayServer

open Lib

/-- A `WrapperPg` object: whether `connect` has succeeded. The tables are PostgreSQL's. -/
structure WrapperPg where
  isConnected : Bool

namespace WrapperPg

/-! ## Queries -/

/-- What PostgreSQL does with a query that is written to have an effect. The result is `none` when
the status is an error: the query fails, or the schema refuses its effect. -/
def exec {β : Type} (effect : Database → Option (β × Database)) (s : Postgres) :
    Option β × Postgres :=
  match s.faults with
  | true :: faults => (none, { s with faults })
  | faults =>
    match effect s.db with
    | none => (none, { s with faults := faults.tail })
    | some (rows, db) => (some rows, { db, faults := faults.tail })

/-- One query. If it succeeds, it has the effect its text is written to have, and stores the values
that it was given: whatever else the text may bring about is left out. -/
def execThreadSafe {β : Type} (_query : String) (effect : Database → Option (β × Database)) :
    Prog Postgres Exn (Option β) :=
  .atomic (exec effect)

/-- A `SELECT`. -/
def select {β : Type} (query : String) (rows : Database → β) : Prog Postgres Exn (Option β) :=
  execThreadSafe query fun db => some (rows db, db)

/-- An `INSERT`. -/
def insert (query : String) (effect : Database → Option Database) :
    Prog Postgres Exn (Option PUnit) :=
  execThreadSafe query fun db => (effect db).map fun db => (⟨⟩, db)

section Operations

variable (pg : WrapperPg)

def getClientId (clientName : String) : Prog Postgres Exn UserId :=
  if pg.isConnected then do
    let res ← select (QueryText.getClientId clientName) fun db => db.clientId clientName
    return res.getD REG_LOGIN_IS_BUSY
  else
    return REG_LOGIN_IS_BUSY

def getChannelId (channelName : String) : Prog Postgres Exn UserId :=
  if pg.isConnected then do
    let res ← select (QueryText.getChannelId channelName) fun db => db.channelId channelName
    return res.getD LOGIN_IS_FREE
  else
    return LOGIN_IS_FREE

def getChannelName (channelId : UserId) : Prog Postgres Exn String :=
  if pg.isConnected then do
    let res ← select (QueryText.getChannelName channelId) fun db => db.channelNameOf channelId
    return res.getD ""
  else
    return ""

def getClientName (clientId : UserId) : Prog Postgres Exn String :=
  if pg.isConnected then do
    let res ← select (QueryText.getClientName clientId) fun db => db.loginOf clientId
    return res.getD ""
  else
    return ""

def checkRegUser (settings : InputSettings) : Prog Postgres Exn UserId :=
  if pg.isConnected then do
    let found ← pg.getClientId settings.clientName
    if found = LOGIN_IS_FREE then
      let _ ← insert (QueryText.checkRegUser settings.clientName settings.clientPassword) fun db =>
        some (db.insertClient ⟨settings.clientName, settings.clientPassword⟩)
      pg.getClientId settings.clientName
    else
      return LOGIN_IS_FREE
  else
    return LOGIN_IS_FREE

/-- What `checkAuthUser` makes of the ids and passwords that its query selects. -/
def authResult (settings : InputSettings) : Option (List (UserId × String)) → UserId
  | some ((id, password) :: _) =>
    if settings.clientPassword = password then id else AUTH_LOGIN_IS_NOT_AVAILABLE
  | _ => AUTH_LOGIN_IS_NOT_AVAILABLE

def checkAuthUser (settings : InputSettings) : Prog Postgres Exn UserId :=
  if pg.isConnected then do
    let res ← select (QueryText.checkAuthUser settings.clientName) fun db =>
      (db.clients.select fun c => c.login = settings.clientName).map fun r =>
        (r.id, r.data.password)
    return authResult settings res
  else
    return AUTH_LOGIN_IS_NOT_AVAILABLE

def getUserNameChannels (clientId : UserId) : Prog Postgres Exn (List String) :=
  if pg.isConnected then do
    let res ← select (QueryText.getUserNameChannels clientId) fun db =>
      ((db.history.filter fun h => h.clientId = clientId).map HistoryRow.channelName).dedup
    return res.getD []
  else
    return []

def getChannelUsers (channelId : UserId) : Prog Postgres Exn (List UserId) :=
  if pg.isConnected then do
    let res ← select (QueryText.getChannelUsers channelId) fun db => db.subscribers channelId
    return res.getD []
  else
    return []

def hasChannel (channelName : String) : Prog Postgres Exn Bool :=
  if pg.isConnected then do
    let res ← select (QueryText.hasChannel channelName) fun db =>
      !(db.channels.select fun n => n = channelName).isEmpty
    match res with
    | some result => return result
    | none => .throw (.invalidArgument "wrong hasChannel")
  else
    return false

def createChannel (channelName : String) : Prog Postgres Exn UserId :=
  if pg.isConnected then do
    let channelId ← pg.getChannelId channelName
    if channelId = LOGIN_IS_FREE then
      let _ ← insert (QueryText.createChannel channelName) fun db =>
        some (db.insertChannel channelName)
      pg.getChannelId channelName
    else
      return channelId
  else
    return LOGIN_IS_FREE

def hasChannelClient (channelId clientId : UserId) : Prog Postgres Exn Bool :=
  if pg.isConnected then do
    let res ← select (QueryText.hasChannelClient channelId clientId) fun db =>
      decide (⟨clientId, channelId⟩ ∈ db.subscriptions)
    return res.getD false
  else
    return false

/-- The log line after a successful insertion has one place for its two arguments. -/
def joinClientChannel (clientId : UserId) (channelName : String) : Prog Postgres Exn PUnit :=
  if pg.isConnected then do
    let channelId ← pg.getChannelId channelName
    if ← pg.hasChannelClient channelId clientId then
      return ⟨⟩
    else
      let res ← insert (QueryText.joinClientChannel clientId channelId) fun db =>
        some (db.insertSubscription ⟨clientId, channelId⟩)
      match res with
      | some _ => logFormat "joinClientChannel: successfully add client_id=%1% to channel=" 2
      | none => return ⟨⟩
  else
    return ⟨⟩

/-- The channel id is not used, and `isConnected` is not asked. -/
def addMsgHistory (_channelId : UserId) (message : ClientTextMsg) : Prog Postgres Exn PUnit := do
  let authorId ← pg.getClientId message.author
  let _ ← insert (QueryText.addMsgHistory authorId message) fun db =>
    db.insertHistory ⟨authorId, message.channelName, timestampText message.dt, message.text⟩
  return ⟨⟩

variable [Protocol]

omit pg in
/-- The message of a row, once its author is known. -/
def rowMessage (channelName : String) (row : HistoryRow) (author : String) : ClientTextMsg where
  author := author
  text := row.message
  channelName := channelName
  dt := getTime row.datetime Protocol.uninitializedTm

/-- The messages of the selected rows, one author lookup for each. -/
def historyMessages (channelName : String) :
    List HistoryRow → Prog Postgres Exn (List ClientTextMsg)
  | [] => return []
  | row :: rows => do
    let author ← pg.getClientName row.clientId
    let messages ← historyMessages channelName rows
    return rowMessage channelName row author :: messages

def getHistory (channelId : UserId) : Prog Postgres Exn (List ClientTextMsg) :=
  if pg.isConnected then do
    let channelName ← pg.getChannelName channelId
    let res ← select (QueryText.getHistory channelName) fun db =>
      db.history.filter fun h => h.channelName = channelName
    pg.historyMessages channelName (res.getD [])
  else
    return []

/-- The ids are a primary key, so that no row of the map overwrites another. -/
def getCurrentChannels : Prog Postgres Exn (List (UserId × String)) :=
  if pg.isConnected then do
    let res ← select QueryText.getCurrentChannels fun db =>
      db.channels.rows.map fun r => (r.id, r.data)
    return res.getD []
  else
    return []

end Operations

/-- The object of a started server: `main` gives up when `connect` fails. -/
def connected : WrapperPg := { isConnected := true }

/-! ## Operations whose queries succeed -/

section Success

variable {s : Postgres} (h : s.faults = [])
include h

/-- A query has the effect that it is written to have. -/
theorem exec_some {β : Type} {effect : Database → Option (β × Database)} {rows : β}
    {db : Database} (heffect : effect s.db = some (rows, db)) :
    exec effect s = (some rows, { s with db }) := by
  obtain ⟨db', faults⟩ := s
  obtain rfl : faults = [] := h
  have heffect : effect db' = some (rows, db) := heffect
  simp only [exec, heffect, List.tail_nil]

theorem run_select {β : Type} (query : String) (rows : Database → β) :
    (select query rows).run s = (.ok (some (rows s.db)), s) := by
  rw [select, execThreadSafe, Prog.run_atomic, exec_some h rfl]

theorem run_insert_some {query : String} {effect : Database → Option Database} {db : Database}
    (hdb : effect s.db = some db) :
    (insert query effect).run s = (.ok (some ⟨⟩), { s with db }) := by
  have heffect : (effect s.db).map (fun db => (PUnit.unit, db)) = some (⟨⟩, db) := by
    rw [hdb, Option.map_some]
  rw [insert, execThreadSafe, Prog.run_atomic, exec_some h heffect]

theorem run_insert (query : String) (effect : Database → Database) :
    (insert query fun db => some (effect db)).run s =
      (.ok (some ⟨⟩), { s with db := effect s.db }) :=
  run_insert_some h rfl

theorem run_insert_none {query : String} {effect : Database → Option Database}
    (hdb : effect s.db = none) : (insert query effect).run s = (.ok none, s) := by
  obtain ⟨db', faults⟩ := s
  obtain rfl : faults = [] := h
  have hdb' : effect db' = none := hdb
  simp [insert, execThreadSafe, exec, hdb']

theorem run_getClientId (n : String) :
    (connected.getClientId n).run s = (.ok (s.db.clientId n), s) := by
  simp [getClientId, connected, Prog.run_bind, run_select h]

theorem run_getChannelId (n : String) :
    (connected.getChannelId n).run s = (.ok (s.db.channelId n), s) := by
  simp [getChannelId, connected, Prog.run_bind, run_select h]

/-- A login that is taken is refused. -/
theorem run_checkRegUser_busy (settings : InputSettings)
    (hbusy : s.db.clientId settings.clientName ≠ 0) :
    (connected.checkRegUser settings).run s = (.ok 0, s) := by
  rw [checkRegUser, if_pos (show connected.isConnected = true from rfl),
    Prog.run_bind_ok (run_getClientId h _), if_neg hbusy]
  rfl

/-- A free login is entered under the next id. -/
theorem run_checkRegUser_free (settings : InputSettings)
    (hfree : s.db.clientId settings.clientName = 0) :
    (connected.checkRegUser settings).run s =
      (.ok s.db.clients.next,
        { s with db := s.db.insertClient ⟨settings.clientName, settings.clientPassword⟩ }) := by
  have hid : (s.db.insertClient ⟨settings.clientName, settings.clientPassword⟩).clientId
      settings.clientName = s.db.clients.next :=
    SerialTable.firstId_insert_of_none hfree (by simp)
  rw [checkRegUser, if_pos (show connected.isConnected = true from rfl),
    Prog.run_bind_ok (run_getClientId h _), if_pos hfree, Prog.run_bind_ok (run_insert h _ _),
    run_getClientId (s := { s with db := s.db.insertClient _ }) h, hid]

theorem run_checkAuthUser (settings : InputSettings) :
    (connected.checkAuthUser settings).run s =
      (.ok (authResult settings (some
        ((s.db.clients.select fun c => c.login = settings.clientName).map fun r =>
          (r.id, r.data.password)))), s) := by
  simp [checkAuthUser, connected, Prog.run_bind, run_select h]

/-- An authentication succeeds with the id of a login exactly when the row under that id has
the login and the password. -/
theorem run_checkAuthUser_spec (settings : InputSettings) :
    ∃ i, (connected.checkAuthUser settings).run s = (.ok i, s) ∧
      ∀ j, (i ≠ 0 ∧ i = j ↔ s.db.clientId settings.clientName = j ∧
        ⟨j, ⟨settings.clientName, settings.clientPassword⟩⟩ ∈ s.db.clients.rows) := by
  refine ⟨_, run_checkAuthUser h settings, ?_⟩
  intro j
  cases hs : s.db.clients.select fun c => c.login = settings.clientName with
  | nil =>
    have hnone : s.db.clientId settings.clientName = 0 := SerialTable.firstId_eq_zero_iff.mpr hs
    simp only [List.map_nil, authResult, ne_eq, not_true, false_and, false_iff, not_and]
    intro hj hrow
    exact Nat.ne_of_gt (s.db.clients.id_pos _ hrow) (hj.symm.trans hnone)
  | cons r rs =>
    have hid : s.db.clientId settings.clientName = r.id := by
      simp only [Database.clientId, SerialTable.firstId, hs]
    have hmem := hs ▸ List.mem_cons_self (a := r) (l := rs)
    obtain ⟨hr, hlogin⟩ := SerialTable.mem_select.mp hmem
    have hlogin : r.data.login = settings.clientName := of_decide_eq_true hlogin
    have hpos : r.id ≠ 0 := Nat.ne_of_gt (s.db.clients.id_pos r hr)
    simp only [List.map_cons, authResult, hid]
    by_cases hpassword : settings.clientPassword = r.data.password
    · rw [if_pos hpassword]
      constructor
      · rintro ⟨-, rfl⟩
        rw [← hlogin, hpassword]
        exact ⟨rfl, hr⟩
      · rintro ⟨hj, -⟩
        exact ⟨hpos, hj⟩
    · rw [if_neg hpassword]
      constructor
      · rintro ⟨hne, -⟩
        exact absurd rfl hne
      · rintro ⟨hj, hrow⟩
        -- the row under the id of the login has another password
        have heq := SerialTable.eq_of_id_eq hr hrow hj
        exact absurd (by rw [heq]) hpassword

theorem run_getUserNameChannels (i : UserId) :
    (connected.getUserNameChannels i).run s =
      (.ok ((s.db.history.filter fun h => h.clientId = i).map HistoryRow.channelName).dedup,
        s) := by
  simp [getUserNameChannels, connected, Prog.run_bind, run_select h]

theorem run_getChannelUsers (k : UserId) :
    (connected.getChannelUsers k).run s = (.ok (s.db.subscribers k), s) := by
  simp [getChannelUsers, connected, Prog.run_bind, run_select h]

theorem run_hasChannel (n : String) :
    (connected.hasChannel n).run s = (.ok (decide (s.db.channelId n ≠ 0)), s) := by
  simp only [hasChannel, connected, if_true, Prog.run_bind, run_select h,
    Database.exists_channel_iff]
  rfl

/-- A name that is there keeps its id. -/
theorem run_createChannel_exists {n : String} (hn : s.db.channelId n ≠ 0) :
    (connected.createChannel n).run s = (.ok (s.db.channelId n), s) := by
  rw [createChannel, if_pos (show connected.isConnected = true from rfl),
    Prog.run_bind_ok (run_getChannelId h _), if_neg hn]
  rfl

/-- A name that is not there is entered under the next id. -/
theorem run_createChannel_new {n : String} (hn : s.db.channelId n = 0) :
    (connected.createChannel n).run s =
      (.ok s.db.channels.next, { s with db := s.db.insertChannel n }) := by
  have hid : (s.db.insertChannel n).channelId n = s.db.channels.next :=
    SerialTable.firstId_insert_of_none hn (by simp)
  rw [createChannel, if_pos (show connected.isConnected = true from rfl),
    Prog.run_bind_ok (run_getChannelId h _), if_pos hn, Prog.run_bind_ok (run_insert h _ _),
    run_getChannelId (s := { s with db := s.db.insertChannel n }) h, hid]

theorem run_hasChannelClient (k i : UserId) :
    (connected.hasChannelClient k i).run s = (.ok (decide (⟨i, k⟩ ∈ s.db.subscriptions)), s) := by
  simp [hasChannelClient, connected, Prog.run_bind, run_select h]

theorem run_joinClientChannel_member {i : UserId} {n : String}
    (hmem : ⟨i, s.db.channelId n⟩ ∈ s.db.subscriptions) :
    (connected.joinClientChannel i n).run s = (.ok ⟨⟩, s) := by
  rw [joinClientChannel, if_pos (show connected.isConnected = true from rfl),
    Prog.run_bind_ok (run_getChannelId h _), Prog.run_bind_ok (run_hasChannelClient h _ _)]
  simp [hmem]

/-- A new pair is entered, and then the log line throws. -/
theorem run_joinClientChannel_new {i : UserId} {n : String}
    (hnew : ⟨i, s.db.channelId n⟩ ∉ s.db.subscriptions) :
    (connected.joinClientChannel i n).run s =
      (.error .tooManyArgs,
        { s with db := s.db.insertSubscription ⟨i, s.db.channelId n⟩ }) := by
  rw [joinClientChannel, if_pos (show connected.isConnected = true from rfl),
    Prog.run_bind_ok (run_getChannelId h _), Prog.run_bind_ok (run_hasChannelClient h _ _)]
  simp only [hnew, decide_false, Bool.false_eq_true, if_false]
  rw [Prog.run_bind_ok (run_insert h _ _)]
  have hformat : expectedArgs
      "joinClientChannel: successfully add client_id=%1% to channel=".toList < 2 := by decide
  rw [logFormat_of_lt hformat]
  rfl

theorem run_getCurrentChannels :
    connected.getCurrentChannels.run s =
      (.ok (s.db.channels.rows.map fun r => (r.id, r.data)), s) := by
  simp [getCurrentChannels, connected, Prog.run_bind, run_select h]

/-- A message whose author has an id is stored; the others are refused by the reference to
`clients`. -/
theorem run_addMsgHistory (k : UserId) (m : ClientTextMsg) :
    (connected.addMsgHistory k m).run s =
      (.ok ⟨⟩, { s with
        db := (s.db.insertHistory ⟨s.db.clientId m.author, m.channelName, timestampText m.dt,
          m.text⟩).getD s.db }) := by
  rw [addMsgHistory, Prog.run_bind_ok (run_getClientId h _)]
  cases hins : s.db.insertHistory
      ⟨s.db.clientId m.author, m.channelName, timestampText m.dt, m.text⟩ with
  | none => rw [Prog.run_bind_ok (run_insert_none h hins)]; rfl
  | some db => rw [Prog.run_bind_ok (run_insert_some h hins)]; rfl

theorem run_getChannelName (k : UserId) :
    (connected.getChannelName k).run s = (.ok (s.db.channelNameOf k), s) := by
  simp [getChannelName, connected, Prog.run_bind, run_select h]

theorem run_getClientName (i : UserId) :
    (connected.getClientName i).run s = (.ok (s.db.loginOf i), s) := by
  simp [getClientName, connected, Prog.run_bind, run_select h]

variable [Protocol]

theorem run_historyMessages (n : String) (rows : List HistoryRow) :
    (connected.historyMessages n rows).run s =
      (.ok (rows.map fun row => rowMessage n row (s.db.loginOf row.clientId)), s) := by
  induction rows with
  | nil => rfl
  | cons row rows ih =>
    rw [historyMessages, Prog.run_bind_ok (run_getClientName h _), Prog.run_bind_ok ih]
    rfl

omit h in
/-- The messages stored under the name that `channels` gives an id. -/
def storedMessages (db : Database) (k : UserId) : List ClientTextMsg :=
  (db.history.filter fun row => row.channelName = db.channelNameOf k).map fun row =>
    rowMessage (db.channelNameOf k) row (db.loginOf row.clientId)

theorem run_getHistory (k : UserId) :
    (connected.getHistory k).run s = (.ok (storedMessages s.db k), s) := by
  rw [getHistory, if_pos (show connected.isConnected = true from rfl),
    Prog.run_bind_ok (run_getChannelName h _), Prog.run_bind_ok (run_select h _ _)]
  exact run_historyMessages h _ _

end Success

/-- `WrapperPg` behind its interface. -/
@[reducible] def database [Protocol] : IDatabase Postgres where
  checkRegUser := connected.checkRegUser
  checkAuthUser := connected.checkAuthUser
  getUserNameChannels := connected.getUserNameChannels
  getChannelUsers := connected.getChannelUsers
  hasChannel := connected.hasChannel
  createChannel := connected.createChannel
  joinClientChannel := connected.joinClientChannel
  addMsgHistory := connected.addMsgHistory
  getHistory := connected.getHistory
  getChannelId := connected.getChannelId
  getCurrentChannels := connected.getCurrentChannels

end WrapperPg

end GatewayServer
