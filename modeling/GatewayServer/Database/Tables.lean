import GatewayServer.Common.Log
import GatewayServer.Lib.SerialTable
import GatewayServer.Protocol

/-!
# The tables

The schema of `env/pg/configure.sh`, and PostgreSQL as the server sees it: a database and the
outcome of each query to come. The columns have no lengths here. What `varchar(32)` and
`varchar(255)` refuse is a query that fails, and that they cut spaces off the end of a value that is
too long is left out.

## Main definitions

* `Database` — the four tables, with the reference from `history` to `clients`
* `Database.clientId`, `Database.channelId`, `Database.subscribers` — the lookups of the server
* `Postgres` — the database and the failures to come
-/

namespace GatewayServer

open Lib

/-- A row of `clients(id serial primary key, login, password)`. -/
structure Client where
  login : String
  password : String
  deriving DecidableEq, Repr

/-- A row of `subscriptions(client_id, channel_id)`. -/
structure Subscription where
  clientId : UserId
  channelId : UserId
  deriving DecidableEq, Repr

/-- A row of `history(client_id, channel_name, datetime, message)`. The timestamp stands as the
text in which PostgreSQL prints it. -/
structure HistoryRow where
  clientId : UserId
  channelName : String
  datetime : String
  message : String
  deriving DecidableEq, Repr

/-- The tables; `channels(id serial primary key, channel_name)` has its name as only column. -/
structure Database where
  clients : SerialTable Client
  channels : SerialTable String
  subscriptions : List Subscription
  history : List HistoryRow
  /-- `client_id integer references clients(id)`. -/
  references : ∀ h ∈ history, ∃ r ∈ clients.rows, r.id = h.clientId

namespace Database

/-- The empty tables. -/
def empty : Database where
  clients := .empty
  channels := .empty
  subscriptions := []
  history := []
  references := by simp

/-! ## Insertions -/

/-- `INSERT INTO clients(login, password)`, of values that are stored as they are. -/
def insertClient (db : Database) (c : Client) : Database :=
  { db with
    clients := db.clients.insert c
    references := fun h hh =>
      let ⟨r, hr, hid⟩ := db.references h hh
      ⟨r, List.mem_append_left _ hr, hid⟩ }

/-- `INSERT INTO channels(channel_name)`, of a name that is stored as it is. -/
def insertChannel (db : Database) (channelName : String) : Database :=
  { db with channels := db.channels.insert channelName }

/-- `INSERT INTO subscriptions`. -/
def insertSubscription (db : Database) (s : Subscription) : Database :=
  { db with subscriptions := db.subscriptions ++ [s] }

/-- `insert into history`, of values that are stored as they are: refused when the client id is not
in `clients`. -/
def insertHistory (db : Database) (h : HistoryRow) : Option Database :=
  if hid : ∃ r ∈ db.clients.rows, r.id = h.clientId then
    some
      { db with
        history := db.history ++ [h]
        references := by
          intro h' hh'
          rcases List.mem_append.mp hh' with hh' | hh'
          · exact db.references h' hh'
          · rw [List.mem_singleton.mp hh']
            exact hid }
  else none

@[simp] theorem insertClient_channels (db : Database) (c : Client) :
    (db.insertClient c).channels = db.channels := rfl

@[simp] theorem insertClient_clients (db : Database) (c : Client) :
    (db.insertClient c).clients = db.clients.insert c := rfl

@[simp] theorem insertClient_subscriptions (db : Database) (c : Client) :
    (db.insertClient c).subscriptions = db.subscriptions := rfl

@[simp] theorem insertClient_history (db : Database) (c : Client) :
    (db.insertClient c).history = db.history := rfl

@[simp] theorem insertChannel_channels (db : Database) (n : String) :
    (db.insertChannel n).channels = db.channels.insert n := rfl

@[simp] theorem insertChannel_clients (db : Database) (n : String) :
    (db.insertChannel n).clients = db.clients := rfl

@[simp] theorem insertChannel_subscriptions (db : Database) (n : String) :
    (db.insertChannel n).subscriptions = db.subscriptions := rfl

@[simp] theorem insertChannel_history (db : Database) (n : String) :
    (db.insertChannel n).history = db.history := rfl

@[simp] theorem insertSubscription_channels (db : Database) (s : Subscription) :
    (db.insertSubscription s).channels = db.channels := rfl

@[simp] theorem insertSubscription_clients (db : Database) (s : Subscription) :
    (db.insertSubscription s).clients = db.clients := rfl

@[simp] theorem insertSubscription_subscriptions (db : Database) (s : Subscription) :
    (db.insertSubscription s).subscriptions = db.subscriptions ++ [s] := rfl

@[simp] theorem insertSubscription_history (db : Database) (s : Subscription) :
    (db.insertSubscription s).history = db.history := rfl

/-- A history row that is accepted is appended, names a client, and changes nothing else. -/
theorem insertHistory_eq_some {db db' : Database} {h : HistoryRow}
    (hins : db.insertHistory h = some db') :
    (∃ r ∈ db.clients.rows, r.id = h.clientId) ∧ db'.history = db.history ++ [h] ∧
      db'.clients = db.clients ∧ db'.channels = db.channels ∧
      db'.subscriptions = db.subscriptions := by
  unfold insertHistory at hins
  split at hins
  · next hid =>
    obtain rfl := Option.some.inj hins
    exact ⟨hid, rfl, rfl, rfl, rfl⟩
  · exact absurd hins (by simp)

/-- No client has the id zero, which stands for a lookup that finds none. -/
theorem ne_zero_of_insertHistory {db db' : Database} {h : HistoryRow}
    (hins : db.insertHistory h = some db') : h.clientId ≠ 0 := by
  obtain ⟨⟨r, hr, hid⟩, -⟩ := insertHistory_eq_some hins
  rw [← hid]
  exact Nat.ne_of_gt (db.clients.id_pos r hr)

theorem insertHistory_zero (db : Database) {h : HistoryRow} (hzero : h.clientId = 0) :
    db.insertHistory h = none := by
  cases hins : db.insertHistory h with
  | none => rfl
  | some db' => exact absurd hzero (ne_zero_of_insertHistory hins)

/-- Storing a row, or refusing it, changes no other table. -/
theorem insertHistory_frame (db : Database) (h : HistoryRow) :
    ((db.insertHistory h).getD db).clients = db.clients ∧
      ((db.insertHistory h).getD db).channels = db.channels ∧
      ((db.insertHistory h).getD db).subscriptions = db.subscriptions := by
  cases hins : db.insertHistory h with
  | none => exact ⟨rfl, rfl, rfl⟩
  | some db' =>
    obtain ⟨-, -, hclients, hchannels, hsubs⟩ := insertHistory_eq_some hins
    exact ⟨hclients, hchannels, hsubs⟩

/-! ## Lookups -/

/-- The id that `clients` gives a login, zero when it has none. -/
def clientId (db : Database) (login : String) : UserId :=
  db.clients.firstId fun c => c.login = login

/-- A message under the id of a login is accepted exactly when the login has an id. -/
theorem history_insertHistory_clientId (db : Database) (login : String) {h : HistoryRow}
    (hid : h.clientId = db.clientId login) :
    ((db.insertHistory h).getD db).history =
      if db.clientId login = 0 then db.history else db.history ++ [h] := by
  by_cases hzero : db.clientId login = 0
  · rw [if_pos hzero, db.insertHistory_zero (hid.trans hzero), Option.getD_none]
  · obtain ⟨r, hr, hrid, -⟩ := SerialTable.exists_row_of_firstId_ne_zero hzero
    have hrow : ∃ r ∈ db.clients.rows, r.id = h.clientId := ⟨r, hr, hrid.trans hid.symm⟩
    rw [if_neg hzero, insertHistory, dif_pos hrow, Option.getD_some]

/-- The id that `channels` gives a name, zero when it has none. -/
def channelId (db : Database) (channelName : String) : UserId :=
  db.channels.firstId fun n => n = channelName

/-- There is a row with a name exactly when the name has an id. -/
theorem exists_channel_iff (db : Database) (channelName : String) :
    (!(db.channels.select fun n => n = channelName).isEmpty) =
      decide (db.channelId channelName ≠ 0) := by
  rw [Bool.eq_iff_iff, decide_eq_true_iff, channelId, ne_eq, SerialTable.firstId_eq_zero_iff,
    Bool.not_eq_true', List.isEmpty_eq_false_iff]

/-- The name that `channels` gives an id, empty when there is no such row. -/
def channelNameOf (db : Database) (channelId : UserId) : String :=
  (db.channels.lookup channelId).getD ""

/-- The login that `clients` gives an id, empty when there is no such row. -/
def loginOf (db : Database) (clientId : UserId) : String :=
  ((db.clients.lookup clientId).map Client.login).getD ""

/-- The login that has an id is the login of the id. -/
theorem loginOf_clientId {db : Database} {login : String} (h : db.clientId login ≠ 0) :
    db.loginOf (db.clientId login) = login := by
  obtain ⟨⟨id, client⟩, hr, hid, hlogin⟩ := SerialTable.exists_row_of_firstId_ne_zero h
  have hlookup : db.clients.lookup (db.clientId login) = some client := by
    obtain rfl : id = db.clientId login := hid
    exact SerialTable.lookup_eq_some_iff.mpr hr
  rw [loginOf, hlookup]
  exact of_decide_eq_true hlogin

/-- The clients that `subscriptions` holds for a channel id. -/
def subscribers (db : Database) (channelId : UserId) : List UserId :=
  ((db.subscriptions.filter fun s => s.channelId = channelId).map Subscription.clientId).dedup

@[simp] theorem mem_subscribers {db : Database} {i k : UserId} :
    i ∈ db.subscribers k ↔ ⟨i, k⟩ ∈ db.subscriptions := by
  simp only [subscribers, List.mem_dedup, List.mem_map, List.mem_filter, decide_eq_true_eq]
  constructor
  · rintro ⟨s, ⟨hs, rfl⟩, rfl⟩
    exact hs
  · intro h
    exact ⟨⟨i, k⟩, ⟨h, rfl⟩, rfl⟩

end Database

/-- PostgreSQL: the tables, and which of the queries to come fail. A query that finds no entry
in `faults` succeeds. -/
structure Postgres where
  db : Database
  faults : List Bool := []

end GatewayServer
