import GatewayServer.Engine.EchoHistory
import GatewayServer.Engine.Steps

/-!
# Asking for what is new

A client that holds the history of a channel asks for the messages after the latest of them. What
has been stored since is appended to what it holds; but which messages are new is decided by their
own dates, and these are what the clocks of the senders said.

## Main definitions

* `IsLatest` — the latest date among some messages
* `Server.historySent` — the messages that a session is sent as history
* `Database.Continues` — rows are only added, those of the history at its end

## Main results

* `storedMessages_prefix` — a later history continues an earlier one
* `sendHistory_sends_iff` — when the messages that were added are sent
-/

namespace GatewayServer

open Lib

/-- The latest date of some messages. -/
structure IsLatest (dt : DateTime) (messages : List ClientTextMsg) : Prop where
  mem : ∃ m ∈ messages, m.dt = dt
  not_lt : ∀ m ∈ messages, ¬ dt < m.dt

/-- The messages of a history response. -/
def Response.history : Response → List ClientTextMsg
  | .historyResponse _ messages => messages
  | _ => []

/-- The messages that `session` is sent in history responses between `s` and `t`. -/
def Server.historySent {δ : Type} (s t : Server δ) (session : SessionId) : List ClientTextMsg :=
  ((t.written.drop s.written.length).filter fun x => x.session = session).flatMap fun x =>
    x.response.history

/-! ## A later history -/

/-- Rows stay in their tables, and those of the history in their places. -/
structure Database.Continues (db db' : Database) : Prop where
  clients : ∀ r ∈ db.clients.rows, r ∈ db'.clients.rows
  channels : ∀ r ∈ db.channels.rows, r ∈ db'.channels.rows
  history : db.history <+: db'.history

namespace Database.Continues

variable {db db' : Database}

theorem refl (db : Database) : db.Continues db := ⟨fun _ => id, fun _ => id, List.prefix_refl _⟩

theorem trans {db'' : Database} (h : db.Continues db') (h' : db'.Continues db'') :
    db.Continues db'' where
  clients r hr := h'.clients r (h.clients r hr)
  channels r hr := h'.channels r (h.channels r hr)
  history := h.history.trans h'.history

theorem insertHistory (db : Database) (row : HistoryRow) (db' : Database)
    (hins : db.insertHistory row = some db') : db.Continues db' := by
  obtain ⟨-, hhistory, hclients, hchannels, -⟩ := Database.insertHistory_eq_some hins
  exact ⟨fun _ hr => hclients ▸ hr, fun _ hr => hchannels ▸ hr, hhistory ▸ List.prefix_append _ _⟩

/-- The author of a row keeps its login. -/
theorem loginOf_eq (h : db.Continues db') {row : HistoryRow} (hrow : row ∈ db.history) :
    db'.loginOf row.clientId = db.loginOf row.clientId := by
  obtain ⟨⟨id, client⟩, hr, rfl⟩ := db.references row hrow
  rw [loginOf, loginOf, SerialTable.lookup_eq_some_iff.mpr (h.clients _ hr),
    SerialTable.lookup_eq_some_iff.mpr hr]

/-- A channel keeps its name. -/
theorem channelNameOf_eq (h : db.Continues db') {r : Row String} (hr : r ∈ db.channels.rows) :
    db'.channelNameOf r.id = db.channelNameOf r.id := by
  rw [channelNameOf, channelNameOf, SerialTable.lookup_eq_some_iff.mpr (h.channels _ hr),
    SerialTable.lookup_eq_some_iff.mpr hr]

/-- The messages of a channel continue. -/
theorem storedMessages [Protocol] (h : db.Continues db') {r : Row String}
    (hr : r ∈ db.channels.rows) :
    WrapperPg.storedMessages db r.id <+: WrapperPg.storedMessages db' r.id := by
  unfold WrapperPg.storedMessages
  rw [h.channelNameOf_eq hr]
  have hsame : ((db.history.filter fun row => row.channelName = db.channelNameOf r.id).map
      fun row => WrapperPg.rowMessage (db.channelNameOf r.id) row (db.loginOf row.clientId)) =
      (db.history.filter fun row => row.channelName = db.channelNameOf r.id).map
        fun row => WrapperPg.rowMessage (db.channelNameOf r.id) row (db'.loginOf row.clientId) := by
    apply List.map_congr_left
    intro row hrow
    rw [h.loginOf_eq (List.mem_of_mem_filter hrow)]
  rw [hsame]
  exact (h.history.filter _).map _

end Database.Continues

theorem keptByQueries_continues : WrapperPg.KeptByQueries Database.Continues where
  refl := .refl
  insertClient _ _ := ⟨fun _ hr => List.mem_append_left _ hr, fun _ => id,
    List.prefix_refl _⟩
  insertChannel _ _ := ⟨fun _ => id, fun _ hr => List.mem_append_left _ hr,
    List.prefix_refl _⟩
  insertSubscription _ _ := ⟨fun _ => id, fun _ => id, List.prefix_refl _⟩

theorem keptByRequests_continues :
    Server.KeptByRequests Database.Continues (fun _ => True)
      fun s t => s.db.db.Continues t.db.db where
  refl _ := .refl _
  db _ _ hd := hd
  push s data := by
    rw [UserManager.run_push]
    exact .refl _
  written _ _ _ _ _ := .refl _
  queued _ _ := .refl _
  trans _ _ _ := .trans
  objects _ _ := .refl _
  idChannels _ _ := .refl _

variable [Protocol]

theorem continues_serve (s : Server Postgres) (e : Event) :
    s.db.db.Continues (serve WrapperPg.database s e).db.db :=
  (keptByRequests_continues.handle keptByQueries_continues Database.Continues.insertHistory
    (fun _ => trivial) e.world e.call).run keptByRequests_continues.refl
      keptByRequests_continues.trans s

/-- Whatever is asked for in between, and whichever queries fail, a later history of a channel
continues an earlier one. -/
theorem storedMessages_prefix (s : Server Postgres) (events : List Event) {r : Row String}
    (hr : r ∈ s.db.db.channels.rows) :
    WrapperPg.storedMessages s.db.db r.id <+:
      WrapperPg.storedMessages (events.foldl (serve WrapperPg.database) s).db.db r.id := by
  have hcontinues : s.db.db.Continues (events.foldl (serve WrapperPg.database) s).db.db :=
    List.foldlRecOn (motive := fun t => s.db.db.Continues t.db.db) events _ (.refl _)
      fun t ht e _ => ht.trans (continues_serve t e)
  exact hcontinues.storedMessages hr

/-! ## What is sent of it -/

namespace Channel

/-- Nothing that the client holds is sent again. -/
theorem filter_isSince_append {since : DateTime} {h : List ClientTextMsg} (h' : List ClientTextMsg)
    (hlatest : IsLatest since h) (hsince : since ≠ Protocol.defaultDateTime) :
    (h ++ h').filter (isSince since) = h'.filter fun m => since < m.dt := by
  have hheld : h.filter (isSince since) = [] := by
    rw [List.filter_eq_nil_iff]
    intro m hm
    simpa [isSince, hsince] using hlatest.not_lt m hm
  rw [List.filter_append, hheld, List.nil_append]
  apply List.filter_congr
  intro m _
  simp [isSince, hsince]

variable {δ : Type} {db : IDatabase δ} {s : Server δ} {p : ChannelPtr} {this : Channel}
  {w : World} {i : UserId} {session : SessionId}

/-- What a member who is online is sent. -/
theorem historySent_sendHistory (hthis : s.objects[p]? = some this) (hmem : i ∈ this.idUsers)
    (hlive : s.liveSession w i = some session) {history : List ClientTextMsg} {d : δ}
    (hhistory : (db.getHistory this.id).run s.db = (.ok history, d)) (dt : DateTime) :
    s.historySent ((sendHistory db w p i dt).run s).2 session = history.filter (isSince dt) := by
  rw [run_sendHistory_live hthis hmem hlive hhistory, Server.historySent, Server.log_written,
    List.drop_left]
  split
  · next hempty => rw [hempty]; rfl
  · simp [Response.history]

/-- A member who is online and asks for what is later than the latest message that it holds is sent
what has been added exactly when every added message has a later date. -/
theorem sendHistory_sends_iff (hthis : s.objects[p]? = some this) (hmem : i ∈ this.idUsers)
    (hlive : s.liveSession w i = some session) {h h' : List ClientTextMsg} {d : δ}
    (hhistory : (db.getHistory this.id).run s.db = (.ok (h ++ h'), d)) {since : DateTime}
    (hlatest : IsLatest since h) (hsince : since ≠ Protocol.defaultDateTime) :
    h'.Sublist (s.historySent ((sendHistory db w p i since).run s).2 session) ↔
      ∀ m ∈ h', since < m.dt := by
  rw [historySent_sendHistory hthis hmem hlive hhistory, filter_isSince_append h' hlatest hsince]
  constructor
  · intro hsent
    -- nothing else is sent, so nothing was left out
    have hall := hsent.antisymm List.filter_sublist
    simpa using List.filter_eq_self.mp hall.symm
  · intro hlater
    rw [List.filter_eq_self.mpr (by simpa using hlater)]

end Channel

/-- Ann's message to her channel, some seconds after noon of a leap day. -/
def annsMessage (text : String) (seconds : ℕ) : ClientTextMsg :=
  ⟨"ann", text, "room", { WrapperPg.leapDay with time := ⟨seconds, 0, 12⟩ }⟩

/-- She sends it. -/
def annSays (text : String) (seconds : ℕ) : Event :=
  ⟨.calm, .sendText ⟨"ann", "room", text, (annsMessage text seconds).dt⟩⟩

/-- Ann asks for the messages of her channel. -/
def annAsks (since : DateTime) : Event := ⟨.calm, .getHistory ⟨1, "room", since⟩⟩

omit [Protocol] in
/-- Ann is sent the history. A message follows in the same second, and she is not sent it when she
asks for what is later. -/
theorem not_sendHistory_sends_same_second :
    letI := Protocol.oneByte
    let s := runFrom emptyTables (annJoins ++ [annSays "one" 0])
    let t := serve WrapperPg.database s (annSays "two" 0)
    ∃ h h' : List ClientTextMsg,
      s.historySent (serve WrapperPg.database s (annAsks Protocol.defaultDateTime)) 10 = h ∧
      WrapperPg.storedMessages t.db.db 1 = h ++ h' ∧
      IsLatest WrapperPg.leapDay h ∧ WrapperPg.leapDay ≠ Protocol.defaultDateTime ∧
      t.liveSession .calm 1 = some 10 ∧
      ¬ h'.Sublist (t.historySent (serve WrapperPg.database t (annAsks WrapperPg.leapDay)) 10) := by
  let _ := Protocol.oneByte
  refine ⟨[annsMessage "one" 0], [annsMessage "two" 0], ?_, ?_, ?_, ?_, ?_, ?_⟩
  · decide +kernel
  · decide +kernel
  · exact ⟨⟨_, List.mem_cons_self, rfl⟩, by decide⟩
  · decide
  · decide +kernel
  · decide +kernel

/-- She joins, and sends a message in each of two seconds. -/
def annSaysBoth : List Event := annJoins ++ [annSays "one" 0, annSays "two" 1]

omit [Protocol] in
/-- A third message continues her two. -/
theorem storedMessages_prefix_annSays :
    letI := Protocol.oneByte
    let s := runFrom emptyTables annSaysBoth
    WrapperPg.storedMessages s.db.db 1 <+:
      WrapperPg.storedMessages
        ([annSays "three" 2].foldl (serve WrapperPg.database) s).db.db 1 := by
  let _ := Protocol.oneByte
  intro s
  have hlookup : s.db.db.channels.lookup 1 = some "room" := by decide +kernel
  clear_value s
  exact storedMessages_prefix s [annSays "three" 2] (SerialTable.lookup_eq_some_iff.mp hlookup)

omit [Protocol] in
/-- A message of the next second is sent. -/
theorem sendHistory_sends_next_second :
    letI := Protocol.oneByte
    let s := runFrom emptyTables annSaysBoth
    [annsMessage "two" 1].Sublist
      (s.historySent ((Channel.sendHistory WrapperPg.database .calm 0 1 WrapperPg.leapDay).run s).2
        10) := by
  let _ := Protocol.oneByte
  have hstored : WrapperPg.storedMessages (runFrom emptyTables annSaysBoth).db.db 1 =
      [annsMessage "one" 0] ++ [annsMessage "two" 1] := by decide +kernel
  have hfaults : (runFrom emptyTables annSaysBoth).db.faults = [] := by decide +kernel
  have hthis : (runFrom emptyTables annSaysBoth).objects[0]? = some ⟨"room", 1, {1}⟩ := by
    decide +kernel
  have hlive : (runFrom emptyTables annSaysBoth).liveSession .calm 1 = some 10 := by
    decide +kernel
  generalize runFrom emptyTables annSaysBoth = s at *
  have hhistory := WrapperPg.run_getHistory hfaults 1
  rw [hstored] at hhistory
  have hlatest : IsLatest WrapperPg.leapDay [annsMessage "one" 0] :=
    ⟨⟨_, List.mem_cons_self, rfl⟩, by decide⟩
  refine (Channel.sendHistory_sends_iff hthis (by decide) hlive hhistory hlatest
    (by decide)).mpr ?_
  decide

end GatewayServer
