import GatewayServer.Lib.Budget
import GatewayServer.Network.Lives
import Mathlib.Data.Multiset.OrderedMonoid

/-!
# What a frame leaves behind

A frame can leave a row in each table, and an answer. It does so at most once, also when it runs
beside others and when queries fail. So every row and every answer is paid for by a frame of its
own.

## Main definitions

* `Mark` — what a frame can leave behind
* `Server.marks` — all that is there
* `Arrival.marks` — what a frame may leave

## Main results

* `WorkersPool.spends_task` — a frame leaves no more
* `marks_le_pastOf` — over any number of lives there is no more than the frames have paid for
-/

namespace GatewayServer

open Lib

/-- What a frame can leave behind. -/
inductive Mark where
  | client (login password : String)
  | channel (channelName : String)
  | subscription (clientId : UserId)
  | message (channelName datetime text : String)
  /-- An answer. The answer to a login goes to the session of the frame. -/
  | answer (session : Option SessionId) (command : TypeCommand)
  deriving DecidableEq, Repr

namespace Database

/-- The rows of all tables. -/
def marks (db : Database) : Multiset Mark :=
  (db.clients.rows.map fun r => Mark.client r.data.login r.data.password : List Mark) +
    (db.channels.rows.map fun r => Mark.channel r.data : List Mark) +
      (db.subscriptions.map fun sub => Mark.subscription sub.clientId : List Mark) +
        (db.history.map fun row =>
          Mark.message row.channelName row.datetime row.message : List Mark)

theorem marks_insertClient (db : Database) (c : Client) :
    (db.insertClient c).marks = db.marks + {.client c.login c.password} := by
  simp only [marks, insertClient, SerialTable.insert, List.map_append, ← Multiset.coe_add,
    List.map_cons, List.map_nil, Multiset.coe_singleton]
  abel

theorem marks_insertChannel (db : Database) (n : String) :
    (db.insertChannel n).marks = db.marks + {.channel n} := by
  simp only [marks, insertChannel, SerialTable.insert, List.map_append, ← Multiset.coe_add,
    List.map_cons, List.map_nil, Multiset.coe_singleton]
  abel

theorem marks_insertSubscription (db : Database) (sub : Subscription) :
    (db.insertSubscription sub).marks = db.marks + {.subscription sub.clientId} := by
  simp only [marks, insertSubscription, List.map_append, ← Multiset.coe_add, List.map_cons,
    List.map_nil, Multiset.coe_singleton]
  abel

theorem marks_insertHistory {db db' : Database} {row : HistoryRow}
    (h : db.insertHistory row = some db') :
    db'.marks = db.marks + {.message row.channelName row.datetime row.message} := by
  obtain ⟨-, hhistory, hclients, hchannels, hsubscriptions⟩ := insertHistory_eq_some h
  simp only [marks, hhistory, hclients, hchannels, hsubscriptions, List.map_append,
    ← Multiset.coe_add, List.map_cons, List.map_nil, Multiset.coe_singleton]
  abel

end Database

/-! ## The database -/

namespace WrapperPg

/-- What a program over PostgreSQL leaves in the tables. -/
abbrev Leaves {α : Type} (b : Multiset Mark) (p : Prog Postgres Exn α) : Prop :=
  p.Spends (fun s => s.db.marks) b

theorem leaves_exec {β : Type} {query : String} {effect : Database → Option (β × Database)}
    {b : Multiset Mark}
    (h : ∀ db rows db', effect db = some (rows, db') → db'.marks ≤ db.marks + b) :
    Leaves b (execThreadSafe query effect) := by
  refine .atomic fun s => ?_
  obtain ⟨db, faults⟩ := s
  unfold exec
  -- the query fails, or has its effect
  cases hresult : effect db with
  | none => rcases faults with - | ⟨- | -, faults⟩ <;> exact le_add_right le_rfl
  | some result =>
    have hle := h db result.1 result.2 hresult
    rcases faults with - | ⟨- | -, faults⟩
    · exact hle
    · exact hle
    · exact le_add_right le_rfl

theorem leaves_select {β : Type} (query : String) (rows : Database → β) :
    Leaves 0 (select query rows) := by
  refine leaves_exec fun db r db' heffect => ?_
  obtain ⟨-, rfl⟩ := Prod.mk.inj (Option.some.inj heffect)
  exact le_add_right le_rfl

theorem leaves_insert {query : String} {effect : Database → Option Database} {b : Multiset Mark}
    (h : ∀ db db', effect db = some db' → db'.marks = db.marks + b) :
    Leaves b (insert query effect) := by
  refine leaves_exec fun db r db' hresult => ?_
  obtain ⟨db'', hdb, heq⟩ := Option.map_eq_some_iff.mp hresult
  obtain ⟨-, rfl⟩ := Prod.mk.inj heq
  exact (h db db'' hdb).le

variable (pg : WrapperPg)

theorem leaves_getClientId (n : String) : Leaves 0 (pg.getClientId n) := by
  unfold getClientId
  split
  · exact (leaves_select _ _).then_free fun _ => trivial
  · trivial

theorem leaves_getChannelId (n : String) : Leaves 0 (pg.getChannelId n) := by
  unfold getChannelId
  split
  · exact (leaves_select _ _).then_free fun _ => trivial
  · trivial

theorem leaves_checkRegUser (settings : InputSettings) :
    Leaves {.client settings.clientName settings.clientPassword} (pg.checkRegUser settings) := by
  unfold checkRegUser
  split
  · refine (pg.leaves_getClientId _).bind_free fun found => ?_
    split
    · refine (leaves_insert ?_).then_free fun _ => pg.leaves_getClientId _
      rintro db _ ⟨⟩
      exact db.marks_insertClient _
    · trivial
  · trivial

theorem leaves_checkAuthUser (settings : InputSettings) : Leaves 0 (pg.checkAuthUser settings) := by
  unfold checkAuthUser
  split
  · exact (leaves_select _ _).then_free fun _ => trivial
  · trivial

theorem leaves_getUserNameChannels (i : UserId) : Leaves 0 (pg.getUserNameChannels i) := by
  unfold getUserNameChannels
  split
  · exact (leaves_select _ _).then_free fun _ => trivial
  · trivial

theorem leaves_getChannelUsers (k : UserId) : Leaves 0 (pg.getChannelUsers k) := by
  unfold getChannelUsers
  split
  · exact (leaves_select _ _).then_free fun _ => trivial
  · trivial

theorem leaves_hasChannel (n : String) : Leaves 0 (pg.hasChannel n) := by
  unfold hasChannel
  split
  · refine (leaves_select _ _).then_free fun res => ?_
    cases res <;> trivial
  · trivial

theorem leaves_createChannel (n : String) : Leaves {.channel n} (pg.createChannel n) := by
  unfold createChannel
  split
  · refine (pg.leaves_getChannelId n).bind_free fun channelId => ?_
    split
    · refine (leaves_insert ?_).then_free fun _ => pg.leaves_getChannelId n
      rintro db _ ⟨⟩
      exact db.marks_insertChannel n
    · trivial
  · trivial

theorem leaves_joinClientChannel (i : UserId) (n : String) :
    Leaves {.subscription i} (pg.joinClientChannel i n) := by
  unfold joinClientChannel
  split
  · refine (pg.leaves_getChannelId n).bind_free fun channelId => ?_
    -- to ask whether the client has joined leaves nothing
    have hjoined : Leaves 0 (pg.hasChannelClient channelId i) := by
      unfold hasChannelClient
      split
      · exact (leaves_select _ _).then_free fun _ => trivial
      · trivial
    refine hjoined.bind_free fun joined => ?_
    split
    · trivial
    · refine (leaves_insert ?_).then_free fun res => ?_
      · rintro db _ ⟨⟩
        exact db.marks_insertSubscription _
      · cases res with
        | none => trivial
        | some _ =>
          -- the log line may throw, but the row is there by then
          unfold logFormat
          split <;> trivial
  · trivial

theorem leaves_addMsgHistory (k : UserId) (m : ClientTextMsg) :
    Leaves {.message m.channelName (timestampText m.dt) m.text} (pg.addMsgHistory k m) := by
  refine (pg.leaves_getClientId m.author).bind_free fun authorId => ?_
  refine (leaves_insert fun db db' hins => ?_).then_free fun _ => trivial
  exact Database.marks_insertHistory hins

theorem leaves_getHistory [Protocol] (k : UserId) : Leaves 0 (pg.getHistory k) := by
  have hmessages (n : String) (rows : List HistoryRow) : Leaves 0 (pg.historyMessages n rows) := by
    induction rows with
    | nil => trivial
    | cons row rows ih =>
      have hname : Leaves 0 (pg.getClientName row.clientId) := by
        unfold getClientName
        split
        · exact (leaves_select _ _).then_free fun _ => trivial
        · trivial
      exact hname.bind_free fun _ => ih.then_free fun _ => trivial
  unfold getHistory
  split
  · have hname : Leaves 0 (pg.getChannelName k) := by
      unfold getChannelName
      split
      · exact (leaves_select _ _).then_free fun _ => trivial
      · trivial
    exact hname.bind_free fun n => (leaves_select _ _).bind_free fun res => hmessages n _
  · trivial

end WrapperPg

/-! ## The server -/

/-- What a response is to the session that it is written to. Messages that are sent are no
answers. -/
def Response.marks (session : SessionId) : Response → Multiset Mark
  | .registrationResponse _ => {.answer (some session) .registrationResponse}
  | .authorisationResponse _ => {.answer (some session) .authorisationResponse}
  | .joinRoomResponse _ _ => {.answer none .joinRoomResponse}
  | .historyResponse _ _ => {.answer none .historyResponse}
  | .channelsResponse _ => {.answer none .channelsResponse}
  | .echoResponse _ => 0

namespace Server

/-- The rows and the answers. -/
def marks (s : Server Postgres) : Multiset Mark :=
  s.db.db.marks + (s.written.map fun x => x.response.marks x.session).sum

/-- What a program over the server leaves. -/
abbrev Leaves {α : Type} (b : Multiset Mark) (p : Prog (Server Postgres) Exn α) : Prop :=
  p.Spends marks b

theorem leaves_inDb {α : Type} {b : Multiset Mark} {p : Prog Postgres Exn α}
    (hp : WrapperPg.Leaves b p) : Leaves b (inDb p) := by
  refine hp.zoom fun s d c hd => ?_
  rw [marks, marks, add_right_comm]
  exact add_le_add_left hd _

/-- A step on the users, the channels or the queue. -/
theorem leaves_modify {f : Server Postgres → Server Postgres} (hdb : ∀ s, (f s).db = s.db)
    (hwritten : ∀ s, (f s).written = s.written) :
    Leaves 0 (Prog.modify f : Prog (Server Postgres) Exn PUnit) := by
  refine .modify fun s => ?_
  rw [marks, marks, hdb, hwritten, add_zero]

theorem leaves_pushUser (data : User) :
    Leaves 0 (UserManager.push data : Prog (Server Postgres) Exn PUnit) := by
  refine leaves_modify (fun s => ?_) fun s => ?_
  all_goals cases s.idClients data.id <;> rfl

theorem leaves_write (w : World) (session : SessionId) (response : Response) (message : Bytes) :
    Leaves (response.marks session) (ClientSession.write w session response message) := by
  have hlog : Leaves (response.marks session) (Prog.modify fun s =>
      { s with written := s.written ++ [⟨session, response, message⟩] } :
        Prog (Server Postgres) Exn PUnit) := by
    refine .modify fun s => le_of_eq ?_
    rw [marks, marks, List.map_append, List.sum_append, List.map_singleton, List.sum_singleton,
      add_assoc]
  refine hlog.then_free fun _ => ?_
  unfold SocketWriter.write ThreadSafeQueue.push
  split
  · exact .atomic fun s => le_add_right le_rfl
  · trivial

theorem leaves_reply (w : World) (session : SessionId) (response : Response) [Protocol] :
    Leaves (response.marks session)
      (QueryEngine.reply w session response : Prog (Server Postgres) Exn PUnit) := by
  unfold QueryEngine.reply
  split
  · exact (leaves_write w session response _).then_free fun _ => trivial
  · trivial

/-! ## Channels -/

section Channels

variable [Protocol]

theorem leaves_makeShared (n : String) (k : UserId) :
    Leaves 0 (Channel.makeShared WrapperPg.database n k) := by
  have hconstruct : Leaves 0 (Channel.construct WrapperPg.database n k) := by
    unfold Channel.construct
    split
    · trivial
    split
    · trivial
    · refine (leaves_inDb (WrapperPg.connected.leaves_getChannelUsers k)).then_free fun _ => ?_
      trivial
  refine (hconstruct.bind_free fun channel => ?_).atomically
  exact .atomic fun s => le_add_right le_rfl

omit [Protocol] in
theorem leaves_store (k : UserId) (p : ChannelPtr) :
    Leaves 0 (ChannelsManager.store k p : Prog (Server Postgres) Exn PUnit) :=
  leaves_modify (fun _ => rfl) fun _ => rfl

theorem leaves_createOrGetChannelByName (n : String) :
    Leaves {.channel n} (ChannelsManager.createOrGetChannelByName WrapperPg.database n) := by
  have hmake (k : UserId) : Leaves 0 (do
      let channel ← Channel.makeShared WrapperPg.database n k
      ChannelsManager.store k channel
      return channel) :=
    (leaves_makeShared n k).bind_free fun p => (leaves_store k p).bind_free fun _ => trivial
  unfold ChannelsManager.createOrGetChannelByName
  refine (leaves_inDb (WrapperPg.connected.leaves_hasChannel n)).bind_free fun found => ?_
  split
  · refine Prog.Spends.mono ?_ zero_le
    refine (leaves_inDb (WrapperPg.connected.leaves_getChannelId n)).bind_free fun k => ?_
    refine Prog.Spends.atomically (.bind_free (.read _) fun known => ?_)
    cases known with
    | none => exact hmake k
    | some p => trivial
  · exact (leaves_inDb (WrapperPg.connected.leaves_createChannel n)).then_free hmake

theorem leaves_addUser (w : World) (p : ChannelPtr) (i : UserId) :
    Leaves {.answer none .joinRoomResponse}
      (Channel.addUser w p i : Prog (Server Postgres) Exn PUnit) := by
  unfold Channel.addUser
  refine .bind_free (.read _) fun this => ?_
  cases this with
  | none => trivial
  | some this =>
    dsimp only
    split
    · trivial
    · refine (leaves_modify (fun _ => rfl) fun _ => rfl).bind_free fun _ => ?_
      refine .bind_free (.read _) fun user => ?_
      cases user with
      | none => trivial
      | some user =>
        dsimp only
        split
        · exact (leaves_write w user.session (.joinRoomResponse this.name true) _).then_free
            fun _ => trivial
        · trivial

theorem leaves_sendHistory (w : World) (p : ChannelPtr) (i : UserId) (dt : DateTime) :
    Leaves {.answer none .historyResponse}
      (Channel.sendHistory WrapperPg.database w p i dt) := by
  unfold Channel.sendHistory
  refine .bind_free (.read _) fun this => ?_
  cases this with
  | none => trivial
  | some this =>
    dsimp only
    split
    · refine .bind_free (.read _) fun user => ?_
      cases user with
      | none => trivial
      | some user =>
        dsimp only
        split
        · refine (leaves_inDb
            (WrapperPg.connected.leaves_getHistory this.id)).bind_free fun history => ?_
          -- an empty history is not sent
          split
          · trivial
          · exact (leaves_write w user.session (.historyResponse this.name _) _).then_free
              fun _ => trivial
        · trivial
    · trivial

theorem leaves_channelWrite (w : World) (p : ChannelPtr) (m : ClientTextMsg) :
    Leaves {.message m.channelName (timestampText m.dt) m.text}
      (Channel.write WrapperPg.database w p m) := by
  -- the echoes are free
  have hloop (ids : List UserId) (buffer : Bytes) :
      Leaves 0 (Channel.writeLoop w m ids buffer : Prog (Server Postgres) Exn Bytes) := by
    induction ids generalizing buffer with
    | nil => trivial
    | cons i ids ih =>
      refine .bind_free (.read _) fun user => ?_
      cases user with
      | none => exact ih buffer
      | some user =>
        dsimp only
        split
        · exact (leaves_write w user.session (.echoResponse m) buffer).bind_free fun buffer =>
            ih buffer
        · exact ih buffer
  refine .bind_free (.read _) fun this => ?_
  cases this with
  | none => trivial
  | some this =>
    exact (hloop _ _).bind_free fun _ =>
      leaves_inDb (WrapperPg.connected.leaves_addMsgHistory this.id m)

end Channels

end Server

/-! ## Frames -/

/-- What a call may leave. -/
def Call.marks : Call → Multiset Mark
  | .reg session request =>
    {.client request.login request.password} + {.answer (some session) .registrationResponse}
  | .auth session _ => {.answer (some session) .authorisationResponse}
  | .getHistory request => {.channel request.channelName} + {.answer none .historyResponse}
  | .getChannels _ => {.answer none .channelsResponse}
  | .joinRoom request =>
    {.channel request.channelName} +
      ({.answer none .joinRoomResponse} + {.subscription request.clientId})
  | .sendText request =>
    {.channel request.channelName} +
      {.message request.channelName (timestampText request.datetime) request.text}

/-- What a frame may leave: what its call may, or the answer to a body that does not fit. -/
def Arrival.marks (a : Arrival) : Multiset Mark :=
  match a.call with
  | some call => call.marks
  | none => (a.answer.map fun response => response.marks a.session).getD 0

section Frames

variable [Protocol]

/-- A call leaves no more than that, whatever others do meanwhile, and also when it fails. -/
theorem Server.leaves_handle (w : World) (call : Call) :
    Leaves call.marks (handle WrapperPg.database w call) := by
  cases call with
  | reg session request =>
    refine (leaves_inDb (WrapperPg.connected.leaves_checkRegUser
      ⟨request.login, request.password⟩)).bind fun i => ?_
    dsimp only
    -- the user is pushed only under an id, and the answer is sent in any case
    split
    · exact (leaves_pushUser _).bind_free fun _ => leaves_reply w session (.registrationResponse i)
    · exact leaves_reply w session (.registrationResponse i)
  | auth session request =>
    refine (leaves_inDb (WrapperPg.connected.leaves_checkAuthUser _)).bind_free fun i => ?_
    dsimp only
    split
    · exact (leaves_pushUser _).bind_free fun _ => leaves_reply w session (.authorisationResponse i)
    · exact leaves_reply w session (.authorisationResponse i)
  | getHistory request =>
    exact (leaves_createOrGetChannelByName _).bind fun p => leaves_sendHistory w p _ _
  | getChannels request =>
    refine .bind_free (.read _) fun user => ?_
    cases user with
    | none =>
      -- whether the log line throws or not, it leaves nothing
      dsimp only
      unfold logFormat
      split <;> trivial
    | some client =>
      dsimp only
      split
      · refine (leaves_inDb (WrapperPg.connected.leaves_getUserNameChannels _)).bind_free
          fun channels => ?_
        exact (leaves_write w client.session (.channelsResponse channels) _).then_free
          fun _ => trivial
      · trivial
  | joinRoom request =>
    refine (leaves_createOrGetChannelByName _).bind fun p => ?_
    refine .bind_free (.read _) fun user => ?_
    cases user with
    | none => trivial
    | some client =>
      -- `addUser` answers, and the subscription is stored after it
      refine (leaves_addUser w p client.id).bind fun _ => ?_
      exact leaves_inDb (WrapperPg.connected.leaves_joinClientChannel _ _)
  | sendText request =>
    refine (leaves_createOrGetChannelByName _).bind fun p => ?_
    exact leaves_channelWrite w p (QueryEngine.textMessage request)

/-- A frame leaves no more than it may. -/
theorem WorkersPool.spends_task (a : Arrival) : Server.Leaves a.marks (WorkersPool.task a) := by
  unfold WorkersPool.task Arrival.marks
  cases hcall : a.call with
  | none =>
    rw [processRequest_of_no_call _ hcall]
    cases a.answer with
    | none => trivial
    | some response =>
      exact (Server.leaves_write _ a.session response _).then_free fun _ => trivial
  | some call =>
    rw [processRequest_of_call _ hcall, ClientSession.toEngine]
    dsimp only
    split
    · exact Server.leaves_handle a.world call
    · trivial

/-- The start leaves the tables as they are, and answers nobody. -/
theorem marks_start (d : Postgres) :
    (GatewayServer.start WrapperPg.database d).2.marks ≤ d.db.marks := by
  have hchannels (channels : List (UserId × String)) :
      Server.Leaves 0 (ChannelsManager.createChannels WrapperPg.database channels) := by
    induction channels with
    | nil => trivial
    | cons c channels ih =>
      refine (Server.leaves_makeShared c.2 c.1).bind_free fun p => ?_
      exact (Server.leaves_store c.1 p).bind_free fun _ => ih
  have hcurrent : WrapperPg.Leaves 0 WrapperPg.connected.getCurrentChannels :=
    (WrapperPg.leaves_select _ _).then_free fun _ => trivial
  have hstart : Server.Leaves 0 (ChannelsManager.createChannelFromDb WrapperPg.database) :=
    (Server.leaves_inDb hcurrent).bind_free hchannels
  have hrun := hstart.run (Server.initial d)
  rw [add_zero] at hrun
  refine hrun.trans (le_of_eq ?_)
  show d.db.marks + 0 = d.db.marks
  exact add_zero _

/-! ## Lives -/

variable {ι : Type} [DecidableEq ι] [Fintype ι]

theorem WorkersPool.marks_runOn (d : Postgres) (labels : List (PoolLabel ι Arrival)) :
    (runOn d labels).shared.marks ≤
      d.db.marks + ((runOn d labels).tasks.posted.map fun job => job.data.marks).sum := by
  refine (TaskPool.spent_foldl _ spends_task labels).trans ?_
  exact add_le_add_left (marks_start d) _

/-- What is left of some lives is paid for by the frames. -/
theorem tables_marks_le (lives : List (Life ι)) :
    (pastOf lives).tables.marks ≤ ((pastOf lives).frames.map Arrival.marks).sum := by
  induction lives using List.reverseRecOn with
  | nil => exact le_rfl
  | append_singleton lives life ih =>
    rw [pastOf_append]
    have hlife := WorkersPool.marks_runOn ⟨(pastOf lives).tables, life.faults⟩ life.labels
    refine (le_add_right le_rfl).trans (hlife.trans ?_)
    refine (add_le_add_left ih _).trans (le_of_eq ?_)
    rw [Past.after, List.map_append, List.sum_append, List.map_map]
    rfl

/-- However many lives there are, whichever queries fail, and however the threads are interleaved:
the rows of the tables and the answers of the last life are paid for by the frames, each by one of
its own. -/
theorem marks_le_pastOf (lives : List (Life ι)) (life : Life ι) :
    ((pastOf lives).run life).shared.marks ≤
      ((pastOf (lives ++ [life])).frames.map Arrival.marks).sum := by
  have hlife := WorkersPool.marks_runOn ⟨(pastOf lives).tables, life.faults⟩ life.labels
  refine hlife.trans ((add_le_add_left (tables_marks_le lives) _).trans (le_of_eq ?_))
  rw [pastOf_append, Past.after, List.map_append, List.sum_append, List.map_map]
  rfl

end Frames

end GatewayServer
