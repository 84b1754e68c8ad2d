import GatewayServer.Channels.Broadcast
import GatewayServer.Engine.Restart
import GatewayServer.Engine.Steps
import GatewayServer.Network.ProcessRequest

/-!
# Whose name a message carries

The author of a message is the login that the text request states. Neither the session that the
request came over nor what that session has registered or authenticated as is asked. This holds
step by step, whatever queries fail and whatever state the server is in.

## Main definitions

* `Speaks` — between two states, the messages echoed and stored are those of given requests
* `Arrival.Proves` — a frame that registers or authenticates its session under a login

## Main results

* `keptByRequests_silent` — which parts of the server speak for nobody
* `speaks_foldl_arrive` — a run echoes and stores what its text requests state
* `author_stated_by_request` — the same, with the session shown not to matter
-/

namespace GatewayServer

open Lib

/-- The message that a response echoes. -/
def Response.echoed : Response → Option ClientTextMsg
  | .echoResponse message => some message
  | _ => none

/-- From `s` to `t`, what is echoed and what is stored are messages of text requests in `P`.
A message is stored under the id of a client with the login that its request states. -/
structure Speaks (P : TextRequest → Prop) (s t : Server Postgres) : Prop where
  clients : ∀ r ∈ s.db.db.clients.rows, r ∈ t.db.db.clients.rows
  written : ∃ new, t.written = s.written ++ new ∧ ∀ x ∈ new, ∀ message,
    x.response.echoed = some message →
      ∃ request, P request ∧ message = QueryEngine.textMessage request
  history : ∃ new, t.db.db.history = s.db.db.history ++ new ∧ ∀ row ∈ new,
    ∃ request, P request ∧
      row = ⟨row.clientId, request.channelName, timestampText request.datetime, request.text⟩ ∧
      ∃ r ∈ t.db.db.clients.rows, r.id = row.clientId ∧ r.data.login = request.login

namespace Speaks

variable {P Q : TextRequest → Prop} {s t u : Server Postgres}

/-- A step that keeps the clients, writes no echo and stores no message. -/
theorem of_silent (hclients : ∀ r ∈ s.db.db.clients.rows, r ∈ t.db.db.clients.rows)
    {new : List Write} (hwritten : t.written = s.written ++ new)
    (hnew : ∀ x ∈ new, x.response.echoed = none)
    (hhistory : t.db.db.history = s.db.db.history) : Speaks P s t where
  clients := hclients
  written := by
    refine ⟨new, hwritten, ?_⟩
    intro x hx message hmessage
    rw [hnew x hx] at hmessage
    exact absurd hmessage (by simp)
  history := ⟨[], by simpa using hhistory, by simp⟩

theorem refl (s : Server Postgres) : Speaks P s s :=
  of_silent (fun _ => id) (List.append_nil _).symm (by simp) rfl

theorem trans (hst : Speaks P s t) (htu : Speaks P t u) : Speaks P s u where
  clients r hr := htu.clients r (hst.clients r hr)
  written := by
    obtain ⟨new, hnew, hecho⟩ := hst.written
    obtain ⟨new', hnew', hecho'⟩ := htu.written
    refine ⟨new ++ new', by rw [hnew', hnew, List.append_assoc], ?_⟩
    intro x hx
    rcases List.mem_append.mp hx with hx | hx
    · exact hecho x hx
    · exact hecho' x hx
  history := by
    obtain ⟨new, hnew, hrow⟩ := hst.history
    obtain ⟨new', hnew', hrow'⟩ := htu.history
    refine ⟨new ++ new', by rw [hnew', hnew, List.append_assoc], ?_⟩
    intro row hmem
    rcases List.mem_append.mp hmem with hmem | hmem
    · obtain ⟨request, hP, heq, r, hr, hid⟩ := hrow row hmem
      exact ⟨request, hP, heq, r, htu.clients r hr, hid⟩
    · exact hrow' row hmem

theorem mono (hPQ : ∀ request, P request → Q request) (h : Speaks P s t) : Speaks Q s t where
  clients := h.clients
  written := by
    obtain ⟨new, hnew, hecho⟩ := h.written
    refine ⟨new, hnew, ?_⟩
    intro x hx message hmessage
    obtain ⟨request, hP, heq⟩ := hecho x hx message hmessage
    exact ⟨request, hPQ request hP, heq⟩
  history := by
    obtain ⟨new, hnew, hrow⟩ := h.history
    refine ⟨new, hnew, ?_⟩
    intro row hmem
    obtain ⟨request, hP, hrest⟩ := hrow row hmem
    exact ⟨request, hPQ request hP, hrest⟩

end Speaks

/-! ## The database, apart from storing a message -/

namespace WrapperPg

/-- No message is stored and no client is lost. -/
def Keeps (s t : Postgres) : Prop :=
  t.db.history = s.db.history ∧ ∀ r ∈ s.db.clients.rows, r ∈ t.db.clients.rows

/-- What is kept does not depend on the failures to come. -/
theorem keptByQueries_keeps : KeptByQueries fun db db' => Keeps { db } { db := db' } where
  refl _ := ⟨rfl, fun _ => id⟩
  insertClient _ _ := ⟨rfl, fun _ hr => List.mem_append_left _ hr⟩
  insertChannel _ _ := ⟨rfl, fun _ => id⟩
  insertSubscription _ _ := ⟨rfl, fun _ => id⟩

end WrapperPg

/-! ## The server, apart from sending a text -/

/-- A program that echoes no message and stores none, whatever runs beside it. -/
def Silent {α : Type} (p : Prog (Server Postgres) Exn α) : Prop :=
  p.Guarantees (Speaks fun _ => False)

/-- A step that changes neither the database nor what is written. -/
theorem speaks_of_same {P : TextRequest → Prop} {s t : Server Postgres} (hdb : t.db = s.db)
    (hwritten : t.written = s.written) : Speaks P s t := by
  refine .of_silent ?_ (hwritten.trans (List.append_nil _).symm) (by simp) ?_
  · intro r hr
    rwa [hdb]
  · rw [hdb]

/-- Of all steps but the storing of a message, only an echo speaks. -/
theorem keptByRequests_silent :
    Server.KeptByRequests (fun db db' => WrapperPg.Keeps { db } { db := db' })
      (fun response => response.echoed = none) (Speaks fun _ => False) where
  refl := Speaks.refl
  db s d hd := .of_silent hd.2 (List.append_nil _).symm (by simp) hd.1
  push s data := by
    rw [UserManager.run_push]
    exact speaks_of_same rfl rfl
  written s session response message hecho := by
    refine .of_silent (fun _ => id) rfl ?_ rfl
    intro x hx
    rw [List.mem_singleton.mp hx]
    exact hecho
  queued s tasks := speaks_of_same rfl rfl
  trans _ _ _ := Speaks.trans
  objects s objects := speaks_of_same rfl rfl
  idChannels s idChannels := speaks_of_same rfl rfl

variable [Protocol]

/-! ## Sending a text -/

omit [Protocol] in
/-- Storing a message stores it for its author, or not at all. -/
theorem WrapperPg.run_addMsgHistory_cases (s : Postgres) (k : UserId) (m : ClientTextMsg) :
    ((connected.addMsgHistory k m).run s).2.db = s.db ∨
      ∃ id, s.db.insertHistory ⟨id, m.channelName, timestampText m.dt, m.text⟩ =
          some ((connected.addMsgHistory k m).run s).2.db ∧
        ∃ r ∈ s.db.clients.rows, r.id = id ∧ r.data.login = m.author := by
  rw [run_addMsgHistory_fails, Postgres.after_db]
  split
  · exact Or.inl rfl
  · rw [Database.store]
    cases hins : s.db.insertHistory
        ⟨s.db.clientId m.author, m.channelName, timestampText m.dt, m.text⟩ with
    | none => exact Or.inl rfl
    | some db =>
      have hne : s.db.clientId m.author ≠ 0 := Database.ne_zero_of_insertHistory hins
      obtain ⟨r, hr, hid, hlogin⟩ := SerialTable.exists_row_of_firstId_ne_zero hne
      exact Or.inr ⟨_, hins, r, hr, hid, of_decide_eq_true hlogin⟩

/-- A channel echoes and stores the message that it is given. -/
theorem Channel.speaks_write (w : World) (p : ChannelPtr) (request : TextRequest)
    (s : Server Postgres) :
    Speaks (· = request) s
      ((write WrapperPg.database w p (QueryEngine.textMessage request)).run s).2 := by
  cases hthis : s.objects[p]? with
  | none =>
    -- there is no channel to write to
    have hrun : (write WrapperPg.database w p (QueryEngine.textMessage request)).run s =
        (.ok ⟨⟩, s) := by
      simp [write, deref, Prog.run_bind, hthis]
    rw [hrun]
    exact .refl s
  | some this =>
    rw [run_write _ w hthis, Server.run_inDb]
    have hwritten : ∀ x ∈ handed s w (QueryEngine.textMessage request)
        (w.order.list this.idUsers)
        (Protocol.serialize (.echoResponse (QueryEngine.textMessage request))),
        ∀ message, x.response.echoed = some message →
          ∃ r, r = request ∧ message = QueryEngine.textMessage r := by
      intro x hx message hmessage
      rw [(mem_handed hx).1] at hmessage
      exact ⟨request, rfl, (Option.some.inj hmessage).symm⟩
    -- the query adds the row, or leaves the tables as they are
    rcases WrapperPg.run_addMsgHistory_cases s.db this.id (QueryEngine.textMessage request) with
      hsame | ⟨id, hstored, hauthor⟩
    · refine ⟨?_, ⟨_, rfl, hwritten⟩, ⟨[], ?_, by simp⟩⟩
      · intro r hr
        dsimp only [Server.log_db]
        rwa [hsame]
      · dsimp only [Server.log_db]
        rw [hsame, List.append_nil]
    · obtain ⟨-, hhistory, hclients, -⟩ := Database.insertHistory_eq_some hstored
      refine ⟨?_, ⟨_, rfl, hwritten⟩, ⟨_, hhistory, ?_⟩⟩
      · intro r hr
        dsimp only [Server.log_db]
        rwa [hclients]
      · intro row hrow
        obtain rfl := List.mem_singleton.mp hrow
        refine ⟨request, rfl, rfl, ?_⟩
        dsimp only [Server.log_db]
        rw [hclients]
        exact hauthor

theorem QueryEngine.speaks_sendText (w : World) (request : TextRequest) (s : Server Postgres) :
    Speaks (· = request) s ((sendText WrapperPg.database w request).run s).2 := by
  have hchannel := (keptByRequests_silent.createOrGetChannelByName
    WrapperPg.keptByQueries_keeps request.channelName).run Speaks.refl
    (fun _ _ _ => Speaks.trans) s
  cases hrun : (ChannelsManager.createOrGetChannelByName WrapperPg.database
    request.channelName).run s with
  | mk r t =>
    rw [hrun] at hchannel
    -- finding or making the channel speaks for nobody, also when it throws
    have hsilent : Speaks (· = request) s t := hchannel.mono fun _ => False.elim
    cases r with
    | error e =>
      rw [sendText, Prog.run_bind_error hrun]
      exact hsilent
    | ok p =>
      rw [sendText, Prog.run_bind_ok hrun]
      exact hsilent.trans (Channel.speaks_write w p request t)

/-! ## Frames and runs -/

omit [Protocol] in
/-- No answer to a frame that asks for no call is an echo. -/
theorem Arrival.echoed_answer {a : Arrival} {response : Response}
    (hanswer : a.answer = some response) : response.echoed = none := by
  unfold Arrival.answer at hanswer
  cases hcommand : a.header.command with
  | registrationRequest =>
    obtain rfl : _ = response := by simpa [hcommand] using hanswer
    rfl
  | authorisationRequest =>
    obtain rfl : _ = response := by simpa [hcommand] using hanswer
    rfl
  | joinRoomRequest =>
    obtain rfl : _ = response := by simpa [hcommand] using hanswer
    rfl
  | _ => simp [hcommand] at hanswer

/-- A frame echoes and stores the message of its text request, if it carries one. -/
theorem speaks_arrive (s : Server Postgres) (a : Arrival) :
    Speaks (fun request => a.call = some (.sendText request)) s
      (arrive WrapperPg.database s a) := by
  -- what neither echoes nor stores a message keeps to any author
  have hsilent : ∀ {p : Prog (Server Postgres) Exn PUnit}, Silent p →
      Speaks (fun request => a.call = some (.sendText request)) s (p.run s).2 := by
    intro p hp
    exact (hp.run Speaks.refl (fun _ _ _ => Speaks.trans) s).mono fun _ => False.elim
  unfold arrive
  cases hcall : a.call with
  | none =>
    rw [processRequest_of_no_call _ hcall]
    cases hanswer : a.answer with
    | none => exact .refl s
    | some response =>
      rw [hcall] at hsilent
      exact hsilent (Prog.Guarantees.bind
        (keptByRequests_silent.write _ _ (Arrival.echoed_answer hanswer) _) fun _ => trivial)
  | some call =>
    rw [processRequest_of_call _ hcall, ClientSession.toEngine]
    rw [hcall] at hsilent
    have hqueries := WrapperPg.keptByQueries_keeps
    by_cases hengine : a.world.engineAlive = true
    · rw [if_pos hengine]
      cases call with
      | reg session request =>
        exact hsilent (keptByRequests_silent.reg hqueries (fun _ => rfl) _ _ _)
      | auth session request =>
        exact hsilent (keptByRequests_silent.auth hqueries (fun _ => rfl) _ _ _)
      | getHistory request =>
        exact hsilent (keptByRequests_silent.getHistory hqueries (fun _ _ => rfl) _ _)
      | getChannels request =>
        exact hsilent (keptByRequests_silent.getChannels hqueries (fun _ => rfl) _ _)
      | joinRoom request =>
        exact hsilent (keptByRequests_silent.joinRoom hqueries (fun _ => rfl) _ _)
      | sendText request =>
        -- the only request that carries a message
        refine (QueryEngine.speaks_sendText a.world request s).mono ?_
        rintro request' rfl
        rfl
    · rw [if_neg hengine]
      exact .refl s

/-- A run echoes and stores the messages of the text requests in its frames. -/
theorem speaks_foldl_arrive (s : Server Postgres) (arrivals : List Arrival) :
    Speaks (fun request => ∃ a ∈ arrivals, a.call = some (.sendText request)) s
      (arrivals.foldl (arrive WrapperPg.database) s) := by
  induction arrivals generalizing s with
  | nil => exact .refl s
  | cons a arrivals ih =>
    -- the requests of the first frame are among those of the run
    have hfirst := (speaks_arrive s a).mono
      (Q := fun request => ∃ b ∈ a :: arrivals, b.call = some (.sendText request))
      fun request hcall => ⟨a, List.mem_cons_self, hcall⟩
    refine hfirst.trans ((ih (arrive WrapperPg.database s a)).mono ?_)
    rintro request ⟨b, hb, hcall⟩
    exact ⟨b, List.mem_cons_of_mem a hb, hcall⟩

/-- A text request is handled alike over every session. -/
theorem arrive_sendText_session (s : Server Postgres) {a : Arrival} {request : TextRequest}
    (hcall : a.call = some (.sendText request)) (session : SessionId) :
    arrive WrapperPg.database s { a with session } = arrive WrapperPg.database s a := by
  have hcall' : ({ a with session } : Arrival).call = some (.sendText request) := by
    -- only registrations and authentications have the session in their call
    obtain ⟨w, session', ⟨command, length⟩, body⟩ := a
    cases command with
    | sendTextRequest => exact hcall
    | joinRoomRequest => exact hcall
    | historyRequest => exact hcall
    | channelsRequest => exact hcall
    | registrationRequest =>
      obtain ⟨r, -, hr⟩ := Option.map_eq_some_iff.mp hcall
      exact absurd hr (by simp)
    | authorisationRequest =>
      obtain ⟨r, -, hr⟩ := Option.map_eq_some_iff.mp hcall
      exact absurd hr (by simp)
    | _ => exact absurd hcall (by simp [Arrival.call])
  have hhere := processRequest_of_call (WrapperPg.database) hcall
  have hthere := processRequest_of_call (WrapperPg.database) hcall'
  unfold arrive
  rw [hhere, hthere]

/-- Every message that a run echoes or stores states the login of a text request of the run as
its author, is stored for a client with that login, and may come over any session. -/
theorem author_stated_by_request (s : Server Postgres) (arrivals : List Arrival) :
    Speaks (fun request => ∃ a ∈ arrivals, a.call = some (.sendText request)) s
      (arrivals.foldl (arrive WrapperPg.database) s) ∧
    ∀ a ∈ arrivals, ∀ request, a.call = some (.sendText request) → ∀ t session,
      arrive WrapperPg.database t { a with session } = arrive WrapperPg.database t a := by
  refine ⟨speaks_foldl_arrive s arrivals, ?_⟩
  intro a _ request hcall t session
  exact arrive_sendText_session t hcall session

/-! ## A session that speaks under the login of another -/

/-- The frame registers or authenticates its session under a login. -/
def Arrival.Proves (s : Server Postgres) (a : Arrival) (login : String) : Prop :=
  match a.call with
  | some (.reg session request) =>
    request.login = login ∧ ∃ i, s.db.db.Binds i a.session (.reg session request)
  | some (.auth session request) =>
    request.login = login ∧ ∃ i, s.db.db.Binds i a.session (.auth session request)
  | _ => False

/-- Session 10 registers as `ann` and joins a channel. -/
def annArrives : List Arrival :=
  [⟨.calm, 10, ⟨.registrationRequest, 1⟩, { registrationRequest := some ⟨"ann", "a"⟩ }⟩,
    ⟨.calm, 10, ⟨.joinRoomRequest, 1⟩, { joinRoomRequest := some ⟨1, "room"⟩ }⟩]

/-- Session 66 sends a text under the login `ann`. -/
def strangerSpeaks : Arrival :=
  ⟨.calm, 66, ⟨.sendTextRequest, 1⟩,
    { textRequest := some ⟨"ann", "room", "hello", Channel.greeting.dt⟩ }⟩

omit [Protocol] in
/-- A session that has proved no login is echoed and stored under the one it states. -/
theorem not_author_proved :
    letI := Protocol.oneByte
    ¬ ∀ (arrivals : List Arrival) (a : Arrival) (x : Write) (message : ClientTextMsg),
      x ∈ (arrive WrapperPg.database (arrivals.foldl (arrive WrapperPg.database)
          (start WrapperPg.database emptyTables).2) a).written.drop
        (arrivals.foldl (arrive WrapperPg.database)
          (start WrapperPg.database emptyTables).2).written.length →
      x.response.echoed = some message →
      ∃ pre b post, arrivals = pre ++ b :: post ∧ b.session = a.session ∧
        b.Proves (pre.foldl (arrive WrapperPg.database)
          (start WrapperPg.database emptyTables).2) message.author := by
  intro hall
  have hproved := hall annArrives strangerSpeaks ⟨10, .echoResponse Channel.greeting, [1]⟩
    Channel.greeting (by decide +kernel) rfl
  obtain ⟨pre, b, post, harrivals, hsession, -⟩ := hproved
  -- every frame before came over session 10
  have hmem : b ∈ annArrives := by
    rw [harrivals]
    simp
  have hten : ∀ b ∈ annArrives, b.session = 10 := by simp [annArrives]
  rw [hten b hmem] at hsession
  exact absurd hsession (by decide)

end GatewayServer
