import GatewayServer.Engine.Delivery
import GatewayServer.Engine.JoinReply

/-!
# Live delivery and the history

A text message goes two ways: it is echoed to the members who are online, and it is stored. The
echo carries the login of the request as it is; the row is stored under the id that a query has for
this login, and refused when there is none.

## Main definitions

* `EchoAgreesWithHistory` — what a text request echoes is what it stores
* `Server.StoresText` — the queries by which a text is stored find its login and succeed

## Main results

* `echoAgreesWithHistory_iff` — they agree when the message is stored, when nobody is online, or
  when the request ends before either
* `not_echoAgreesWithHistory_unknown_login` — a message that is echoed and not stored
-/

namespace GatewayServer

open Lib

variable [Protocol]

/-- What is stored when the request is served, `stored`, is appended to the messages under the name
of the channel, which are those that `sendHistory` reads of it, and nothing else is stored. Every
echo that is written is stored, and everything stored is echoed to every member who is online. -/
def EchoAgreesWithHistory (s : Server Postgres) (w : World) (request : TextRequest) : Prop :=
  let t := serve WrapperPg.database s ⟨w, .sendText request⟩
  let n := request.channelName
  let k := t.db.db.channelId n
  ∃ stored : List ClientTextMsg,
    t.db.db.messagesOf n = s.db.db.messagesOf n ++ stored ∧
    (k ≠ 0 → WrapperPg.storedMessages t.db.db k = t.db.db.messagesOf n) ∧
    t.db.db.history.length = s.db.db.history.length + stored.length ∧
    (∀ x ∈ writtenBy s ⟨w, .sendText request⟩, ∃ m,
      x.response = .echoResponse m ∧ WrapperPg.reread m ∈ stored) ∧
    ∀ y ∈ stored, ∃ m, y = WrapperPg.reread m ∧
      ∀ c, t.registry k = some c → ∀ i ∈ c.idUsers, ∀ session,
        s.liveSession w i = some session → ∃ x ∈ writtenBy s ⟨w, .sendText request⟩,
          x.session = session ∧ x.response = .echoResponse m

/-- The messages of a channel are those under its name. -/
theorem storedMessages_channelId {db : Database} {n : String} (hn : db.channelId n ≠ 0) :
    WrapperPg.storedMessages db (db.channelId n) = db.messagesOf n := by
  rw [WrapperPg.storedMessages, Database.channelNameOf_channelId hn]
  rfl

omit [Protocol] in
/-- The queries by which a text is stored: the lookup of its login finds a client, and the `INSERT`
does not fail. They come after those of the search for the channel. -/
def Server.StoresText (s : Server Postgres) (request : TextRequest) : Prop :=
  s.db.db.clientId request.login ≠ 0 ∧ s.db.fails (s.lookups request.channelName) = false ∧
    s.db.fails (s.lookups request.channelName + 1) = false

instance (s : Server Postgres) (request : TextRequest) : Decidable (s.StoresText request) := by
  unfold Server.StoresText
  infer_instance

section TextRequest

variable {s : Server Postgres} (h : s.Named) (w : World) {request : TextRequest}
include h

/-- A request that ends in the search writes nothing, and leaves all that was stored. -/
theorem serve_sendText_not_finds (hfinds : ¬ s.Finds request.channelName) :
    writtenBy s ⟨w, .sendText request⟩ = [] ∧
      (serve WrapperPg.database s ⟨w, .sendText request⟩).db.db.history = s.db.db.history ∧
      (serve WrapperPg.database s ⟨w, .sendText request⟩).db.db.clients = s.db.db.clients := by
  obtain ⟨e, d, hrun, htables⟩ :=
    ChannelsManager.run_createOrGetChannelByName_not_finds h hfinds
  have hserve : serve WrapperPg.database s ⟨w, .sendText request⟩ = { s with db := d } := by
    rw [serve, handle, QueryEngine.sendText, Prog.run_bind_error hrun]
  rw [writtenBy, hserve]
  refine ⟨List.drop_length, ?_, ?_⟩ <;>
  · dsimp only
    rw [htables, Server.tablesSearched]
    split <;> rfl

/-- The channel that a text request is for, what it writes, and what it leaves in the tables. -/
theorem serve_sendText_found (hfinds : s.Finds request.channelName) :
    ∃ c, (serve WrapperPg.database s ⟨w, .sendText request⟩).registry
        ((s.db.db.enter request.channelName).channelId request.channelName) = some c ∧
      c.idUsers = s.membersAsked request.channelName ∧
      writtenBy s ⟨w, .sendText request⟩ =
        Channel.handed s w (QueryEngine.textMessage request) (w.order.list c.idUsers)
          (Protocol.serialize (.echoResponse (QueryEngine.textMessage request))) ∧
      (serve WrapperPg.database s ⟨w, .sendText request⟩).db.db =
        if s.StoresText request then
          (s.db.db.enter request.channelName).store (QueryEngine.textMessage request)
        else s.db.db.enter request.channelName := by
  have hrun := ChannelsManager.run_createOrGetChannelByName_found h hfinds
  obtain ⟨this, hthis, -, hmembers⟩ := h.found_object request.channelName
  have hserve : serve WrapperPg.database s ⟨w, .sendText request⟩ =
      Server.log { (s.found request.channelName).2 with
        db := (s.found request.channelName).2.db.after 2
          (if (s.found request.channelName).2.db.fails 0 ∨
              (s.found request.channelName).2.db.fails 1 then
            (s.found request.channelName).2.db.db
          else (s.found request.channelName).2.db.db.store (QueryEngine.textMessage request)) } w
        (Channel.handed (s.found request.channelName).2 w (QueryEngine.textMessage request)
          (w.order.list this.idUsers)
          (Protocol.serialize (.echoResponse (QueryEngine.textMessage request)))) := by
    rw [serve, handle, QueryEngine.sendText, Prog.run_bind_ok hrun, Channel.run_write _ w hthis,
      Server.run_inDb_ok (WrapperPg.run_addMsgHistory_fails _ _ _)]
    rfl
  refine ⟨this, ?_, hmembers, ?_, ?_⟩
  · rw [hserve]
    exact Option.bind_eq_some_iff.mpr ⟨_, h.found_pointer, hthis⟩
  · rw [writtenBy, hserve, Server.log_written, Channel.handed_congr Server.found_idClients]
    exact (congrArg (List.drop _) (congrArg (· ++ _) Server.found_written)).trans List.drop_left
  · rw [hserve]
    simp only [Server.log_db, h.found_db, Postgres.after_db, Postgres.fails_after, add_zero]
    by_cases hauthor : s.db.db.clientId request.login = 0
    · have hsame : (s.db.db.enter request.channelName).store (QueryEngine.textMessage request) =
          s.db.db.enter request.channelName :=
        Database.store_of_unknown _ ((Database.clientId_enter ..).trans hauthor)
      simp [hsame]
    · cases hlookup : s.db.fails (s.lookups request.channelName) <;>
        cases hinsert : s.db.fails (s.lookups request.channelName + 1) <;>
        simp [Server.StoresText, hauthor, hlookup, hinsert]

/-- The message is read under the id that the channel was found under. -/
theorem channelId_serve_sendText (hfinds : s.Finds request.channelName) :
    (serve WrapperPg.database s ⟨w, .sendText request⟩).db.db.channelId request.channelName =
      (s.db.db.enter request.channelName).channelId request.channelName := by
  obtain ⟨-, -, -, -, hdb⟩ := serve_sendText_found h w hfinds
  rw [hdb]
  split
  · simp only [Database.channelId, Database.store_channels]
  · rfl

/-- The messages under the name of the channel after a text request: those before it, and its own
when it is stored. -/
theorem messagesOf_serve_sendText (hfinds : s.Finds request.channelName) :
    (serve WrapperPg.database s ⟨w, .sendText request⟩).db.db.messagesOf request.channelName =
      s.db.db.messagesOf request.channelName ++
        if s.StoresText request then [WrapperPg.reread (QueryEngine.textMessage request)]
        else [] := by
  obtain ⟨-, -, -, -, hdb⟩ := serve_sendText_found h w hfinds
  have hentered : (s.db.db.enter request.channelName).messagesOf request.channelName =
      s.db.db.messagesOf request.channelName :=
    Database.messagesOf_congr (Database.enter_history ..) (Database.enter_clients ..) _
  rw [hdb]
  split
  · next hstores =>
    have hauthor : s.db.db.clientId (QueryEngine.textMessage request).author ≠ 0 := hstores.1
    rw [Database.messagesOf_store, hentered, Database.clientId_enter,
      if_pos ⟨hauthor, rfl⟩]
  · rw [hentered, List.append_nil]

theorem length_history_serve_sendText (hfinds : s.Finds request.channelName) :
    (serve WrapperPg.database s ⟨w, .sendText request⟩).db.db.history.length =
      s.db.db.history.length + if s.StoresText request then 1 else 0 := by
  obtain ⟨-, -, -, -, hdb⟩ := serve_sendText_found h w hfinds
  rw [hdb]
  split
  · next hstores =>
    have hauthor : s.db.db.clientId (QueryEngine.textMessage request).author ≠ 0 := hstores.1
    rw [Database.store_history, Database.clientId_enter, if_neg hauthor, Database.enter_history,
      List.length_append, List.length_singleton]
  · rw [Database.enter_history, Nat.add_zero]

/-- In one state: the request ends in the search, its message is stored, or nobody is online. -/
theorem echoAgreesWithHistory_iff_of_named :
    EchoAgreesWithHistory s w request ↔
      ¬ s.Finds request.channelName ∨ s.StoresText request ∨
        ∀ i ∈ s.membersAsked request.channelName, s.liveSession w i = none := by
  by_cases hfinds : s.Finds request.channelName
  · obtain ⟨c, hregistry, hmembers, hwritten, -⟩ := serve_sendText_found h w hfinds
    have hmem : ∀ i, i ∈ w.order.list c.idUsers ↔ i ∈ s.membersAsked request.channelName := by
      intro i
      rw [w.order.mem_list, hmembers]
    rw [← channelId_serve_sendText h w hfinds] at hregistry
    simp only [EchoAgreesWithHistory, messagesOf_serve_sendText h w hfinds,
      length_history_serve_sendText h w hfinds, hregistry, hwritten, Option.some.injEq,
      forall_eq', List.append_cancel_left_eq, hfinds, not_true, false_or]
    have hread := messagesOf_serve_sendText h w hfinds
    by_cases hstores : s.StoresText request
    · simp only [hstores, if_true, true_or, iff_true]
      refine ⟨_, rfl, fun hk => ?_, rfl, ?_, ?_⟩
      · rw [storedMessages_channelId hk, hread, if_pos hstores]
      · intro x hx
        obtain ⟨hresponse, -⟩ := Channel.mem_handed hx
        exact ⟨_, hresponse, List.mem_cons_self⟩
      · intro y hy
        refine ⟨_, List.mem_singleton.mp hy, ?_⟩
        intro i hi session hlive
        exact Channel.exists_mem_handed ((w.order.mem_list _ i).mpr hi) hlive
    · -- nothing is stored, so nothing may be echoed
      simp only [hstores, if_false, false_or]
      constructor
      · rintro ⟨stored, rfl, -, -, hechoed, -⟩ i hi
        by_contra hlive
        obtain ⟨session, hlive⟩ := Option.ne_none_iff_exists'.mp hlive
        obtain ⟨x, hx, -⟩ := Channel.exists_mem_handed ((hmem i).mpr hi) hlive
        obtain ⟨m, -, hm⟩ := hechoed x hx
        exact absurd hm List.not_mem_nil
      · intro hoffline
        refine ⟨[], rfl, fun hk => ?_, rfl, ?_, by simp⟩
        · rw [storedMessages_channelId hk, hread, if_neg hstores]
        · intro x hx
          obtain ⟨-, i, hi, hlive⟩ := Channel.mem_handed hx
          rw [hoffline i ((hmem i).mp hi)] at hlive
          exact absurd hlive (by simp)
  · obtain ⟨hwritten, hhistory, hclients⟩ := serve_sendText_not_finds h w hfinds
    refine iff_of_true ⟨[], ?_, storedMessages_channelId, ?_, ?_, by simp⟩ (Or.inl hfinds)
    · rw [Database.messagesOf_congr hhistory hclients, List.append_nil]
    · rw [hhistory, List.length_nil, Nat.add_zero]
    · rw [hwritten]
      exact fun x hx => absurd hx List.not_mem_nil

end TextRequest

/-- After any requests, whichever queries fail, a text request echoes what it stores exactly when
the search for its channel ends it, its message is stored, or no member of its channel is
online. -/
theorem echoAgreesWithHistory_iff (d : Postgres) (events : List Event) (w : World)
    (request : TextRequest) :
    EchoAgreesWithHistory (runFrom d events) w request ↔
      ¬ (runFrom d events).Finds request.channelName ∨ (runFrom d events).StoresText request ∨
        ∀ i ∈ (runFrom d events).membersAsked request.channelName,
          (runFrom d events).liveSession w i = none :=
  echoAgreesWithHistory_iff_of_named (named_foldl_serve (backed_start d).named events) w

/-- A message for the channel of `annJoins`. -/
def textFrom (login : String) : TextRequest := ⟨login, "room", "hello", Channel.greeting.dt⟩

omit [Protocol] in
theorem echoAgreesWithHistory_iff_ann :
    letI := Protocol.oneByte
    EchoAgreesWithHistory (runFrom emptyTables annJoins) .calm (textFrom "ann") := by
  let _ := Protocol.oneByte
  have hstores : (runFrom emptyTables annJoins).StoresText (textFrom "ann") := by decide +kernel
  exact (echoAgreesWithHistory_iff emptyTables annJoins .calm (textFrom "ann")).mpr
    (Or.inr (Or.inl hstores))

omit [Protocol] in
/-- A login that nobody has registered: its message goes to the member, and is not stored. -/
theorem not_echoAgreesWithHistory_unknown_login :
    letI := Protocol.oneByte
    ¬ ∀ (d : Postgres) (events : List Event) (w : World) (request : TextRequest),
      request.channelName ≠ "" → EchoAgreesWithHistory (runFrom d events) w request := by
  let _ := Protocol.oneByte
  intro hall
  have hagrees := hall emptyTables annJoins .calm (textFrom "bob") (by decide)
  have hx : (⟨10, .echoResponse (QueryEngine.textMessage (textFrom "bob")), [1]⟩ : Write) ∈
      writtenBy (runFrom emptyTables annJoins) ⟨.calm, .sendText (textFrom "bob")⟩ := by
    decide +kernel
  have hafter : (serve WrapperPg.database (runFrom emptyTables annJoins)
      ⟨.calm, .sendText (textFrom "bob")⟩).db.db.history.length = 0 := by decide +kernel
  generalize runFrom emptyTables annJoins = s at hagrees hx hafter
  obtain ⟨stored, -, -, hlength, hechoed, -⟩ := hagrees
  obtain ⟨m, -, hm⟩ := hechoed _ hx
  have hpos := List.length_pos_of_mem hm
  omega

end GatewayServer
