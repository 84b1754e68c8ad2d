import GatewayServer.Network.Evidence
import GatewayServer.Network.WorkersPool

/-!
# Nothing without a warrant

The threads of the pool run the requests side by side, queries fail, pointers expire, and requests
throw. Through all of this the server stays sound: whatever it stores, holds in memory or writes to
a session is accounted for by the frames that came.

## Main results

* `Evidence.honours_handle`, `Evidence.honours_task` — every step of a request keeps the server
  sound
* `WorkersPool.sound` — the server is sound in every run, and does not forget
-/

namespace GatewayServer

open Lib

namespace Evidence

variable [Protocol] {ev : Evidence} {s : Server Postgres}

/-! ## Steps -/

theorem honours_inDb {α : Type} {p : Prog Postgres Exn α} {post : α → Postgres → Prop}
    (hp : p.Honours ev.rules.contract post s.db) :
    (Server.inDb p).Honours ev.contract (fun a s => post a s.db) s := by
  have hdown (s t : Server Postgres) (h : ev.contract.Allows s t) :
      ev.rules.contract.Allows s.db t.db :=
    ⟨h.inv.tables, h.rel.tables⟩
  exact .zoom Server.isLens_db hdown (fun s d hs hd => Sound.inDb hs hd) hp

/-- A vector is empty after the call when the queue has taken the message out of it. -/
theorem honours_write (hs : ev.Sound s) (w : World) {session : SessionId} {response : Response}
    {message : Bytes} (hwarranted : ev.Warranted s.db.db session response)
    (hcarries : Carries ⟨session, response, message⟩) :
    (ClientSession.write w session response message).Honours ev.contract
      (fun buffer _ => buffer = [] ∨ buffer = message) s := by
  have hlog : (Prog.modify fun s =>
      { s with written := s.written ++ [⟨session, response, message⟩] } :
        Prog (Server Postgres) Exn PUnit).Honours ev.contract
        (fun _ t => ⟨session, response, message⟩ ∈ t.written) s := by
    refine .modify fun t ht => ⟨?_, List.mem_append_right _ List.mem_cons_self⟩
    exact ht.inv.write (hwarranted.later ht.rel.tables) hcarries
  refine .bind hs hlog fun _ t ht hmem => ?_
  unfold SocketWriter.write ThreadSafeQueue.push
  split
  · exact .atomic fun u hu => ⟨hu.inv.queue (hu.rel.written.mem hmem), Or.inl rfl⟩
  · exact Or.inr rfl

theorem honours_getUser (i : UserId) :
    (UserManager.getUser i : Prog (Server Postgres) Exn _).Honours ev.contract
      (fun found s => ∀ user, found = some user → ev.Entitled s.db.db i user) s :=
  .read fun _ ht user hi => Sound.user ht.inv i user hi

/-! ## Channels -/

omit [Protocol] in
/-- A pointer points to a channel with an id and a name. -/
def Points (p : ChannelPtr) (k : UserId) (n : String) (s : Server Postgres) : Prop :=
  ∃ c, s.objects[p]? = some c ∧ c.id = k ∧ c.name = n

omit [Protocol] in
theorem Points.later {p : ChannelPtr} {k : UserId} {n : String} {t : Server Postgres}
    (h : Points p k n s) (hst : s.Precedes t) : Points p k n t := by
  obtain ⟨c, hp, rfl, rfl⟩ := h
  obtain ⟨c', hp', hid, hname⟩ := hst.object p c hp
  exact ⟨c', hp', hid, hname⟩

/-- Those who subscribe to a channel in the tables have joined it. -/
theorem Sound.subscriber (hs : ev.Sound s) {i k : UserId} {n : String}
    (hnamed : s.db.db.Named k n) (hsub : ⟨i, k⟩ ∈ s.db.db.subscriptions) :
    (∃ login, s.db.db.Registered i login) ∧ ev.Joined i n := by
  obtain ⟨hclient, ⟨n', hjoined, hnamed'⟩, -⟩ := hs.tables.subscription _ hsub
  obtain rfl := (hnamed' hnamed.ne_zero).eq hnamed
  exact ⟨hclient, hjoined⟩

theorem honours_construct (hs : ev.Sound s) {n : String} {k : UserId}
    (hnamed : k ≠ 0 → s.db.db.Named k n) :
    (Channel.construct WrapperPg.database n k).Honours ev.contract
      (fun c t => ev.Founded t.db.db c ∧ c.id = k ∧ c.name = n) s := by
  unfold Channel.construct
  split
  · trivial
  next hn =>
  split
  · trivial
  next hk =>
  refine .bind hs (honours_inDb (RowRules.getChannelUsers hs.tables WrapperPg.connected k)) ?_
  intro ids t ht hids
  have hnamed' := (hnamed hk).later ht.rel.tables
  refine ⟨⟨hn, hnamed', fun i hi => ?_⟩, rfl, rfl⟩
  exact Sound.subscriber ht.inv hnamed' (hids i (List.mem_toFinset.mp hi))

theorem honours_makeShared {n : String} {k : UserId} (hnamed : k ≠ 0 → s.db.db.Named k n) :
    (Channel.makeShared WrapperPg.database n k).Honours ev.contract (fun p => Points p k n) s := by
  refine .atomically fun t ht => ?_
  refine .bind ht.inv (honours_construct ht.inv fun hk => (hnamed hk).later ht.rel.tables) ?_
  rintro c u hu ⟨hfounded, rfl, rfl⟩
  refine .atomic fun v hv =>
    ⟨Sound.newChannel hv.inv (hfounded.later hv.rel.tables), c, ?_, rfl, rfl⟩
  exact List.getElem?_concat_length

theorem honours_store {p : ChannelPtr} {k : UserId} {n : String} (hp : Points p k n s) :
    (ChannelsManager.store k p : Prog (Server Postgres) Exn PUnit).Honours ev.contract
      (fun _ => Points p k n) s := by
  refine .modify fun t ht => ?_
  obtain ⟨c, hc, hid, hname⟩ := hp.later ht.rel
  exact ⟨Sound.store ht.inv hc hid, c, hc, hid, hname⟩

/-- A channel is made and stored. -/
theorem honours_make (hs : ev.Sound s) {n : String} {k : UserId}
    (hnamed : k ≠ 0 → s.db.db.Named k n) :
    (do
      let channel ← Channel.makeShared WrapperPg.database n k
      ChannelsManager.store k channel
      return channel).Honours ev.contract (fun p => Points p k n) s :=
  .bind hs (honours_makeShared hnamed) fun _ _ ht hp =>
    .bind ht.inv (honours_store hp) fun _ _ _ hp => hp

theorem honours_createOrGetChannelByName (hs : ev.Sound s) (n : String) :
    (ChannelsManager.createOrGetChannelByName WrapperPg.database n).Honours ev.contract
      (fun p t => ∃ k, Points p k n t) s := by
  have hmake {t : Server Postgres} (ht : ev.Sound t) {k : UserId}
      (hk : k ≠ 0 → t.db.db.Named k n) :
      (do
        let channel ← Channel.makeShared WrapperPg.database n k
        ChannelsManager.store k channel
        return channel).Honours ev.contract (fun p t => ∃ k, Points p k n t) t :=
    (honours_make ht hk).mono fun _ _ hp => ⟨k, hp⟩
  unfold ChannelsManager.createOrGetChannelByName
  refine .bind hs (honours_inDb (RowRules.hasChannel hs.tables WrapperPg.connected n)) ?_
  intro found t ht _
  split
  · refine .bind ht.inv (honours_inDb
      (RowRules.getChannelId (Sound.tables ht.inv) WrapperPg.connected n)) ?_
    intro k u hu hk
    refine .atomically fun v hv => ?_
    have hread : (Prog.read fun s => s.idChannels k : Prog (Server Postgres) Exn _).Honours
        ev.contract (fun known s => s.idChannels k = known) v := .read fun _ _ => rfl
    refine .bind hv.inv hread fun known x hx hknown => ?_
    have hk' : k ≠ 0 → x.db.db.Named k n := fun hne => (hk hne).later (hv.trans hx).rel.tables
    cases known with
    | none => exact hmake hx.inv hk'
    -- the registry has a channel with this id, and the id has one name
    | some p =>
      obtain ⟨c, hp, hid⟩ := Sound.registry hx.inv k p hknown
      have hnamed := (Sound.object hx.inv c (List.mem_of_getElem? hp)).named
      rw [hid] at hnamed
      exact ⟨k, c, hp, hid, hnamed.eq (hk' hnamed.ne_zero)⟩
  · refine .bind ht.inv (honours_inDb
      (RowRules.createChannel (Sound.tables ht.inv) WrapperPg.connected n)) ?_
    intro k u hu hk
    exact hmake hu.inv hk

/-! ## Members -/

/-- What a pointer is found to point to. -/
theorem honours_deref {p : ChannelPtr} {k : UserId} {n : String} (hp : Points p k n s) :
    (Channel.deref p : Prog (Server Postgres) Exn _).Honours ev.contract
      (fun found t => ∃ c, found = some c ∧ ev.Founded t.db.db c ∧ c.name = n ∧
        Points p c.id c.name t) s := by
  refine .read fun t ht => ?_
  obtain ⟨c, hc, -, hname⟩ := hp.later ht.rel
  exact ⟨c, hc, Sound.object ht.inv c (List.mem_of_getElem? hc), hname, c, hc, rfl, rfl⟩

/-- A message for the session of a client. -/
theorem honours_respond (hs : ev.Sound s) (w : World) {i : UserId} {user : User}
    (hentitled : ev.Entitled s.db.db i user) {response : Response}
    (hwarranted : ev.LoggedIn s.db.db user.session i →
      ev.Warranted s.db.db user.session response) :
    (do
      let _ ← ClientSession.write w user.session response (Protocol.serialize response)
      return ⟨⟩ : Prog (Server Postgres) Exn PUnit).Honours ev.contract (fun _ _ => True) s :=
  .bind hs (honours_write hs w (hwarranted hentitled.login) (Or.inl rfl)) fun _ _ _ _ => trivial

theorem honours_addUser (hs : ev.Sound s) (w : World) {p : ChannelPtr} {k : UserId} {n : String}
    (hp : Points p k n s) {i : UserId} (hclient : ∃ login, s.db.db.Registered i login)
    (hasked : ev.Asked (.joinRoom ⟨i, n⟩)) :
    (Channel.addUser w p i : Prog (Server Postgres) Exn PUnit).Honours ev.contract
      (fun _ _ => True) s := by
  refine .bind hs (honours_deref hp) ?_
  rintro _ t ht ⟨this, rfl, hfounded, rfl, hthis⟩
  dsimp only
  split
  · trivial
  -- the set of members may have changed since it was read; its id and its name have not
  have hset : (Prog.modify fun s : Server Postgres => { s with
      objects := s.objects.set p { this with idUsers := insert i this.idUsers } }
      : Prog (Server Postgres) Exn PUnit).Honours ev.contract (fun _ _ => True) t := by
    refine .modify fun u hu => ⟨?_, trivial⟩
    obtain ⟨c, hc, hid, hname⟩ := hthis.later hu.rel
    refine Sound.setChannel hu.inv hc hid.symm hname.symm ?_
    have hlater := hfounded.later hu.rel.tables
    refine ⟨hlater.name, hlater.named, fun i' hi' => ?_⟩
    rcases Finset.mem_insert.mp hi' with rfl | hi'
    · obtain ⟨login, hlogin⟩ := hclient
      exact ⟨⟨login, hlogin.later (ht.trans hu).rel.tables⟩, hasked.ever⟩
    · exact hlater.member i' hi'
  refine .bind ht.inv hset fun _ u hu _ => ?_
  refine .bind hu.inv (honours_getUser i) fun found v hv hfound => ?_
  cases found with
  | none => trivial
  | some user =>
    dsimp only
    split
    · exact honours_respond hv.inv w (hfound user rfl) fun hlogin => .joined i _ hlogin hasked
    · trivial

/-- Rows under the name of a channel are its messages, also when the lookup of the name fails. -/
theorem Sound.history (hs : ev.Sound s) {this : Channel} (hfounded : ev.Founded s.db.db this)
    {row : HistoryRow} (hrow : row ∈ s.db.db.history)
    (hname : row.channelName ≠ "" → s.db.db.Named this.id row.channelName) :
    ev.Sent s.db.db row ∧ row.channelName = this.name := by
  obtain ⟨⟨hne, -⟩, hsent⟩ := hs.tables.history row hrow
  exact ⟨hsent, (hname hne).eq hfounded.named⟩

theorem honours_sendHistory (hs : ev.Sound s) (w : World) {p : ChannelPtr} {k : UserId}
    {n : String} (hp : Points p k n s) {i : UserId} {since : DateTime}
    (hasked : ev.Asked (.getHistory ⟨i, n, since⟩)) :
    (Channel.sendHistory WrapperPg.database w p i since).Honours ev.contract
      (fun _ _ => True) s := by
  refine .bind hs (honours_deref hp) ?_
  rintro _ t ht ⟨this, rfl, hfounded, rfl, -⟩
  dsimp only
  split
  next hmember =>
    refine .bind ht.inv (honours_getUser i) fun found u hu hfound => ?_
    cases found with
    | none => trivial
    | some user =>
      dsimp only
      split
      · refine .bind hu.inv (honours_inDb
          (RowRules.getHistory (Sound.tables hu.inv) WrapperPg.connected this.id)) ?_
        intro messages v hv hmessages
        split
        · trivial
        · have hjoined := (hfounded.member i hmember).2
          refine honours_respond hv.inv w ((hfound user rfl).later hv.rel.tables) fun hlogin => ?_
          refine .history i _ since _ hlogin hjoined hasked ?_
          -- each message is a row of this channel, and somebody sent it
          intro m hm
          obtain ⟨row, hrow, author, rfl, hname, hauthor⟩ :=
            hmessages m (List.mem_filter.mp hm).1
          obtain ⟨hsent, hsame⟩ := Sound.history hv.inv
            (hfounded.later (hu.trans hv).rel.tables) hrow hname
          exact ⟨row, hrow, author, hsent, by rw [hsame], hsame, hauthor⟩
      · trivial
  · trivial

/-- Each member is given the message, or what is left of the vector that was moved from. -/
theorem honours_writeLoop (hs : ev.Sound s) (w : World) {request : TextRequest}
    (hasked : ev.Asked (.sendText request)) {ids : List UserId}
    (hids : ∀ i ∈ ids, ev.Joined i request.channelName) {buffer : Bytes}
    (hbuffer : buffer = Protocol.serialize (.echoResponse (QueryEngine.textMessage request)) ∨
      buffer = []) :
    (Channel.writeLoop w (QueryEngine.textMessage request) ids buffer
      : Prog (Server Postgres) Exn Bytes).Honours ev.contract (fun _ _ => True) s := by
  induction ids generalizing s buffer with
  | nil => trivial
  | cons i ids ih =>
    refine .bind hs (honours_getUser i) fun found t ht hfound => ?_
    have hrest : ∀ i ∈ ids, ev.Joined i request.channelName := fun i' hi' =>
      hids i' (List.mem_cons_of_mem i hi')
    cases found with
    | none => exact ih ht.inv hrest hbuffer
    | some user =>
      dsimp only
      split
      · have hjoined := hids i List.mem_cons_self
        refine .bind ht.inv (honours_write ht.inv w
          (.echo i request (hfound user rfl).login hjoined hasked)
          (hbuffer.imp_right fun h => ⟨h, _, rfl⟩)) ?_
        -- the session has taken the vector, or left it as it was
        rintro buffer' u hu (rfl | rfl)
        · exact ih hu.inv hrest (Or.inr rfl)
        · exact ih hu.inv hrest hbuffer
      · exact ih ht.inv hrest hbuffer

theorem honours_channelWrite (hs : ev.Sound s) (w : World) {p : ChannelPtr} {k : UserId}
    {request : TextRequest} (hp : Points p k request.channelName s)
    (hasked : ev.Asked (.sendText request)) :
    (Channel.write WrapperPg.database w p (QueryEngine.textMessage request)).Honours ev.contract
      (fun _ _ => True) s := by
  refine .bind hs (honours_deref hp) ?_
  rintro _ t ht ⟨this, rfl, hfounded, hname, -⟩
  have hids : ∀ i ∈ w.order.list this.idUsers, ev.Joined i request.channelName := by
    intro i hi
    rw [← hname]
    exact (hfounded.member i ((w.order.mem_list _ i).mp hi)).2
  refine .bind ht.inv (honours_writeLoop ht.inv w hasked hids (Or.inl rfl)) fun _ u hu _ => ?_
  refine honours_inDb (RowRules.addMsgHistory (Sound.tables hu.inv) WrapperPg.connected this.id
    ?_)
  intro db i hlater hregistered
  have hnamed := (hfounded.named.later hu.rel.tables).later hlater
  rw [hname] at hnamed
  have hne : request.channelName ≠ "" := hname ▸ hfounded.name
  exact ⟨⟨hne, _, hnamed⟩, request, hasked.ever, hregistered, rfl⟩

/-! ## Requests -/

theorem honours_reply (hs : ev.Sound s) (w : World) {session : SessionId} {response : Response}
    (hwarranted : ev.Warranted s.db.db session response) :
    (QueryEngine.reply w session response : Prog (Server Postgres) Exn PUnit).Honours ev.contract
      (fun _ _ => True) s := by
  unfold QueryEngine.reply
  split
  · exact .bind hs (honours_write hs w hwarranted (Or.inl rfl)) fun _ _ _ _ => trivial
  · trivial

theorem honours_push {data : User} (hregistered : s.db.db.Registered data.id data.login)
    (hlogin : ev.LoggedIn s.db.db data.session data.id) :
    (UserManager.push data : Prog (Server Postgres) Exn PUnit).Honours ev.contract
      (fun _ _ => True) s :=
  .modify fun _ ht => ⟨Sound.push ht.inv (hregistered.later ht.rel.tables)
    (hlogin.later ht.rel.tables), trivial⟩

theorem honours_reg (hs : ev.Sound s) (w : World) {session : SessionId}
    {request : RegistrationRequest} (hasked : ev.Asked (.reg session request)) :
    (QueryEngine.reg WrapperPg.database w session request).Honours ev.contract
      (fun _ _ => True) s := by
  refine .bind hs (honours_inDb (RowRules.checkRegUser hs.tables WrapperPg.connected _)) ?_
  intro i t ht hi
  split
  next hne =>
    have hregisters : ev.Registers t.db.db i request := by
      obtain ⟨hregistered, hrow⟩ := hi hne
      refine ⟨hregistered, hrow.imp_right ?_⟩
      rintro ⟨hfree, hrow⟩
      exact ⟨of_not_not hfree, hrow⟩
    have hlogin : ev.LoggedIn t.db.db session i := Or.inl ⟨request, hasked, hregisters⟩
    refine .bind ht.inv (honours_push hregisters.1 hlogin) fun _ u hu _ => ?_
    exact honours_reply hu.inv w
      (.registration request i hasked fun _ => hregisters.later hu.rel.tables)
  next hzero =>
    exact honours_reply ht.inv w
      (.registration request i hasked fun hne => absurd (of_not_not hzero) hne)

theorem honours_auth (hs : ev.Sound s) (w : World) {session : SessionId}
    {request : AuthorisationRequest} (hasked : ev.Asked (.auth session request)) :
    (QueryEngine.auth WrapperPg.database w session request).Honours ev.contract
      (fun _ _ => True) s := by
  refine .bind hs (honours_inDb (RowRules.checkAuthUser hs.tables WrapperPg.connected _)) ?_
  intro i t ht hi
  split
  next hne =>
    have hclient : t.db.db.HasClient i request.login request.password := hi hne
    have hlogin : ev.LoggedIn t.db.db session i := Or.inr ⟨request, hasked, hclient⟩
    refine .bind ht.inv (honours_push hclient.registered hlogin) fun _ u hu _ => ?_
    exact honours_reply hu.inv w
      (.authorisation request i hasked fun _ => hclient.later hu.rel.tables)
  · exact honours_reply ht.inv w (.authorisation request i hasked hi)

theorem honours_getChannels (hs : ev.Sound s) (w : World) {request : ChannelsRequest}
    (hasked : ev.Asked (.getChannels request)) :
    (QueryEngine.getChannels WrapperPg.database w request).Honours ev.contract
      (fun _ _ => True) s := by
  refine .bind hs (honours_getUser request.clientId) fun found t ht hfound => ?_
  cases found with
  | none =>
    dsimp only
    unfold logFormat
    split <;> trivial
  | some user =>
    dsimp only
    split
    · refine .bind ht.inv (honours_inDb
        (RowRules.getUserNameChannels (Sound.tables ht.inv) WrapperPg.connected _)) ?_
      intro names u hu hnames
      refine honours_respond hu.inv w ((hfound user rfl).later hu.rel.tables) fun hlogin => ?_
      exact .channels request.clientId names hlogin hasked hnames
    · trivial

/-- The client that is stored is the one that was found, which is the one of the request. -/
theorem honours_joinRoom (hs : ev.Sound s) (w : World) {request : JoinRoomRequest}
    (hasked : ev.Asked (.joinRoom request)) :
    (QueryEngine.joinRoom WrapperPg.database w request).Honours ev.contract
      (fun _ _ => True) s := by
  refine .bind hs (honours_createOrGetChannelByName hs _) ?_
  rintro p t ht ⟨k, hp⟩
  refine .bind ht.inv (honours_getUser request.clientId) fun found u hu hfound => ?_
  cases found with
  | none => trivial
  | some client =>
    have hentitled := hfound client rfl
    have hclient := hentitled.registered
    have hadd : (Channel.addUser w p client.id : Prog (Server Postgres) Exn PUnit).Honours
        ev.contract (fun _ _ => True) u := by
      rw [hentitled.id]
      exact honours_addUser hu.inv w (hp.later hu.rel) ⟨_, hclient⟩ hasked
    refine .bind hu.inv hadd fun _ v hv _ => ?_
    refine honours_inDb (RowRules.joinClientChannel (Sound.tables hv.inv) WrapperPg.connected ?_)
    intro db k hlater hnamed
    exact ⟨⟨_, (hclient.later hv.rel.tables).later hlater⟩, ⟨_, hasked.ever, hnamed⟩,
      fun hne => ⟨_, hnamed hne⟩⟩

/-- Every step of a request keeps the server sound, when a frame asked for it. -/
theorem honours_handle (hs : ev.Sound s) (w : World) {call : Call} (hasked : ev.Asked call) :
    (handle WrapperPg.database w call).Honours ev.contract (fun _ _ => True) s := by
  cases call with
  | reg session request => exact honours_reg hs w hasked
  | auth session request => exact honours_auth hs w hasked
  | getHistory request =>
    refine .bind hs (honours_createOrGetChannelByName hs _) ?_
    rintro p t ht ⟨k, hp⟩
    exact honours_sendHistory ht.inv w hp hasked
  | getChannels request => exact honours_getChannels hs w hasked
  | joinRoom request => exact honours_joinRoom hs w hasked
  | sendText request =>
    refine .bind hs (honours_createOrGetChannelByName hs _) ?_
    rintro p t ht ⟨k, hp⟩
    exact honours_channelWrite ht.inv w hp hasked

/-- Every step of a frame's task does. -/
theorem honours_task (a : Arrival) (s : Server Postgres) (hcame : ev.came a) (hs : ev.Sound s) :
    (WorkersPool.task a).Honours ev.contract (fun _ _ => True) s := by
  unfold WorkersPool.task
  cases hcall : a.call with
  | none =>
    rw [processRequest_of_no_call _ hcall]
    cases hanswer : a.answer with
    | none => trivial
    | some response =>
      exact .bind hs (honours_write hs _ (.mismatch a response hcame rfl hcall hanswer)
        (Or.inl rfl)) fun _ _ _ _ => trivial
  | some call =>
    rw [processRequest_of_call _ hcall, ClientSession.toEngine]
    split
    · exact honours_handle hs a.world ⟨a, hcame, hcall⟩
    · trivial

/-! ## The start -/

theorem sound_initial {d : Postgres} (hd : ev.rules.Inv d) : ev.Sound (Server.initial d) where
  tables := hd
  user _ _ hi := absurd hi (by simp [Server.initial])
  object _ hc := absurd hc List.not_mem_nil
  registry _ _ hk := absurd hk (by simp [Server.initial])
  written _ hx := absurd hx List.not_mem_nil
  queued _ htask := absurd htask List.not_mem_nil

theorem honours_createChannels (hs : ev.Sound s) {channels : List (UserId × String)}
    (hchannels : ∀ c ∈ channels, s.db.db.Named c.1 c.2) :
    (ChannelsManager.createChannels WrapperPg.database channels).Honours ev.contract
      (fun _ _ => True) s := by
  induction channels generalizing s with
  | nil => trivial
  | cons c channels ih =>
    obtain ⟨k, n⟩ := c
    refine .bind hs (honours_makeShared fun _ => hchannels _ List.mem_cons_self) ?_
    intro p t ht hp
    refine .bind ht.inv (honours_store hp) fun _ u hu _ => ?_
    refine ih hu.inv fun c hc => ?_
    exact (hchannels c (List.mem_cons_of_mem _ hc)).later (ht.trans hu).rel.tables

/-- The server is sound when it is started, also when the start fails. -/
theorem allows_start {d : Postgres} (hd : ev.rules.Inv d) :
    ev.contract.Allows (Server.initial d) (GatewayServer.start WrapperPg.database d).2 := by
  have hinitial := sound_initial hd
  have hstart : (ChannelsManager.createChannelFromDb WrapperPg.database).Honours ev.contract
      (fun _ _ => True) (Server.initial d) := by
    refine .bind hinitial (honours_inDb
      (RowRules.getCurrentChannels hinitial.tables WrapperPg.connected)) ?_
    intro channels t ht hchannels
    exact honours_createChannels ht.inv hchannels
  exact (hstart.run hinitial).1

/-- Without a frame nothing is written. -/
theorem queueTasks_start {d : Postgres} (hd : ev.rules.Inv d) (hcame : ∀ a, ¬ ev.came a) :
    (GatewayServer.start WrapperPg.database d).2.queueTasks = [] := by
  have hstart := allows_start hd
  have hnone {call : Call} (hasked : ev.Asked call) : False := by
    obtain ⟨a, ha, -⟩ := hasked
    exact hcame a ha
  refine List.eq_nil_iff_forall_not_mem.mpr fun task htask => ?_
  obtain ⟨⟨session, response, payload⟩, hx, -⟩ := hstart.inv.queued task htask
  obtain ⟨hwarranted, -⟩ := hstart.inv.written _ hx
  cases hwarranted with
  | mismatch a _ came same call answer => exact hcame a came
  | registration request i asked id => exact hnone asked
  | authorisation request i asked id => exact hnone asked
  | channels i names login asked written => exact hnone asked
  | joined i n login asked => exact hnone asked
  | echo i request login member asked => exact hnone asked
  | history i n since messages login member asked sent => exact hnone asked

end Evidence

/-! ## Runs -/

namespace WorkersPool

variable [Protocol] {ι : Type} [DecidableEq ι]

/-- A server that is started on `d`, and threads that read and run what comes. -/
def runOn (d : Postgres) (labels : List (PoolLabel ι Arrival)) : WorkersPool ι :=
  labels.foldl step (TaskPool.start (GatewayServer.start WrapperPg.database d).2)

/-- Within the contract the threads go on. -/
theorem honours_foldl {ev : Evidence} {p : WorkersPool ι}
    (h : p.Honours ev.contract task ev.came) (labels : List (PoolLabel ι Arrival))
    (hcame : ∀ job ∈ (labels.foldl step p).tasks.posted, ev.came job.data) :
    (labels.foldl step p).Honours ev.contract task ev.came ∧
      p.shared.Precedes (labels.foldl step p).shared :=
  h.foldl (fun a s => Evidence.honours_task a s) labels hcame

variable {ev : Evidence} {d : Postgres} (hd : ev.rules.Inv d)
include hd

/-- Whatever comes, whichever queries fail, and however the threads are interleaved, the server is
sound, and it does not forget. -/
theorem sound (labels : List (PoolLabel ι Arrival))
    (hcame : ∀ job ∈ (runOn d labels).tasks.posted, ev.came job.data) :
    (runOn d labels).Honours ev.contract task ev.came ∧
      (GatewayServer.start WrapperPg.database d).2.Precedes (runOn d labels).shared :=
  honours_foldl (TaskPool.honours_start (Evidence.allows_start hd).inv) labels hcame

/-- The rows that were there before the start are still there. -/
theorem precedes_runOn (labels : List (PoolLabel ι Arrival))
    (hcame : ∀ job ∈ (runOn d labels).tasks.posted, ev.came job.data) :
    d.db.Precedes (runOn d labels).shared.db.db :=
  ((Evidence.allows_start hd).rel.trans (sound hd labels hcame).2).tables

/-- What the server knew at some time of a run it knows at the end. -/
theorem precedes_append (hcame : ∀ a, ev.came a) (labels more : List (PoolLabel ι Arrival)) :
    (runOn d labels).shared.Precedes (runOn d (labels ++ more)).shared := by
  rw [runOn, runOn, List.foldl_append]
  exact (honours_foldl (sound hd labels fun _ _ => hcame _).1 more fun _ _ => hcame _).2

end WorkersPool

end GatewayServer
