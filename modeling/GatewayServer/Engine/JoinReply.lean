import GatewayServer.Engine.DurableJoins

/-!
# Who is told that it joined

`joinRoom` leaves its answer to `Channel::addUser`, which gives one to a client that was no member
of the channel yet. Whichever queries fail on the way, a join that ends without an exception is
answered on this branch only.

## Main definitions

* `Server.joinResponses` — the join responses that a request writes
* `Server.membersAsked` — the members of the channel that a join comes to

## Main results

* `named_serve` — channels in memory keep the ids and names of the tables
* `joinResponses_eq_iff` — when a join is answered
* `joinRoom_ok_iff` — while no query fails, the joins that end without an exception
-/

namespace GatewayServer

open Lib

/-- A `JoinRoomResponse`. -/
def Response.isJoinRoom : Response → Bool
  | .joinRoomResponse _ _ => true
  | _ => false

namespace Server

/-- The join responses written between `s` and `t`, with the sessions that they go to. -/
def joinResponses (s t : Server Postgres) : List (SessionId × Response) :=
  ((t.written.drop s.written.length).filter fun x => x.response.isJoinRoom).map fun x =>
    (x.session, x.response)

/-- The members of the channel that a join comes to: those in memory or, when the channel has to be
made, the subscribers in the tables unless the query for them fails. -/
def membersAsked (s : Server Postgres) (n : String) : Finset UserId :=
  match s.registry (s.db.db.channelId n) with
  | some c => c.idUsers
  | none =>
    if s.db.fails (if s.db.db.channelId n = 0 then 4 else 2) then ∅
    else (s.db.db.subscribers ((s.db.db.enter n).channelId n)).toFinset

/-- The object that a search comes to. -/
theorem Named.found_object {s : Server Postgres} (h : s.Named) (n : String) :
    ∃ this, (s.found n).2.objects[(s.found n).1]? = some this ∧ this.name = n ∧
      this.idUsers = s.membersAsked n := by
  cases hp : s.idChannels (s.db.db.channelId n) with
  | some p =>
    obtain ⟨this, hthis, hregistry⟩ := h.exists_object hp
    refine ⟨this, ?_, h.name_eq hregistry, ?_⟩
    · simp only [Server.found, hp]
      exact hthis
    · simp only [membersAsked, hregistry]
  | none =>
    have hregistry : s.registry (s.db.db.channelId n) = none := by
      rw [Server.registry, hp]
      rfl
    refine ⟨⟨n, (s.db.db.enter n).channelId n, s.membersAsked n⟩, ?_, rfl, rfl⟩
    have hfails : (s.searched n).db.fails 0 =
        s.db.fails (if s.db.db.channelId n = 0 then 4 else 2) := Postgres.fails_after ..
    -- the new channel has the members that its constructor is told
    have hmembers : (if (s.searched n).db.fails 0 then []
        else (s.searched n).db.db.subscribers ((s.db.db.enter n).channelId n)).toFinset =
          s.membersAsked n := by
      rw [hfails]
      simp only [membersAsked, hregistry]
      cases s.db.fails (if s.db.db.channelId n = 0 then 4 else 2) with
      | true => rfl
      | false => simp [searched, Database.subscribers]
    simp only [Server.found, hp, Server.made, hmembers]
    exact List.getElem?_concat_length

end Server

/-! ## What every call keeps -/

theorem keptBySteps_named :
    Server.KeptBySteps Database.Grows (fun _ => True) fun s t => s.Named → t.Named where
  refl _ := id
  db _ _ hd h := h.of_grows hd
  push _ data h := h.push data
  written _ _ _ _ _ h := ⟨h.keyed, h.valid, h.registry⟩
  queued _ _ h := ⟨h.keyed, h.valid, h.registry⟩

variable [Protocol] {s : Server Postgres}

/-- The join of a known client for whom the channel is found. -/
theorem run_joinRoom_found (h : s.Named) (w : World) (request : JoinRoomRequest)
    (hfinds : s.Finds request.channelName) {this : Channel}
    (hthis : (s.found request.channelName).2.objects[(s.found request.channelName).1]? = some this)
    {user : User} (huser : s.idClients request.clientId = some user) :
    ∃ r d, (s.found request.channelName).2.db.db.Grows d.db ∧
      (handle WrapperPg.database w (.joinRoom request)).run s =
        (r, Server.log { (s.found request.channelName).2 with
          db := d
          objects := (s.found request.channelName).2.objects.set (s.found request.channelName).1
            { this with idUsers := insert request.clientId this.idUsers } } w
          (Channel.welcome this s w request.clientId)) := by
  have hrun := ChannelsManager.run_createOrGetChannelByName_found h hfinds
  have hknown : (s.found request.channelName).2.idClients request.clientId = some user := by
    rw [Server.found_idClients, huser]
  have hgrows := (keptByQueries_grows.joinClientChannel WrapperPg.connected request.clientId
    request.channelName).run (fun _ => .refl _) (fun _ _ _ => .trans)
      (s.found request.channelName).2.db
  -- the search leaves the users alone, so the same session is welcomed
  have hwelcome : Channel.welcome this (s.found request.channelName).2 w request.clientId =
      Channel.welcome this s w request.clientId := by
    simp only [Channel.welcome, Server.liveSession_congr Server.found_idClients]
  have hjoin := QueryEngine.run_joinRoom_known w WrapperPg.database request hrun hthis hknown
    (h.keyed _ _ huser)
  rw [hwelcome] at hjoin
  exact ⟨_, _, hgrows, hjoin⟩

theorem named_serve_joinRoom (h : s.Named) (w : World) (request : JoinRoomRequest) :
    (serve WrapperPg.database s ⟨w, .joinRoom request⟩).Named := by
  by_cases hfinds : s.Finds request.channelName
  · cases huser : s.idClients request.clientId with
    | none =>
      have hrun := ChannelsManager.run_createOrGetChannelByName_found h hfinds
      rw [QueryEngine.serve_joinRoom_unknown w request hrun (by rw [Server.found_idClients, huser])]
      exact h.found
    | some user =>
      obtain ⟨this, hthis, -, -⟩ := h.found_object request.channelName
      obtain ⟨r, d, hgrows, hrun⟩ := run_joinRoom_found h w request hfinds hthis huser
      rw [serve, hrun]
      exact ((h.found.of_grows hgrows).setMembers h.found_pointer hthis _).log w _
  · obtain ⟨e, d, hrun, htables⟩ :=
      ChannelsManager.run_createOrGetChannelByName_not_finds h hfinds
    rw [serve, handle, QueryEngine.joinRoom, Prog.run_bind_error hrun]
    exact h.of_grows (htables ▸ s.grows_tablesSearched _)

/-- Whichever queries fail, channels in memory keep the ids and names of the tables. -/
theorem named_serve (h : s.Named) (e : Event) : (serve WrapperPg.database s e).Named := by
  refine serve_keeps keptBySteps_named (fun _ => id) (fun _ _ hs => hs.found) h e ?_
  rintro request hcall
  obtain ⟨w, call⟩ := e
  obtain rfl : call = .joinRoom request := hcall
  exact named_serve_joinRoom h w request

theorem named_foldl_serve (h : s.Named) (events : List Event) :
    (events.foldl (serve WrapperPg.database) s).Named :=
  List.foldlRecOn events (serve WrapperPg.database) h fun _ hs e _ => named_serve hs e

/-! ## The answer -/

/-- A join that ends without an exception has come to its channel. -/
theorem finds_of_joinRoom_ok (h : s.Named) {w : World} {request : JoinRoomRequest}
    (hok : ((handle WrapperPg.database w (.joinRoom request)).run s).1 = .ok ⟨⟩) :
    s.Finds request.channelName := by
  by_contra hfinds
  obtain ⟨e, d, hrun, -⟩ := ChannelsManager.run_createOrGetChannelByName_not_finds h hfinds
  rw [handle, QueryEngine.joinRoom, Prog.run_bind_error hrun] at hok
  exact absurd hok (by simp)

/-- The join responses of a known client whose session is alive. -/
theorem joinResponses_joinRoom (h : s.Named) {w : World} {request : JoinRoomRequest}
    (hfinds : s.Finds request.channelName) {user : User}
    (huser : s.idClients request.clientId = some user) (halive : w.alive user.session = true) :
    s.joinResponses (serve WrapperPg.database s ⟨w, .joinRoom request⟩) =
      if request.clientId ∈ s.membersAsked request.channelName then []
      else [(user.session, .joinRoomResponse request.channelName true)] := by
  obtain ⟨this, hthis, hname, hmembers⟩ := h.found_object request.channelName
  obtain ⟨r, d, -, hrun⟩ := run_joinRoom_found h w request hfinds hthis huser
  have hlive : s.liveSession w request.clientId = some user.session := by
    simp [Server.liveSession, huser, halive]
  rw [serve, hrun, Server.joinResponses, Server.log_written, Server.found_written,
    List.drop_left, Channel.welcome, hlive, hmembers, hname]
  by_cases hmember : request.clientId ∈ s.membersAsked request.channelName
  · simp [hmember]
  · simp [hmember, Response.isJoinRoom]

/-- On a server that is started on any tables, and whichever queries have failed, a join of a known
client with a live session that ends without an exception is answered exactly when the client is
not a member of the channel yet. -/
theorem joinResponses_eq_iff (d : Postgres) (events : List Event) (w : World)
    (request : JoinRoomRequest) (user : User) :
    let s := events.foldl (serve WrapperPg.database) (start WrapperPg.database d).2
    request.channelName ≠ "" → s.idClients request.clientId = some user →
      w.alive user.session = true →
      ((handle WrapperPg.database w (.joinRoom request)).run s).1 = .ok ⟨⟩ →
      (s.joinResponses (serve WrapperPg.database s ⟨w, .joinRoom request⟩) =
          [(user.session, .joinRoomResponse request.channelName true)] ↔
        request.clientId ∉ s.membersAsked request.channelName) := by
  intro s _ huser halive hok
  have h : s.Named := named_foldl_serve (backed_start d).named events
  rw [joinResponses_joinRoom h (finds_of_joinRoom_ok h hok) huser halive]
  split
  · next hmember => simp [hmember]
  · next hmember => simp [hmember]

omit [Protocol] in
/-- Ann joins a channel, and joins it again: the second join ends without an exception and is not
answered. -/
theorem joinRoom_again_not_answered :
    letI := Protocol.oneByte
    let s := annRegistersAndJoins.foldl (serve WrapperPg.database)
      (start WrapperPg.database emptyTables).2
    (∃ user, s.idClients 1 = some user ∧ World.calm.alive user.session = true) ∧
      ((handle WrapperPg.database .calm (.joinRoom ⟨1, "room"⟩)).run s).1 = .ok ⟨⟩ ∧
      s.joinResponses (serve WrapperPg.database s ⟨.calm, .joinRoom ⟨1, "room"⟩⟩) = [] := by
  let _ := Protocol.oneByte
  refine ⟨⟨⟨1, "ann", "a", 1⟩, by decide +kernel, rfl⟩, ?_, ?_⟩
  · decide +kernel
  · decide +kernel

omit [Protocol] in
/-- The `INSERT` of her join fails, which lets it end without an exception: it is answered. -/
theorem joinRoom_answered_failed_insert :
    letI := Protocol.oneByte
    let s := [⟨.calm, .reg 1 ⟨"ann", "a"⟩⟩].foldl (serve WrapperPg.database)
      (start WrapperPg.database { db := .empty, faults := List.replicate 11 false ++ [true] }).2
    s.joinResponses (serve WrapperPg.database s ⟨.calm, .joinRoom ⟨1, "room"⟩⟩) =
      [(1, .joinRoomResponse "room" true)] := by
  let _ := Protocol.oneByte
  refine (joinResponses_eq_iff _ _ .calm ⟨1, "room"⟩ ⟨1, "ann", "a", 1⟩ (by decide) ?_ rfl
    ?_).mpr ?_
  · decide +kernel
  · decide +kernel
  · decide +kernel

/-- While no query fails, the log line after the `INSERT` throws. So a join ends without an
exception when the client is a member already, which is when nobody answers it. -/
theorem joinRoom_ok_iff (h : s.Coherent) (w : World) {request : JoinRoomRequest}
    (hne : request.channelName ≠ "") {user : User}
    (huser : s.idClients request.clientId = some user) :
    ((handle WrapperPg.database w (.joinRoom request)).run s).1 = .ok ⟨⟩ ↔
      request.clientId ∈ s.membersAsked request.channelName := by
  obtain ⟨p, this, t, hrun, hcoherent, henters, -, -, hthis, -, hmembers⟩ :=
    QueryEngine.exists_channel h hne
  have hasked : this.idUsers = s.membersAsked request.channelName := by
    have hfinds : s.Finds request.channelName := by
      by_contra hnot
      obtain ⟨e, d, herror, -⟩ :=
        ChannelsManager.run_createOrGetChannelByName_not_finds h.named hnot
      exact absurd (congrArg Prod.fst (hrun.symm.trans herror)) (by simp)
    have hfound := hrun.symm.trans
      (ChannelsManager.run_createOrGetChannelByName_found h.named hfinds)
    obtain ⟨rfl, rfl⟩ : p = (s.found request.channelName).1 ∧
        t = (s.found request.channelName).2 := by simpa using hfound
    obtain ⟨this', hthis', -, hmembers'⟩ := h.named.found_object request.channelName
    obtain rfl := Option.some.inj (hthis.symm.trans hthis')
    exact hmembers'
  have hknown : t.idClients request.clientId = some user := by rw [henters.idClients, huser]
  rw [← hasked, hmembers, handle, QueryEngine.run_joinRoom_known w WrapperPg.database request hrun
    hthis hknown (hcoherent.keyed _ _ hknown)]
  -- with the row nothing is inserted, and it is after an `INSERT` that the format throws
  by_cases hmem : ⟨request.clientId, t.db.db.channelId request.channelName⟩ ∈
      t.db.db.subscriptions
  · have hjoin := WrapperPg.run_joinClientChannel_member hcoherent.faults hmem
    simp [hjoin, hmem]
  · have hjoin := WrapperPg.run_joinClientChannel_new hcoherent.faults hmem
    simp [hjoin, hmem]

omit [Protocol] in
/-- Ann joins her channel a second time. -/
theorem joinRoom_ok_iff_annJoins :
    letI := Protocol.oneByte
    ((handle WrapperPg.database .calm (.joinRoom ⟨1, "room"⟩)).run
        (runFrom emptyTables annJoins)).1 = .ok ⟨⟩ ↔
      1 ∈ (runFrom emptyTables annJoins).membersAsked "room" := by
  let _ := Protocol.oneByte
  have hcoherent : (runFrom emptyTables annJoins).Coherent :=
    runFrom_coherent rfl emptyTables_names annJoins
  have huser : (runFrom emptyTables annJoins).idClients 1 = some ⟨10, "ann", "a", 1⟩ := by
    decide +kernel
  generalize runFrom emptyTables annJoins = s at *
  have hne : (⟨1, "room"⟩ : JoinRoomRequest).channelName ≠ "" := by decide
  exact joinRoom_ok_iff hcoherent .calm hne huser

end GatewayServer
