import GatewayServer.Channels.Channel
import GatewayServer.Database.WrapperPg
import Mathlib.Data.Finset.Card

/-!
# What a broadcast hands to the members

`Channel::write` serializes the message once and gives the same vector to every session. The
first session moves the bytes into its task; the sessions after it are given what is left.

## Main definitions

* `Channel.liveMembers` — the members that are served
* `Channel.handed` — the writes of the loop of `Channel::write`
* `Channel.ServesEveryMember` — every served member gets the serialized message once

## Main results

* `run_writeLoop` — the loop makes the writes `handed`
* `handed_eq` — only the first of them carries the buffer
* `run_write` — the whole of `Channel::write`
* `servesEveryMember_write_iff` — everyone is served right when at most one member is served
-/

namespace GatewayServer

open Lib

variable {δ : Type}

namespace Channel

/-- The members that the `UserManager` knows and whose session is alive. -/
def liveMembers (this : Channel) (s : Server δ) (w : World) : Finset UserId :=
  this.idUsers.filter fun id => (s.liveSession w id).isSome

/-- The writes that the loop of `Channel::write` makes with what is in its buffer. -/
def handed (s : Server δ) (w : World) (message : ClientTextMsg) :
    List UserId → Bytes → List Write
  | [], _ => []
  | id :: ids, buffer =>
    match s.liveSession w id with
    | some session =>
      ⟨session, .echoResponse message, buffer⟩ :: handed s w message ids (w.leftover buffer)
    | none => handed s w message ids buffer

/-- Nothing that the loop changes decides whom it serves. -/
theorem handed_congr {s t : Server δ} (h : t.idClients = s.idClients) (w : World)
    (message : ClientTextMsg) (ids : List UserId) (buffer : Bytes) :
    handed t w message ids buffer = handed s w message ids buffer := by
  induction ids generalizing buffer with
  | nil => rfl
  | cons id ids ih => simp only [handed, Server.liveSession_congr h, ih]

/-- Every write of the loop is the echo, to the live session of a member. -/
theorem mem_handed {s : Server δ} {w : World} {message : ClientTextMsg} {ids : List UserId}
    {buffer : Bytes} {x : Write} (hx : x ∈ handed s w message ids buffer) :
    x.response = .echoResponse message ∧ ∃ id ∈ ids, s.liveSession w id = some x.session := by
  induction ids generalizing buffer with
  | nil => exact absurd hx List.not_mem_nil
  | cons id ids ih =>
    simp only [handed] at hx
    split at hx
    · next session hlive =>
      rcases List.mem_cons.mp hx with rfl | hx
      · exact ⟨rfl, id, List.mem_cons_self, hlive⟩
      · obtain ⟨hresponse, id', hid', hlive'⟩ := ih hx
        exact ⟨hresponse, id', List.mem_cons_of_mem id hid', hlive'⟩
    · obtain ⟨hresponse, id', hid', hlive'⟩ := ih hx
      exact ⟨hresponse, id', List.mem_cons_of_mem id hid', hlive'⟩

/-- Whoever comes up in the loop and is online is written to. -/
theorem exists_mem_handed {s : Server δ} {w : World} {message : ClientTextMsg}
    {ids : List UserId} {buffer : Bytes} {id : UserId} (hid : id ∈ ids) {session : SessionId}
    (hlive : s.liveSession w id = some session) :
    ∃ x ∈ handed s w message ids buffer,
      x.session = session ∧ x.response = .echoResponse message := by
  induction ids generalizing buffer with
  | nil => exact absurd hid List.not_mem_nil
  | cons id' ids ih =>
    simp only [handed]
    rcases List.mem_cons.mp hid with rfl | hid
    · rw [hlive]
      exact ⟨_, List.mem_cons_self, rfl, rfl⟩
    · cases s.liveSession w id' with
      | none => exact ih hid
      | some session' =>
        obtain ⟨x, hx, hsession, hresponse⟩ := @ih (w.leftover buffer) hid
        exact ⟨x, List.mem_cons_of_mem _ hx, hsession, hresponse⟩

/-- The loop makes the writes `handed` and nothing else. -/
theorem run_writeLoop (w : World) (message : ClientTextMsg) (ids : List UserId)
    (buffer : Bytes) (s : Server δ) :
    ∃ left, (writeLoop w message ids buffer).run s =
      (.ok left, s.log w (handed s w message ids buffer)) := by
  induction ids generalizing buffer s with
  | nil => exact ⟨buffer, by simp [writeLoop, handed]⟩
  | cons id ids ih =>
    -- a member who is unknown or offline is passed over with the buffer as it is
    cases huser : s.idClients id with
    | none =>
      have hlive : s.liveSession w id = none := by simp only [Server.liveSession, huser]
      obtain ⟨left, hrun⟩ := ih buffer s
      refine ⟨left, ?_⟩
      simp only [writeLoop, UserManager.getUser, Prog.run_bind, Prog.run_read, huser, hrun,
        handed, hlive]
    | some user =>
      by_cases halive : w.alive user.session = true
      · have hlive : s.liveSession w id = some user.session := by
          simp only [Server.liveSession, huser, halive, if_true]
        -- the members that follow are served from what this write leaves
        obtain ⟨left, hrun⟩ := ih (w.leftover buffer)
          (s.log w [⟨user.session, .echoResponse message, buffer⟩])
        rw [Server.log_log, handed_congr (Server.log_idClients _ _ _)] at hrun
        refine ⟨left, ?_⟩
        simp only [writeLoop, UserManager.getUser, Prog.run_bind, Prog.run_read, huser, halive,
          if_true, ClientSession.run_write, hrun, handed, hlive, List.cons_append,
          List.nil_append]
      · have hlive : s.liveSession w id = none := by
          simp only [Server.liveSession, huser, if_neg halive]
        obtain ⟨left, hrun⟩ := ih buffer s
        refine ⟨left, ?_⟩
        simp only [writeLoop, UserManager.getUser, Prog.run_bind, Prog.run_read, huser,
          if_neg halive, hrun, handed, hlive]

/-- The sessions that the loop serves, in iteration order. -/
def servedSessions (s : Server δ) (w : World) (ids : List UserId) : List SessionId :=
  ids.filterMap (s.liveSession w)

/-- While the queue is alive, the first session is handed the buffer and every later one an
empty vector. -/
theorem handed_eq {w : World} (hqueue : w.queueAlive = true) (s : Server δ)
    (message : ClientTextMsg) (ids : List UserId) (buffer : Bytes) :
    handed s w message ids buffer =
      match servedSessions s w ids with
      | [] => []
      | session :: sessions =>
        ⟨session, .echoResponse message, buffer⟩ ::
          sessions.map fun session => ⟨session, .echoResponse message, []⟩ := by
  -- the task that is pushed takes the bytes with it
  have hleft : ∀ buffer, w.leftover buffer = [] := fun _ => if_pos hqueue
  induction ids generalizing buffer with
  | nil => rfl
  | cons id ids ih =>
    cases hlive : s.liveSession w id with
    | none =>
      have hserved : servedSessions s w (id :: ids) = servedSessions s w ids := by
        simp [servedSessions, hlive]
      simp only [handed, hlive, ih, hserved]
    | some session =>
      have hserved : servedSessions s w (id :: ids) = session :: servedSessions s w ids := by
        simp [servedSessions, hlive]
      simp only [handed, hlive, ih, hserved, hleft]
      cases servedSessions s w ids <;> rfl

/-- One session is served for each live member, whatever the iteration order. -/
theorem length_servedSessions (this : Channel) (s : Server δ) (w : World) :
    (servedSessions s w (w.order.list this.idUsers)).length = (this.liveMembers s w).card := by
  have hset : ((w.order.list this.idUsers).filter fun id => (s.liveSession w id).isSome).toFinset =
      this.liveMembers s w := by
    ext id
    simp [liveMembers, w.order.mem_list]
  -- each live member comes up once in the iteration
  rw [← hset, List.toFinset_card_of_nodup ((w.order.nodup _).filter _), servedSessions,
    List.length_filterMap_eq_countP, List.countP_eq_length_filter]

variable [Protocol]

/-- Between `s` and `t` every live member's session was handed one payload for that member, the
serialized message, and nothing else was written. -/
def ServesEveryMember (this : Channel) (w : World) (message : ClientTextMsg)
    (s t : Server δ) : Prop :=
  ∃ new, t.written = s.written ++ new ∧
    new.Perm ((servedSessions s w (w.order.list this.idUsers)).map fun session =>
      ⟨session, .echoResponse message, Protocol.serialize (.echoResponse message)⟩)

/-- `Channel::write` makes the writes of its loop and then stores the message. -/
theorem run_write (db : IDatabase δ) (w : World) {s : Server δ} {channel : ChannelPtr}
    {this : Channel} (hthis : s.objects[channel]? = some this) (message : ClientTextMsg) :
    (write db w channel message).run s =
      (Server.inDb (db.addMsgHistory this.id message)).run
        (s.log w (handed s w message (w.order.list this.idUsers)
          (Protocol.serialize (.echoResponse message)))) := by
  obtain ⟨left, hrun⟩ := run_writeLoop w message (w.order.list this.idUsers)
    (Protocol.serialize (.echoResponse message)) s
  rw [write, Prog.run_bind_ok (run_deref hthis)]
  simp only [Prog.run_bind_ok hrun]

/-- Everyone is served right exactly when there is at most one member to serve. -/
theorem servesEveryMember_write_iff (nonempty : ∀ r, Protocol.serialize r ≠ [])
    (db : IDatabase δ) {w : World} (hqueue : w.queueAlive = true) {s : Server δ}
    {channel : ChannelPtr} {this : Channel} (hthis : s.objects[channel]? = some this)
    (message : ClientTextMsg) :
    this.ServesEveryMember w message s ((write db w channel message).run s).2 ↔
      (this.liveMembers s w).card ≤ 1 := by
  rw [ServesEveryMember, run_write db w hthis, Server.run_inDb, Server.log_written,
    ← length_servedSessions, handed_eq hqueue]
  cases servedSessions s w (w.order.list this.idUsers) with
  | nil => simp
  | cons first rest =>
    cases rest with
    | nil => simp
    | cons second rest =>
      simp only [List.append_cancel_left_eq, exists_eq_left', List.length_cons]
      constructor
      · intro hperm
        -- the second payload is empty, and so not the serialized message
        have hmem := hperm.subset (List.mem_cons_of_mem _ List.mem_cons_self)
        obtain ⟨session, -, heq⟩ := List.mem_map.mp hmem
        exact absurd (congrArg Write.payload heq) (nonempty _)
      · intro hlength
        omega

/-! ## A channel with one member and one with two -/

/-- A message for the channels below. -/
def greeting : ClientTextMsg := ⟨"ann", "hello", "room", ⟨⟨0, 0, 12⟩, ⟨1, 6, 2021⟩⟩⟩

/-- A server with two users and one channel, whose members are given. -/
def withMembers (idUsers : Finset UserId) : Server Postgres :=
  { Server.initial { db := .empty } with
    idClients := fun id =>
      if id = 1 then some ⟨10, "ann", "a", 1⟩
      else if id = 2 then some ⟨20, "bob", "b", 2⟩
      else none
    objects := [⟨"room", 1, idUsers⟩] }

omit [Protocol] in
theorem servesEveryMember_write_iff_one_member :
    letI := Protocol.oneByte
    (⟨"room", 1, {1}⟩ : Channel).ServesEveryMember World.calm greeting (withMembers {1})
        ((write WrapperPg.database World.calm 0 greeting).run (withMembers {1})).2 ↔
      ((⟨"room", 1, {1}⟩ : Channel).liveMembers (withMembers {1}) World.calm).card ≤ 1 :=
  letI := Protocol.oneByte
  servesEveryMember_write_iff (by intro r; exact List.cons_ne_nil _ _) WrapperPg.database rfl rfl
    greeting

omit [Protocol] in
/-- Of two members who are online, the second is handed an empty payload. -/
theorem not_servesEveryMember_two_members :
    letI := Protocol.oneByte
    ¬ (⟨"room", 1, {1, 2}⟩ : Channel).ServesEveryMember World.calm greeting (withMembers {1, 2})
        ((write WrapperPg.database World.calm 0 greeting).run (withMembers {1, 2})).2 := by
  let _ := Protocol.oneByte
  rintro ⟨new, hnew, hperm⟩
  have hwritten : ((write WrapperPg.database World.calm 0 greeting).run
      (withMembers {1, 2})).2.written =
      [⟨10, .echoResponse greeting, [1]⟩, ⟨20, .echoResponse greeting, []⟩] := by decide
  rw [hwritten] at hnew
  obtain rfl : _ = new := hnew
  have hmem := hperm.subset (List.mem_cons_of_mem _ List.mem_cons_self)
  obtain ⟨session, -, heq⟩ := List.mem_map.mp hmem
  exact absurd (congrArg Write.payload heq) (List.cons_ne_nil _ _)

end Channel

end GatewayServer
