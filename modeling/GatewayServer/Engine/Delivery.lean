import GatewayServer.Engine.Restart
import GatewayServer.Lib.Run

/-!
# Who receives the messages of a channel

Messages go from a channel to client ids and from a client id to the session it was last bound
to. Over whole runs of requests, whatever ids and names they carry, a message of a channel only
reaches a session that a subscriber has proved itself on last.

## Main definitions

* `BoundTo` — the last registration or authentication for a client gave it to a session
* `writtenBy` — the writes of one request

## Main results

* `user_boundTo` — the session of a user is the one it is bound to
* `delivered_to_bound_subscriber` — messages of a channel go to the sessions of its subscribers
-/

namespace GatewayServer

open Lib

variable [Protocol]

/-- In the run of `events`, `i` was given to `session`, and to no other session since. -/
def BoundTo (d : Postgres) (events : List Event) (i : UserId) (session : SessionId) : Prop :=
  Since (serve WrapperPg.database) (fun s e => s.db.db.Binds i session e.call)
    (fun s e => ∀ session', s.db.db.Binds i session' e.call → session' = session)
    (start WrapperPg.database d).2 events

/-- The session that a user object has is the one its client is bound to. -/
theorem user_boundTo {d : Postgres} (faults : d.faults = [])
    (hnames : ∀ r ∈ d.db.channels.rows, r.data ≠ "") (events : List Event) {i : UserId}
    {user : User} (huser : (runFrom d events).idClients i = some user) :
    BoundTo d events i user.session := by
  -- the last request decides: it gives `i` to the session, or leaves it where it was
  induction events using List.reverseRecOn generalizing user with
  | nil =>
    obtain ⟨s, hstart, -, -, hnone, -⟩ := start_coherent faults hnames
    simp [runFrom, hstart, hnone] at huser
  | append_singleton events e ih =>
    have hserved := served (runFrom_coherent faults hnames events) e
    have hstep : runFrom d (events ++ [e]) = serve WrapperPg.database (runFrom d events) e := by
      simp [runFrom]
    rw [hstep] at huser
    rcases hserved.users i with ⟨hsame, hnone⟩ | ⟨known, hknown, hbinds⟩
    · -- the request gives `i` to nobody
      rw [hsame] at huser
      exact (ih huser).append fun session' hbind => absurd hbind (hnone session')
    · obtain rfl : known = user := Option.some.inj (hknown.symm.trans huser)
      exact Since.last hbinds

/-- The writes of a request served in `s`. -/
def writtenBy (s : Server Postgres) (e : Event) : List Write :=
  (serve WrapperPg.database s e).written.drop s.written.length

/-- Whenever a message of a channel is written, an echo or a history, it is to a session that is
bound to a client who subscribes to the channel. -/
theorem delivered_to_bound_subscriber {d : Postgres} (faults : d.faults = [])
    (hnames : ∀ r ∈ d.db.channels.rows, r.data ≠ "") (events : List Event) (e : Event) {x : Write}
    (hx : x ∈ writtenBy (runFrom d events) e) {n : String}
    (hn : x.response.messageChannel = some n) :
    ∃ c i, ⟨c, n⟩ ∈ (runFrom d (events ++ [e])).db.db.channels.rows ∧
      c = (runFrom d (events ++ [e])).db.db.channelId n ∧
      ⟨i, c⟩ ∈ (runFrom d events).db.db.subscriptions ∧
      ⟨i, c⟩ ∈ (runFrom d (events ++ [e])).db.db.subscriptions ∧
      BoundTo d events i x.session := by
  have hserved := served (runFrom_coherent faults hnames events) e
  have hstep : runFrom d (events ++ [e]) = serve WrapperPg.database (runFrom d events) e := by
    simp [runFrom]
  obtain ⟨new, hwritten, hnew⟩ := hserved.written
  have hmem : x ∈ new := by simpa [writtenBy, hwritten] using hx
  -- what the request writes for a channel goes to a live member's session
  obtain ⟨hid, hsubs, i, hsub, hlive⟩ := hnew x hmem n hn
  obtain ⟨user, huser, -, hsession⟩ := Server.liveSession_eq_some hlive
  have hbound := user_boundTo faults hnames events huser
  rw [hsession] at hbound
  rw [hstep]
  exact ⟨_, i, Database.row_of_channelId hid, rfl, hsub, hsubs ▸ hsub, hbound⟩

omit [Protocol] in
/-- The echo of a message to the one member of a channel. -/
theorem delivered_to_bound_subscriber_echo :
    letI := Protocol.oneByte
    ∃ c i, ⟨i, c⟩ ∈ (runFrom emptyTables annJoins).db.db.subscriptions ∧
      BoundTo emptyTables annJoins i 10 := by
  have hx : (⟨10, .echoResponse Channel.greeting, [1]⟩ : Write) ∈
      @writtenBy Protocol.oneByte (@runFrom Protocol.oneByte emptyTables annJoins)
        ⟨.calm, .sendText ⟨"ann", "room", "hello", Channel.greeting.dt⟩⟩ := by decide +kernel
  have hdelivered := @delivered_to_bound_subscriber Protocol.oneByte emptyTables rfl
    emptyTables_names annJoins _ _ hx "room" rfl
  obtain ⟨c, i, hall⟩ := hdelivered
  exact ⟨c, i, hall.2.2.1, hall.2.2.2.2⟩

end GatewayServer
