import GatewayServer.Engine.Delivery
import GatewayServer.Engine.Records

/-!
# The channel list of a client

A client that asks for its channels is answered from `history`, while joining enters it into
`subscriptions`. The answer is right when the client has written to the channels that it has
joined and to no others.

## Main definitions

* `ListsJoined` — a client is sent the names of the channels it has joined, each once

## Main results

* `listsJoined_iff` — when the list of a client is right
* `not_listsJoined_annJoins` — a channel that is joined and not listed
-/

namespace GatewayServer

open Lib

variable [Protocol]

/-- A client that asks for its channels is sent the names of those it has joined, each once. -/
def ListsJoined (s : Server Postgres) (i : UserId) : Prop :=
  ∀ w, ∀ x ∈ writtenBy s ⟨w, .getChannels ⟨i⟩⟩, ∃ channels,
    x.response = .channelsResponse channels ∧ channels.Nodup ∧
      ∀ n, n ∈ channels ↔ s.db.db.Joined i n

theorem writtenBy_getChannels {s : Server Postgres} (h : s.Coherent) (w : World) (i : UserId) :
    writtenBy s ⟨w, .getChannels ⟨i⟩⟩ = QueryEngine.channelsFor s w i := by
  rw [writtenBy, QueryEngine.serve_getChannels h, Server.log_written, List.drop_left]

omit [Protocol] in
/-- The names that are listed are those of the client's rows in `history`. -/
theorem mem_listed_iff (db : Database) (i : UserId) (n : String) :
    n ∈ ((db.history.filter fun row => row.clientId = i).map HistoryRow.channelName).dedup ↔
      db.Wrote i n := by
  simp only [List.mem_dedup, List.mem_map, List.mem_filter, decide_eq_true_eq, Database.Wrote]
  constructor
  · rintro ⟨row, ⟨hrow, hi⟩, hn⟩
    exact ⟨row, hrow, hi, hn⟩
  · rintro ⟨row, hrow, hi, hn⟩
    exact ⟨row, ⟨hrow, hi⟩, hn⟩

/-- In one state: the tables `history` and `subscriptions` name the same channels. -/
theorem listsJoined_iff_wrote {s : Server Postgres} (h : s.Coherent) (i : UserId) :
    ListsJoined s i ↔
      s.idClients i = none ∨ ∀ n, s.db.db.Wrote i n ↔ s.db.db.Joined i n := by
  constructor
  · intro hlists
    cases huser : s.idClients i with
    | none => exact Or.inl rfl
    | some user =>
      -- in the calm world the session is alive, and the list is sent
      have hlive : s.liveSession .calm i = some user.session := by
        simp [Server.liveSession, huser, World.calm]
      have hwritten := writtenBy_getChannels h .calm i
      rw [QueryEngine.channelsFor, hlive] at hwritten
      obtain ⟨channels, hresponse, -, hmem⟩ :=
        hlists .calm _ (by rw [hwritten]; exact List.mem_cons_self)
      obtain rfl := Response.channelsResponse.inj hresponse
      refine Or.inr fun n => ?_
      rw [← hmem, mem_listed_iff]
  · intro hagree w x hx
    rw [writtenBy_getChannels h, QueryEngine.channelsFor] at hx
    cases hlive : s.liveSession w i with
    | none => simp [hlive] at hx
    | some session =>
      obtain ⟨user, huser, -⟩ := Server.liveSession_eq_some hlive
      have hagree : ∀ n, s.db.db.Wrote i n ↔ s.db.db.Joined i n := by
        rcases hagree with hnone | hagree
        · exact absurd (huser.symm.trans hnone) (by simp)
        · exact hagree
      obtain rfl : x = _ := by simpa [hlive] using hx
      refine ⟨_, rfl, List.nodup_dedup _, ?_⟩
      intro n
      rw [mem_listed_iff, hagree]

/-- After any requests, the list of a client is right exactly when nobody has logged in as this
client, or the texts stored under it and its joins are for the same channels. -/
theorem listsJoined_iff {d : Postgres} (faults : d.faults = [])
    (hnames : ∀ r ∈ d.db.channels.rows, r.data ≠ "") (hsubs : d.db.Subscribed)
    (events : List Event) (i : UserId) :
    ListsJoined (runFrom d events) i ↔
      (runFrom d events).idClients i = none ∨
        ∀ n, PostedIn d events i n ↔ JoinedIn d events i n := by
  rw [listsJoined_iff_wrote (runFrom_coherent faults hnames events)]
  simp only [wrote_iff_postedIn faults hnames, joined_iff_joinedIn faults hnames events _ _ hsubs]

/-- A user who registers, joins a channel and writes to it. -/
def annWrites : List Event :=
  annJoins ++ [⟨.calm, .sendText ⟨"ann", "room", "hello", Channel.greeting.dt⟩⟩]

omit [Protocol] in
theorem listsJoined_iff_annWrites :
    letI := Protocol.oneByte
    ListsJoined (runFrom emptyTables annWrites) 1 := by
  let _ := Protocol.oneByte
  apply (listsJoined_iff rfl emptyTables_names emptyTables_subscribed annWrites 1).mpr
  refine Or.inr fun n => ?_
  rw [← wrote_iff_postedIn rfl emptyTables_names,
    ← joined_iff_joinedIn rfl emptyTables_names annWrites _ _ emptyTables_subscribed]
  have hhistory : (runFrom emptyTables annWrites).db.db.history =
      [⟨1, "room", timestampText Channel.greeting.dt, "hello"⟩] := by decide +kernel
  have hpairs : (runFrom emptyTables annWrites).db.db.subscriptions = [⟨1, 1⟩] := by
    decide +kernel
  have hname : (runFrom emptyTables annWrites).db.db.channels.lookup 1 = some "room" := by
    decide +kernel
  simp [Database.Wrote, Database.Joined, hhistory, hpairs, ← SerialTable.lookup_eq_some_iff, hname]

omit [Protocol] in
/-- A user who has joined a channel and not written to it is sent an empty list. -/
theorem not_listsJoined_annJoins :
    letI := Protocol.oneByte
    ¬ ∀ (events : List Event) (i : UserId), ListsJoined (runFrom emptyTables events) i := by
  let _ := Protocol.oneByte
  intro hall
  have hlists := hall annJoins 1
  have hx : (⟨10, .channelsResponse [], [1]⟩ : Write) ∈
      writtenBy (runFrom emptyTables annJoins) ⟨.calm, .getChannels ⟨1⟩⟩ := by decide +kernel
  have hpair : ⟨1, 1⟩ ∈ (runFrom emptyTables annJoins).db.db.subscriptions := by
    decide +kernel
  have hname : (runFrom emptyTables annJoins).db.db.channels.lookup 1 = some "room" := by
    decide +kernel
  generalize runFrom emptyTables annJoins = s at hlists hx hpair hname
  obtain ⟨channels, hresponse, -, hmem⟩ := hlists .calm _ hx
  have hjoined : s.db.db.Joined 1 "room" := ⟨1, hpair, SerialTable.lookup_eq_some_iff.mp hname⟩
  rw [← hmem, ← Response.channelsResponse.inj hresponse] at hjoined
  exact absurd hjoined List.not_mem_nil

end GatewayServer
