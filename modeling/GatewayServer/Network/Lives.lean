import GatewayServer.Network.Soundness

/-!
# Lives of a server

A server is started on the tables that the last one left, runs until it is cut off somewhere, and
leaves its tables to the next one. What is written in a life goes back to the frames that came in
it, and by way of the tables to those that came before it. Logins are of the life alone.

## Main definitions

* `Life` — which queries fail, and what the threads do until the end
* `Past`, `Past.after` — the tables and the frames of some lives
* `Past.evidenceOf` — what a life may go by
* `pastOf` — what some lives leave that begin with empty tables
* `Repeats` — a message is one that was sent

## Main results

* `warranted_pastOf` — what is written in a life has its warrant in what the life may go by
* `confined` — the messages of a channel go to clients that joined it
* `authentic` — every message that is written was sent
* `entitled_pastOf`, `founded_pastOf` — the users and the channels in memory are those of the tables
* `remembered`, `precedes_pastOf` — what a server knows it does not forget, and rows stay
* `referenced_pastOf` — the references between the tables hold after any number of lives
-/

namespace GatewayServer

open Lib

namespace Evidence

variable {ev ev' : Evidence} {db : Database}

/-- Whatever may come, and whichever queries fail. -/
abbrev anyFrames (d : Database) : Evidence := ⟨d, fun _ => True, fun _ => True, True⟩

theorem EverAsked.mono {call : Call} (h : ev.EverAsked call)
    (hever : ∀ a, ev.earlier a ∨ ev.came a → ev'.earlier a ∨ ev'.came a) :
    ev'.EverAsked call := by
  obtain ⟨a, ha, hcall⟩ := h
  exact ⟨a, hever a ha, hcall⟩

/-- In what life the frames came that account for the rows makes no difference. -/
theorem holds_mono (h : ev.rules.Holds db)
    (hever : ∀ a, ev.earlier a ∨ ev.came a → ev'.earlier a ∨ ev'.came a) :
    ev'.rules.Holds db where
  subscription sub hsub := by
    obtain ⟨hclient, ⟨n, hjoined, hnamed⟩, hchannel⟩ := h.subscription sub hsub
    exact ⟨hclient, ⟨n, hjoined.mono hever, hnamed⟩, hchannel⟩
  history row hrow := by
    obtain ⟨hname, request, hasked, hrow⟩ := h.history row hrow
    exact ⟨hname, request, hasked.mono hever, hrow⟩

/-- Rules that hold are references that hold. -/
theorem referenced_of_holds (h : ev.rules.Holds db) : db.Referenced where
  client sub hsub := (h.subscription sub hsub).1
  channel sub hsub := (h.subscription sub hsub).2.2
  name row hrow := (h.history row hrow).1

end Evidence

/-! ## Lives -/

/-- One life of the server: which of its queries fail, and what its threads do. -/
structure Life (ι : Type) where
  faults : List Bool
  labels : List (PoolLabel ι Arrival)

/-- The tables that some lives have left, and the frames that were read in them. -/
structure Past where
  tables : Database
  frames : List Arrival

namespace Past

/-- Nothing has been. -/
def empty : Past := ⟨.empty, []⟩

/-- What the next life may go by, in which `came` are the frames. -/
def evidence (past : Past) (faults : List Bool) (came : Arrival → Prop) : Evidence where
  tables := past.tables
  earlier a := a ∈ past.frames
  came
  failing := true ∈ faults

/-- The rows of the tables go back to frames. -/
def Accounted (past : Past) : Prop := (past.evidence [] fun _ => False).rules.Holds past.tables

theorem accounted_empty : empty.Accounted where
  subscription _ hsub := absurd hsub List.not_mem_nil
  history _ hrow := absurd hrow List.not_mem_nil

namespace Accounted

variable {past : Past} (h : past.Accounted)
include h

theorem referenced : past.tables.Referenced := Evidence.referenced_of_holds h

theorem inv (faults : List Bool) (came : Arrival → Prop) :
    (past.evidence faults came).rules.Inv ⟨past.tables, faults⟩ where
  toHolds := Evidence.holds_mono h fun _ ha => ha.imp_right False.elim
  taken _ hlogin := hlogin
  faults hfault := hfault

theorem inv_anyFrames (faults : List Bool) :
    (Evidence.anyFrames past.tables).rules.Inv ⟨past.tables, faults⟩ where
  toHolds := Evidence.holds_mono h fun _ _ => Or.inl trivial
  taken _ hlogin := hlogin
  faults _ := trivial

end Accounted

variable [Protocol] {ι : Type} [DecidableEq ι]

/-- The server and its threads at the end of a life. -/
def run (past : Past) (life : Life ι) : WorkersPool ι :=
  WorkersPool.runOn ⟨past.tables, life.faults⟩ life.labels

/-- What a life may go by: the frames are those that its threads were given. -/
def evidenceOf (past : Past) (life : Life ι) : Evidence :=
  past.evidence life.faults fun a => a ∈ (past.run life).tasks.posted.map Job.data

/-- The tables of the life are what is left of it. -/
def after (past : Past) (life : Life ι) : Past where
  tables := (past.run life).shared.db.db
  frames := past.frames ++ (past.run life).tasks.posted.map Job.data

variable {past : Past} (h : past.Accounted) (life : Life ι)
include h

/-- At the end of a life everything is accounted for by what it may go by. -/
theorem sound_of_came {came : Arrival → Prop}
    (hcame : ∀ job ∈ (past.run life).tasks.posted, came job.data) :
    (past.evidence life.faults came).Sound (past.run life).shared :=
  (WorkersPool.sound (h.inv life.faults came) life.labels hcame).1.1

theorem sound_run : (past.evidenceOf life).Sound (past.run life).shared :=
  sound_of_came h life fun _ => List.mem_map_of_mem

theorem Accounted.after : (past.after life).Accounted :=
  Evidence.holds_mono (sound_run h life).tables.toHolds fun _ ha =>
    Or.inl (List.mem_append.mpr ha)

end Past

section Runs

variable [Protocol] {ι : Type} [DecidableEq ι]

/-- What some lives leave that begin with empty tables. -/
def pastOf (lives : List (Life ι)) : Past := lives.foldl Past.after .empty

theorem accounted_pastOf (lives : List (Life ι)) : (pastOf lives).Accounted :=
  List.foldlRecOn lives Past.after Past.accounted_empty fun _ h life _ => h.after life

theorem pastOf_append (lives : List (Life ι)) (life : Life ι) :
    pastOf (lives ++ [life]) = (pastOf lives).after life :=
  List.foldl_append

theorem sound_pastOf (lives : List (Life ι)) (life : Life ι) :
    ((pastOf lives).evidenceOf life).Sound ((pastOf lives).run life).shared :=
  Past.sound_run (accounted_pastOf lives) life

/-- One thread runs what ann sends: she registers, joins a channel and says something. -/
def annsLife : Life Unit where
  faults := []
  labels :=
    ([⟨.calm, 10, ⟨.registrationRequest, 1⟩, { registrationRequest := some ⟨"ann", "a"⟩ }⟩,
      ⟨.calm, 10, ⟨.joinRoomRequest, 1⟩, { joinRoomRequest := some ⟨1, "room"⟩ }⟩,
      WorkersPool.annText "hello"] : List Arrival).map (.post ()) ++
        List.replicate 60 (.work ())

/-- After a restart she is back, over another session, and asks for the messages. -/
def annsReturn : Life Unit where
  faults := []
  labels :=
    ([⟨.calm, 11, ⟨.authorisationRequest, 1⟩, { authorisationRequest := some ⟨"ann", "a"⟩ }⟩,
      ⟨.calm, 11, ⟨.historyRequest, 1⟩,
        { historyRequest := some ⟨1, "room", ⟨⟨0, 0, 0⟩, ⟨0, 0, 0⟩⟩⟩ }⟩] : List Arrival).map
          (.post ()) ++ List.replicate 60 (.work ())

def annsMessages : List ClientTextMsg := [⟨"ann", "hello", "room", ⟨⟨0, 0, 12⟩, ⟨1, 6, 2021⟩⟩⟩]

omit [Protocol] in
/-- She is sent what she has said. -/
theorem annsMessages_written :
    letI := Protocol.oneByte
    ⟨11, .historyResponse "room" annsMessages, [1]⟩ ∈
      ((pastOf [annsLife]).run annsReturn).shared.written := by
  decide +kernel

omit [Protocol] in
/-- What a frame is answered that asks for nothing carries no messages. -/
theorem Arrival.messageChannel_answer {a : Arrival} {response : Response}
    (h : a.answer = some response) : response.messageChannel = none ∧ response.messages = [] := by
  unfold Arrival.answer at h
  split at h <;> simp at h <;> subst h <;> exact ⟨rfl, rfl⟩

/-- The messages of a channel, sent or stored, are only written to sessions that have logged in as a
client for which a frame has asked to join it. -/
theorem confined (lives : List (Life ι)) (life : Life ι) :
    ∀ x ∈ ((pastOf lives).run life).shared.written, ∀ n, x.response.messageChannel = some n →
      ∃ i, ((pastOf lives).evidenceOf life).LoggedIn
          ((pastOf lives).run life).shared.db.db x.session i ∧
        ((pastOf lives).evidenceOf life).EverAsked (.joinRoom ⟨i, n⟩) := by
  rintro ⟨session, response, payload⟩ hx n hn
  obtain ⟨hwarranted, -⟩ := (sound_pastOf lives life).written _ hx
  cases hwarranted with
  | registration request i asked id => exact absurd hn (by simp [Response.messageChannel])
  | authorisation request i asked id => exact absurd hn (by simp [Response.messageChannel])
  | mismatch a _ came same call answer =>
    exact absurd (hn.symm.trans (Arrival.messageChannel_answer answer).1) (by simp)
  | channels i names login asked written => exact absurd hn (by simp [Response.messageChannel])
  | joined i n login asked => exact absurd hn (by simp [Response.messageChannel])
  | echo i request login member asked =>
    obtain rfl : request.channelName = n := Option.some.inj hn
    exact ⟨i, login, member⟩
  | history i n' since messages login member asked sent =>
    obtain rfl : n' = n := Option.some.inj hn
    exact ⟨i, login, member⟩

omit [Protocol] in
theorem confined_annsReturn :
    letI := Protocol.oneByte
    ∃ i, ((pastOf [annsLife]).evidenceOf annsReturn).LoggedIn
        ((pastOf [annsLife]).run annsReturn).shared.db.db 11 i ∧
      ((pastOf [annsLife]).evidenceOf annsReturn).EverAsked (.joinRoom ⟨i, "room"⟩) :=
  @confined Protocol.oneByte Unit _ [annsLife] annsReturn _ annsMessages_written "room" rfl

omit [DecidableEq ι] in
/-- A message is the one of a request, as it was sent or as it is read from the tables. It has no
author when the lookup of the login fails. -/
structure Repeats (m : ClientTextMsg) (request : TextRequest) : Prop where
  text : m.text = request.text
  channelName : m.channelName = request.channelName
  author : m.author = request.login ∨ m.author = ""
  dt : m.dt = request.datetime ∨
    m.dt = getTime (timestampText request.datetime) Protocol.uninitializedTm

/-- Every message that is written, sent or stored, is one that a frame has sent to the channel. -/
theorem authentic (lives : List (Life ι)) (life : Life ι) :
    ∀ x ∈ ((pastOf lives).run life).shared.written, ∀ m ∈ x.response.messages,
      ∃ request, ((pastOf lives).evidenceOf life).EverAsked (.sendText request) ∧
        x.response.messageChannel = some request.channelName ∧ Repeats m request := by
  rintro ⟨session, response, payload⟩ hx m hm
  obtain ⟨hwarranted, -⟩ := (sound_pastOf lives life).written _ hx
  cases hwarranted with
  | registration request i asked id => exact absurd hm List.not_mem_nil
  | authorisation request i asked id => exact absurd hm List.not_mem_nil
  | mismatch a _ came same call answer =>
    dsimp only at hm
    rw [(Arrival.messageChannel_answer answer).2] at hm
    exact absurd hm List.not_mem_nil
  | channels i names login asked written => exact absurd hm List.not_mem_nil
  | joined i n login asked => exact absurd hm List.not_mem_nil
  | echo i request login member asked =>
    obtain rfl := List.mem_singleton.mp hm
    exact ⟨request, asked.ever, rfl, rfl, rfl, Or.inl rfl, Or.inl rfl⟩
  | history i n since messages login member asked sent =>
    obtain ⟨row, hrow, author, ⟨request, hasked, hregistered, heq⟩, rfl, rfl, hauthor⟩ :=
      sent m hm
    obtain ⟨clientId, channelName, datetime, message⟩ := row
    simp only [HistoryRow.mk.injEq, true_and] at heq
    obtain ⟨rfl, rfl, rfl⟩ := heq
    refine ⟨request, hasked, rfl, rfl, rfl, ?_, Or.inr (by simp only [WrapperPg.rowMessage])⟩
    by_cases hne : author = ""
    · exact Or.inr hne
    · exact Or.inl ((hauthor hne).eq hregistered)

omit [Protocol] in
theorem authentic_annsReturn :
    letI := Protocol.oneByte
    ∃ request, ((pastOf [annsLife]).evidenceOf annsReturn).EverAsked (.sendText request) ∧
      some "room" = some request.channelName ∧
        Repeats ⟨"ann", "hello", "room", ⟨⟨0, 0, 12⟩, ⟨1, 6, 2021⟩⟩⟩ request :=
  @authentic Protocol.oneByte Unit _ [annsLife] annsReturn _ annsMessages_written _
    List.mem_cons_self

/-! ## Memory -/

/-- Every user in memory stands under its id and a login of the tables, and is bound to a session
that has logged in as the client. -/
theorem entitled_pastOf (lives : List (Life ι)) (life : Life ι) :
    ∀ i user, ((pastOf lives).run life).shared.idClients i = some user →
      ((pastOf lives).evidenceOf life).Entitled ((pastOf lives).run life).shared.db.db i user :=
  (sound_pastOf lives life).user

omit [Protocol] in
theorem entitled_pastOf_annsReturn :
    letI := Protocol.oneByte
    ((pastOf [annsLife]).evidenceOf annsReturn).Entitled
      ((pastOf [annsLife]).run annsReturn).shared.db.db 1 ⟨11, "ann", "a", 1⟩ :=
  @entitled_pastOf Protocol.oneByte Unit _ [annsLife] annsReturn 1 _ (by decide +kernel)

/-- Every channel of the registry stands under its id and a name of the tables, and its members are
clients that joined it. -/
theorem founded_pastOf (lives : List (Life ι)) (life : Life ι) :
    ∀ k p, ((pastOf lives).run life).shared.idChannels k = some p →
      ∃ c, ((pastOf lives).run life).shared.objects[p]? = some c ∧ c.id = k ∧
        ((pastOf lives).evidenceOf life).Founded ((pastOf lives).run life).shared.db.db c := by
  intro k p hk
  have hsound := sound_pastOf lives life
  obtain ⟨c, hp, hid⟩ := hsound.registry k p hk
  exact ⟨c, hp, hid, hsound.object c (List.mem_of_getElem? hp)⟩

omit [Protocol] in
theorem founded_pastOf_annsReturn :
    letI := Protocol.oneByte
    ∃ c, ((pastOf [annsLife]).run annsReturn).shared.objects[0]? = some c ∧ c.id = 1 ∧
      ((pastOf [annsLife]).evidenceOf annsReturn).Founded
        ((pastOf [annsLife]).run annsReturn).shared.db.db c :=
  @founded_pastOf Protocol.oneByte Unit _ [annsLife] annsReturn 1 0 (by decide +kernel)

/-- Until it is cut off a server forgets nothing: no row of the tables, no user or channel in
memory, and nothing that it has written. -/
theorem remembered (lives : List (Life ι)) (faults : List Bool)
    (labels more : List (PoolLabel ι Arrival)) :
    ((pastOf lives).run ⟨faults, labels⟩).shared.Precedes
      ((pastOf lives).run ⟨faults, labels ++ more⟩).shared :=
  WorkersPool.precedes_append ((accounted_pastOf lives).inv_anyFrames faults)
    (fun _ => trivial) labels more

/-- No life changes a row that an earlier one has left, or deletes it. -/
theorem precedes_pastOf (lives more : List (Life ι)) :
    (pastOf lives).tables.Precedes (pastOf (lives ++ more)).tables := by
  induction more using List.reverseRecOn with
  | nil =>
    rw [List.append_nil]
    exact .refl _
  | append_singleton more life ih =>
    rw [← List.append_assoc, pastOf_append]
    have hinv := (accounted_pastOf (lives ++ more)).inv_anyFrames life.faults
    exact ih.trans (WorkersPool.precedes_runOn hinv life.labels fun _ _ => trivial)

/-- After any number of lives every subscription is of a client, and every message is under the name
of a channel. -/
theorem referenced_pastOf (lives : List (Life ι)) : (pastOf lives).tables.Referenced :=
  (accounted_pastOf lives).referenced

end Runs

end GatewayServer
