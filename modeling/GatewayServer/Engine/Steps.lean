import GatewayServer.Database.Effects
import GatewayServer.Engine.QueryEngine

/-!
# What the steps of a request may change

The server before and after a step of a request, whatever runs beside it. A relation that the kinds
of steps keep (on the tables, the users, the channels, and what is written) holds across every step
of the requests.

## Main definitions

* `Server.KeptBySteps` — a relation that holds across the steps on tables, users and writes
* `Server.KeptByRequests` — one that holds across the steps on channels as well

## Main results

* `KeptBySteps.reg`, … — it holds across every step of the requests that make no channel
* `KeptByRequests.joinRoom`, … — it holds across every step of the others
-/

namespace GatewayServer

open Lib

/-- A relation between servers that holds when the tables change by `D`, a user logs in, or a
response in `W` is written. -/
structure Server.KeptBySteps (D : Database → Database → Prop) (W : Response → Prop)
    (R : Server Postgres → Server Postgres → Prop) : Prop where
  refl : ∀ s, R s s
  db : ∀ s d, WrapperPg.Across D s.db d → R s { s with db := d }
  push : ∀ s data, R s ((UserManager.push data).run s).2
  written : ∀ s session response message, W response →
    R s { s with written := s.written ++ [⟨session, response, message⟩] }
  queued : ∀ s tasks, R s { s with queueTasks := tasks }

namespace Server.KeptBySteps

variable {D : Database → Database → Prop} {W : Response → Prop}
  {R : Server Postgres → Server Postgres → Prop} (h : KeptBySteps D W R)
include h

theorem inDb {α : Type} {p : Prog Postgres Exn α} (hp : p.Guarantees (WrapperPg.Across D)) :
    (Server.inDb p).Guarantees R :=
  hp.zoom fun s d hd => h.db s d hd

theorem read {α : Type} (f : Server Postgres → α) :
    (Prog.read f : Prog (Server Postgres) Exn α).Guarantees R :=
  .read h.refl f

theorem pushUser (data : User) :
    (UserManager.push data : Prog (Server Postgres) Exn PUnit).Guarantees R :=
  .modify fun s => h.push s data

theorem write (w : World) (session : SessionId) {response : Response} (hresponse : W response)
    (message : Bytes) : (ClientSession.write w session response message).Guarantees R := by
  unfold ClientSession.write SocketWriter.write ThreadSafeQueue.push
  apply Prog.Guarantees.bind (.modify fun s => h.written s session response message hresponse)
  intro _
  split
  · exact .atomic fun s => h.queued s _
  · trivial

/-- The loop of `Channel::write`. -/
theorem writeLoop (w : World) {message : ClientTextMsg} (hresponse : W (.echoResponse message))
    (ids : List UserId) (buffer : Bytes) :
    (Channel.writeLoop w message ids buffer).Guarantees R := by
  induction ids generalizing buffer with
  | nil => trivial
  | cons id ids ih =>
    apply Prog.Guarantees.bind (h.read _)
    intro user
    cases user with
    | none => exact ih buffer
    | some user =>
      dsimp only
      split
      · exact (h.write w user.session hresponse buffer).bind fun buffer => ih buffer
      · exact ih buffer

variable [Protocol] (hD : WrapperPg.KeptByQueries D)

theorem reply (w : World) (session : SessionId) {response : Response} (hresponse : W response) :
    (QueryEngine.reply w session response : Prog (Server Postgres) Exn PUnit).Guarantees R := by
  unfold QueryEngine.reply
  split
  · exact (h.write w session hresponse _).bind fun _ => trivial
  · trivial

include hD

theorem sendHistory (hresponse : ∀ n messages, W (.historyResponse n messages)) (w : World)
    (p : ChannelPtr) (i : UserId) (dt : DateTime) :
    (Channel.sendHistory WrapperPg.database w p i dt).Guarantees R := by
  unfold Channel.sendHistory
  apply Prog.Guarantees.bind (h.read _)
  intro this
  cases this with
  | none => trivial
  | some this =>
    dsimp only
    -- a member that is online is sent the history, if there is any
    split
    · apply Prog.Guarantees.bind (h.read _)
      intro user
      cases user with
      | none => trivial
      | some user =>
        dsimp only
        split
        · apply Prog.Guarantees.bind (h.inDb (hD.getHistory WrapperPg.connected this.id))
          intro history
          split
          · trivial
          · exact (h.write w user.session (hresponse _ _) _).bind fun _ => trivial
        · trivial
    · trivial

/-- `Channel::write`, when the relation also holds across the storing of a message. -/
theorem channelWrite (hhistory : ∀ db row db', db.insertHistory row = some db' → D db db')
    {message : ClientTextMsg} (hresponse : W (.echoResponse message)) (w : World)
    (p : ChannelPtr) : (Channel.write WrapperPg.database w p message).Guarantees R := by
  apply Prog.Guarantees.bind (h.read _)
  intro this
  cases this with
  | none => trivial
  | some this =>
    apply Prog.Guarantees.bind (h.writeLoop w hresponse _ _)
    intro _
    exact h.inDb (hD.addMsgHistory WrapperPg.connected hhistory this.id message)

theorem reg (hresponse : ∀ i, W (.registrationResponse i)) (w : World) (session : SessionId)
    (request : RegistrationRequest) :
    (QueryEngine.reg WrapperPg.database w session request).Guarantees R := by
  refine (h.inDb (hD.checkRegUser WrapperPg.connected _)).bind fun clientId => ?_
  split
  · exact (h.pushUser _).bind fun _ => h.reply w session (hresponse _)
  · exact h.reply w session (hresponse _)

theorem auth (hresponse : ∀ i, W (.authorisationResponse i)) (w : World) (session : SessionId)
    (request : AuthorisationRequest) :
    (QueryEngine.auth WrapperPg.database w session request).Guarantees R := by
  refine (h.inDb (hD.checkAuthUser WrapperPg.connected _)).bind fun clientId => ?_
  split
  · exact (h.pushUser _).bind fun _ => h.reply w session (hresponse _)
  · exact h.reply w session (hresponse _)

theorem getChannels (hresponse : ∀ names, W (.channelsResponse names)) (w : World)
    (request : ChannelsRequest) :
    (QueryEngine.getChannels WrapperPg.database w request).Guarantees R := by
  apply Prog.Guarantees.bind (h.read _)
  intro user
  cases user with
  | none =>
    dsimp only
    unfold logFormat
    split <;> trivial
  | some client =>
    dsimp only
    split
    · refine (h.inDb (hD.getUserNameChannels WrapperPg.connected _)).bind fun channels => ?_
      exact (h.write w client.session (hresponse _) _).bind fun _ => trivial
    · trivial

end Server.KeptBySteps

/-- A relation that also holds when channels are made, changed or stored, and along several
steps. -/
structure Server.KeptByRequests (D : Database → Database → Prop) (W : Response → Prop)
    (R : Server Postgres → Server Postgres → Prop) : Prop extends Server.KeptBySteps D W R where
  trans : ∀ s t u, R s t → R t u → R s u
  objects : ∀ s objects, R s { s with objects }
  idChannels : ∀ s idChannels, R s { s with idChannels }

namespace Server.KeptByRequests

variable {D : Database → Database → Prop} {W : Response → Prop}
  {R : Server Postgres → Server Postgres → Prop} (h : KeptByRequests D W R)
include h

theorem addUser [Protocol] (hresponse : ∀ n, W (.joinRoomResponse n true)) (w : World)
    (p : ChannelPtr) (i : UserId) :
    (Channel.addUser w p i : Prog (Server Postgres) Exn PUnit).Guarantees R := by
  unfold Channel.addUser
  apply Prog.Guarantees.bind (h.read _)
  intro this
  cases this with
  | none => trivial
  | some this =>
    dsimp only
    split
    · trivial
    · refine Prog.Guarantees.bind (.modify fun s => h.objects s _) fun _ => ?_
      apply Prog.Guarantees.bind (h.read _)
      intro user
      cases user with
      | none => trivial
      | some user =>
        dsimp only
        split
        · exact (h.write w user.session (hresponse _) _).bind fun _ => trivial
        · trivial

variable [Protocol] (hD : WrapperPg.KeptByQueries D)
include hD

theorem makeShared (n : String) (k : UserId) :
    (Channel.makeShared WrapperPg.database n k).Guarantees R := by
  have hconstruct : (Channel.construct WrapperPg.database n k).Guarantees R := by
    unfold Channel.construct
    split
    · trivial
    split
    · trivial
    · exact (h.inDb (hD.getChannelUsers WrapperPg.connected k)).bind fun _ => trivial
  exact (hconstruct.bind fun channel => .atomic fun s => h.objects s _).atomically h.refl h.trans

theorem createOrGetChannelByName (n : String) :
    (ChannelsManager.createOrGetChannelByName WrapperPg.database n).Guarantees R := by
  have hmake : ∀ k, (do
      let channel ← Channel.makeShared WrapperPg.database n k
      ChannelsManager.store k channel
      return channel).Guarantees R := by
    intro k
    apply Prog.Guarantees.bind (h.makeShared hD n k)
    intro p
    exact Prog.Guarantees.bind (.modify fun s => h.idChannels s _) fun _ => trivial
  unfold ChannelsManager.createOrGetChannelByName
  apply Prog.Guarantees.bind (h.inDb (hD.hasChannel WrapperPg.connected n))
  intro found
  split
  · apply Prog.Guarantees.bind (h.inDb (hD.getChannelId WrapperPg.connected n))
    intro k
    refine Prog.Guarantees.atomically (.bind (h.read _) fun known => ?_) h.refl h.trans
    cases known with
    | none => exact hmake k
    | some p => trivial
  · exact Prog.Guarantees.bind (h.inDb (hD.createChannel WrapperPg.connected n)) hmake

theorem getHistory (hresponse : ∀ n messages, W (.historyResponse n messages)) (w : World)
    (request : HistoryRequest) :
    (QueryEngine.getHistory WrapperPg.database w request).Guarantees R :=
  (h.createOrGetChannelByName hD _).bind fun channel =>
    h.sendHistory hD hresponse w channel _ _

theorem joinRoom (hresponse : ∀ n, W (.joinRoomResponse n true)) (w : World)
    (request : JoinRoomRequest) :
    (QueryEngine.joinRoom WrapperPg.database w request).Guarantees R := by
  refine (h.createOrGetChannelByName hD _).bind fun channel => ?_
  apply Prog.Guarantees.bind (h.read _)
  intro user
  cases user with
  | none => trivial
  | some client =>
    apply Prog.Guarantees.bind (h.addUser hresponse w channel _)
    intro _
    exact h.inDb (hD.joinClientChannel WrapperPg.connected _ _)

theorem sendText (hhistory : ∀ db row db', db.insertHistory row = some db' → D db db')
    (hresponse : ∀ message, W (.echoResponse message)) (w : World) (request : TextRequest) :
    (QueryEngine.sendText WrapperPg.database w request).Guarantees R :=
  (h.createOrGetChannelByName hD _).bind fun channel =>
    h.channelWrite hD hhistory (hresponse _) w channel

/-- A relation that allows every response and the storing of messages holds across every call. -/
theorem handle (hhistory : ∀ db row db', db.insertHistory row = some db' → D db db')
    (hresponse : ∀ response, W response) (w : World) (call : Call) :
    (GatewayServer.handle WrapperPg.database w call).Guarantees R := by
  cases call with
  | reg session request => exact h.reg hD (fun _ => hresponse _) w session request
  | auth session request => exact h.auth hD (fun _ => hresponse _) w session request
  | getHistory request => exact h.getHistory hD (fun _ _ => hresponse _) w request
  | getChannels request => exact h.getChannels hD (fun _ => hresponse _) w request
  | joinRoom request => exact h.joinRoom hD (fun _ => hresponse _) w request
  | sendText request => exact h.sendText hD hhistory (fun _ => hresponse _) w request

end Server.KeptByRequests

end GatewayServer
