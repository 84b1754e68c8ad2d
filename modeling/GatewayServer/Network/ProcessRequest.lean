import GatewayServer.Engine.QueryEngine

/-!
# From a session to the engine

`ClientSession::processRequest`: the command in the header selects a request, and the body has
to carry it. Registration and authentication are the only requests that the engine is told the
session of.

## Main definitions

* `ClientSession.processRequest` — one parsed frame of a session
* `Arrival`, `arrive` — a frame that comes over some session, and the server after it
* `Arrival.call` — the call of the engine that a frame asks for

## Main results

* `processRequest_of_call`, `processRequest_of_no_call` — every frame makes its call or none
-/

namespace GatewayServer

open Lib

variable {δ : Type} [Protocol] (db : IDatabase δ)

namespace ClientSession

/-- The answer to a body that does not carry what the header announces. -/
def mismatch (w : World) (session : SessionId) (response : Response) :
    Prog (Server δ) Exn PUnit := do
  let _ ← ClientSession.write w session response (Protocol.serialize response)
  return ⟨⟩

omit [Protocol] in
/-- A request handed to the engine, if there is one. -/
def toEngine (w : World) (request : Prog (Server δ) Exn PUnit) : Prog (Server δ) Exn PUnit :=
  if w.engineAlive then request else return ⟨⟩

/-- `ClientSession::processRequest`. The commands of the server and unknown ones are logged. -/
def processRequest (w : World) (session : SessionId) (header : Header) (request : Request) :
    Prog (Server δ) Exn PUnit :=
  match header.command with
  | .registrationRequest =>
    match request.registrationRequest with
    | some body => toEngine w (QueryEngine.reg db w session body)
    | none => mismatch w session (.registrationResponse 0)
  | .authorisationRequest =>
    match request.authorisationRequest with
    | some body => toEngine w (QueryEngine.auth db w session body)
    | none => mismatch w session (.authorisationResponse 0)
  | .sendTextRequest =>
    match request.textRequest with
    | some body => toEngine w (QueryEngine.sendText db w body)
    | none => return ⟨⟩
  | .joinRoomRequest =>
    match request.joinRoomRequest with
    | some body => toEngine w (QueryEngine.joinRoom db w body)
    | none => mismatch w session (.joinRoomResponse "" false)
  | .historyRequest =>
    match request.historyRequest with
    | some body => toEngine w (QueryEngine.getHistory db w body)
    | none => return ⟨⟩
  | .channelsRequest =>
    match request.channelsRequest with
    | some body => toEngine w (QueryEngine.getChannels db w body)
    | none => return ⟨⟩
  | .unknown => return ⟨⟩
  | .registrationResponse => return ⟨⟩
  | .authorisationResponse => return ⟨⟩
  | .echoResponse => return ⟨⟩
  | .joinRoomResponse => return ⟨⟩
  | .historyResponse => return ⟨⟩
  | .channelsResponse => return ⟨⟩
  | .unlisted _ => return ⟨⟩

end ClientSession

/-- A frame that came over a session. -/
structure Arrival where
  world : World
  session : SessionId
  header : Header
  request : Request

/-- The call of the engine that a frame asks for. -/
def Arrival.call (a : Arrival) : Option Call :=
  match a.header.command with
  | .registrationRequest => a.request.registrationRequest.map (.reg a.session)
  | .authorisationRequest => a.request.authorisationRequest.map (.auth a.session)
  | .sendTextRequest => a.request.textRequest.map .sendText
  | .joinRoomRequest => a.request.joinRoomRequest.map .joinRoom
  | .historyRequest => a.request.historyRequest.map .getHistory
  | .channelsRequest => a.request.channelsRequest.map .getChannels
  | _ => none

/-- The server after a frame, also past an exception. -/
def arrive (s : Server δ) (a : Arrival) : Server δ :=
  ((ClientSession.processRequest db a.world a.session a.header a.request).run s).2

/-- A frame that asks for a call makes it, while the engine is there. -/
theorem processRequest_of_call {a : Arrival} {call : Call} (h : a.call = some call) :
    ClientSession.processRequest db a.world a.session a.header a.request =
      ClientSession.toEngine a.world (handle db a.world call) := by
  obtain ⟨w, session, ⟨command, length⟩, request⟩ := a
  -- the body of the command's kind must be there
  cases command with
  | registrationRequest =>
    obtain ⟨body, hbody, rfl⟩ := Option.map_eq_some_iff.mp h
    have hbody : request.registrationRequest = some body := hbody
    simp only [ClientSession.processRequest, hbody, handle]
  | authorisationRequest =>
    obtain ⟨body, hbody, rfl⟩ := Option.map_eq_some_iff.mp h
    have hbody : request.authorisationRequest = some body := hbody
    simp only [ClientSession.processRequest, hbody, handle]
  | sendTextRequest =>
    obtain ⟨body, hbody, rfl⟩ := Option.map_eq_some_iff.mp h
    have hbody : request.textRequest = some body := hbody
    simp only [ClientSession.processRequest, hbody, handle]
  | joinRoomRequest =>
    obtain ⟨body, hbody, rfl⟩ := Option.map_eq_some_iff.mp h
    have hbody : request.joinRoomRequest = some body := hbody
    simp only [ClientSession.processRequest, hbody, handle]
  | historyRequest =>
    obtain ⟨body, hbody, rfl⟩ := Option.map_eq_some_iff.mp h
    have hbody : request.historyRequest = some body := hbody
    simp only [ClientSession.processRequest, hbody, handle]
  | channelsRequest =>
    obtain ⟨body, hbody, rfl⟩ := Option.map_eq_some_iff.mp h
    have hbody : request.channelsRequest = some body := hbody
    simp only [ClientSession.processRequest, hbody, handle]
  | _ => exact absurd h (by simp [Arrival.call])

/-- What a frame that asks for no call is answered. -/
def Arrival.answer (a : Arrival) : Option Response :=
  match a.header.command with
  | .registrationRequest => some (.registrationResponse 0)
  | .authorisationRequest => some (.authorisationResponse 0)
  | .joinRoomRequest => some (.joinRoomResponse "" false)
  | _ => none

/-- A frame that asks for no call is answered or ignored. -/
theorem processRequest_of_no_call {a : Arrival} (h : a.call = none) :
    ClientSession.processRequest db a.world a.session a.header a.request =
      match a.answer with
      | some response => ClientSession.mismatch a.world a.session response
      | none => return ⟨⟩ := by
  obtain ⟨w, session, ⟨command, length⟩, request⟩ := a
  -- there is no body of the command's kind
  cases command with
  | registrationRequest =>
    have hbody : request.registrationRequest = none := Option.map_eq_none_iff.mp h
    simp only [ClientSession.processRequest, hbody, Arrival.answer]
  | authorisationRequest =>
    have hbody : request.authorisationRequest = none := Option.map_eq_none_iff.mp h
    simp only [ClientSession.processRequest, hbody, Arrival.answer]
  | sendTextRequest =>
    have hbody : request.textRequest = none := Option.map_eq_none_iff.mp h
    simp only [ClientSession.processRequest, hbody, Arrival.answer]
  | joinRoomRequest =>
    have hbody : request.joinRoomRequest = none := Option.map_eq_none_iff.mp h
    simp only [ClientSession.processRequest, hbody, Arrival.answer]
  | historyRequest =>
    have hbody : request.historyRequest = none := Option.map_eq_none_iff.mp h
    simp only [ClientSession.processRequest, hbody, Arrival.answer]
  | channelsRequest =>
    have hbody : request.channelsRequest = none := Option.map_eq_none_iff.mp h
    simp only [ClientSession.processRequest, hbody, Arrival.answer]
  | _ => rfl

end GatewayServer
