import GatewayServer.Engine.HistorySync
import GatewayServer.Service.ChatRefinement

/-!
# What has been said

Which messages a server keeps can be told from the requests alone, without a state: those that were
sent to a room with a name, by an author whose account had been made before. This stays so however
often the server is started again, and a member of a room who asks for its history is sent all of
them, in the order in which they were sent.

## Main definitions

* `conversation` — what authors with an account say

## Main results

* `Chat.posts_runLives` — the chat keeps the conversation
* `history_of_lives` — a member who asks is sent the conversation of the room
-/

namespace GatewayServer

open Lib

/-- The name that a request asks an account for. -/
def Call.wanted : Call → Option String
  | .reg _ request => some request.login
  | _ => none

/-- What a request says in a room that has a name. -/
def Call.spoken : Call → Option ClientTextMsg
  | .sendText request =>
    if request.channelName = "" then none else some (QueryEngine.textMessage request)
  | _ => none

/-- What is said by authors with an account, when `names` have one from the start. -/
def conversation (names : List String) : List Call → List ClientTextMsg
  | [] => []
  | call :: calls =>
    (call.spoken.filter fun m => m.author ∈ names).toList ++
      conversation (call.wanted.toList ++ names) calls

namespace Chat

variable [Protocol] {c : Chat} {names : List String} (kept : ClientTextMsg → ClientTextMsg)

/-- The names that have an account. -/
def Named (c : Chat) (names : List String) : Prop :=
  ∀ login, login ∈ names ↔ c.accountOf login ≠ 0

omit [Protocol] in
theorem named_empty : empty.Named [] := by
  intro login
  simp only [List.not_mem_nil, false_iff, not_not]
  rfl

omit [Protocol] in
theorem named_register (h : c.Named names) (w : World) (session : SessionId)
    (request : RegistrationRequest) :
    (c.register w session request).Named (request.login :: names) := by
  intro login
  rw [List.mem_cons, h login]
  by_cases hnew : c.accountOf request.login = 0
  -- the login is free, and an account is made for it
  · have haccount : (c.register w session request).accountOf login =
        if login = request.login then c.accounts.next else c.accountOf login := by
      rw [register, if_pos hnew]
      exact @SerialTable.firstId_insert_key _ _ c.accounts _ Client.login
        ⟨request.login, request.password⟩ hnew login
    rw [haccount]
    by_cases hlogin : login = request.login
    · rw [if_pos hlogin]
      simp only [hlogin, true_or, true_iff]
      exact Nat.ne_of_gt c.accounts.next_pos
    · rw [if_neg hlogin]
      simp only [hlogin, false_or]
  -- the login has an account already
  · have haccount : (c.register w session request).accountOf login = c.accountOf login := by
      rw [register, if_neg hnew]
      rfl
    rw [haccount, or_iff_right_of_imp]
    rintro rfl
    exact hnew

/-- Only who wants an account makes one, and only who speaks leaves a post. -/
theorem step_frame (e : Event) :
    (e.call.wanted = none → (c.step kept e).accounts = c.accounts) ∧
      (e.call.spoken = none → (c.step kept e).posts = c.posts) := by
  obtain ⟨w, call⟩ := e
  cases call with
  | reg session request =>
    refine ⟨fun hnone => absurd hnone (Option.some_ne_none _), fun _ => ?_⟩
    simp only [step, register]
    split <;> [rfl; split <;> rfl]
  | auth session request =>
    constructor <;>
    · intro _
      simp only [step, authorise]
      split <;> [rfl; split <;> rfl]
  | joinRoom request =>
    constructor <;>
    · intro _
      simp only [step, join]
      split <;> [rfl; split <;> rfl]
  | sendText request =>
    constructor
    · intro _
      simp only [step, post, keep]
      split <;> [rfl; split <;> rfl]
    · intro hnone
      -- without a room the message is not spoken, and with one it is
      by_cases hname : request.channelName = ""
      · simp only [step, Call.channelName, hname, if_true]
      · rw [Call.spoken, if_neg hname] at hnone
        exact absurd hnone (Option.some_ne_none _)
  | _ =>
    constructor <;>
    · intro _
      simp only [step]
      split <;> rfl

/-- A request changes who has an account only by asking for one. -/
theorem named_step (h : c.Named names) (e : Event) :
    (c.step kept e).Named (e.call.wanted.toList ++ names) := by
  cases hwanted : e.call.wanted with
  | none =>
    intro login
    rw [accountOf, (step_frame kept e).1 hwanted]
    exact h login
  | some login =>
    obtain ⟨w, call⟩ := e
    cases call with
    | reg session request =>
      obtain rfl := Option.some.inj hwanted
      exact named_register h w session request
    | _ => exact absurd hwanted.symm (Option.some_ne_none _)

/-- A message is kept when its author has an account. -/
theorem posts_step (h : c.Named names) (e : Event) :
    (c.step kept e).posts.map Post.message = c.posts.map Post.message ++
      (e.call.spoken.filter fun m => m.author ∈ names).toList.map kept := by
  cases hspoken : e.call.spoken with
  | none =>
    rw [(step_frame kept e).2 hspoken]
    exact (List.append_nil _).symm
  | some message =>
    obtain ⟨w, call⟩ := e
    cases call with
    | sendText request =>
      -- a message without a room is not spoken
      have hname : ¬ request.channelName = "" := by
        intro hname
        rw [Call.spoken, if_pos hname] at hspoken
        exact absurd hspoken.symm (Option.some_ne_none _)
      rw [Call.spoken, if_neg hname] at hspoken
      obtain rfl := Option.some.inj hspoken
      have hstep : (c.step kept ⟨w, .sendText request⟩).posts =
          (c.keep (c.accountOf request.login) (kept (QueryEngine.textMessage request))).posts := by
        simp only [step, Call.channelName, Option.some.injEq, hname, if_false]
        rfl
      have hauthor : (QueryEngine.textMessage request).author = request.login := rfl
      rw [hstep, keep, Option.filter_some, hauthor]
      by_cases haccount : c.accountOf request.login = 0
      · have hout : request.login ∉ names := fun hmem => (h _).mp hmem haccount
        simp [haccount, hout]
      · have hmem : request.login ∈ names := (h _).mpr haccount
        simp [haccount, hmem]
    | _ => exact absurd hspoken.symm (Option.some_ne_none _)

/-- What comes after some requests continues what was said in them. -/
theorem posts_foldl_then {rest : List Call} {after : Chat → Chat}
    (hafter : ∀ c names, c.Named names → (after c).posts.map Post.message =
      c.posts.map Post.message ++ (conversation names rest).map kept)
    (h : c.Named names) (events : List Event) :
    (after (events.foldl (step kept) c)).posts.map Post.message = c.posts.map Post.message ++
      (conversation names (events.map Event.call ++ rest)).map kept := by
  induction events generalizing c names with
  | nil => exact hafter c names h
  | cons e events ih =>
    rw [List.foldl_cons, ih (named_step kept h e), posts_step kept h e, List.map_cons,
      List.cons_append, conversation, List.map_append, List.append_assoc]

/-- The chat has kept what was said since the first start. -/
theorem posts_runLives (lives : List (List Event)) :
    (runLives kept lives).posts.map Post.message =
      (conversation [] (lives.flatten.map Event.call)).map kept := by
  have hlives : ∀ (c : Chat) (names : List String), c.Named names →
      (lives.foldl (fun (c : Chat) (events : List Event) => events.foldl (step kept) c.restart)
        c).posts.map Post.message =
        c.posts.map Post.message ++
          (conversation names (lives.flatten.map Event.call)).map kept := by
    induction lives with
    | nil => exact fun c names _ => (List.append_nil _).symm
    | cons events lives ih =>
      intro c names h
      rw [List.foldl_cons, List.flatten_cons, List.map_append]
      exact posts_foldl_then kept ih (c := c.restart) h events
  exact hlives empty [] named_empty

end Chat

section Histories

variable [Protocol]

/-- Who is a member of a room, is online and asks for its history is sent what was said in it since
the first start and after the date that is asked for, as the database reads it back. Who is no
member or asks in vain is sent nothing. -/
theorem history_of_lives {lives : List (List Event)} {events : List Event}
    (hlives : ∀ events' ∈ lives, ∀ e ∈ events', e.call.channelName ≠ some "")
    (w : World) {request : HistoryRequest} (hname : request.channelName ≠ "") :
    let s := runLives (lives ++ [events])
    let said := ((conversation [] ((lives ++ [events]).flatten.map Event.call)).map
      WrapperPg.reread).filter fun m =>
        m.channelName = request.channelName ∧ Channel.isSince request.since m
    (serve WrapperPg.database s ⟨w, .getHistory request⟩).written.map Write.delivery =
      s.written.map Write.delivery ++
        if request.clientId ∈ s.db.db.subscribersOf request.channelName ∧ said ≠ [] then
          (s.liveSession w request.clientId).toList.map fun session =>
            ⟨session, .historyResponse request.channelName said⟩
        else [] := by
  intro s said
  -- the last life starts on the tables of the earlier ones
  have hrestart := runLives_restartable hlives
  have hs : s = runFrom (runLives lives).db events := runLives_concat lives events
  have hcoherent : s.Coherent := by
    rw [hs]
    exact runFrom_coherent hrestart.faults hrestart.names events
  have hsubs : s.db.db.Subscribed := by
    rw [hs]
    exact runFrom_subscribed hrestart.faults hrestart.names events hrestart.subscribed
  have hposts : s.chat.posts.map Post.message =
      (conversation [] ((lives ++ [events]).flatten.map Event.call)).map WrapperPg.reread := by
    rw [chat_runLives_concat hlives events, Chat.posts_runLives]
  have hsaid : (s.chat.messages request.channelName).filter (Channel.isSince request.since) =
      said := by
    rw [Chat.messages, hposts, List.filter_filter]
    apply List.filter_congr
    intro m _
    simp [Bool.and_comm]
  -- the server does what the abstract chat does
  have hstep : (serve WrapperPg.database s ⟨w, .getHistory request⟩).chat =
      s.chat.history w request.clientId request.channelName request.since := by
    rw [chat_serve hcoherent hsubs, Chat.step]
    exact if_neg fun heq => hname (Option.some.inj heq)
  rw [← deliver_chat, ← hsaid]
  exact congrArg Chat.sent hstep

/-- Ann comes back, from another session. -/
def annReturns : List Event := [⟨.calm, .auth 11 ⟨"ann", "a"⟩⟩]

omit [Protocol] in
/-- After a restart she is sent what she had said before it. -/
theorem history_of_lives_annReturns :
    letI := Protocol.oneByte
    (serve WrapperPg.database (runLives ([annSaysBoth] ++ [annReturns]))
        (annAsks Protocol.defaultDateTime)).written.map Write.delivery =
      (runLives ([annSaysBoth] ++ [annReturns])).written.map Write.delivery ++
        [⟨11, .historyResponse "room" [annsMessage "one" 0, annsMessage "two" 1]⟩] := by
  let _ := Protocol.oneByte
  have hlives : ∀ events' ∈ [annSaysBoth], ∀ e ∈ events', e.call.channelName ≠ some "" := by
    simp [annSaysBoth, annJoins, annSays, Call.channelName]
  have hmember : 1 ∈ (runLives ([annSaysBoth] ++ [annReturns])).db.db.subscribersOf "room" := by
    decide +kernel
  have hsession : (runLives ([annSaysBoth] ++ [annReturns])).liveSession .calm 1 = some 11 := by
    decide +kernel
  have hsaid : (((conversation [] (([annSaysBoth] ++ [annReturns]).flatten.map Event.call)).map
      WrapperPg.reread).filter fun m =>
        m.channelName = "room" ∧ Channel.isSince Protocol.defaultDateTime m) =
        [annsMessage "one" 0, annsMessage "two" 1] := by
    decide +kernel
  have h := @history_of_lives Protocol.oneByte [annSaysBoth] annReturns hlives .calm
    ⟨1, "room", Protocol.defaultDateTime⟩ (by decide)
  dsimp only at h
  generalize runLives ([annSaysBoth] ++ [annReturns]) = s at h hmember hsession ⊢
  rw [hsaid, if_pos ⟨hmember, List.cons_ne_nil _ _⟩, hsession] at h
  exact h

end Histories

end GatewayServer
