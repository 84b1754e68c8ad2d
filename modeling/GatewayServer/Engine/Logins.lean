import GatewayServer.Engine.Restart
import GatewayServer.Lib.Run

/-!
# The users that have logged in

Registrations and authentications, from any sessions and in any order. A user enters the map of
`UserManager` with its first login and is bound to another session by every later one, whichever
of the two requests that is.

## Main definitions

* `Login` — a registration or an authentication, with the question it puts to the database
* `Server.Gives` — a login succeeds with an id
* `LastGivenTo` — the last login that succeeded with an id came from a session
* `Server.UsersRegistered` — the users in memory are those of the tables

## Main results

* `logIn_eq` — what a login does, in terms of the answer of the database
* `users_after_logins` — the users after any logins
-/

namespace GatewayServer

open Lib

/-- A registration or an authentication that comes from a session. -/
inductive Login where
  | reg (session : SessionId) (request : RegistrationRequest)
  | auth (session : SessionId) (request : AuthorisationRequest)
  deriving DecidableEq, Repr

namespace Login

def session : Login → SessionId
  | .reg session _ => session
  | .auth session _ => session

/-- The login with its password, as the database is asked for it. -/
def settings : Login → InputSettings
  | .reg _ request => ⟨request.login, request.password⟩
  | .auth _ request => ⟨request.login, request.password⟩

/-- The question that is put to the database. -/
def check (l : Login) : Prog Postgres Exn UserId :=
  match l with
  | .reg _ _ => WrapperPg.connected.checkRegUser l.settings
  | .auth _ _ => WrapperPg.connected.checkAuthUser l.settings

def call : Login → Call
  | .reg session request => .reg session request
  | .auth session request => .auth session request

/-- The response that carries an id. -/
def response : Login → UserId → Response
  | .reg _ _ => .registrationResponse
  | .auth _ _ => .authorisationResponse

/-- The user that is made when the database answers with an id. -/
def user (l : Login) (i : UserId) : User where
  session := l.session
  login := l.settings.clientName
  password := l.settings.clientPassword
  id := i

end Login

namespace Server

/-- The database answers a login with an id, which is not zero. -/
def Gives (s : Server Postgres) (l : Login) (k : UserId) : Prop :=
  (l.check.run s.db).1 = .ok k ∧ k ≠ 0

/-- The users in memory stand under their ids, with the logins of the tables. -/
structure UsersRegistered (s : Server Postgres) : Prop where
  /-- Every query to come succeeds. -/
  faults : s.db.faults = []
  keyed : ∀ k user, s.idClients k = some user → user.id = k
  registered : ∀ k user, s.idClients k = some user →
    ∃ client, ⟨k, client⟩ ∈ s.db.db.clients.rows ∧ client.login = user.login

end Server

variable [Protocol] {s : Server Postgres}

/-- The server after a login. -/
def logIn (s : Server Postgres) (e : World × Login) : Server Postgres :=
  serve WrapperPg.database s ⟨e.1, e.2.call⟩

/-- Of the logins in a run, the last one that succeeded with `k` came from `session`. -/
def LastGivenTo (s : Server Postgres) (logins : List (World × Login)) (k : UserId)
    (session : SessionId) : Prop :=
  Since logIn (fun s e => e.2.session = session ∧ s.Gives e.2 k) (fun s e => ¬ s.Gives e.2 k)
    s logins

/-! ## One login -/

omit [Protocol] in
/-- The answer of the database: zero, or the id of a row with the login. -/
theorem Login.run_check (faults : s.db.faults = []) (l : Login) :
    ∃ i d, l.check.run s.db = (.ok i, d) ∧ d.faults = [] ∧
      (∀ r ∈ s.db.db.clients.rows, r ∈ d.db.clients.rows) ∧
      (i = 0 → d = s.db) ∧
      (i ≠ 0 → ∃ client, ⟨i, client⟩ ∈ d.db.clients.rows ∧
        client.login = l.settings.clientName) := by
  cases l with
  | reg session request =>
    by_cases hfree : s.db.db.clientId request.login = 0
    · refine ⟨_, _, WrapperPg.run_checkRegUser_free faults ⟨request.login, request.password⟩ hfree,
        faults, fun r hr => List.mem_append_left _ hr, ?_, fun _ => ?_⟩
      · exact fun hzero => absurd hzero (Nat.ne_of_gt s.db.db.clients.next_pos)
      · exact ⟨_, List.mem_append_right _ List.mem_cons_self, rfl⟩
    · exact ⟨_, _, WrapperPg.run_checkRegUser_busy faults ⟨request.login, request.password⟩ hfree,
        faults, fun r hr => hr, fun _ => rfl, fun hne => absurd rfl hne⟩
  | auth session request =>
    obtain ⟨i, hrun, hi⟩ :=
      WrapperPg.run_checkAuthUser_spec faults ⟨request.login, request.password⟩
    refine ⟨i, _, hrun, faults, fun r hr => hr, fun _ => rfl, fun hne => ?_⟩
    exact ⟨_, ((hi i).mp ⟨hne, rfl⟩).2, rfl⟩

/-- What a login does, when the database answers it with `i`. -/
theorem logIn_eq (w : World) {l : Login} {i : UserId} {d : Postgres}
    (hcheck : l.check.run s.db = (.ok i, d)) :
    logIn s (w, l) = Server.log
      { s with db := d, idClients := QueryEngine.usersAfter s (l.user i) } w
      (QueryEngine.replies w l.session (l.response i)) := by
  cases l with
  | reg session request =>
    exact congrArg Prod.snd (QueryEngine.run_reg WrapperPg.database w session request hcheck)
  | auth session request =>
    exact congrArg Prod.snd (QueryEngine.run_auth WrapperPg.database w session request hcheck)

/-- A login keeps the users registered. -/
theorem logIn_registered (h : s.UsersRegistered) (e : World × Login) :
    (logIn s e).UsersRegistered := by
  obtain ⟨w, l⟩ := e
  obtain ⟨i, d, hcheck, hfaults, hrows, -, hrow⟩ := l.run_check h.faults
  have hkeep {k : UserId} {user : User} (huser : s.idClients k = some user) :
      ∃ client, ⟨k, client⟩ ∈ d.db.clients.rows ∧ client.login = user.login := by
    obtain ⟨client, hclient, hlogin⟩ := h.registered k user huser
    exact ⟨client, hrows _ hclient, hlogin⟩
  rw [logIn_eq w hcheck]
  by_cases hi : i = 0
  · have hsame : QueryEngine.usersAfter s (l.user i) = s.idClients := if_pos hi
    rw [hsame]
    exact ⟨hfaults, h.keyed, fun k user huser => hkeep huser⟩
  · have hafter : QueryEngine.usersAfter s (l.user i) =
        Function.update s.idClients i (some (UserManager.pushed (s.idClients i) (l.user i))) :=
      if_neg hi
    rw [hafter]
    refine ⟨hfaults, ?_, ?_⟩
    · intro k user huser
      by_cases hk : k = i
      · obtain rfl : UserManager.pushed (s.idClients i) (l.user i) = user := by
          simpa [hk] using huser
        rw [hk]
        exact UserManager.pushed_id (l.user i) (h.keyed i)
      · exact h.keyed k user (by simpa [hk] using huser)
    · intro k user huser
      by_cases hk : k = i
      · subst hk
        obtain rfl : UserManager.pushed (s.idClients k) (l.user k) = user := by
          simpa using huser
        -- a known user keeps its login, a new one has that of the row
        cases hknown : s.idClients k with
        | none => exact hrow hi
        | some known =>
          have hlogin := hkeep hknown
          exact hlogin
      · exact hkeep (by simpa [hk] using huser)

/-! ## Runs of logins -/

theorem foldl_logIn_registered (h : s.UsersRegistered) (logins : List (World × Login)) :
    (logins.foldl logIn s).UsersRegistered :=
  List.foldlRecOn logins logIn h fun _ hs e _ => logIn_registered hs e

/-- The session of a user is the one that it was last given to. -/
theorem lastGivenTo_of_logins (h : s.UsersRegistered) (hnobody : ∀ k, s.idClients k = none)
    (logins : List (World × Login)) {k : UserId} {user : User}
    (huser : (logins.foldl logIn s).idClients k = some user) :
    LastGivenTo s logins k user.session := by
  -- the last login decides: it gives `k` to its session, or leaves the user as it was
  induction logins using List.reverseRecOn generalizing user with
  | nil =>
    rw [List.foldl_nil, hnobody] at huser
    exact absurd huser (by simp)
  | append_singleton logins e ih =>
    obtain ⟨w, l⟩ := e
    obtain ⟨i, d, hcheck, -⟩ := l.run_check (foldl_logIn_registered h logins).faults
    have hgives : (logins.foldl logIn s).Gives l k ↔ i = k ∧ k ≠ 0 := by
      rw [Server.Gives, hcheck, Except.ok.injEq]
    rw [List.foldl_append, List.foldl_cons, List.foldl_nil, logIn_eq w hcheck,
      Server.log_idClients] at huser
    simp only [QueryEngine.usersAfter] at huser
    by_cases hk : i = k ∧ k ≠ 0
    · obtain ⟨rfl, hi⟩ := hk
      refine Since.last ⟨?_, hgives.mpr ⟨rfl, hi⟩⟩
      rw [if_neg (show (l.user i).id ≠ 0 from hi)] at huser
      obtain rfl : _ = user := Option.some.inj (by simpa [Login.user] using huser)
      exact (UserManager.pushed_session _ (l.user i)).symm
    · have hold : (logins.foldl logIn s).idClients k = some user := by
        rw [← huser]
        split
        · rfl
        · next hi =>
          have hne : k ≠ i := fun heq => hk ⟨heq.symm, heq ▸ hi⟩
          exact (Function.update_of_ne hne _ _).symm
      exact (ih hold).append fun hgiven => hk (hgives.mp hgiven)

/-- After any registrations and authentications, every user stands under its own id with the login
of its row and the session of its last login. The next one changes the user under the id that the
database answers it with, and is answered with this id. -/
theorem users_after_logins (faults : s.db.faults = []) (hnobody : ∀ k, s.idClients k = none)
    (logins : List (World × Login)) :
    let t := logins.foldl logIn s
    (∀ k user, t.idClients k = some user →
      user.id = k ∧ (t.db.db.clients.lookup k).map Client.login = some user.login ∧
        LastGivenTo s logins k user.session) ∧
    ∀ w l, ∃ i, (l.check.run t.db).1 = .ok i ∧
      (i = 0 → (logIn t (w, l)).idClients = t.idClients) ∧
      (i ≠ 0 → (∃ user, (logIn t (w, l)).idClients i = some user) ∧
        ∀ k, k ≠ i → (logIn t (w, l)).idClients k = t.idClients k) ∧
      (w.alive l.session = true → (logIn t (w, l)).written =
        t.written ++ [⟨l.session, l.response i, Protocol.serialize (l.response i)⟩]) := by
  have hstart : s.UsersRegistered :=
    ⟨faults, fun k user huser => absurd huser (by simp [hnobody]),
      fun k user huser => absurd huser (by simp [hnobody])⟩
  intro t
  have ht : t.UsersRegistered := foldl_logIn_registered hstart logins
  constructor
  · intro k user huser
    obtain ⟨client, hclient, hlogin⟩ := ht.registered k user huser
    refine ⟨ht.keyed k user huser, ?_, lastGivenTo_of_logins hstart hnobody logins huser⟩
    rw [SerialTable.lookup_eq_some_iff.mpr hclient, Option.map_some, hlogin]
  · intro w l
    -- the check answers with zero, or with the id under which the user is put
    obtain ⟨i, d, hcheck, -⟩ := l.run_check ht.faults
    refine ⟨i, by rw [hcheck], ?_⟩
    rw [logIn_eq w hcheck]
    refine ⟨?_, ?_, ?_⟩
    · exact fun hi => if_pos hi
    · intro hi
      have hafter : QueryEngine.usersAfter t (l.user i) = _ := if_neg hi
      rw [Server.log_idClients, hafter]
      exact ⟨⟨_, Function.update_self ..⟩, fun k hk => Function.update_of_ne hk _ _⟩
    · intro halive
      rw [Server.log_written, QueryEngine.replies, if_pos halive]

omit [Protocol] in
/-- Ann registers over one session and then logs in over another one. -/
theorem users_after_logins_ann :
    letI := Protocol.oneByte
    let s := Server.initial emptyTables
    let logins := [(World.calm, Login.reg 10 ⟨"ann", "a"⟩), (World.calm, .auth 20 ⟨"ann", "a"⟩)]
    ∃ user, (logins.foldl logIn s).idClients 1 = some user ∧ user.id = 1 ∧
      LastGivenTo s logins 1 user.session := by
  let _ := Protocol.oneByte
  obtain ⟨hall, -⟩ := users_after_logins (s := Server.initial emptyTables) rfl (fun _ => rfl)
    [(World.calm, Login.reg 10 ⟨"ann", "a"⟩), (World.calm, .auth 20 ⟨"ann", "a"⟩)]
  refine ⟨⟨20, "ann", "a", 1⟩, rfl, ?_⟩
  obtain ⟨hid, -, hlast⟩ := hall 1 ⟨20, "ann", "a", 1⟩ rfl
  exact ⟨hid, hlast⟩

end GatewayServer
