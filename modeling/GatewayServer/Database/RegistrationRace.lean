import GatewayServer.Database.WrapperPg
import GatewayServer.Lib.Interleaving
import Mathlib.Data.Fintype.Basic

/-!
# Concurrent registrations of one login

`checkRegUser` looks a login up, enters it and looks it up again. Each query is atomic; between
two queries of one call other calls may run. Two calls that both look the login up before either
enters it both succeed.

## Main definitions

* `WrapperPg.RegPoint` — where a call of `checkRegUser` stands
* `WrapperPg.registrations` — calls for one login that run side by side
* `WrapperPg.RegisteredOnce` — at most one call succeeds, and at most one row is entered
* `WrapperPg.NoneChecked` — no call stands between its lookup and its insertion

## Main results

* `registeredOnce_of_noneChecked` — the login is registered once when every call starts while
  no other call stands between its lookup and its insertion
* `not_registeredOnce_interleaved` — two calls that look the login up first
-/

namespace GatewayServer.WrapperPg

open Lib

/-- Where a call of `checkRegUser` stands. -/
inductive RegPoint where
  /-- Before its first query. -/
  | start
  /-- It has found no client with its login, and is about to insert one. -/
  | checked
  /-- It has inserted its client, and is about to look its id up. -/
  | inserted
  | done (id : UserId)
  deriving DecidableEq, Repr

/-- The effect of the lookup of a login. -/
def lookupLogin (login : String) (db : Database) : Option (UserId × Database) :=
  some (db.clientId login, db)

/-- The effect of the insertion of a client. -/
def enterClient (settings : InputSettings) (db : Database) : Option (PUnit × Database) :=
  some (⟨⟩, db.insertClient ⟨settings.clientName, settings.clientPassword⟩)

/-- What a call has left to do. -/
def regCode (settings : InputSettings) : RegPoint → Prog Postgres Exn UserId
  | .start => connected.checkRegUser settings
  | .checked => do
    let _ ← insert (QueryText.checkRegUser settings.clientName settings.clientPassword) fun db =>
      some (db.insertClient ⟨settings.clientName, settings.clientPassword⟩)
    connected.getClientId settings.clientName
  | .inserted => connected.getClientId settings.clientName
  | .done id => return id

/-- The update of the next query of a call. -/
def regEffect (settings : InputSettings) : RegPoint → Postgres → Postgres
  | .start, s => (exec (lookupLogin settings.clientName) s).2
  | .checked, s => (exec (enterClient settings) s).2
  | .inserted, s => (exec (lookupLogin settings.clientName) s).2
  | .done _, s => s

/-- Where the next query of a call leads it. -/
def regNext (settings : InputSettings) : RegPoint → Postgres → RegPoint
  | .start, s =>
    if (exec (lookupLogin settings.clientName) s).1.getD REG_LOGIN_IS_BUSY = LOGIN_IS_FREE then
      .checked
    else
      .done LOGIN_IS_FREE
  | .checked, _ => .inserted
  | .inserted, s => .done ((exec (lookupLogin settings.clientName) s).1.getD REG_LOGIN_IS_BUSY)
  | .done id, _ => .done id

/-- `checkRegUser` through its control points. -/
def regPoints (settings : InputSettings) : ControlPoints Postgres Exn UserId RegPoint where
  code := regCode settings
  effect := regEffect settings
  next := regNext settings
  sound := by
    intro p
    cases p with
    | start =>
      left
      -- the answer to the first query decides between two programs, not between two points
      have hnext : ∀ s, regCode settings (regNext settings .start s) =
          if (exec (lookupLogin settings.clientName) s).1.getD REG_LOGIN_IS_BUSY =
              LOGIN_IS_FREE then
            regCode settings .checked
          else
            regCode settings (.done LOGIN_IS_FREE) := by
        intro s
        exact apply_ite (regCode settings) _ _ _
      simp only [hnext]
      rfl
    | checked => exact Or.inl rfl
    | inserted => exact Or.inl rfl
    | done id => exact Or.inr ⟨Or.inl ⟨id, rfl⟩, fun _ => ⟨rfl, rfl⟩⟩

/-- Only a call that is done has a result. -/
theorem eq_done_of_regCode {settings : InputSettings} {p : RegPoint} {a : UserId}
    (h : regCode settings p = .ret a) : p = .done a := by
  cases p with
  | start => exact absurd h (by intro h; cases h)
  | checked => exact absurd h (by intro h; cases h)
  | inserted => exact absurd h (by intro h; cases h)
  | done id =>
    obtain rfl : id = a := by
      injection h
    rfl

variable {ι : Type} [DecidableEq ι]

/-- Calls of `checkRegUser` with one login, about to start. -/
def registrations (login : String) (passwords : ι → String) (s : Postgres) :
    Pool Postgres Exn UserId ι where
  shared := s
  threads i := connected.checkRegUser ⟨login, passwords i⟩

/-- At most one call has returned an id, and at most one row has the login. -/
def RegisteredOnce (login : String) (c : Pool Postgres Exn UserId ι) : Prop :=
  (∀ i j a b, c.threads i = .ret a → a ≠ 0 → c.threads j = .ret b → b ≠ 0 → i = j) ∧
    ∀ r ∈ c.shared.db.clients.rows, ∀ r' ∈ c.shared.db.clients.rows,
      r.data.login = login → r'.data.login = login → r = r'

/-- A call may start only while no call stands between its lookup and its insertion. -/
def NoneChecked (m : Machine Postgres ι RegPoint) (i : ι) : Prop :=
  m.points i = .start → ∀ j, m.points j ≠ .checked

instance [Fintype ι] (m : Machine Postgres ι RegPoint) (i : ι) : Decidable (NoneChecked m i) :=
  inferInstanceAs (Decidable (_ → ∀ _, _))

/-! ## One registration at a time -/

/-- The step of a registration, seen through its control points. -/
abbrev regStep (login : String) (passwords : ι → String) :
    Machine Postgres ι RegPoint → ι → Machine Postgres ι RegPoint :=
  Machine.step fun i => regPoints ⟨login, passwords i⟩

/-- The call has inserted the row of the login. -/
def RegPoint.Owns (p : RegPoint) : Prop := p = .inserted ∨ ∃ id, id ≠ 0 ∧ p = .done id

/-- What holds while no call starts in between the lookup and the insertion of another. -/
structure RegInvariant (login : String) (m : Machine Postgres ι RegPoint) : Prop where
  faults : m.shared.faults = []
  checked_unique : ∀ i j, m.points i = .checked → m.points j = .checked → i = j
  checked_free : ∀ i, m.points i = .checked → m.shared.db.clientId login = 0
  owner_unique : ∀ i j, (m.points i).Owns → (m.points j).Owns → i = j
  owner_row : ∀ i, (m.points i).Owns → m.shared.db.clientId login ≠ 0
  row_unique : ∀ r ∈ m.shared.db.clients.rows, ∀ r' ∈ m.shared.db.clients.rows,
    r.data.login = login → r'.data.login = login → r = r'

theorem exec_lookupLogin {s : Postgres} (faults : s.faults = []) (login : String) :
    exec (lookupLogin login) s = (some (s.db.clientId login), s) :=
  exec_some faults rfl

theorem exec_enterClient {s : Postgres} (faults : s.faults = []) (settings : InputSettings) :
    exec (enterClient settings) s =
      (some ⟨⟩,
        { s with db := s.db.insertClient ⟨settings.clientName, settings.clientPassword⟩ }) :=
  exec_some faults rfl

theorem RegPoint.not_owns_checked : ¬ RegPoint.Owns .checked := by
  rintro (h | ⟨id, -, h⟩) <;> cases h

theorem RegPoint.not_owns_done_zero : ¬ RegPoint.Owns (.done 0) := by
  rintro (h | ⟨id, hid, h⟩)
  · cases h
  · cases h
    exact hid rfl

/-- A call that moves without touching the tables, and owns the row only if it did before. -/
theorem RegInvariant.move {login : String} {m : Machine Postgres ι RegPoint}
    (h : RegInvariant login m) {i : ι} {p : RegPoint}
    (hchecked : p = .checked →
      (∀ j, m.points j ≠ .checked) ∧ m.shared.db.clientId login = 0)
    (howns : p.Owns → (m.points i).Owns) :
    RegInvariant login ⟨m.shared, Function.update m.points i p⟩ := by
  -- only `i` has moved: every other call stands where it stood
  have hmoved : ∀ j, Function.update m.points i p j = .checked →
      j = i ∧ p = .checked ∨ j ≠ i ∧ m.points j = .checked := by
    intro j hj
    by_cases hji : j = i
    · subst hji
      exact Or.inl ⟨rfl, by simpa using hj⟩
    · exact Or.inr ⟨hji, by simpa [Function.update_of_ne hji] using hj⟩
  have howner : ∀ j, (Function.update m.points i p j).Owns → (m.points j).Owns := by
    intro j hj
    by_cases hji : j = i
    · subst hji
      exact howns (by simpa using hj)
    · simpa [Function.update_of_ne hji] using hj
  constructor
  · exact h.faults
  · intro j k hj hk
    rcases hmoved j hj with ⟨hji, hp⟩ | ⟨-, hj'⟩
    · rcases hmoved k hk with ⟨hki, -⟩ | ⟨-, hk'⟩
      · rw [hji, hki]
      · exact absurd hk' ((hchecked hp).1 k)
    · rcases hmoved k hk with ⟨-, hp⟩ | ⟨-, hk'⟩
      · exact absurd hj' ((hchecked hp).1 j)
      · exact h.checked_unique j k hj' hk'
  · intro j hj
    rcases hmoved j hj with ⟨-, hp⟩ | ⟨-, hj⟩
    · exact (hchecked hp).2
    · exact h.checked_free j hj
  · intro j k hj hk
    exact h.owner_unique j k (howner j hj) (howner k hk)
  · intro j hj
    exact h.owner_row j (howner j hj)
  · exact h.row_unique

/-- The call that found the login free enters the only row with it. -/
theorem RegInvariant.enter {login password : String} {m : Machine Postgres ι RegPoint}
    (h : RegInvariant login m) {i : ι} (hi : m.points i = .checked) :
    RegInvariant login
      ⟨{ m.shared with db := m.shared.db.insertClient ⟨login, password⟩ },
        Function.update m.points i .inserted⟩ := by
  have hfree : m.shared.db.clientId login = 0 := h.checked_free i hi
  have hid : (m.shared.db.insertClient ⟨login, password⟩).clientId login ≠ 0 := by
    have hnext : (m.shared.db.insertClient ⟨login, password⟩).clientId login =
        m.shared.db.clients.next := SerialTable.firstId_insert_of_none hfree (by simp)
    rw [hnext]
    exact Nat.ne_of_gt m.shared.db.clients.next_pos
  have hnew : ∀ r ∈ (m.shared.db.insertClient ⟨login, password⟩).clients.rows,
      r.data.login = login → r = ⟨m.shared.db.clients.next, ⟨login, password⟩⟩ := by
    intro r hr hlogin
    rcases List.mem_append.mp hr with hold | hnew
    · have hnone := SerialTable.firstId_eq_zero_iff_forall.mp hfree r hold
      exact absurd (by simpa using hlogin) hnone
    · exact List.mem_singleton.mp hnew
  -- `i` was the only call past its lookup, and it has inserted now
  have hnochecked : ∀ j, Function.update m.points i .inserted j ≠ .checked := by
    intro j hj
    by_cases hji : j = i
    · subst hji
      simp at hj
    · rw [Function.update_of_ne hji] at hj
      exact hji (h.checked_unique j i hj hi)
  have howner : ∀ j, (Function.update m.points i .inserted j).Owns → j = i := by
    intro j hj
    -- an earlier owner would have left a row, and `i` found none
    by_contra hji
    rw [Function.update_of_ne hji] at hj
    exact h.owner_row j hj hfree
  constructor
  · exact h.faults
  · intro j k hj
    exact absurd hj (hnochecked j)
  · intro j hj
    exact absurd hj (hnochecked j)
  · intro j k hj hk
    rw [howner j hj, howner k hk]
  · intro _ _
    exact hid
  · intro r hr r' hr' hlogin hlogin'
    rw [hnew r hr hlogin, hnew r' hr' hlogin']

theorem RegInvariant.step {login : String} {passwords : ι → String}
    {m : Machine Postgres ι RegPoint} (h : RegInvariant login m) {i : ι}
    (hi : NoneChecked m i) : RegInvariant login (regStep login passwords m i) := by
  have hlookup := exec_lookupLogin h.faults login
  unfold regStep Machine.step
  cases hp : m.points i with
  | start =>
    simp only [regPoints, regEffect, regNext, hlookup, Option.getD_some]
    apply h.move
    -- the condition on the schedule says that no other call is past its lookup
    · intro hchecked
      by_cases hfree : m.shared.db.clientId login = LOGIN_IS_FREE
      · exact ⟨hi hp, hfree⟩
      · rw [if_neg hfree] at hchecked
        cases hchecked
    · intro howns
      split at howns
      · exact absurd howns RegPoint.not_owns_checked
      · exact absurd howns RegPoint.not_owns_done_zero
  | checked =>
    -- the step that needs the invariant: the login is still free
    have henter := exec_enterClient h.faults ⟨login, passwords i⟩
    simp only [regPoints, regEffect, regNext, henter]
    exact h.enter hp
  | inserted =>
    simp only [regPoints, regEffect, regNext, hlookup, Option.getD_some]
    apply h.move
    · intro hchecked
      cases hchecked
    · intro _
      exact hp ▸ Or.inl rfl
  | done id =>
    simp only [regPoints, regEffect, regNext]
    apply h.move
    · intro hchecked
      cases hchecked
    · intro howns
      exact hp ▸ howns

omit [DecidableEq ι] in
theorem regInvariant_start {login : String} {s : Postgres} (faults : s.faults = [])
    (absent : ∀ r ∈ s.db.clients.rows, r.data.login ≠ login) :
    RegInvariant login (⟨s, fun _ => .start⟩ : Machine Postgres ι RegPoint) := by
  have hnoowner : ¬ RegPoint.Owns .start := by
    rintro (h | ⟨id, -, h⟩) <;> cases h
  constructor
  · exact faults
  · intro i j hi
    cases hi
  · intro i hi
    cases hi
  · intro i j hi
    exact absurd hi hnoowner
  · intro i hi
    exact absurd hi hnoowner
  · intro r hr _ _ hlogin
    exact absurd hlogin (absent r hr)

/-- The registrations run as the machine of their control points. -/
theorem registrations_run (login : String) (passwords : ι → String) (s : Postgres)
    (schedule : List ι) :
    (registrations login passwords s).run schedule =
      (schedule.foldl (regStep login passwords) ⟨s, fun _ => .start⟩).pool
        fun i => regPoints ⟨login, passwords i⟩ :=
  Pool.foldl_step_code (fun i => regPoints ⟨login, passwords i⟩)
    (⟨s, fun _ => .start⟩ : Machine Postgres ι RegPoint) schedule

/-- The login is registered once in every run in which calls start only while no other call
stands between its lookup and its insertion. -/
theorem registeredOnce_of_noneChecked {login : String} {passwords : ι → String} {s : Postgres}
    (faults : s.faults = []) (absent : ∀ r ∈ s.db.clients.rows, r.data.login ≠ login)
    {schedule : List ι}
    (hschedule : Along (regStep login passwords) NoneChecked ⟨s, fun _ => .start⟩ schedule) :
    RegisteredOnce login ((registrations login passwords s).run schedule) := by
  have hkeep : ∀ (m : Machine Postgres ι RegPoint) (i : ι), RegInvariant login m →
      NoneChecked m i → RegInvariant login (regStep login passwords m i) :=
    fun m i hm hi => hm.step hi
  have hinv := foldl_invariant hkeep (regInvariant_start faults absent) hschedule
  rw [registrations_run]
  constructor
  · intro i j a b hi ha hj hb
    refine hinv.owner_unique i j (Or.inr ⟨a, ha, ?_⟩) (Or.inr ⟨b, hb, ?_⟩)
    · exact eq_done_of_regCode hi
    · exact eq_done_of_regCode hj
  · exact hinv.row_unique

/-- The second call looks the login up between the insertion and the last lookup of the first. -/
theorem registeredOnce_of_noneChecked_overlapping :
    RegisteredOnce "ann" ((registrations "ann" (fun i : Fin 2 => if i = 0 then "a" else "b")
      { db := .empty }).run [0, 0, 1, 0, 1, 1]) := by
  exact registeredOnce_of_noneChecked rfl (by simp [Database.empty]) (by decide)

/-- Two calls that both look the login up before either inserts it. -/
theorem not_registeredOnce_interleaved :
    ¬ ∀ schedule : List (Fin 2),
      RegisteredOnce "ann" ((registrations "ann" (fun i => if i = 0 then "a" else "b")
        { db := .empty }).run schedule) := by
  intro hall
  -- both calls find the login free, insert it, and are given the id of the first row
  have honce := (hall [0, 1, 0, 1, 0, 1]).1 0 1 1 1 rfl (by decide) rfl (by decide)
  exact absurd honce (by decide)

/-! ## The condition is exact -/

/-- The call has found the login free, or has inserted its row. -/
def RegPoint.Passed (p : RegPoint) : Prop := p = .checked ∨ p.Owns

/-- A row of the login is there once some call has inserted one. -/
structure RegProgress (login : String) (m : Machine Postgres ι RegPoint) : Prop where
  faults : m.shared.faults = []
  owner_row : ∀ i, (m.points i).Owns → m.shared.db.clientId login ≠ 0

theorem clientId_insertClient_ne_zero (db : Database) (login password : String) :
    (db.insertClient ⟨login, password⟩).clientId login ≠ 0 := by
  have hmem : ⟨db.clients.next, ⟨login, password⟩⟩ ∈
      (db.insertClient ⟨login, password⟩).clients.rows :=
    List.mem_append_right _ List.mem_cons_self
  exact SerialTable.firstId_ne_zero_of_mem hmem (by simp)

/-- One query of one call: a row that is there stays, a call that inserts has a row, and a call
past its lookup stays past it. -/
theorem regNext_progress (settings : InputSettings) {s : Postgres} (faults : s.faults = [])
    {p : RegPoint} (hrow : p.Owns → s.db.clientId settings.clientName ≠ 0) :
    (regEffect settings p s).faults = [] ∧
      (s.db.clientId settings.clientName ≠ 0 →
        (regEffect settings p s).db.clientId settings.clientName ≠ 0) ∧
      ((regNext settings p s).Owns →
        (regEffect settings p s).db.clientId settings.clientName ≠ 0) ∧
      (p.Passed → (regNext settings p s).Passed) := by
  have hlookup := exec_lookupLogin faults settings.clientName
  have henter := exec_enterClient faults settings
  cases p with
  | start =>
    simp only [regEffect, regNext, hlookup, Option.getD_some]
    refine ⟨faults, fun h => h, ?_, ?_⟩
    -- after its lookup a call has no row yet
    · intro howns
      split at howns
      · exact absurd howns RegPoint.not_owns_checked
      · exact absurd howns RegPoint.not_owns_done_zero
    · rintro (h | h | ⟨id, -, h⟩) <;> cases h
  | checked =>
    simp only [regEffect, regNext, henter]
    have hid := clientId_insertClient_ne_zero s.db settings.clientName settings.clientPassword
    exact ⟨faults, fun _ => hid, fun _ => hid, fun _ => Or.inr (Or.inl rfl)⟩
  | inserted =>
    simp only [regEffect, regNext, hlookup, Option.getD_some]
    have hid := hrow (Or.inl rfl)
    exact ⟨faults, fun h => h, fun _ => hid, fun _ => Or.inr (Or.inr ⟨_, hid, rfl⟩)⟩
  | done id =>
    exact ⟨faults, fun h => h, hrow, fun h => h⟩

/-- A step keeps the progress made, and a call past its lookup stays past it. -/
theorem RegProgress.step {login : String} {m : Machine Postgres ι RegPoint}
    (h : RegProgress login m) (passwords : ι → String) (i : ι) :
    RegProgress login (regStep login passwords m i) ∧
      ∀ j, (m.points j).Passed → ((regStep login passwords m i).points j).Passed := by
  obtain ⟨hfaults, hkept, hself, hpassed⟩ :=
    regNext_progress ⟨login, passwords i⟩ h.faults (h.owner_row i)
  refine ⟨⟨hfaults, ?_⟩, ?_⟩
  · intro j hj
    by_cases hji : j = i
    · subst hji
      exact hself (by rwa [Machine.step_points_self] at hj)
    · exact hkept (h.owner_row j (by rwa [Machine.step_points_of_ne _ _ hji] at hj))
  · intro j hj
    by_cases hji : j = i
    · subst hji
      rw [Machine.step_points_self]
      exact hpassed hj
    · rwa [Machine.step_points_of_ne _ _ hji]

theorem RegProgress.foldl_passed {login : String} {m : Machine Postgres ι RegPoint}
    (h : RegProgress login m) (passwords : ι → String) (schedule : List ι) {j : ι}
    (hj : (m.points j).Passed) :
    ((schedule.foldl (regStep login passwords) m).points j).Passed := by
  induction schedule generalizing m with
  | nil => exact hj
  | cons i schedule ih =>
    obtain ⟨hprogress, hpassed⟩ := h.step passwords i
    exact ih hprogress (hpassed j hj)

/-- When all calls have returned, the login was registered once only if every call started while
no other stood between its lookup and its insertion. -/
theorem noneChecked_of_registeredOnce {login : String} {passwords : ι → String} {s : Postgres}
    (faults : s.faults = []) (absent : ∀ r ∈ s.db.clients.rows, r.data.login ≠ login)
    {schedule : List ι}
    (hdone : ∀ i, ∃ a, ((registrations login passwords s).run schedule).threads i = .ret a)
    (honce : RegisteredOnce login ((registrations login passwords s).run schedule)) :
    Along (regStep login passwords) NoneChecked ⟨s, fun _ => .start⟩ schedule := by
  by_contra hschedule
  obtain ⟨pre, i, post, rfl, hpre, hi⟩ := exists_first_of_not_along hschedule
  have hkeep : ∀ (m : Machine Postgres ι RegPoint) (i : ι), RegInvariant login m →
      NoneChecked m i → RegInvariant login (regStep login passwords m i) :=
    fun m i hm hi => hm.step hi
  have hinv := foldl_invariant hkeep (regInvariant_start faults absent) hpre
  rw [registrations_run, List.foldl_append, List.foldl_cons] at hdone honce
  generalize pre.foldl (regStep login passwords) ⟨s, fun _ => .start⟩ = m at hinv hi hdone honce
  obtain ⟨hstart, j, hj⟩ : m.points i = .start ∧ ∃ j, m.points j = .checked := by
    simpa [NoneChecked] using hi
  -- nobody has inserted yet, so the lookup finds the login free a second time
  have hij : i ≠ j := by
    rintro rfl
    rw [hstart] at hj
    cases hj
  have hnext : (regStep login passwords m i).points i = .checked := by
    rw [Machine.step_points_self]
    simp only [regPoints, hstart, regNext, exec_lookupLogin hinv.faults, Option.getD_some,
      hinv.checked_free j hj, if_true]
  have hprogress : RegProgress login m := ⟨hinv.faults, hinv.owner_row⟩
  obtain ⟨hprogress, hpassed⟩ := hprogress.step passwords i
  -- both calls are past their lookups, and so both return an id in the end
  have hi := hprogress.foldl_passed passwords post (Or.inl hnext)
  have hj := hprogress.foldl_passed passwords post (hpassed j (Or.inl hj))
  have hreturned : ∀ k, ((post.foldl (regStep login passwords)
      (regStep login passwords m i)).points k).Passed →
      ∃ a, a ≠ 0 ∧ ((post.foldl (regStep login passwords)
        (regStep login passwords m i)).pool
          fun i => regPoints ⟨login, passwords i⟩).threads k = .ret a := by
    intro k hk
    obtain ⟨a, ha⟩ := hdone k
    have hpoint := eq_done_of_regCode ha
    refine ⟨a, ?_, ha⟩
    rintro rfl
    rw [hpoint] at hk
    rcases hk with hk | hk
    · cases hk
    · exact RegPoint.not_owns_done_zero hk
  obtain ⟨a, ha, hia⟩ := hreturned i hi
  obtain ⟨b, hb, hjb⟩ := hreturned j hj
  exact hij (honce.1 i j a b hia ha hjb hb)

/-- The second of two calls that overlap is refused. -/
theorem noneChecked_of_registeredOnce_overlapping :
    Along (regStep "ann" fun i : Fin 2 => if i = 0 then "a" else "b") NoneChecked
      ⟨{ db := .empty }, fun _ => .start⟩ [0, 0, 1, 0, 1, 1] := by
  have hfirst : ((registrations "ann" (fun i : Fin 2 => if i = 0 then "a" else "b")
      { db := .empty }).run [0, 0, 1, 0, 1, 1]).threads 0 = .ret 1 := rfl
  have hsecond : ((registrations "ann" (fun i : Fin 2 => if i = 0 then "a" else "b")
      { db := .empty }).run [0, 0, 1, 0, 1, 1]).threads 1 = .ret 0 := rfl
  have hrows : ((registrations "ann" (fun i : Fin 2 => if i = 0 then "a" else "b")
      { db := .empty }).run [0, 0, 1, 0, 1, 1]).shared.db.clients.rows =
        [⟨1, ⟨"ann", "a"⟩⟩] := rfl
  refine noneChecked_of_registeredOnce rfl (by simp [Database.empty]) ?_ ⟨?_, ?_⟩
  · rw [Fin.forall_fin_two]
    exact ⟨⟨1, hfirst⟩, ⟨0, hsecond⟩⟩
  · have hzero : ∀ (i : Fin 2) (a : UserId),
        ((registrations "ann" (fun i : Fin 2 => if i = 0 then "a" else "b")
          { db := .empty }).run [0, 0, 1, 0, 1, 1]).threads i = .ret a → a ≠ 0 → i = 0 := by
      rw [Fin.forall_fin_two]
      refine ⟨fun _ _ _ => rfl, fun a ha hne => ?_⟩
      rw [hsecond] at ha
      exact absurd (Prog.ret.inj ha).symm hne
    intro i j a b hi ha hj hb
    rw [hzero i a hi ha, hzero j b hj hb]
  · intro r hr r' hr' _ _
    rw [hrows] at hr hr'
    rw [List.mem_singleton.mp hr, List.mem_singleton.mp hr']

end GatewayServer.WrapperPg
