import GatewayServer.Channels.Coherence
import GatewayServer.Lib.Interleaving
import Mathlib.Data.Fintype.Basic

/-!
# Concurrent creations of one channel

`createOrGetChannelByName` asks for a name, creates it with three queries, makes an object and
only then takes the mutex to store it. Between these steps other calls may run. A second call
that asks before the name is inserted creates the channel again; one that looks into the registry
before the object is stored makes another object.

## Main definitions

* `CreatePoint` — where a call of `createOrGetChannelByName` stands
* `creations` — calls for one name that run side by side
* `AgreeOn` — the calls that have returned share one object, which the registry and the table have
* `NoneCreating` — no call asks or looks while another is creating

## Main results

* `agreeOn_of_noneCreating` — the calls agree when none asks or looks at the wrong time
* `not_agreeOn_interleaved` — two calls that both ask first
-/

namespace GatewayServer.ChannelsManager

open Lib

/-- Where a call of `createOrGetChannelByName` stands. -/
inductive CreatePoint where
  /-- Before `hasChannel`. -/
  | start
  /-- The database does not have the name; before the first lookup of `createChannel`. -/
  | creating
  /-- Before the insertion of the name. -/
  | absent
  /-- Before the lookup of the new id. -/
  | inserted
  /-- Before the object for the id is made. -/
  | making (channelId : UserId)
  /-- Before the object is stored. -/
  | storing (channelId : UserId) (channel : ChannelPtr)
  /-- The database has the name; before the lookup of its id. -/
  | found
  /-- Before the critical section for a name that the database has. -/
  | getting (channelId : UserId)
  | done (channel : ChannelPtr)
  | failed (e : Exn)
  deriving DecidableEq, Repr

variable [Protocol]

/-- The last steps of a call that creates a channel. -/
def makeAndStore (n : String) (channelId : UserId) : Prog (Server Postgres) Exn ChannelPtr := do
  let channel ← Channel.makeShared WrapperPg.database n channelId
  store channelId channel
  return channel

/-- What a call has left to do. -/
def createCode (n : String) : CreatePoint → Prog (Server Postgres) Exn ChannelPtr
  | .start => createOrGetChannelByName WrapperPg.database n
  | .creating => do
    let channelId ← Server.inDb (WrapperPg.connected.createChannel n)
    makeAndStore n channelId
  | .absent => do
    let channelId ← Server.inDb do
      let _ ← WrapperPg.insert (QueryText.createChannel n) fun db => some (db.insertChannel n)
      WrapperPg.connected.getChannelId n
    makeAndStore n channelId
  | .inserted => do
    let channelId ← Server.inDb (WrapperPg.connected.getChannelId n)
    makeAndStore n channelId
  | .making channelId => makeAndStore n channelId
  | .storing channelId channel => do
    store channelId channel
    return channel
  | .found => do
    let channelId ← Server.inDb (WrapperPg.connected.getChannelId n)
    getOrMake WrapperPg.database n channelId
  | .getting channelId => getOrMake WrapperPg.database n channelId
  | .done channel => return channel
  | .failed e => .throw e

omit [Protocol] in
/-- The answer of the query of `hasChannel`. -/
def askName (n : String) (db : Database) : Option (Bool × Database) :=
  some (!(db.channels.select fun m' => m' = n).isEmpty, db)

omit [Protocol] in
/-- The answer of the query of `getChannelId`. -/
def lookupName (n : String) (db : Database) : Option (UserId × Database) :=
  some (db.channelId n, db)

omit [Protocol] in
/-- The effect of the insertion of a name. -/
def enterName (n : String) (db : Database) : Option (PUnit × Database) :=
  some (⟨⟩, db.insertChannel n)

omit [Protocol] in
/-- A query as a step of the server. -/
def onDb {β : Type} (effect : Database → Option (β × Database)) (s : Server Postgres) :
    Server Postgres :=
  { s with db := (WrapperPg.exec effect s.db).2 }

/-- The update of the next step of a call. -/
def createEffect (n : String) : CreatePoint → Server Postgres → Server Postgres
  | .start, s => onDb (askName n) s
  | .creating, s => onDb (lookupName n) s
  | .absent, s => onDb (enterName n) s
  | .inserted, s => onDb (lookupName n) s
  | .making channelId, s => ((Channel.makeShared WrapperPg.database n channelId).run s).2
  | .storing channelId channel, s =>
    { s with idChannels := Function.update s.idChannels channelId (some channel) }
  | .found, s => onDb (lookupName n) s
  | .getting channelId, s => ((getOrMake WrapperPg.database n channelId).run s).2
  | .done _, s => s
  | .failed _, s => s

omit [Protocol] in
/-- Where an outcome leads. -/
def CreatePoint.ofExcept (next : ChannelPtr → CreatePoint) : Except Exn ChannelPtr → CreatePoint
  | .ok channel => next channel
  | .error e => .failed e

/-- Where the next step of a call leads it. -/
def createNext (n : String) : CreatePoint → Server Postgres → CreatePoint
  | .start, s =>
    match (WrapperPg.exec (askName n) s.db).1 with
    | some true => .found
    | some false => .creating
    | none => .failed (.invalidArgument "wrong hasChannel")
  | .creating, s =>
    let channelId := (WrapperPg.exec (lookupName n) s.db).1.getD LOGIN_IS_FREE
    if channelId = LOGIN_IS_FREE then .absent else .making channelId
  | .absent, _ => .inserted
  | .inserted, s => .making ((WrapperPg.exec (lookupName n) s.db).1.getD LOGIN_IS_FREE)
  | .making channelId, s =>
    .ofExcept (.storing channelId) ((Channel.makeShared WrapperPg.database n channelId).run s).1
  | .storing _ channel, _ => .done channel
  | .found, s => .getting ((WrapperPg.exec (lookupName n) s.db).1.getD LOGIN_IS_FREE)
  | .getting channelId, s =>
    .ofExcept .done ((getOrMake WrapperPg.database n channelId).run s).1
  | .done channel, _ => .done channel
  | .failed e, _ => .failed e

/-- `createOrGetChannelByName` through its control points. -/
def createPoints (n : String) : ControlPoints (Server Postgres) Exn ChannelPtr CreatePoint where
  code := createCode n
  effect := createEffect n
  next := createNext n
  sound := by
    intro p
    cases p with
    | start =>
      -- `k` is what `hasChannel` goes on with; each answer leads to the code of a point
      let k : Option Bool → Prog (Server Postgres) Exn ChannelPtr := fun res => do
        let found ← Server.inDb (match res with
          | some result => return result
          | none => .throw (.invalidArgument "wrong hasChannel"))
        if found then createCode n .found else createCode n .creating
      have hk : ∀ res, k res = createCode n (match res with
          | some true => .found
          | some false => .creating
          | none => .failed (.invalidArgument "wrong hasChannel")) := by
        intro res
        rcases res with - | (- | -) <;> rfl
      have hcode : createCode n .start =
          .step (createEffect n .start) fun s => k (WrapperPg.exec (askName n) s.db).1 := rfl
      left
      rw [hcode]
      exact congrArg _ (funext fun s => hk _)
    | creating =>
      have hcode : createCode n .creating = .step (createEffect n .creating) fun s =>
          Server.inDb (
            let channelId := (WrapperPg.exec (lookupName n) s.db).1.getD LOGIN_IS_FREE
            if channelId = LOGIN_IS_FREE then do
              let _ ← WrapperPg.insert (QueryText.createChannel n) fun db =>
                some (db.insertChannel n)
              WrapperPg.connected.getChannelId n
            else return channelId) >>= makeAndStore n := rfl
      left
      rw [hcode]
      refine congrArg _ (funext fun s => ?_)
      simp only [createNext]
      split <;> rfl
    | absent => exact Or.inl rfl
    | inserted => exact Or.inl rfl
    | making channelId =>
      have hmake : Channel.makeShared WrapperPg.database n channelId =
          .step (createEffect n (.making channelId)) fun s =>
            .ofExcept ((Channel.makeShared WrapperPg.database n channelId).run s).1 :=
        Prog.atomically_eq _
      have hcode : createCode n (.making channelId) =
          .step (createEffect n (.making channelId)) fun s =>
            .ofExcept ((Channel.makeShared WrapperPg.database n channelId).run s).1 >>=
              fun channel => createCode n (.storing channelId channel) :=
        congrArg (· >>= fun channel => createCode n (.storing channelId channel)) hmake
      left
      rw [hcode]
      refine congrArg _ (funext fun s => ?_)
      simp only [createNext]
      cases ((Channel.makeShared WrapperPg.database n channelId).run s).1 <;> rfl
    | storing channelId channel => exact Or.inl rfl
    | found => exact Or.inl rfl
    | getting channelId =>
      have hcode : createCode n (.getting channelId) =
          .step (createEffect n (.getting channelId)) fun s =>
            .ofExcept ((getOrMake WrapperPg.database n channelId).run s).1 :=
        Prog.atomically_eq _
      left
      rw [hcode]
      refine congrArg _ (funext fun s => ?_)
      simp only [createNext]
      cases ((getOrMake WrapperPg.database n channelId).run s).1 <;> rfl
    | done channel => exact Or.inr ⟨Or.inl ⟨channel, rfl⟩, fun _ => ⟨rfl, rfl⟩⟩
    | failed e => exact Or.inr ⟨Or.inr ⟨e, rfl⟩, fun _ => ⟨rfl, rfl⟩⟩

/-! ## Calls side by side -/

section Calls

variable {ι : Type}

/-- Calls for one name, about to start. -/
def creations (ι : Type) (n : String) (s : Server Postgres) :
    Pool (Server Postgres) Exn ChannelPtr ι where
  shared := s
  threads _ := createOrGetChannelByName WrapperPg.database n

/-- No call has failed, and the calls that have returned share one object. It is stored under its
id, this is the id of the only row with the name, and a later call returns the object as well. -/
def AgreeOn (n : String) (c : Pool (Server Postgres) Exn ChannelPtr ι) : Prop :=
  (∀ i e, c.threads i ≠ .throw e) ∧
    ∀ i p, c.threads i = .ret p →
      (∀ j q, c.threads j = .ret q → q = p) ∧
      ∃ k idUsers, c.shared.idChannels k = some p ∧
        c.shared.objects[p]? = some ⟨n, k, idUsers⟩ ∧
        (c.shared.db.db.channels.select fun m' => m' = n) = [⟨k, n⟩] ∧
        (createOrGetChannelByName WrapperPg.database n).run c.shared = (.ok p, c.shared)

omit [Protocol] in
/-- The call has been told that the name is missing, and has not inserted it yet. -/
def CreatePoint.isCreating : CreatePoint → Bool
  | .creating => true
  | .absent => true
  | _ => false

omit [Protocol] in
/-- The call has inserted the name, and has not stored its object yet. -/
def CreatePoint.isStoring : CreatePoint → Bool
  | .inserted => true
  | .making _ => true
  | .storing _ _ => true
  | _ => false

omit [Protocol] in
/-- The call is about to enter the critical section for a name that was there. -/
def CreatePoint.isGetting : CreatePoint → Bool
  | .getting _ => true
  | _ => false

/-- A call may ask for the name only while no other call is about to insert it, and may look into
the registry only while no other call is about to store its object. -/
def NoneCreating (m : Machine (Server Postgres) ι CreatePoint) (i : ι) : Prop :=
  (m.points i = .start → ∀ j, (m.points j).isCreating = false) ∧
    ((m.points i).isGetting = true → ∀ j, (m.points j).isStoring = false)

instance [Fintype ι] (m : Machine (Server Postgres) ι CreatePoint) (i : ι) :
    Decidable (NoneCreating m i) :=
  inferInstanceAs (Decidable ((_ → ∀ _, _) ∧ (_ → ∀ _, _)))

/-! ## The phases of a creation -/

omit [Protocol] in
/-- A call that does not create, before its critical section. -/
def CreatePoint.Waits (k : UserId) : CreatePoint → Prop
  | .start => True
  | .found => True
  | .getting channelId => channelId = k
  | _ => False

omit [Protocol] in
/-- The call that creates, between its insertion and its critical section. -/
def CreatePoint.Stores (n : String) (k : UserId) (s : Server Postgres) : CreatePoint → Prop
  | .inserted => True
  | .making channelId => channelId = k
  | .storing channelId channel =>
    channelId = k ∧ ∃ idUsers, s.objects[channel]? = some ⟨n, k, idUsers⟩
  | _ => False

/-- The name is missing, entered, or entered and stored. Each phase says where the calls may
stand in it. -/
inductive CreatePhase (n : String) (m : Machine (Server Postgres) ι CreatePoint) : Prop where
  | missing (hn : m.shared.db.db.channelId n = 0)
      (hpoints : ∀ i, m.points i = .start ∨ (m.points i).isCreating = true)
      (hunique : ∀ i j, (m.points i).isCreating = true → (m.points j).isCreating = true → i = j)
  | entered (k : UserId) (i : ι)
      (hrow : (m.shared.db.db.channels.select fun m' => m' = n) = [⟨k, n⟩])
      (hcreator : (m.points i).Stores n k m.shared)
      (hothers : ∀ j, j ≠ i → (m.points j).Waits k)
  | stored (k : UserId) (p : ChannelPtr) (idUsers : Finset UserId)
      (hrow : (m.shared.db.db.channels.select fun m' => m' = n) = [⟨k, n⟩])
      (hp : m.shared.idChannels k = some p)
      (hobject : m.shared.objects[p]? = some ⟨n, k, idUsers⟩)
      (hpoints : ∀ i, (m.points i).Waits k ∨ m.points i = .done p)

/-- Queries succeed, and the creation is in one of its phases. -/
structure CreateInvariant (n : String) (m : Machine (Server Postgres) ι CreatePoint) : Prop where
  faults : m.shared.db.faults = []
  phase : CreatePhase n m

end Calls

/-! ## The steps of a call, when queries succeed -/

section Steps

variable {s : Server Postgres} (faults : s.db.faults = []) (n : String)
include faults

theorem create_start :
    createEffect n .start s = s ∧
      createNext n .start s = if s.db.db.channelId n = 0 then .creating else .found := by
  have hexec : WrapperPg.exec (askName n) s.db =
      (some (!(s.db.db.channels.select fun m' => m' = n).isEmpty), s.db) :=
    WrapperPg.exec_some faults rfl
  rw [Database.exists_channel_iff] at hexec
  simp only [createEffect, onDb, createNext, hexec, true_and]
  by_cases hn : s.db.db.channelId n = 0 <;> simp [hn]

omit [Protocol] in
theorem exec_lookupName :
    WrapperPg.exec (lookupName n) s.db = (some (s.db.db.channelId n), s.db) :=
  WrapperPg.exec_some faults rfl

theorem create_creating :
    createEffect n .creating s = s ∧
      createNext n .creating s =
        if s.db.db.channelId n = 0 then .absent else .making (s.db.db.channelId n) := by
  simp only [createEffect, onDb, createNext, exec_lookupName faults, true_and, Option.getD_some]

theorem create_absent :
    createEffect n .absent s = { s with db := { s.db with db := s.db.db.insertChannel n } } ∧
      createNext n .absent s = .inserted := by
  have hexec : WrapperPg.exec (enterName n) s.db =
      (some ⟨⟩, { s.db with db := s.db.db.insertChannel n }) := WrapperPg.exec_some faults rfl
  simp only [createEffect, onDb, createNext, hexec, and_self]

theorem create_inserted :
    createEffect n .inserted s = s ∧
      createNext n .inserted s = .making (s.db.db.channelId n) := by
  simp only [createEffect, onDb, createNext, exec_lookupName faults, true_and, Option.getD_some]

theorem create_making {n : String} (hn : n ≠ "") {k : UserId} (hk : k ≠ 0) :
    createEffect n (.making k) s =
        { s with objects := s.objects ++ [⟨n, k, (s.db.db.subscribers k).toFinset⟩] } ∧
      createNext n (.making k) s = .storing k s.objects.length := by
  simp only [createEffect, createNext, Channel.run_makeShared faults hn hk,
    CreatePoint.ofExcept, and_self]

theorem create_found :
    createEffect n .found s = s ∧ createNext n .found s = .getting (s.db.db.channelId n) := by
  simp only [createEffect, onDb, createNext, exec_lookupName faults, true_and, Option.getD_some]

omit faults in
theorem create_getting {k : UserId} {p : ChannelPtr} (hp : s.idChannels k = some p) :
    createEffect n (.getting k) s = s ∧ createNext n (.getting k) s = .done p := by
  simp only [createEffect, createNext, run_getOrMake_stored n hp, CreatePoint.ofExcept, and_self]

end Steps

/-! ## One creation at a time -/

section Phases

variable {ι : Type} [DecidableEq ι] {n : String} {m : Machine (Server Postgres) ι CreatePoint}

/-- The step of a call, seen through its control points. -/
abbrev createStep (n : String) :
    Machine (Server Postgres) ι CreatePoint → ι → Machine (Server Postgres) ι CreatePoint :=
  Machine.step fun _ => createPoints n

/-- A step in terms of what it does to the server and where it leads the call. -/
theorem createStep_eq {i : ι} {p : CreatePoint} (hp : m.points i = p) {t : Server Postgres}
    {q : CreatePoint} (h : createEffect n p m.shared = t ∧ createNext n p m.shared = q) :
    createStep n m i = ⟨t, Function.update m.points i q⟩ := by
  simp only [createStep, Machine.step, createPoints, hp, h.1, h.2]

omit [Protocol] [DecidableEq ι] in
/-- The id of a name with one row. -/
theorem channelId_of_row {db : Database} {k : UserId}
    (hrow : (db.channels.select fun m' => m' = n) = [⟨k, n⟩]) : db.channelId n = k ∧ k ≠ 0 := by
  constructor
  · simp only [Database.channelId, SerialTable.firstId, hrow]
  · have hmem : ⟨k, n⟩ ∈ db.channels.select fun m' => m' = n := hrow ▸ List.mem_cons_self
    exact Nat.ne_of_gt (db.channels.id_pos _ (SerialTable.mem_select.mp hmem).1)

/-- While the name is missing, one call at most goes on to create it. -/
theorem createInvariant_step_missing (faults : m.shared.db.faults = [])
    (hn : m.shared.db.db.channelId n = 0)
    (hpoints : ∀ i, m.points i = .start ∨ (m.points i).isCreating = true)
    (hunique : ∀ i j, (m.points i).isCreating = true → (m.points j).isCreating = true → i = j)
    {i : ι} (hi : NoneCreating m i) : CreateInvariant n (createStep n m i) := by
  have hmove : ∀ {p : CreatePoint}, p.isCreating = true →
      (∀ j, j ≠ i → (m.points j).isCreating = false) →
        CreateInvariant n ⟨m.shared, Function.update m.points i p⟩ := by
    intro p hp hothers
    -- only `i` is creating, before its step and after it
    have hself : ∀ j, (Function.update m.points i p j).isCreating = true → j = i := by
      intro j hj
      by_contra hji
      rw [Function.update_of_ne hji, hothers j hji] at hj
      cases hj
    refine ⟨faults, .missing hn ?_ ?_⟩
    · rw [Function.forall_update_iff m.points fun _ q => q = .start ∨ q.isCreating = true]
      exact ⟨Or.inr hp, fun j _ => hpoints j⟩
    · intro j j' hj hj'
      rw [hself j hj, hself j' hj']
  have hsole : (m.points i).isCreating = true →
      ∀ j, j ≠ i → (m.points j).isCreating = false := by
    intro hcreating j hji
    by_contra hj
    exact hji (hunique j i (by simpa using hj) hcreating)
  cases hp : m.points i with
  | start =>
    have hstep := create_start faults n
    rw [if_pos hn] at hstep
    rw [createStep_eq hp hstep]
    exact hmove rfl fun j _ => hi.1 hp j
  | creating =>
    have hstep := create_creating faults n
    rw [if_pos hn] at hstep
    rw [createStep_eq hp hstep]
    exact hmove rfl (hsole (by rw [hp]; rfl))
  | absent =>
    rw [createStep_eq hp (create_absent faults n)]
    have hselect := SerialTable.firstId_eq_zero_iff.mp hn
    -- the insertion opens the next phase, with `i` as the call that creates
    refine ⟨faults, .entered m.shared.db.db.channels.next i ?_ ?_ ?_⟩
    · dsimp only
      rw [Database.insertChannel_channels, SerialTable.select_insert, hselect]
      simp
    · simp [CreatePoint.Stores]
    · intro j hji
      dsimp only
      rw [Function.update_of_ne hji]
      -- the call that inserts was the only one past its question
      rcases hpoints j with hj | hj
      · rw [hj]
        trivial
      · rw [hsole (by rw [hp]; rfl) j hji] at hj
        cases hj
  | _ => rcases hpoints i with h | h <;> rw [hp] at h <;> cases h

/-- Once the name is entered, only the call that created it may store an object. -/
theorem createInvariant_step_entered (hne : n ≠ "") (faults : m.shared.db.faults = []) {k : UserId}
    {c : ι} (hrow : (m.shared.db.db.channels.select fun m' => m' = n) = [⟨k, n⟩])
    (hcreator : (m.points c).Stores n k m.shared)
    (hothers : ∀ j, j ≠ c → (m.points j).Waits k) {i : ι} (hi : NoneCreating m i) :
    CreateInvariant n (createStep n m i) := by
  obtain ⟨hid, hk⟩ := channelId_of_row hrow
  -- the step is one of the creating call, or of a call that waits
  by_cases hic : i = c
  · subst hic
    have hothers' : ∀ q j, j ≠ i → (Function.update m.points i q j).Waits k := by
      intro q j hji
      rw [Function.update_of_ne hji]
      exact hothers j hji
    cases hp : m.points i with
    | inserted =>
      rw [createStep_eq hp (create_inserted faults n), hid]
      refine ⟨faults, .entered k i hrow ?_ (hothers' _)⟩
      simp [CreatePoint.Stores]
    | making k' =>
      rw [hp] at hcreator
      obtain rfl : k' = k := hcreator
      rw [createStep_eq hp (create_making faults hne hk)]
      refine ⟨faults, .entered k' i hrow ?_ (hothers' _)⟩
      simp only [Function.update_self]
      exact ⟨rfl, _, List.getElem?_concat_length⟩
    | storing k' p =>
      rw [hp] at hcreator
      obtain ⟨rfl, idUsers, hobject⟩ := hcreator
      rw [createStep_eq hp ⟨rfl, rfl⟩]
      -- the store closes the creation: from here on the registry has the object
      refine ⟨faults, .stored k' p idUsers hrow (Function.update_self ..) hobject ?_⟩
      rw [Function.forall_update_iff m.points fun _ q => q.Waits k' ∨ q = .done p]
      exact ⟨Or.inr rfl, fun j hji => Or.inl (hothers j hji)⟩
    | _ =>
      rw [hp] at hcreator
      exact hcreator.elim
  · have hmove : ∀ {q : CreatePoint}, q.Waits k →
        CreateInvariant n ⟨m.shared, Function.update m.points i q⟩ := by
      intro q hq
      refine ⟨faults, .entered k c hrow ?_ ?_⟩
      · dsimp only
        rwa [Function.update_of_ne (Ne.symm hic)]
      · rw [Function.forall_update_iff m.points fun j q => j ≠ c → q.Waits k]
        exact ⟨fun _ => hq, fun j _ => hothers j⟩
    have hwaits := hothers i hic
    cases hp : m.points i with
    | start =>
      have hstep := create_start faults n
      rw [if_neg (hid ▸ hk)] at hstep
      rw [createStep_eq hp hstep]
      exact hmove trivial
    | found =>
      rw [createStep_eq hp (create_found faults n), hid]
      exact hmove rfl
    | getting k' =>
      -- the registry does not have the object yet, and so nobody may look
      have hstoring := hi.2 (by rw [hp]; rfl) c
      cases hc : m.points c with
      | inserted => rw [hc] at hstoring; cases hstoring
      | making k' => rw [hc] at hstoring; cases hstoring
      | storing k' p => rw [hc] at hstoring; cases hstoring
      | _ =>
        rw [hc] at hcreator
        exact hcreator.elim
    | _ =>
      rw [hp] at hwaits
      exact hwaits.elim

/-- Once the object is stored, every call is led to it. -/
theorem createInvariant_step_stored (faults : m.shared.db.faults = []) {k : UserId} {p : ChannelPtr}
    {idUsers : Finset UserId}
    (hrow : (m.shared.db.db.channels.select fun m' => m' = n) = [⟨k, n⟩])
    (hp : m.shared.idChannels k = some p)
    (hobject : m.shared.objects[p]? = some ⟨n, k, idUsers⟩)
    (hpoints : ∀ i, (m.points i).Waits k ∨ m.points i = .done p) (i : ι) :
    CreateInvariant n (createStep n m i) := by
  obtain ⟨hid, hk⟩ := channelId_of_row hrow
  -- the step changes nothing but the point of its call
  have hmove : ∀ {q : CreatePoint}, (q.Waits k ∨ q = .done p) →
      CreateInvariant n ⟨m.shared, Function.update m.points i q⟩ := by
    intro q hq
    refine ⟨faults, .stored k p idUsers hrow hp hobject ?_⟩
    rw [Function.forall_update_iff m.points fun _ q => q.Waits k ∨ q = .done p]
    exact ⟨hq, fun j _ => hpoints j⟩
  -- a call that waits comes to the object in the end, and one that is done stays
  rcases hpoints i with hwaits | hdone
  · cases hpoint : m.points i with
    | start =>
      have hstep := create_start faults n
      rw [if_neg (hid ▸ hk)] at hstep
      rw [createStep_eq hpoint hstep]
      exact hmove (Or.inl trivial)
    | found =>
      rw [createStep_eq hpoint (create_found faults n), hid]
      exact hmove (Or.inl rfl)
    | getting k' =>
      rw [hpoint] at hwaits
      obtain rfl : k' = k := hwaits
      rw [createStep_eq hpoint (create_getting n hp)]
      exact hmove (Or.inr rfl)
    | _ =>
      rw [hpoint] at hwaits
      exact hwaits.elim
  · rw [createStep_eq hdone ⟨rfl, rfl⟩]
    exact hmove (Or.inr rfl)

theorem CreateInvariant.step (h : CreateInvariant n m) (hne : n ≠ "") {i : ι}
    (hi : NoneCreating m i) : CreateInvariant n (createStep n m i) := by
  cases h.phase with
  | missing hn hpoints hunique => exact createInvariant_step_missing h.faults hn hpoints hunique hi
  | entered k c hrow hcreator hothers =>
    exact createInvariant_step_entered hne h.faults hrow hcreator hothers hi
  | stored k p idUsers hrow hp hobject hpoints =>
    exact createInvariant_step_stored h.faults hrow hp hobject hpoints i

omit [DecidableEq ι] in
/-- Only a call that is done has a result. -/
theorem eq_done_of_createCode {q : CreatePoint} {p : ChannelPtr}
    (h : createCode n q = .ret p) : q = .done p := by
  cases q with
  | done p' =>
    obtain rfl : p' = p := by
      injection h
    rfl
  | _ => exact absurd h (by intro h; cases h)

omit [DecidableEq ι] in
/-- Only a call that has failed throws. -/
theorem eq_failed_of_createCode {q : CreatePoint} {e : Exn}
    (h : createCode n q = .throw e) : q = .failed e := by
  cases q with
  | failed e' =>
    obtain rfl : e' = e := by
      injection h
    rfl
  | _ => exact absurd h (by intro h; cases h)

omit [Protocol] [DecidableEq ι] in
/-- Only in the last phase have calls ended, and there every call is led to the one object. -/
theorem CreateInvariant.stored_of_ended (h : CreateInvariant n m) {i : ι}
    (hi : (∃ p, m.points i = .done p) ∨ ∃ e, m.points i = .failed e) :
    ∃ k p idUsers, (m.shared.db.db.channels.select fun m' => m' = n) = [⟨k, n⟩] ∧
      m.shared.idChannels k = some p ∧ m.shared.objects[p]? = some ⟨n, k, idUsers⟩ ∧
      ∀ j, (m.points j).Waits k ∨ m.points j = .done p := by
  cases h.phase with
  | missing hn hpoints hunique =>
    rcases hi with ⟨p, hi⟩ | ⟨e, hi⟩ <;> rcases hpoints i with hpoint | hpoint <;>
      rw [hi] at hpoint <;> cases hpoint
  | entered k c hrow hcreator hothers =>
    by_cases hic : i = c
    · subst hic
      rcases hi with ⟨p, hi⟩ | ⟨e, hi⟩ <;> rw [hi] at hcreator <;> exact hcreator.elim
    · have hwaits := hothers i hic
      rcases hi with ⟨p, hi⟩ | ⟨e, hi⟩ <;> rw [hi] at hwaits <;> exact hwaits.elim
  | stored k p idUsers hrow hp hobject hpoints =>
    exact ⟨k, p, idUsers, hrow, hp, hobject, hpoints⟩

omit [DecidableEq ι] in
theorem CreateInvariant.agreeOn (h : CreateInvariant n m) :
    AgreeOn n (m.pool fun _ => createPoints n) := by
  constructor
  · intro i e hi
    have hpoint := eq_failed_of_createCode hi
    -- when a call has ended the object is stored, and a call that waits for it does not fail
    obtain ⟨k, p, idUsers, -, -, -, hpoints⟩ := h.stored_of_ended (Or.inr ⟨e, hpoint⟩)
    rcases hpoints i with hwaits | hdone
    · rw [hpoint] at hwaits
      exact hwaits
    · rw [hpoint] at hdone
      cases hdone
  · intro i p hi
    obtain ⟨k, p', idUsers, hrow, hp, hobject, hpoints⟩ :=
      h.stored_of_ended (Or.inl ⟨p, eq_done_of_createCode hi⟩)
    -- every call that returns has the object that is stored
    have hreturned : ∀ j q, createCode n (m.points j) = .ret q → q = p' := by
      intro j q hj
      have hq := eq_done_of_createCode hj
      rcases hpoints j with hwaits | hdone
      · rw [hq] at hwaits
        exact hwaits.elim
      · rw [hq] at hdone
        injection hdone
    obtain rfl : p = p' := hreturned i p hi
    obtain ⟨hid, hk⟩ := channelId_of_row hrow
    refine ⟨hreturned, k, idUsers, hp, hobject, hrow, ?_⟩
    exact run_createOrGetChannelByName_stored h.faults (hid ▸ hk) (hid ▸ hp)

omit [Protocol] [DecidableEq ι] in
/-- How many steps a call has left at most. -/
def CreatePoint.stepsLeft : CreatePoint → ℕ
  | .start => 6
  | .creating => 5
  | .absent => 4
  | .inserted => 3
  | .making _ => 2
  | .storing _ _ => 1
  | .found => 2
  | .getting _ => 1
  | .done _ => 0
  | .failed _ => 0

omit [DecidableEq ι] in
theorem stepsLeft_createNext (n : String) (q : CreatePoint) (s : Server Postgres) :
    (createNext n q s).stepsLeft ≤ q.stepsLeft - 1 := by
  have hofExcept : ∀ (next : ChannelPtr → CreatePoint) (b : ℕ),
      (∀ p, (next p).stepsLeft ≤ b) → ∀ r, (CreatePoint.ofExcept next r).stepsLeft ≤ b := by
    intro next b hnext r
    cases r with
    | ok p => exact hnext p
    | error e => exact Nat.zero_le b
  cases q with
  | start =>
    simp only [createNext]
    split <;> decide
  | creating =>
    simp only [createNext]
    split <;> simp [CreatePoint.stepsLeft]
  | making k => exact hofExcept _ _ (fun _ => Nat.le_refl 1) _
  | getting k => exact hofExcept _ _ (fun _ => Nat.le_refl 0) _
  | _ => simp [createNext, CreatePoint.stepsLeft]

/-- Every turn of a call brings it nearer to its end. -/
theorem stepsLeft_foldl (m : Machine (Server Postgres) ι CreatePoint) (schedule : List ι)
    (i : ι) :
    ((schedule.foldl (createStep n) m).points i).stepsLeft ≤
      (m.points i).stepsLeft - schedule.count i := by
  induction schedule generalizing m with
  | nil => simp
  | cons j schedule ih =>
    -- a turn of `i` takes one off its bound; the turns of others leave it
    have hrest := ih (createStep n m j)
    rw [List.foldl_cons]
    by_cases hij : i = j
    · subst hij
      have hself := stepsLeft_createNext n (m.points i) m.shared
      have hnext : (createStep n m i).points i = createNext n (m.points i) m.shared :=
        Machine.step_points_self ..
      rw [hnext] at hrest
      rw [List.count_cons_self]
      omega
    · rw [createStep, Machine.step_points_of_ne _ _ hij] at hrest
      rwa [List.count_cons_of_ne (Ne.symm hij)]

/-- In every run in which no call asks for the name while another is about to insert it, and none
looks into the registry while another is about to store its object, the calls agree on one
channel. A call that gets six turns has returned it. -/
theorem agreeOn_of_noneCreating (hne : n ≠ "") {s : Server Postgres} (faults : s.db.faults = [])
    (absent : ∀ r ∈ s.db.db.channels.rows, r.data ≠ n) {schedule : List ι}
    (hschedule : Along (createStep n) NoneCreating ⟨s, fun _ => .start⟩ schedule) :
    AgreeOn n ((creations ι n s).run schedule) ∧
      ∀ i, 6 ≤ schedule.count i → ∃ p, ((creations ι n s).run schedule).threads i = .ret p := by
  have hstart : CreateInvariant n (⟨s, fun _ => .start⟩ : Machine (Server Postgres) ι _) := by
    refine ⟨faults, .missing ?_ (fun _ => Or.inl rfl) ?_⟩
    · rw [Database.channelId, SerialTable.firstId_eq_zero_iff_forall]
      intro r hr
      simpa using absent r hr
    · intro i j hi
      cases hi
  have hkeep : ∀ (m : Machine (Server Postgres) ι CreatePoint) (i : ι), CreateInvariant n m →
      NoneCreating m i → CreateInvariant n (createStep n m i) := fun m i hm hi => hm.step hne hi
  have hinv := foldl_invariant hkeep hstart hschedule
  have hpool := Pool.foldl_step_code (fun _ => createPoints n)
    (⟨s, fun _ => .start⟩ : Machine (Server Postgres) ι CreatePoint) schedule
  have hrun : (creations ι n s).run schedule =
      (schedule.foldl (createStep n) ⟨s, fun _ => .start⟩).pool fun _ => createPoints n := hpool
  have hagree := hinv.agreeOn
  rw [hrun]
  refine ⟨hagree, ?_⟩
  intro i hcount
  have hleft := stepsLeft_foldl (n := n) (⟨s, fun _ => .start⟩ : Machine (Server Postgres) ι _)
    schedule i
  -- six turns use up the longest way through a call
  have hzero : ((schedule.foldl (createStep n) ⟨s, fun _ => .start⟩).points i).stepsLeft = 0 := by
    simp only [CreatePoint.stepsLeft] at hleft ⊢
    omega
  generalize schedule.foldl (createStep n) ⟨s, fun _ => .start⟩ = m at hagree hzero ⊢
  cases hp : m.points i with
  | done p => exact ⟨p, congrArg (createCode n) hp⟩
  | failed e => exact absurd (congrArg (createCode n) hp) (hagree.1 i e)
  | _ =>
    rw [hp] at hzero
    cases hzero

end Phases

/-! ## Two calls -/

omit [Protocol] in
/-- The second call asks for the name between the insertion and the last lookup of the first, and
comes to its critical section when the first has stored its channel. -/
theorem agreeOn_of_noneCreating_overlapping :
    letI := Protocol.oneByte
    AgreeOn "room" ((creations (Fin 2) "room" (Server.initial { db := .empty })).run
      [0, 0, 0, 1, 1, 0, 0, 0, 1]) := by
  have h := @agreeOn_of_noneCreating Protocol.oneByte (Fin 2) _ "room" (by decide)
    (Server.initial { db := .empty }) rfl (by simp [Server.initial, Database.empty])
    [0, 0, 0, 1, 1, 0, 0, 0, 1] (by decide +kernel)
  exact h.1

omit [Protocol] in
/-- Two calls that both ask for the name before either inserts it. -/
theorem not_agreeOn_interleaved :
    letI := Protocol.oneByte
    ¬ ∀ schedule : List (Fin 2),
      AgreeOn "room" ((creations (Fin 2) "room" (Server.initial { db := .empty })).run
        schedule) := by
  intro hall
  -- the second call finds the row that the first has inserted, and makes an object of its own
  have hagree := (hall [0, 1, 0, 0, 0, 0, 0, 1, 1, 1]).2 0 0 rfl
  have hsame := hagree.1 1 1 rfl
  exact absurd hsame (by decide)

end GatewayServer.ChannelsManager
