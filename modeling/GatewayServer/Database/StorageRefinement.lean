import GatewayServer.Database.Storage
import GatewayServer.Database.WrapperPg
import GatewayServer.Lib.Simulation
import Mathlib.Logic.Relator

/-!
# The two databases answer alike

Registrations, authentications and channels on `Storage` and on `WrapperPg`, from nothing. The
two take their ids from different places: one counter for everything here, a sequence for each
table there. The answers are the same up to what the ids are called.

## Main definitions

* `DbCall`, `Answer`, `ask` — the calls, their answers, and a call made to a database
* `Alike` — answers that agree up to a renaming of user ids and one of channel ids
* `Storage.Refines` — the hash maps hold what the tables hold

## Main results

* `Storage.Refines.ask` — a call keeps `Refines`, is answered alike, and extends the renamings
* `storage_answers_alike` — all answers of a run are alike
-/

namespace GatewayServer

open Lib

/-! ## Calls and answers -/

inductive DbCall where
  | checkRegUser (settings : InputSettings)
  | checkAuthUser (settings : InputSettings)
  | hasChannel (channelName : String)
  | createChannel (channelName : String)
  deriving DecidableEq, Repr

inductive Answer where
  | user (id : UserId)
  | channel (id : UserId)
  | has (result : Bool)
  deriving DecidableEq, Repr

/-- A call made to a database. -/
def ask {δ : Type} (db : IDatabase δ) : DbCall → Prog δ Exn Answer
  | .checkRegUser settings => do return .user (← db.checkRegUser settings)
  | .checkAuthUser settings => do return .user (← db.checkAuthUser settings)
  | .hasChannel channelName => do return .has (← db.hasChannel channelName)
  | .createChannel channelName => do return .channel (← db.createChannel channelName)

/-- The answer to a call, or the exception that it throws, and the database after it. -/
def askStep {δ : Type} (db : IDatabase δ) (s : δ) (call : DbCall) : Except Exn Answer × δ :=
  (ask db call).run s

/-- Answers that agree: booleans are equal, and ids both zero or renamed to each other. -/
inductive Alike (users channels : UserId → UserId → Prop) :
    Except Exn Answer → Except Exn Answer → Prop where
  | noUser : Alike users channels (.ok (.user 0)) (.ok (.user 0))
  | user {i j : UserId} (hi : i ≠ 0) (hj : j ≠ 0) (h : users i j) :
    Alike users channels (.ok (.user i)) (.ok (.user j))
  | noChannel : Alike users channels (.ok (.channel 0)) (.ok (.channel 0))
  | channel {i j : UserId} (hi : i ≠ 0) (hj : j ≠ 0) (h : channels i j) :
    Alike users channels (.ok (.channel i)) (.ok (.channel j))
  | has (result : Bool) : Alike users channels (.ok (.has result)) (.ok (.has result))

theorem Alike.mono {users users' channels channels' : UserId → UserId → Prop}
    (husers : ∀ i j, users i j → users' i j)
    (hchannels : ∀ i j, channels i j → channels' i j) {a b : Except Exn Answer}
    (h : Alike users channels a b) : Alike users' channels' a b := by
  cases h with
  | noUser => exact .noUser
  | user hi hj h => exact .user hi hj (husers _ _ h)
  | noChannel => exact .noChannel
  | channel hi hj h => exact .channel hi hj (hchannels _ _ h)
  | has result => exact .has result

/-! ## Names and their ids -/

/-- Names with ids on one side, and the ids of the same names on the other. -/
structure SameNames (ids : String → Option UserId) (ids' : String → UserId) (bound : ℕ) :
    Prop where
  /-- A name has an id on one side when it has one on the other. -/
  none_iff : ∀ n, ids n = none ↔ ids' n = 0
  pos : ∀ n i, ids n = some i → 0 < i
  le : ∀ n i, ids n = some i → i ≤ bound
  inj : ∀ n n' i, ids n = some i → ids n' = some i → n = n'
  inj' : ∀ n n', ids' n ≠ 0 → ids' n = ids' n' → n = n'

/-- The ids of a name are renamed to each other. -/
def Renamed (ids : String → Option UserId) (ids' : String → UserId) (i j : UserId) : Prop :=
  ∃ n, ids n = some i ∧ ids' n = j

namespace SameNames

variable {ids : String → Option UserId} {ids' : String → UserId} {bound : ℕ}

theorem ne_zero (h : SameNames ids ids' bound) {n : String} {i : UserId} (hi : ids n = some i) :
    ids' n ≠ 0 := by
  intro hzero
  rw [(h.none_iff n).mpr hzero] at hi
  exact absurd hi (by simp)

theorem biUnique (h : SameNames ids ids' bound) : Relator.BiUnique (Renamed ids ids') := by
  constructor
  · rintro i i' j ⟨n, hi, hj⟩ ⟨n', hi', hj'⟩
    obtain rfl := h.inj' n n' (h.ne_zero hi) (hj.trans hj'.symm)
    exact Option.some.inj (hi.symm.trans hi')
  · rintro i j j' ⟨n, hi, hj⟩ ⟨n', hi', hj'⟩
    obtain rfl := h.inj n n' i hi hi'
    exact hj.symm.trans hj'

/-- A larger bound. -/
theorem mono (h : SameNames ids ids' bound) {bound' : ℕ} (hle : bound ≤ bound') :
    SameNames ids ids' bound' where
  none_iff := h.none_iff
  pos := h.pos
  le n i hi := Nat.le_trans (h.le n i hi) hle
  inj := h.inj
  inj' := h.inj'

/-- A new name with an id beyond the bound on the one side, and a new id on the other. -/
theorem add (h : SameNames ids ids' bound) {n : String} {j : UserId} (hj : j ≠ 0)
    (hfresh : ∀ n', ids' n' ≠ j) {ids'' : String → UserId}
    (hids : ∀ n', ids'' n' = if n' = n then j else ids' n') :
    SameNames (Function.update ids n (some (bound + 1))) ids'' (bound + 1) where
  none_iff n' := by
    by_cases hn : n' = n
    · simp [hids, hn, hj]
    · simp [hids, hn, h.none_iff]
  pos n' i hi := by
    rcases update_eq_some_iff.mp hi with ⟨-, rfl⟩ | ⟨-, hi⟩
    · exact Nat.succ_pos _
    · exact h.pos n' i hi
  le n' i hi := by
    rcases update_eq_some_iff.mp hi with ⟨-, rfl⟩ | ⟨-, hi⟩
    · exact Nat.le_refl _
    · exact Nat.le_succ_of_le (h.le n' i hi)
  inj n₁ n₂ i h₁ h₂ := by
    rcases update_eq_some_iff.mp h₁ with ⟨rfl, rfl⟩ | ⟨-, h₁⟩
    · rcases update_eq_some_iff.mp h₂ with ⟨rfl, -⟩ | ⟨-, h₂⟩
      · rfl
      -- the id of an older name is within the bound
      · exact absurd (h.le n₂ _ h₂) (Nat.not_succ_le_self bound)
    · rcases update_eq_some_iff.mp h₂ with ⟨-, rfl⟩ | ⟨-, h₂⟩
      · exact absurd (h.le n₁ _ h₁) (Nat.not_succ_le_self bound)
      · exact h.inj n₁ n₂ i h₁ h₂
  inj' n₁ n₂ hne heq := by
    rw [hids] at hne
    rw [hids, hids] at heq
    by_cases hn₁ : n₁ = n
    · by_cases hn₂ : n₂ = n
      · rw [hn₁, hn₂]
      · rw [if_pos hn₁, if_neg hn₂] at heq
        exact absurd heq.symm (hfresh n₂)
    · by_cases hn₂ : n₂ = n
      · rw [if_neg hn₁, if_pos hn₂] at heq
        exact absurd heq (hfresh n₁)
      · rw [if_neg hn₁, if_neg hn₂] at heq
        rw [if_neg hn₁] at hne
        exact h.inj' n₁ n₂ hne heq

/-- The renaming only grows. -/
theorem renamed_add {n : String} (hn : ids n = none) {j k : UserId}
    {ids'' : String → UserId} (hids : ∀ n', ids'' n' = if n' = n then j else ids' n')
    {i i' : UserId} (hrenamed : Renamed ids ids' i i') :
    Renamed (Function.update ids n (some k)) ids'' i i' := by
  obtain ⟨n', hi, hi'⟩ := hrenamed
  have hne : n' ≠ n := by
    rintro rfl
    rw [hn] at hi
    exact absurd hi (by simp)
  exact ⟨n', by simpa [hne] using hi, by rw [hids, if_neg hne, hi']⟩

end SameNames

/-! ## The two states -/

namespace Storage

/-- The ids of users and of channels on the two sides. -/
def renamedUsers (s : Storage) (t : Postgres) : UserId → UserId → Prop :=
  Renamed s.nameIdUsers t.db.clientId

def renamedChannels (s : Storage) (t : Postgres) : UserId → UserId → Prop :=
  Renamed s.nameIdChannels t.db.channelId

/-- The hash maps hold what the tables hold, under their own ids. -/
structure Refines (s : Storage) (t : Postgres) : Prop where
  /-- Every query to come succeeds. -/
  faults : t.faults = []
  users : SameNames s.nameIdUsers t.db.clientId s.generator.generated
  channels : SameNames s.nameIdChannels t.db.channelId s.generator.generated
  passwords : ∀ login i, s.nameIdUsers login = some i →
    ∃ known, s.nameSettingsUsers i = some known ∧
      ⟨t.db.clientId login, ⟨login, known.clientPassword⟩⟩ ∈ t.db.clients.rows

theorem refines_empty : empty.Refines { db := .empty } where
  faults := rfl
  users :=
    { none_iff := fun _ => ⟨fun _ => rfl, fun _ => rfl⟩
      pos := fun _ _ hi => absurd hi (by simp [empty])
      le := fun _ _ hi => absurd hi (by simp [empty])
      inj := fun _ _ _ hi => absurd hi (by simp [empty])
      inj' := fun _ _ hne => absurd rfl hne }
  channels :=
    { none_iff := fun _ => ⟨fun _ => rfl, fun _ => rfl⟩
      pos := fun _ _ hi => absurd hi (by simp [empty])
      le := fun _ _ hi => absurd hi (by simp [empty])
      inj := fun _ _ _ hi => absurd hi (by simp [empty])
      inj' := fun _ _ hne => absurd rfl hne }
  passwords _ _ hi := absurd hi (by simp [empty])

/-- What a call does on the two sides, from `s` and `t`. -/
structure AnswersAlike (s : Storage) (t : Postgres) (r : Except Exn Answer × Storage)
    (r' : Except Exn Answer × Postgres) : Prop where
  refines : r.2.Refines r'.2
  alike : Alike (renamedUsers r.2 r'.2) (renamedChannels r.2 r'.2) r.1 r'.1
  users : ∀ i j, renamedUsers s t i j → renamedUsers r.2 r'.2 i j
  channels : ∀ i j, renamedChannels s t i j → renamedChannels r.2 r'.2 i j

/-- A call that changes nothing. -/
theorem Refines.answersAlike {s : Storage} {t : Postgres} (h : s.Refines t)
    {a b : Except Exn Answer} (halike : Alike (renamedUsers s t) (renamedChannels s t) a b) :
    AnswersAlike s t (a, s) (b, t) :=
  ⟨h, halike, fun _ _ h => h, fun _ _ h => h⟩

/-- The two sides after a login was registered. -/
theorem Refines.addUser {s : Storage} {t : Postgres} (h : s.Refines t) {settings : InputSettings}
    (hname : s.nameIdUsers settings.clientName = none) :
    AnswersAlike s t
      (.ok (.user (s.generator.generated + 1)), { s with
        generator := ⟨s.generator.generated + 1⟩
        nameIdUsers := Function.update s.nameIdUsers settings.clientName
          (some (s.generator.generated + 1))
        nameSettingsUsers := Function.update s.nameSettingsUsers (s.generator.generated + 1)
          (some settings) })
      (.ok (.user t.db.clients.next), { t with
        db := t.db.insertClient ⟨settings.clientName, settings.clientPassword⟩ }) := by
  have hids : ∀ login, (t.db.insertClient ⟨settings.clientName, settings.clientPassword⟩).clientId
      login = if login = settings.clientName then t.db.clients.next else t.db.clientId login :=
    @SerialTable.firstId_insert_key _ _ t.db.clients _ Client.login _
      ((h.users.none_iff _).mp hname)
  have hnext : t.db.clients.next ≠ 0 := Nat.ne_of_gt t.db.clients.next_pos
  have hfresh : ∀ login, t.db.clientId login ≠ t.db.clients.next :=
    fun login => Nat.ne_of_lt (SerialTable.firstId_lt_next _)
  refine ⟨⟨h.faults, h.users.add hnext hfresh hids, h.channels.mono (Nat.le_succ _), ?_⟩, ?_,
    fun i j => SameNames.renamed_add hname hids, fun i j hij => hij⟩
  · intro login i hi
    rcases update_eq_some_iff.mp hi with ⟨rfl, rfl⟩ | ⟨hlogin, hold⟩
    · refine ⟨settings, Function.update_self .., ?_⟩
      rw [hids, if_pos rfl]
      exact List.mem_append_right _ List.mem_cons_self
    · obtain ⟨known, hknown, hrow⟩ := h.passwords login i hold
      -- an older id is not the one that was just generated
      have hne : i ≠ s.generator.generated + 1 := by
        rintro rfl
        exact Nat.not_succ_le_self _ (h.users.le login _ hold)
      refine ⟨known, by simpa [hne] using hknown, ?_⟩
      rw [hids, if_neg hlogin]
      exact List.mem_append_left _ hrow
  · refine .user (Nat.succ_ne_zero _) hnext ⟨settings.clientName, Function.update_self .., ?_⟩
    rw [hids, if_pos rfl]

/-- The two sides after a channel was created. -/
theorem Refines.addChannel {s : Storage} {t : Postgres} (h : s.Refines t) {n : String}
    (hname : s.nameIdChannels n = none) :
    AnswersAlike s t
      (.ok (.channel (s.generator.generated + 1)), { s with
        generator := ⟨s.generator.generated + 1⟩
        nameIdChannels := Function.update s.nameIdChannels n
          (some (s.generator.generated + 1)) })
      (.ok (.channel t.db.channels.next), { t with db := t.db.insertChannel n }) := by
  have hids : ∀ m, (t.db.insertChannel n).channelId m =
      if m = n then t.db.channels.next else t.db.channelId m :=
    @SerialTable.firstId_insert_key _ _ t.db.channels _ id _ ((h.channels.none_iff _).mp hname)
  have hnext : t.db.channels.next ≠ 0 := Nat.ne_of_gt t.db.channels.next_pos
  have hfresh : ∀ m, t.db.channelId m ≠ t.db.channels.next :=
    fun m => Nat.ne_of_lt (SerialTable.firstId_lt_next _)
  refine ⟨⟨h.faults, h.users.mono (Nat.le_succ _), h.channels.add hnext hfresh hids,
    h.passwords⟩, ?_, fun i j hij => hij, fun i j => SameNames.renamed_add hname hids⟩
  refine .channel (Nat.succ_ne_zero _) hnext ⟨n, Function.update_self .., ?_⟩
  rw [hids, if_pos rfl]

section Calls

variable [Protocol] {s : Storage} {t : Postgres} (h : s.Refines t)
include h

theorem Refines.checkRegUser (settings : InputSettings)
    (hbound : (askStep database s (.checkRegUser settings)).2.generator.generated <
      UInt64.size) :
    AnswersAlike s t (askStep database s (.checkRegUser settings))
      (askStep WrapperPg.database t (.checkRegUser settings)) := by
  cases hname : s.nameIdUsers settings.clientName with
  | some i =>
    -- the login is taken in the map and in the table
    have hstorage : askStep database s (.checkRegUser settings) = (.ok (.user 0), s) := by
      simp [askStep, ask, Prog.run_bind, Storage.checkRegUser, hname]
    have hpg : askStep WrapperPg.database t (.checkRegUser settings) = (.ok (.user 0), t) := by
      rw [askStep, ask, Prog.run_bind_ok
        (WrapperPg.run_checkRegUser_busy h.faults settings (h.users.ne_zero hname))]
      rfl
    rw [hstorage, hpg]
    exact h.answersAlike .noUser
  | none =>
    have hfree : t.db.clientId settings.clientName = 0 := (h.users.none_iff _).mp hname
    -- the counter does not go round, so the new id is not zero
    have hgenerated : s.generator.generated + 1 < UInt64.size := by
      simpa [askStep, ask, Prog.run_bind, Storage.checkRegUser, hname, GeneratorId.generate]
        using hbound
    have hstorage : askStep database s (.checkRegUser settings) =
        (.ok (.user (s.generator.generated + 1)), { s with
          generator := ⟨s.generator.generated + 1⟩
          nameIdUsers := Function.update s.nameIdUsers settings.clientName
            (some (s.generator.generated + 1))
          nameSettingsUsers := Function.update s.nameSettingsUsers (s.generator.generated + 1)
            (some settings) }) := by
      simp [askStep, ask, Prog.run_bind, Storage.checkRegUser, hname,
        GeneratorId.generate_eq _ hgenerated]
    have hpg : askStep WrapperPg.database t (.checkRegUser settings) =
        (.ok (.user t.db.clients.next), { t with
          db := t.db.insertClient ⟨settings.clientName, settings.clientPassword⟩ }) := by
      rw [askStep, ask, Prog.run_bind_ok
        (WrapperPg.run_checkRegUser_free h.faults settings hfree)]
      rfl
    rw [hstorage, hpg]
    exact h.addUser hname

theorem Refines.checkAuthUser (settings : InputSettings) :
    AnswersAlike s t (askStep database s (.checkAuthUser settings))
      (askStep WrapperPg.database t (.checkAuthUser settings)) := by
  obtain ⟨k, hrun, hk⟩ := WrapperPg.run_checkAuthUser_spec h.faults settings
  have hpg : askStep WrapperPg.database t (.checkAuthUser settings) = (.ok (.user k), t) := by
    rw [askStep, ask, Prog.run_bind_ok hrun]
    rfl
  rw [hpg]
  cases hname : s.nameIdUsers settings.clientName with
  | none =>
    have hstorage : askStep database s (.checkAuthUser settings) = (.ok (.user 0), s) := by
      simp [askStep, ask, Prog.run_bind, Storage.checkAuthUser, hname]
    have hzero : k = 0 := by
      by_contra hne
      have hid := ((hk k).mp ⟨hne, rfl⟩).1
      rw [(h.users.none_iff _).mp hname] at hid
      exact hne hid.symm
    rw [hstorage, hzero]
    exact h.answersAlike .noUser
  | some i =>
    obtain ⟨known, hknown, hrow⟩ := h.passwords _ _ hname
    by_cases hpassword : known.clientPassword = settings.clientPassword
    · have hstorage : askStep database s (.checkAuthUser settings) = (.ok (.user i), s) := by
        simp [askStep, ask, Prog.run_bind, Storage.checkAuthUser, hname, hknown, hpassword]
      rw [hpassword] at hrow
      obtain ⟨hne, hid⟩ := (hk _).mpr ⟨rfl, hrow⟩
      rw [hstorage]
      exact h.answersAlike (.user (Nat.ne_of_gt (h.users.pos _ _ hname)) hne
        ⟨_, hname, hid.symm⟩)
    · have hstorage : askStep database s (.checkAuthUser settings) = (.ok (.user 0), s) := by
        simp [askStep, ask, Prog.run_bind, Storage.checkAuthUser, hname, hknown, hpassword]
      have hzero : k = 0 := by
        by_contra hne
        obtain ⟨hid, hrow'⟩ := (hk k).mp ⟨hne, rfl⟩
        -- one id, so one row and one password
        have heq := SerialTable.eq_of_id_eq hrow hrow' hid
        simp only [Row.mk.injEq, Client.mk.injEq] at heq
        exact hpassword heq.2.2
      rw [hstorage, hzero]
      exact h.answersAlike .noUser

theorem Refines.hasChannel (n : String) :
    AnswersAlike s t (askStep database s (.hasChannel n))
      (askStep WrapperPg.database t (.hasChannel n)) := by
  have hstorage : askStep database s (.hasChannel n) =
      (.ok (.has (s.nameIdChannels n).isSome), s) := by
    simp [askStep, ask, Prog.run_bind, Storage.hasChannel]
  have hpg : askStep WrapperPg.database t (.hasChannel n) =
      (.ok (.has (decide (t.db.channelId n ≠ 0))), t) := by
    rw [askStep, ask, Prog.run_bind_ok (WrapperPg.run_hasChannel h.faults n)]
    rfl
  have hsame : (s.nameIdChannels n).isSome = decide (t.db.channelId n ≠ 0) := by
    rw [Bool.eq_iff_iff, decide_eq_true_iff, ne_eq, ← h.channels.none_iff, ← ne_eq,
      Option.isSome_iff_ne_none]
  rw [hstorage, hpg, hsame]
  exact h.answersAlike (.has _)

theorem Refines.createChannel (n : String)
    (hbound : (askStep database s (.createChannel n)).2.generator.generated < UInt64.size) :
    AnswersAlike s t (askStep database s (.createChannel n))
      (askStep WrapperPg.database t (.createChannel n)) := by
  cases hname : s.nameIdChannels n with
  | some i =>
    -- the name is in the map and in the table, under an id of its own in each
    have hstorage : askStep database s (.createChannel n) = (.ok (.channel i), s) := by
      simp [askStep, ask, Prog.run_bind, Storage.createChannel, hname]
    have hne := h.channels.ne_zero hname
    have hpg : askStep WrapperPg.database t (.createChannel n) =
        (.ok (.channel (t.db.channelId n)), t) := by
      rw [askStep, ask, Prog.run_bind_ok (WrapperPg.run_createChannel_exists h.faults hne)]
      rfl
    rw [hstorage, hpg]
    exact h.answersAlike (.channel (Nat.ne_of_gt (h.channels.pos _ _ hname)) hne
      ⟨n, hname, rfl⟩)
  | none =>
    have hfree : t.db.channelId n = 0 := (h.channels.none_iff _).mp hname
    -- the counter does not go round, so the new id is not zero
    have hgenerated : s.generator.generated + 1 < UInt64.size := by
      simpa [askStep, ask, Prog.run_bind, Storage.createChannel, hname, GeneratorId.generate]
        using hbound
    have hstorage : askStep database s (.createChannel n) =
        (.ok (.channel (s.generator.generated + 1)), { s with
          generator := ⟨s.generator.generated + 1⟩
          nameIdChannels := Function.update s.nameIdChannels n
            (some (s.generator.generated + 1)) }) := by
      simp [askStep, ask, Prog.run_bind, Storage.createChannel, hname,
        GeneratorId.generate_eq _ hgenerated]
    have hpg : askStep WrapperPg.database t (.createChannel n) =
        (.ok (.channel t.db.channels.next), { t with db := t.db.insertChannel n }) := by
      rw [askStep, ask, Prog.run_bind_ok (WrapperPg.run_createChannel_new h.faults hfree)]
      rfl
    rw [hstorage, hpg]
    exact h.addChannel hname

/-- Every call is answered alike, as long as the counter has not gone round. -/
theorem Refines.ask (call : DbCall)
    (hbound : (askStep database s call).2.generator.generated < UInt64.size) :
    AnswersAlike s t (askStep database s call) (askStep WrapperPg.database t call) := by
  cases call with
  | checkRegUser settings => exact h.checkRegUser settings hbound
  | checkAuthUser settings => exact h.checkAuthUser settings
  | hasChannel n => exact h.hasChannel n
  | createChannel n => exact h.createChannel n hbound

end Calls

/-- The generator only counts up. -/
theorem generated_le_askStep (s : Storage) (call : DbCall) :
    s.generator.generated ≤ (askStep database s call).2.generator.generated := by
  cases call with
  | checkRegUser settings =>
    cases hname : s.nameIdUsers settings.clientName <;>
      simp [askStep, GatewayServer.ask, Prog.run_bind, checkRegUser, hname, GeneratorId.generate]
  | checkAuthUser settings =>
    simp [askStep, GatewayServer.ask, Prog.run_bind, checkAuthUser]
  | hasChannel n => simp [askStep, GatewayServer.ask, Prog.run_bind, hasChannel]
  | createChannel n =>
    cases hname : s.nameIdChannels n <;>
      simp [askStep, GatewayServer.ask, Prog.run_bind, createChannel, hname,
        GeneratorId.generate]

end Storage

/-! ## Runs -/

variable [Protocol]

/-- From nothing, any calls are answered alike by the two databases, up to one renaming of user
ids and one of channel ids, as long as fewer ids than the counter has values are generated. -/
theorem storage_answers_alike (calls : List DbCall)
    (hbound : (answers (askStep Storage.database) Storage.empty calls).2.generator.generated <
      UInt64.size) :
    ∃ users channels, Relator.BiUnique users ∧ Relator.BiUnique channels ∧
      List.Forall₂ (Alike users channels)
        (answers (askStep Storage.database) Storage.empty calls).1
        (answers (askStep WrapperPg.database) { db := .empty } calls).1 := by
  obtain ⟨hrefines, -, halike⟩ := forall₂_answers
    (R := Storage.Refines) (P := fun s => s.generator.generated < UInt64.size)
    (Q := fun s t => Alike (s.renamedUsers t) (s.renamedChannels t))
    (fun s call => Nat.lt_of_le_of_lt (s.generated_le_askStep call))
    (fun s t call h hstep => (h.ask call hstep).refines)
    (fun s t call h hstep => (h.ask call hstep).alike)
    (fun s t call a b h hstep => Alike.mono (h.ask call hstep).users (h.ask call hstep).channels)
    Storage.refines_empty hbound
  exact ⟨_, _, hrefines.users.biUnique, hrefines.channels.biUnique, halike⟩

/-- A login taken twice, a wrong password, and a channel made twice. -/
def repeatedCalls : List DbCall :=
  [.checkRegUser ⟨"ann", "1"⟩, .createChannel "room", .checkRegUser ⟨"ann", "2"⟩,
    .checkAuthUser ⟨"ann", "2"⟩, .checkAuthUser ⟨"ann", "1"⟩, .hasChannel "room",
    .createChannel "room", .checkRegUser ⟨"bob", "3"⟩]

omit [Protocol] in
theorem storage_answers_alike_repeated :
    (answers (askStep Storage.database) Storage.empty repeatedCalls).2.generator.generated <
        UInt64.size ∧
      ∃ users channels, Relator.BiUnique users ∧ Relator.BiUnique channels ∧
        List.Forall₂ (Alike users channels)
          (answers (askStep Storage.database) Storage.empty repeatedCalls).1
          (answers (askStep (@WrapperPg.database Protocol.oneByte)) { db := .empty }
            repeatedCalls).1 :=
  ⟨by decide +kernel, @storage_answers_alike Protocol.oneByte repeatedCalls (by decide +kernel)⟩

end GatewayServer
