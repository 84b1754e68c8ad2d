import GatewayServer.Database.StorageCalls

/-!
# Users of the database in memory

Registrations and authentications on `Storage`, with any other calls in between. A user is in two
hash maps, and its id comes from the counter that channels use too.

## Main definitions

* `StorageCall.Registers`, `Storage.HandsOut` — calls that use a login, and that give out an id
* `Storage.Distinct` — the two maps hold the same users, and no id is given out twice

## Main results

* `Storage.Distinct.after` — every call keeps it, while the counter does not go round
* `Storage.users_of_calls` — what registrations and authentications answer
-/

namespace GatewayServer

open Lib

/-- Some call of the list registers the login. -/
def StorageCall.Registers (calls : List StorageCall) (login : String) : Prop :=
  ∃ settings, .checkRegUser settings ∈ calls ∧ settings.clientName = login

namespace Storage

/-- The call answers with an id that it gives to a user or to a channel. -/
def HandsOut (id : UserId) (s : Storage) : StorageCall → Prop
  | .checkRegUser settings => id ≠ REG_LOGIN_IS_BUSY ∧ ((checkRegUser settings).run s).1 = .ok id
  | .createChannel channelName => ((createChannel channelName).run s).1 = .ok id
  | _ => False

/-- Users are in both maps, and nobody has the id of somebody else. -/
structure Distinct (s : Storage) : Prop where
  settings : ∀ login i, s.nameIdUsers login = some i →
    ∃ known, s.nameSettingsUsers i = some known ∧ known.clientName = login
  users : ∀ login i, s.nameIdUsers login = some i → 0 < i ∧ i ≤ s.generator.generated
  channels : ∀ n i, s.nameIdChannels n = some i → 0 < i ∧ i ≤ s.generator.generated
  disjoint : ∀ login n i, s.nameIdUsers login = some i → s.nameIdChannels n ≠ some i

/-- A user, with the settings of its registration. -/
def Knows (s : Storage) (settings : InputSettings) (i : UserId) : Prop :=
  s.nameIdUsers settings.clientName = some i ∧ s.nameSettingsUsers i = some settings

theorem distinct_empty : empty.Distinct where
  settings _ _ hi := absurd hi (by simp [empty])
  users _ _ hi := absurd hi (by simp [empty])
  channels _ _ hi := absurd hi (by simp [empty])
  disjoint _ _ _ hi := absurd hi (by simp [empty])

namespace Distinct

variable {s : Storage} (h : s.Distinct)
include h

/-- The next id is nobody's. -/
theorem users_ne {login : String} {i : UserId} (hi : s.nameIdUsers login = some i) :
    i ≠ s.generator.generated + 1 :=
  Nat.ne_of_lt (Nat.lt_succ_of_le (h.users login i hi).2)

theorem channels_ne {n : String} {i : UserId} (hi : s.nameIdChannels n = some i) :
    i ≠ s.generator.generated + 1 :=
  Nat.ne_of_lt (Nat.lt_succ_of_le (h.channels n i hi).2)

theorem addUser {settings : InputSettings} (hbound : s.generator.generated + 1 < UInt64.size) :
    (s.addUser settings).Distinct := by
  rw [Storage.addUser, GeneratorId.generate_eq _ hbound]
  constructor
  · intro login i hi
    rcases update_eq_some_iff.mp hi with ⟨rfl, rfl⟩ | ⟨-, hi⟩
    · exact ⟨settings, Function.update_self .., rfl⟩
    · obtain ⟨known, hknown, hlogin⟩ := h.settings login i hi
      exact ⟨known, update_eq_some_iff.mpr (.inr ⟨h.users_ne hi, hknown⟩), hlogin⟩
  · intro login i hi
    rcases update_eq_some_iff.mp hi with ⟨rfl, rfl⟩ | ⟨-, hi⟩
    · exact ⟨Nat.succ_pos _, Nat.le_refl _⟩
    · exact (h.users login i hi).imp_right Nat.le_succ_of_le
  · intro n i hi
    exact (h.channels n i hi).imp_right Nat.le_succ_of_le
  · intro login n i hi hn
    rcases update_eq_some_iff.mp hi with ⟨rfl, rfl⟩ | ⟨-, hi⟩
    · exact h.channels_ne hn rfl
    · exact h.disjoint login n i hi hn

theorem addChannel {n : String} (hbound : s.generator.generated + 1 < UInt64.size) :
    (s.addChannel n).Distinct := by
  rw [Storage.addChannel, GeneratorId.generate_eq _ hbound]
  constructor
  · exact h.settings
  · intro login i hi
    exact (h.users login i hi).imp_right Nat.le_succ_of_le
  · intro n' i hi
    rcases update_eq_some_iff.mp hi with ⟨rfl, rfl⟩ | ⟨-, hi⟩
    · exact ⟨Nat.succ_pos _, Nat.le_refl _⟩
    · exact (h.channels n' i hi).imp_right Nat.le_succ_of_le
  · intro login n' i hi hn
    rcases update_eq_some_iff.mp hn with ⟨rfl, rfl⟩ | ⟨-, hn⟩
    · exact h.users_ne hi rfl
    · exact h.disjoint login n' i hi hn

/-- A call keeps the users in both maps, and the ids apart. -/
theorem after (c : StorageCall) (hbound : (s.after c).generator.generated < UInt64.size) :
    (s.after c).Distinct := by
  obtain ⟨settings, -, -, hc⟩ | ⟨n, -, -, hc⟩ | ⟨-, hgenerator, husers, hsettings, hchannels⟩ :=
    s.after_cases c
  · rw [hc] at hbound ⊢
    exact h.addUser hbound
  · rw [hc] at hbound ⊢
    exact h.addChannel hbound
  · exact ⟨by rw [husers, hsettings]; exact h.settings,
      by rw [husers, hgenerator]; exact h.users,
      by rw [hchannels, hgenerator]; exact h.channels,
      by rw [husers, hchannels]; exact h.disjoint⟩

/-- A user that is known stays, with the settings of its registration. -/
theorem knows_after {settings : InputSettings} {i : UserId} (hi : s.Knows settings i)
    (c : StorageCall) (hbound : (s.after c).generator.generated < UInt64.size) :
    (s.after c).Knows settings i := by
  obtain ⟨settings', -, hnew, hc⟩ | ⟨n, -, -, hc⟩ | ⟨-, -, husers, hsettings, -⟩ := s.after_cases c
  · rw [hc] at hbound ⊢
    rw [Storage.addUser, GeneratorId.generate_eq _ hbound]
    have hne : settings.clientName ≠ settings'.clientName := by
      intro hlogin
      rw [← hlogin, hi.1] at hnew
      exact absurd hnew (by simp)
    exact ⟨update_eq_some_iff.mpr (.inr ⟨hne, hi.1⟩),
      update_eq_some_iff.mpr (.inr ⟨h.users_ne hi.1, hi.2⟩)⟩
  · rw [hc]
    exact hi
  · rw [Knows, husers, hsettings]
    exact hi

/-- No call gives the id of a user to anybody else. -/
theorem not_handsOut {login : String} {i : UserId} (hi : s.nameIdUsers login = some i)
    (c : StorageCall) (hbound : (s.after c).generator.generated < UInt64.size) :
    ¬ HandsOut i s c := by
  cases c with
  | checkRegUser settings =>
    rintro ⟨hne, hid⟩
    by_cases hnew : s.nameIdUsers settings.clientName = none
    -- a new id is not one that the map has
    · rw [Storage.after, run_checkRegUser_new hnew] at hbound
      rw [run_checkRegUser_new hnew, GeneratorId.generate_eq _ hbound] at hid
      exact h.users_ne hi (Except.ok.inj hid).symm
    · rw [run_checkRegUser_known hnew] at hid
      exact hne (Except.ok.inj hid).symm
  | createChannel n =>
    intro hid
    rw [HandsOut] at hid
    cases hn : s.nameIdChannels n with
    | none =>
      rw [Storage.after, run_createChannel_new hn] at hbound
      rw [run_createChannel_new hn, GeneratorId.generate_eq _ hbound] at hid
      exact h.users_ne hi (Except.ok.inj hid).symm
    | some k =>
      rw [run_createChannel_known hn] at hid
      obtain rfl := Except.ok.inj hid
      -- channels and users have different ids
      exact h.disjoint login n k hi hn
  | _ => exact id

/-- An id that is given out has been generated. -/
theorem le_of_handsOut {c : StorageCall} {i : UserId} (hi : HandsOut i s c)
    (hbound : (s.after c).generator.generated < UInt64.size) :
    i ≤ (s.after c).generator.generated := by
  cases c with
  | checkRegUser settings =>
    by_cases hnew : s.nameIdUsers settings.clientName = none
    · rw [Storage.after, run_checkRegUser_new hnew] at hbound ⊢
      have hid := hi.2
      rw [run_checkRegUser_new hnew, GeneratorId.generate_eq _ hbound] at hid
      exact Nat.le_of_eq (Except.ok.inj hid).symm
    · have hid := hi.2
      rw [run_checkRegUser_known hnew] at hid
      exact absurd (Except.ok.inj hid).symm hi.1
  | createChannel n =>
    rw [HandsOut] at hi
    cases hn : s.nameIdChannels n with
    | none =>
      rw [Storage.after, run_createChannel_new hn] at hbound ⊢
      rw [run_createChannel_new hn, GeneratorId.generate_eq _ hbound] at hi
      exact Nat.le_of_eq (Except.ok.inj hi).symm
    | some k =>
      rw [Storage.after, run_createChannel_known hn]
      rw [run_createChannel_known hn] at hi
      -- the id of a name that is known is from before
      exact Except.ok.inj hi ▸ (h.channels n k hn).2
  | _ => exact absurd hi id

/-- Users stay known, and ids apart, on a run. -/
theorem knows_foldl {settings : InputSettings} {i : UserId} (hi : s.Knows settings i)
    {calls : List StorageCall}
    (hids : (calls.foldl Storage.after s).generator.generated < UInt64.size) :
    (calls.foldl Storage.after s).Distinct ∧ (calls.foldl Storage.after s).Knows settings i :=
  foldl_bounded (I := fun t => t.Distinct ∧ t.Knows settings i)
    (fun _ c ht hbound => ⟨ht.1.after c hbound, ht.1.knows_after ht.2 c hbound⟩) ⟨h, hi⟩ hids

/-- No call of a run gives the id of a user to anybody else. -/
theorem not_sometime_handsOut {settings : InputSettings} {i : UserId} (hi : s.Knows settings i)
    {calls : List StorageCall}
    (hids : (calls.foldl Storage.after s).generator.generated < UInt64.size) :
    ¬ Sometime Storage.after (HandsOut i) s calls := by
  rintro ⟨pre, c, post, rfl, hc⟩
  rw [List.foldl_append, List.foldl_cons] at hids
  have hafter := Nat.lt_of_le_of_lt (generated_le_foldl _ post) hids
  have hpre := Nat.lt_of_le_of_lt (generated_le_after _ c) hafter
  obtain ⟨hdistinct, hknows⟩ := h.knows_foldl hi hpre
  exact hdistinct.not_handsOut hknows.1 c hafter hc

end Distinct

theorem distinct_reached {calls : List StorageCall}
    (hids : (reached calls).generator.generated < UInt64.size) : (reached calls).Distinct :=
  foldl_bounded (fun _ c h => h.after c) distinct_empty hids

/-- The ids that the calls of a run give out have been generated. -/
theorem le_of_sometime_handsOut {calls : List StorageCall} {i : UserId}
    (hids : (reached calls).generator.generated < UInt64.size)
    (hi : Sometime after (HandsOut i) empty calls) : i ≤ (reached calls).generator.generated := by
  obtain ⟨pre, c, post, rfl, hc⟩ := hi
  rw [reached_append, List.foldl_cons] at hids ⊢
  have hafter := Nat.lt_of_le_of_lt (generated_le_foldl _ post) hids
  have hpre := Nat.lt_of_le_of_lt (generated_le_after _ c) hafter
  exact Nat.le_trans ((distinct_reached hpre).le_of_handsOut hc hafter) (generated_le_foldl _ post)

theorem nameIdUsers_after (s : Storage) (c : StorageCall) (login : String) :
    (s.after c).nameIdUsers login ≠ none ↔ s.nameIdUsers login ≠ none ∨
      ∃ settings, c = .checkRegUser settings ∧ settings.clientName = login := by
  obtain ⟨settings, rfl, hnew, hc⟩ | ⟨n, rfl, -, hc⟩ | ⟨hnot, -, husers, -⟩ := s.after_cases c
  · rw [hc, Storage.addUser]
    by_cases hlogin : login = settings.clientName
    · simp [hlogin]
    · simp [hlogin, Ne.symm hlogin]
  · rw [hc]
    simp [Storage.addChannel]
  · rw [husers]
    -- a registration that changes nothing finds its login in use
    refine (or_iff_left_of_imp ?_).symm
    rintro ⟨settings, rfl, rfl⟩
    exact hnot

/-- A login is known when a call has registered it. -/
theorem nameIdUsers_reached (calls : List StorageCall) (login : String) :
    (reached calls).nameIdUsers login ≠ none ↔ StorageCall.Registers calls login := by
  refine (foldl_iff_sometime (I := fun _ => True)
    (Q := fun s : Storage => s.nameIdUsers login ≠ none) (fun _ _ _ => trivial)
    (fun s c _ => s.nameIdUsers_after c login) trivial calls).trans ?_
  rw [sometime_iff_exists_mem]
  constructor
  · rintro (hnone | ⟨_, hmem, settings, rfl, hlogin⟩)
    · exact absurd rfl hnone
    · exact ⟨settings, hmem, hlogin⟩
  · rintro ⟨settings, hmem, hlogin⟩
    exact .inr ⟨_, hmem, settings, rfl, hlogin⟩

/-! ## What is answered -/

/-- A known user is authenticated by the password of its registration. -/
theorem run_checkAuthUser_knows {s : Storage} {first settings : InputSettings} {i : UserId}
    (h : s.Knows first i) (hlogin : first.clientName = settings.clientName) :
    (checkAuthUser settings).run s =
      (.ok (if first.clientPassword = settings.clientPassword then i
        else AUTH_LOGIN_IS_NOT_AVAILABLE), s) := by
  obtain ⟨hid, hknown⟩ := h
  rw [hlogin] at hid
  simp [checkAuthUser, hid, hknown]

theorem run_checkAuthUser_unknown {s : Storage} {settings : InputSettings}
    (h : s.nameIdUsers settings.clientName = none) :
    (checkAuthUser settings).run s = (.ok AUTH_LOGIN_IS_NOT_AVAILABLE, s) := by
  simp [checkAuthUser, h]

/-- The first registration of a login makes a user known under the id that it answers with. -/
theorem exists_knows_of_first {before : List StorageCall} {settings : InputSettings}
    (hids : (reached (before ++ [.checkRegUser settings])).generator.generated < UInt64.size)
    (hfirst : ¬ StorageCall.Registers before settings.clientName) :
    ((checkRegUser settings).run (reached before)).1 =
        .ok ((reached before).generator.generated + 1) ∧
      (reached (before ++ [.checkRegUser settings])).Knows settings
        ((reached before).generator.generated + 1) := by
  have hnew : (reached before).nameIdUsers settings.clientName = none := by
    by_contra hknown
    exact hfirst ((nameIdUsers_reached before _).mp hknown)
  have hafter : reached (before ++ [.checkRegUser settings]) =
      (reached before).addUser settings := by
    rw [reached_append, List.foldl_cons, List.foldl_nil, after, run_checkRegUser_new hnew]
  rw [hafter] at hids ⊢
  rw [run_checkRegUser_new hnew, Storage.addUser, GeneratorId.generate_eq _ hids]
  exact ⟨rfl, Function.update_self .., Function.update_self ..⟩

open StorageCall (Registers)

/-- While the counter does not go round, a registration answers with an id exactly when it is the
first of its login, and with one that no other call gives out; an authentication answers with this
id exactly for the password of the first registration; and the user is in both maps. -/
theorem users_of_calls (calls : List StorageCall)
    (hids : (reached calls).generator.generated < UInt64.size) :
    (∀ before settings rest, calls = before ++ .checkRegUser settings :: rest →
      ∃ id, ((checkRegUser settings).run (reached before)).1 = .ok id ∧
        (id ≠ 0 ↔ ¬ Registers before settings.clientName) ∧
        (id ≠ 0 → ¬ Sometime after (HandsOut id) empty before ∧
          ¬ Sometime after (HandsOut id) (reached (before ++ [.checkRegUser settings])) rest)) ∧
    ∀ before settings rest, calls = before ++ .checkAuthUser settings :: rest →
      (∀ earlier first between, before = earlier ++ .checkRegUser first :: between →
        first.clientName = settings.clientName → ¬ Registers earlier first.clientName →
          ∃ id, ((checkRegUser first).run (reached earlier)).1 = .ok id ∧
            ((checkAuthUser settings).run (reached before)).1 =
              .ok (if first.clientPassword = settings.clientPassword then id else 0)) ∧
      (¬ Registers before settings.clientName →
        ((checkAuthUser settings).run (reached before)).1 = .ok 0) ∧
      ∀ id, (reached before).nameIdUsers settings.clientName = some id →
        (reached before).nameSettingsUsers id ≠ none := by
  constructor
  · rintro before settings rest rfl
    have hcalls : before ++ .checkRegUser settings :: rest =
        (before ++ [.checkRegUser settings]) ++ rest := by simp
    rw [hcalls, reached_append] at hids
    have hafter := Nat.lt_of_le_of_lt (generated_le_foldl _ rest) hids
    by_cases hfirst : Registers before settings.clientName
    -- the login is taken, and the answer is zero
    · have hbusy := run_checkRegUser_known ((nameIdUsers_reached before _).mpr hfirst)
      exact ⟨0, by rw [hbusy], by simp [hfirst], fun hne => absurd rfl hne⟩
    -- the generator gives an id that nobody has had, and that nobody gets later
    · obtain ⟨hanswer, hknows⟩ := exists_knows_of_first hafter hfirst
      refine ⟨_, hanswer, by simp [hfirst], fun _ => ⟨fun hearlier => ?_, ?_⟩⟩
      · have hbefore : (reached before).generator.generated < UInt64.size := by
          rw [reached_append] at hafter
          exact Nat.lt_of_le_of_lt (generated_le_foldl _ _) hafter
        exact Nat.not_succ_le_self _ (le_of_sometime_handsOut hbefore hearlier)
      · exact (distinct_reached hafter).not_sometime_handsOut hknows hids
  · rintro before settings rest rfl
    rw [reached_append] at hids
    have hbefore := Nat.lt_of_le_of_lt (generated_le_foldl _ _) hids
    refine ⟨?_, ?_, ?_⟩
    · rintro earlier first between rfl hlogin hfirst
      have hsplit : earlier ++ .checkRegUser first :: between =
          (earlier ++ [.checkRegUser first]) ++ between := by simp
      rw [hsplit, reached_append] at hbefore ⊢
      -- from the first registration on the maps keep the pair
      have hafter := Nat.lt_of_le_of_lt (generated_le_foldl _ between) hbefore
      obtain ⟨hanswer, hknows⟩ := exists_knows_of_first hafter hfirst
      have hlater := ((distinct_reached hafter).knows_foldl hknows hbefore).2
      exact ⟨_, hanswer, by rw [run_checkAuthUser_knows hlater hlogin]⟩
    · intro hnot
      have hunknown : (reached before).nameIdUsers settings.clientName = none := by
        by_contra hknown
        exact hnot ((nameIdUsers_reached before _).mp hknown)
      rw [run_checkAuthUser_unknown hunknown]
    · intro id hid
      obtain ⟨known, hknown, -⟩ := (distinct_reached hbefore).settings _ id hid
      rw [hknown]
      exact Option.some_ne_none _

/-- Ann registers, and again with another password, and a channel is made in between: her first
password is the one that counts. -/
theorem users_of_calls_ann :
    ((checkAuthUser ⟨"ann", "a"⟩).run (reached [.checkRegUser ⟨"ann", "a"⟩, .createChannel "room",
      .checkRegUser ⟨"ann", "b"⟩])).1 = .ok 1 := by
  have h := users_of_calls [.checkRegUser ⟨"ann", "a"⟩, .createChannel "room",
    .checkRegUser ⟨"ann", "b"⟩, .checkAuthUser ⟨"ann", "a"⟩] (by decide)
  obtain ⟨id, hgiven, hanswer⟩ := (h.2 [.checkRegUser ⟨"ann", "a"⟩, .createChannel "room",
    .checkRegUser ⟨"ann", "b"⟩] ⟨"ann", "a"⟩ [] rfl).1 [] ⟨"ann", "a"⟩ _ rfl rfl
      (by simp [Registers])
  rw [hanswer, if_pos rfl, ← hgiven]
  rfl

end Storage

end GatewayServer
