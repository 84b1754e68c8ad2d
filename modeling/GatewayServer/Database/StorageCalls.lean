import GatewayServer.Database.Storage
import GatewayServer.Lib.Run

/-!
# Calls of the database in memory

The functions of `Storage`, called one after another. Ids come from one counter, and only a first
registration of a login and a first creation of a channel take one.

## Main definitions

* `StorageCall`, `Storage.after` — a call of any function, and the object after it
* `Storage.reached` — the object after some calls
* `Storage.addUser`, `Storage.addChannel` — what the calls do that take an id
* `Storage.Generates` — the calls that take one

## Main results

* `Storage.after_cases` — what a call can do to the ids
* `Storage.foldl_bounded` — invariants of runs in which the counter does not go round
-/

namespace GatewayServer

open Lib

inductive StorageCall where
  | connect
  | checkRegUser (settings : InputSettings)
  | checkAuthUser (settings : InputSettings)
  | getUserNameChannels (clientId : UserId)
  | getChannelUsers (channelId : UserId)
  | hasChannel (channelName : String)
  | createChannel (channelName : String)
  | joinClientChannel (clientId : UserId) (channelName : String)
  | addMsgHistory (channelId : UserId) (msg : ClientTextMsg)
  | getHistory (channelId : UserId)
  | getChannelId (channelName : String)
  | getCurrentChannels
  deriving DecidableEq, Repr

namespace Storage

/-- The object after a call. -/
def after (s : Storage) : StorageCall → Storage
  | .connect => (connect.run s).2
  | .checkRegUser settings => ((checkRegUser settings).run s).2
  | .checkAuthUser settings => ((checkAuthUser settings).run s).2
  | .getUserNameChannels clientId => ((getUserNameChannels clientId).run s).2
  | .getChannelUsers channelId => ((getChannelUsers channelId).run s).2
  | .hasChannel channelName => ((hasChannel channelName).run s).2
  | .createChannel channelName => ((createChannel channelName).run s).2
  | .joinClientChannel clientId channelName => ((joinClientChannel clientId channelName).run s).2
  | .addMsgHistory channelId msg => ((addMsgHistory channelId msg).run s).2
  | .getHistory channelId => ((getHistory channelId).run s).2
  | .getChannelId channelName => ((getChannelId channelName).run s).2
  | .getCurrentChannels => (getCurrentChannels.run s).2

/-- The object after some calls, from a new one. -/
def reached (calls : List StorageCall) : Storage := calls.foldl after empty

theorem reached_append (calls calls' : List StorageCall) :
    reached (calls ++ calls') = calls'.foldl after (reached calls) :=
  List.foldl_append

/-! ## The calls that take an id -/

/-- The object after a login was registered. -/
def addUser (s : Storage) (settings : InputSettings) : Storage :=
  { s with
    generator := s.generator.generate.2
    nameIdUsers := Function.update s.nameIdUsers settings.clientName (some s.generator.generate.1)
    nameSettingsUsers :=
      Function.update s.nameSettingsUsers s.generator.generate.1 (some settings) }

/-- The object after a channel was created. -/
def addChannel (s : Storage) (channelName : String) : Storage :=
  { s with
    generator := s.generator.generate.2
    nameIdChannels := Function.update s.nameIdChannels channelName (some s.generator.generate.1) }

variable {s : Storage}

theorem run_checkRegUser_new {settings : InputSettings}
    (h : s.nameIdUsers settings.clientName = none) :
    (checkRegUser settings).run s = (.ok s.generator.generate.1, s.addUser settings) := by
  simp [checkRegUser, h, addUser]

theorem run_checkRegUser_known {settings : InputSettings}
    (h : s.nameIdUsers settings.clientName ≠ none) :
    (checkRegUser settings).run s = (.ok REG_LOGIN_IS_BUSY, s) := by
  obtain ⟨i, hi⟩ := Option.ne_none_iff_exists'.mp h
  simp [checkRegUser, hi]

theorem run_createChannel_new {n : String} (h : s.nameIdChannels n = none) :
    (createChannel n).run s = (.ok s.generator.generate.1, s.addChannel n) := by
  simp [createChannel, h, addChannel]

theorem run_createChannel_known {n : String} {i : UserId} (h : s.nameIdChannels n = some i) :
    (createChannel n).run s = (.ok i, s) := by
  simp [createChannel, h]

/-- A call that takes an id. -/
def Generates (s : Storage) : StorageCall → Prop
  | .checkRegUser settings => s.nameIdUsers settings.clientName = none
  | .createChannel channelName => s.nameIdChannels channelName = none
  | _ => False

/-- What a call can do to the ids: register a login, create a channel, or nothing. -/
theorem after_cases (s : Storage) (c : StorageCall) :
    (∃ settings, c = .checkRegUser settings ∧ s.nameIdUsers settings.clientName = none ∧
      s.after c = s.addUser settings) ∨
    (∃ n, c = .createChannel n ∧ s.nameIdChannels n = none ∧ s.after c = s.addChannel n) ∨
    (¬ s.Generates c ∧ (s.after c).generator = s.generator ∧
      (s.after c).nameIdUsers = s.nameIdUsers ∧
      (s.after c).nameSettingsUsers = s.nameSettingsUsers ∧
      (s.after c).nameIdChannels = s.nameIdChannels) := by
  cases c with
  | checkRegUser settings =>
    by_cases h : s.nameIdUsers settings.clientName = none
    · exact .inl ⟨settings, rfl, h, by rw [after, run_checkRegUser_new h]⟩
    · rw [after, run_checkRegUser_known h]
      exact .inr (.inr ⟨h, rfl, rfl, rfl, rfl⟩)
  | createChannel n =>
    cases h : s.nameIdChannels n with
    | none => exact .inr (.inl ⟨n, rfl, h, by rw [after, run_createChannel_new h]⟩)
    | some i =>
      rw [after, run_createChannel_known h]
      exact .inr (.inr ⟨by simp [Generates, h], rfl, rfl, rfl, rfl⟩)
  | _ => exact .inr (.inr ⟨id, rfl, rfl, rfl, rfl⟩)

theorem generated_le_after (s : Storage) (c : StorageCall) :
    s.generator.generated ≤ (s.after c).generator.generated := by
  obtain ⟨settings, -, -, h⟩ | ⟨n, -, -, h⟩ | ⟨-, h, -⟩ := s.after_cases c
  · rw [h]
    exact Nat.le_succ _
  · rw [h]
    exact Nat.le_succ _
  · exact Nat.le_of_eq (congrArg GeneratorId.generated h).symm

theorem generated_le_foldl (s : Storage) (calls : List StorageCall) :
    s.generator.generated ≤ (calls.foldl after s).generator.generated :=
  List.foldlRecOn (motive := fun t => s.generator.generated ≤ t.generator.generated) calls after
    (Nat.le_refl _) fun t ht c _ => Nat.le_trans ht (t.generated_le_after c)

/-- What every call keeps while the counter has not gone round holds at the end of a run after
which it has not. -/
theorem foldl_bounded {I : Storage → Prop}
    (keep : ∀ s c, I s → (s.after c).generator.generated < UInt64.size → I (s.after c))
    (hs : I s) {calls : List StorageCall}
    (hids : (calls.foldl after s).generator.generated < UInt64.size) : I (calls.foldl after s) := by
  refine List.foldlRecOn
    (motive := fun t => t.generator.generated < UInt64.size → I t) calls after (fun _ => hs) ?_ hids
  intro t ht c _ hbound
  exact keep t c (ht (Nat.lt_of_le_of_lt (t.generated_le_after c) hbound)) hbound

end Storage

end GatewayServer
