import GatewayServer.Channels.ChannelsManager
import GatewayServer.Database.StorageViews
import GatewayServer.Engine.QueryEngine

/-!
# Channels over the database in memory

`ChannelsManager` asks `Storage` by name whether there is a channel, and for its id. The second
answer is always zero, so a channel that is there cannot be found again.

## Main definitions

* `Server.lookUp` — a call of `createOrGetChannelByName`
* `Server.ServesNames` — every call returns the channel of its name

## Main results

* `ChannelsManager.storage_ok_iff` — the calls that return a channel
* `Server.servesNames_iff` — the lists of names that are served
* `storageChannels_iff` — when the views agree and the names are served
-/

namespace GatewayServer

open Lib

namespace Server

/-- The server after it was asked for a channel. -/
def lookUp (s : Server Storage) (n : String) : Server Storage :=
  ((ChannelsManager.createOrGetChannelByName Storage.database n).run s).2

/-- Every call returns a channel, and the calls for one name return the same. -/
def ServesNames (s : Server Storage) (names : List String) : Prop :=
  ∃ channel : String → ChannelPtr,
    Along lookUp
      (fun s n => ((ChannelsManager.createOrGetChannelByName Storage.database n).run s).1 =
        .ok (channel n)) s names

end Server

namespace ChannelsManager

variable {s : Server Storage} {n : String}

/-- A channel starts without members. -/
theorem run_storage_makeShared (hn : n ≠ "") {k : UserId} (hk : k ≠ 0) :
    (Channel.makeShared Storage.database n k).run s =
      (.ok s.objects.length, { s with objects := s.objects ++ [⟨n, k, ∅⟩] }) := by
  have husers : (Server.inDb (Storage.getChannelUsers k)).run s = (.ok [], s) := rfl
  rw [Channel.makeShared, Prog.run_atomically, Channel.construct, if_neg hn, if_neg hk, bind_assoc,
    Prog.run_bind_ok husers]
  rfl

theorem run_storage_makeShared_zero (hn : n ≠ "") :
    (Channel.makeShared Storage.database n 0).run s =
      (.error (.invalidArgument "Channel: id equal zero"), s) := by
  rw [Channel.makeShared, Prog.run_atomically, Channel.construct, if_neg hn, if_pos rfl]
  rfl

/-- A name that is not there is created, and the channel made under the id that is generated. -/
theorem run_storage_missing (hnew : s.db.nameIdChannels n = none) :
    (createOrGetChannelByName Storage.database n).run s =
      (Channel.makeShared Storage.database n s.db.generator.generate.1 >>= fun channel => do
        store s.db.generator.generate.1 channel
        return channel).run { s with db := s.db.addChannel n } := by
  have hhas : (Storage.hasChannel n).run s.db = (.ok false, s.db) := by
    simp [Storage.hasChannel, hnew]
  rw [createOrGetChannelByName, Prog.run_bind_ok (Server.run_inDb_ok hhas),
    if_neg Bool.false_ne_true,
    Prog.run_bind_ok (Server.run_inDb_ok (Storage.run_createChannel_new hnew))]

/-- A name that is there is looked for under the id zero, and nothing can be made under it. -/
theorem run_storage_known (hn : n ≠ "") (hzero : s.idChannels 0 = none)
    (hknown : s.db.nameIdChannels n ≠ none) :
    (createOrGetChannelByName Storage.database n).run s =
      (.error (.invalidArgument "Channel: id equal zero"), s) := by
  obtain ⟨k, hk⟩ := Option.ne_none_iff_exists'.mp hknown
  have hhas : (Storage.hasChannel n).run s.db = (.ok true, s.db) := by
    simp [Storage.hasChannel, hk]
  have hid : (Storage.getChannelId n).run s.db = (.ok 0, s.db) := rfl
  rw [createOrGetChannelByName, Prog.run_bind_ok (Server.run_inDb_ok hhas), if_pos rfl,
    Prog.run_bind_ok (Server.run_inDb_ok hid), getOrMake, Prog.run_atomically,
    Prog.run_bind_ok (Prog.run_read _ _)]
  simp only [hzero]
  rw [Prog.run_bind_error (run_storage_makeShared_zero hn)]

/-- A channel that is new is stored under the id that is generated. -/
theorem run_storage_new (hn : n ≠ "") (hnew : s.db.nameIdChannels n = none)
    (hid : s.db.generator.generate.1 ≠ 0) :
    (createOrGetChannelByName Storage.database n).run s =
      (.ok s.objects.length, { s with
        db := s.db.addChannel n
        objects := s.objects ++ [⟨n, s.db.generator.generate.1, ∅⟩]
        idChannels := Function.update s.idChannels s.db.generator.generate.1
          (some s.objects.length) }) := by
  rw [run_storage_missing hnew, Prog.run_bind_ok (run_storage_makeShared hn hid)]
  rfl

/-- A channel is returned for a name that is not there, under an id that is not zero. -/
theorem storage_ok_iff (hn : n ≠ "") (hzero : s.idChannels 0 = none) :
    (∃ p, ((createOrGetChannelByName Storage.database n).run s).1 = .ok p) ↔
      s.db.nameIdChannels n = none ∧ s.db.generator.generate.1 ≠ 0 := by
  constructor
  · rintro ⟨p, hok⟩
    by_cases hnew : s.db.nameIdChannels n = none
    · refine ⟨hnew, ?_⟩
      intro hid
      rw [run_storage_missing hnew, hid,
        Prog.run_bind_error (run_storage_makeShared_zero hn)] at hok
      exact absurd hok (by simp)
    · rw [run_storage_known hn hzero hnew] at hok
      exact absurd hok (by simp)
  · rintro ⟨hnew, hid⟩
    exact ⟨_, congrArg Prod.fst (run_storage_new hn hnew hid)⟩

end ChannelsManager

namespace Server

variable {s : Server Storage}

/-- The server after a new name was served. -/
theorem lookUp_new {n : String} (hn : n ≠ "") (hzero : s.idChannels 0 = none)
    (hnew : s.db.nameIdChannels n = none) (hid : s.db.generator.generate.1 ≠ 0) :
    (s.lookUp n).idChannels 0 = none ∧ (s.lookUp n).db = s.db.addChannel n := by
  rw [lookUp, ChannelsManager.run_storage_new hn hnew hid]
  exact ⟨by simp [Ne.symm hid, hzero], rfl⟩

/-- Names are served exactly when they are not there yet and different from each other, and the
counter does not come round to zero. -/
theorem servesNames_iff (hzero : s.idChannels 0 = none) {names : List String}
    (hnames : ∀ n ∈ names, n ≠ "") :
    s.ServesNames names ↔
      (∀ n ∈ names, s.db.nameIdChannels n = none) ∧ names.Nodup ∧
        ∀ j < names.length, (s.db.generator.generated + j + 1) % UInt64.size ≠ 0 := by
  induction names generalizing s with
  | nil => exact iff_of_true ⟨fun _ => 0, trivial⟩ ⟨by simp, List.nodup_nil, by simp⟩
  | cons n names ih =>
    obtain ⟨hn, hnames⟩ := List.forall_mem_cons.mp hnames
    constructor
    · rintro ⟨channel, hok, hrest⟩
      obtain ⟨hnew, hid⟩ := (ChannelsManager.storage_ok_iff hn hzero).mp ⟨_, hok⟩
      obtain ⟨hzero', hdb⟩ := lookUp_new hn hzero hnew hid
      obtain ⟨hmissing, hnodup, hids⟩ := (ih hzero' hnames).mp ⟨channel, hrest⟩
      rw [hdb] at hmissing hids
      -- the name is in the map by now, so it does not come again
      have hother : ∀ m ∈ names, m ≠ n := by
        rintro m hm rfl
        exact absurd (hmissing m hm) (by simp [Storage.addChannel])
      refine ⟨List.forall_mem_cons.mpr ⟨hnew, ?_⟩,
        List.nodup_cons.mpr ⟨fun hm => hother n hm rfl, hnodup⟩, ?_⟩
      · intro m hm
        simpa [Storage.addChannel, hother m hm] using hmissing m hm
      · intro j hj
        cases j with
        | zero => exact hid
        | succ j =>
          -- the counter is one further for the names that are left
          have hnext := hids j (Nat.lt_of_succ_lt_succ hj)
          rwa [Nat.add_right_comm s.db.generator.generated (j + 1) 1, ← Nat.add_assoc]
    · rintro ⟨hmissing, hnodup, hids⟩
      obtain ⟨hnew, hmissing⟩ := List.forall_mem_cons.mp hmissing
      obtain ⟨hfresh, hnodup⟩ := List.nodup_cons.mp hnodup
      have hid : s.db.generator.generate.1 ≠ 0 := hids 0 (Nat.succ_pos _)
      obtain ⟨hzero', hdb⟩ := lookUp_new hn hzero hnew hid
      have hother : ∀ m ∈ names, m ≠ n := by
        rintro m hm rfl
        exact hfresh hm
      obtain ⟨channel, hrest⟩ : (s.lookUp n).ServesNames names := by
        refine (ih hzero' hnames).mpr ⟨?_, hnodup, ?_⟩
        · intro m hm
          rw [hdb]
          simpa [Storage.addChannel, hother m hm] using hmissing m hm
        · intro j hj
          have hnext := hids (j + 1) (Nat.succ_lt_succ hj)
          rw [hdb]
          rwa [Nat.add_right_comm s.db.generator.generated (j + 1) 1, ← Nat.add_assoc] at hnext
      refine ⟨Function.update channel n s.objects.length, ?_, ?_⟩
      · have hrun := congrArg Prod.fst (ChannelsManager.run_storage_new hn hnew hid)
        simpa using hrun
      -- none of the others is served by the channel of this name
      · refine hrest.mono ?_
        intro t m hm hok
        simpa [hother m hm] using hok

end Server

/-- The manager finds no channels when it is started. -/
theorem start_storage (d : Storage) : start Storage.database d = (.ok ⟨⟩, Server.initial d) := rfl

open Storage in
/-- The views of the channels agree after some calls, and a manager that is started then serves
some names, exactly when no channel was created by the calls, no name is asked for twice, and the
counter does not come round to zero. -/
theorem storageChannels_iff (calls : List StorageCall) {names : List String}
    (hnames : ∀ n ∈ names, n ≠ "") :
    ChannelViewsAgree calls ∧
        (start Storage.database (reached calls)).2.ServesNames names ↔
      (∀ n, .createChannel n ∉ calls) ∧ names.Nodup ∧
        ∀ j < names.length, ((reached calls).generator.generated + j + 1) % UInt64.size ≠ 0 := by
  rw [start_storage, Server.servesNames_iff rfl hnames, channelViewsAgree_iff]
  constructor
  · rintro ⟨hnone, -, hrest⟩
    exact ⟨hnone, hrest⟩
  · rintro ⟨hnone, hrest⟩
    refine ⟨hnone, ?_, hrest⟩
    intro n _
    show (reached calls).nameIdChannels n = none
    rw [Option.eq_none_iff_forall_not_mem]
    intro id hid
    have hreturned := (nameIdChannels_reached calls n id).mp hid
    exact hnone n ((exists_returned_iff calls n).mp ⟨id, hreturned⟩)

open Storage in
/-- Two different names, after a registration. -/
theorem storageChannels_two_names :
    ChannelViewsAgree [.checkRegUser ⟨"ann", "a"⟩] ∧
      (start Storage.database (reached [.checkRegUser ⟨"ann", "a"⟩])).2.ServesNames
        ["room", "hall"] := by
  refine (storageChannels_iff [.checkRegUser ⟨"ann", "a"⟩] (by simp)).mpr ⟨by simp, by simp, ?_⟩
  decide

open Storage in
/-- A channel that was created has no id, and a name that is asked for twice is served once. -/
theorem not_storageChannels_created :
    ¬ ChannelViewsAgree [.createChannel "room"] ∧
      ¬ (start Storage.database (reached [])).2.ServesNames ["room", "room"] := by
  constructor
  · rintro ⟨-, hreturned, -, -⟩
    have hid := (hreturned "room" 1 ⟨[], _, _, rfl, rfl, rfl⟩).2
    exact absurd (Except.ok.inj hid) (by decide)
  · rintro ⟨channel, -, hagain, -⟩
    have herror : ((ChannelsManager.createOrGetChannelByName Storage.database "room").run
        ((start Storage.database (reached [])).2.lookUp "room")).1 =
          .error (.invalidArgument "Channel: id equal zero") := by rfl
    rw [herror] at hagain
    exact absurd hagain (by simp)

end GatewayServer
