import GatewayServer.Database.StorageCalls
import Mathlib.Data.List.Induction
import Mathlib.Data.List.Nodup

/-!
# What the database in memory says of channels

Several functions of `Storage` answer the same question from different places, and two of them from
nowhere: `getChannelId` and `getChannelUsers` answer the same whatever was called before. The views
agree as long as there is nothing to say.

## Main definitions

* `Storage.Returned` — a creation of a channel has returned an id
* `Storage.ChannelViewsAgree` — the four views of the channels
* `StorageCall.joins` — the pairs of the joins
* `Storage.SubscriptionViewsAgree` — the two views of the subscriptions

## Main results

* `Storage.nameIdChannels_reached` — the hash map holds what creations have returned
* `Storage.getD_clientChannels_reached` — the names under a client are those of its joins, in order
* `Storage.channelViewsAgree_iff`, `Storage.subscriptionViewsAgree_iff` — when the views agree
-/

namespace GatewayServer

open Lib

namespace Storage

/-! ## Channels -/

/-- Some call has created the channel, or found it, and returned its id. -/
def Returned (calls : List StorageCall) (n : String) (id : UserId) : Prop :=
  Sometime after
    (fun s c => c = .createChannel n ∧ ((createChannel n).run s).1 = .ok id) empty calls

/-- `hasChannel`, `getChannelId` and `getCurrentChannels` say of the channels what their creation
has returned. -/
structure ChannelViewsAgree (calls : List StorageCall) : Prop where
  has : ∀ n, ((hasChannel n).run (reached calls)).1 = .ok true ↔ .createChannel n ∈ calls
  returned : ∀ n id, Returned calls n id →
    id ≠ 0 ∧ ((getChannelId n).run (reached calls)).1 = .ok id
  missing : ∀ n, .createChannel n ∉ calls → ((getChannelId n).run (reached calls)).1 = .ok 0
  current : ∃ channels, (getCurrentChannels.run (reached calls)).1 = .ok channels ∧
    ∀ id n, (id, n) ∈ channels ↔ Returned calls n id

theorem nameIdChannels_after (s : Storage) (c : StorageCall) (n : String) (id : UserId) :
    (s.after c).nameIdChannels n = some id ↔ s.nameIdChannels n = some id ∨
      c = .createChannel n ∧ ((createChannel n).run s).1 = .ok id := by
  obtain ⟨settings, rfl, -, hc⟩ | ⟨n', rfl, hnew, hc⟩ | ⟨hnot, -, -, -, hchannels⟩ :=
    s.after_cases c
  · rw [hc]
    simp [addUser]
  · rw [hc, addChannel, update_eq_some_iff]
    by_cases hn : n' = n
    · subst hn
      simp [run_createChannel_new hnew, hnew, eq_comm]
    · simp [hn, Ne.symm hn]
  · rw [hchannels]
    -- a creation that takes no id finds the channel
    refine (or_iff_left_of_imp ?_).symm
    rintro ⟨rfl, hid⟩
    obtain ⟨k, hk⟩ := Option.ne_none_iff_exists'.mp hnot
    rw [run_createChannel_known hk] at hid
    rw [hk, Except.ok.inj hid]

/-- The hash map of the channels holds what their creations have returned. -/
theorem nameIdChannels_reached (calls : List StorageCall) (n : String) (id : UserId) :
    (reached calls).nameIdChannels n = some id ↔ Returned calls n id := by
  refine (foldl_iff_sometime (I := fun _ => True)
    (Q := fun s : Storage => s.nameIdChannels n = some id) (fun _ _ _ => trivial)
    (fun s c _ => s.nameIdChannels_after c n id) trivial calls).trans ?_
  exact or_iff_right (by simp [empty])

theorem exists_returned_iff (calls : List StorageCall) (n : String) :
    (∃ id, Returned calls n id) ↔ .createChannel n ∈ calls := by
  constructor
  · rintro ⟨id, pre, c, post, rfl, rfl, -⟩
    exact List.mem_append_right _ List.mem_cons_self
  · intro hmem
    obtain ⟨pre, post, rfl⟩ := List.append_of_mem hmem
    cases hn : (reached pre).nameIdChannels n with
    | none => exact ⟨_, pre, _, post, rfl, rfl, congrArg Prod.fst (run_createChannel_new hn)⟩
    | some k => exact ⟨k, pre, _, post, rfl, rfl, congrArg Prod.fst (run_createChannel_known hn)⟩

/-- The views of the channels agree while no channel is created. -/
theorem channelViewsAgree_iff (calls : List StorageCall) :
    ChannelViewsAgree calls ↔ ∀ n, .createChannel n ∉ calls := by
  constructor
  · rintro ⟨-, -, -, channels, hcurrent, hsame⟩ n hmem
    obtain rfl : [] = channels := Except.ok.inj hcurrent
    obtain ⟨id, hid⟩ := (exists_returned_iff calls n).mpr hmem
    exact absurd ((hsame id n).mpr hid) List.not_mem_nil
  · intro hnone
    have hreturned : ∀ n id, ¬ Returned calls n id := by
      intro n id hid
      exact hnone n ((exists_returned_iff calls n).mp ⟨id, hid⟩)
    refine ⟨?_, fun n id hid => absurd hid (hreturned n id), fun _ _ => rfl, [], rfl, ?_⟩
    · intro n
      have hmissing : (reached calls).nameIdChannels n = none := by
        rw [Option.eq_none_iff_forall_not_mem]
        exact fun id hid => hreturned n id ((nameIdChannels_reached calls n id).mp hid)
      simp [hasChannel, hmissing, hnone n]
    · intro id n
      simp [hreturned n id]

end Storage

/-! ## Subscriptions -/

/-- The clients and channel names of the joins, in order. -/
def StorageCall.joins (calls : List StorageCall) : List (UserId × String) :=
  calls.filterMap fun c =>
    match c with
    | .joinClientChannel clientId channelName => some (clientId, channelName)
    | _ => none

theorem StorageCall.mem_joins {calls : List StorageCall} {i : UserId} {n : String} :
    (i, n) ∈ joins calls ↔ .joinClientChannel i n ∈ calls := by
  simp only [joins, List.mem_filterMap]
  constructor
  · rintro ⟨c, hmem, hc⟩
    cases c with
    | joinClientChannel clientId channelName =>
      obtain ⟨rfl, rfl⟩ : clientId = i ∧ channelName = n := by simpa using hc
      exact hmem
    | _ => exact absurd hc (by simp)
  · intro hmem
    exact ⟨_, hmem, rfl⟩

namespace Storage

open StorageCall (joins mem_joins)

/-- `getUserNameChannels` lists the names that the client has joined, each once, and the users of a
created channel are the clients that have joined its name. -/
structure SubscriptionViewsAgree (calls : List StorageCall) : Prop where
  channels : ∀ i n, ∃ names, ((getUserNameChannels i).run (reached calls)).1 = .ok names ∧
    names.count n = if .joinClientChannel i n ∈ calls then 1 else 0
  users : ∀ n id, Returned calls n id →
    ∃ users, ((getChannelUsers id).run (reached calls)).1 = .ok users ∧ users.Nodup ∧
      ∀ i, i ∈ users ↔ .joinClientChannel i n ∈ calls

/-- A call appends the name that it joins. -/
theorem getD_clientChannels_after (s : Storage) (c : StorageCall) (i : UserId) :
    ((s.after c).clientChannels i).getD [] = (s.clientChannels i).getD [] ++
      ((joins [c]).filter fun join => join.1 = i).map Prod.snd := by
  -- the other calls leave the map as it is, and join nothing
  have hframe (h : (s.after c).clientChannels = s.clientChannels) (hjoins : joins [c] = []) :
      ((s.after c).clientChannels i).getD [] = (s.clientChannels i).getD [] ++
        ((joins [c]).filter fun join => join.1 = i).map Prod.snd := by
    rw [h, hjoins]
    exact (List.append_nil _).symm
  cases c with
  | joinClientChannel clientId channelName =>
    by_cases hi : i = clientId
    · subst hi
      simp [after, joinClientChannel, joins]
    · simp [after, joinClientChannel, joins, hi, Ne.symm hi]
  | checkRegUser settings =>
    refine hframe ?_ rfl
    by_cases hnew : s.nameIdUsers settings.clientName = none
    · rw [after, run_checkRegUser_new hnew, addUser]
    · rw [after, run_checkRegUser_known hnew]
  | createChannel n =>
    refine hframe ?_ rfl
    cases hn : s.nameIdChannels n with
    | none => rw [after, run_createChannel_new hn, addChannel]
    | some k => rw [after, run_createChannel_known hn]
  | _ => exact hframe rfl rfl

/-- Under a client stand the names of its joins, in their order. -/
theorem getD_clientChannels_reached (calls : List StorageCall) (i : UserId) :
    ((reached calls).clientChannels i).getD [] =
      ((joins calls).filter fun join => join.1 = i).map Prod.snd := by
  induction calls using List.reverseRecOn with
  | nil => rfl
  | append_singleton calls c ih =>
    rw [reached_append, List.foldl_cons, List.foldl_nil, getD_clientChannels_after, ih]
    simp [joins, List.filterMap_append]

/-- A name stands under a client as often as the client has joined it. -/
theorem count_names (pairs : List (UserId × String)) (i : UserId) (n : String) :
    ((pairs.filter fun join => join.1 = i).map Prod.snd).count n = pairs.count (i, n) := by
  induction pairs with
  | nil => rfl
  | cons pair pairs ih =>
    obtain ⟨i', n'⟩ := pair
    by_cases hi : i' = i
    · by_cases hn : n' = n
      · simp [hi, hn, ih]
      · simp [hi, hn, ih]
    · simp [hi, ih]

/-- The views of the subscriptions agree exactly when nobody joins a name twice, and nobody joins
a channel that is created. -/
theorem subscriptionViewsAgree_iff (calls : List StorageCall) :
    SubscriptionViewsAgree calls ↔
      (joins calls).Nodup ∧
        ∀ i n, .joinClientChannel i n ∈ calls → .createChannel n ∉ calls := by
  have hcount (i : UserId) (n : String) :
      (((reached calls).clientChannels i).getD []).count n = (joins calls).count (i, n) := by
    rw [getD_clientChannels_reached, count_names]
  constructor
  · rintro ⟨hchannels, husers⟩
    constructor
    · rw [List.nodup_iff_count_le_one]
      rintro ⟨i, n⟩
      obtain ⟨names, hnames, hone⟩ := hchannels i n
      obtain rfl : ((reached calls).clientChannels i).getD [] = names := Except.ok.inj hnames
      rw [← hcount, hone]
      split <;> decide
    · intro i n hjoin hcreate
      -- the answer has no users, whoever has joined
      obtain ⟨id, hid⟩ := (exists_returned_iff calls n).mpr hcreate
      obtain ⟨users, hanswer, -, hsame⟩ := husers n id hid
      obtain rfl : [] = users := Except.ok.inj hanswer
      exact absurd ((hsame i).mpr hjoin) List.not_mem_nil
  · rintro ⟨hnodup, hapart⟩
    constructor
    · intro i n
      refine ⟨_, rfl, ?_⟩
      rw [hcount, hnodup.count]
      simp only [mem_joins]
    · intro n id hid
      have hcreate := (exists_returned_iff calls n).mp ⟨id, hid⟩
      refine ⟨[], rfl, List.nodup_nil, ?_⟩
      intro i
      exact iff_of_false List.not_mem_nil fun hjoin => hapart i n hjoin hcreate

/-- A client that joins twice has the name twice, and one that joins a created channel is not among
its users. -/
theorem not_subscriptionViewsAgree_rejoin :
    ¬ SubscriptionViewsAgree [.joinClientChannel 1 "room", .joinClientChannel 1 "room"] ∧
      ¬ SubscriptionViewsAgree [.createChannel "room", .joinClientChannel 1 "room"] := by
  constructor
  · rintro ⟨hchannels, -⟩
    obtain ⟨names, hnames, hone⟩ := hchannels 1 "room"
    obtain rfl : ["room", "room"] = names := Except.ok.inj hnames
    exact absurd hone (by decide)
  · rintro ⟨-, husers⟩
    obtain ⟨users, hanswer, -, hsame⟩ := husers "room" 1 ⟨[], _, _, rfl, rfl, rfl⟩
    obtain rfl : [] = users := Except.ok.inj hanswer
    exact absurd ((hsame 1).mpr (by decide)) List.not_mem_nil

end Storage

end GatewayServer
