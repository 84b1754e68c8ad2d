import GatewayServer.Channels.Coherence
import GatewayServer.Engine.QueryEngine

/-!
# Starting a server

The constructor of `ChannelsManager` makes one channel for each row of `channels`. It fails at
the first row with an empty name; without such a row the registry it leaves is `channelOf`.

## Main results

* `start_coherent` — a start on names that are not empty succeeds, and the server is coherent
* `start_error` — a start on an empty name fails
-/

namespace GatewayServer

open Lib

variable [Protocol] {s : Server Postgres}

namespace ChannelsManager

/-- One round of the loop for a row with a name. -/
theorem run_createChannels_cons (faults : s.db.faults = []) {k : UserId} (hk : k ≠ 0)
    {n : String} (hn : n ≠ "") (channels : List (UserId × String)) :
    (createChannels WrapperPg.database ((k, n) :: channels)).run s =
      (createChannels WrapperPg.database channels).run
        { s with
          objects := s.objects ++ [⟨n, k, (s.db.db.subscribers k).toFinset⟩]
          idChannels := Function.update s.idChannels k (some s.objects.length) } := by
  rw [createChannels, Prog.run_bind_ok (Channel.run_makeShared faults hn hk)]
  rfl

/-- The loop makes a channel for each row and keeps the others of the registry. -/
theorem run_createChannels (faults : s.db.faults = [])
    (valid : ∀ k p, s.idChannels k = some p → p < s.objects.length)
    {channels : List (UserId × String)} (hids : (channels.map Prod.fst).Nodup)
    (hpos : ∀ c ∈ channels, c.1 ≠ 0) (hnames : ∀ c ∈ channels, c.2 ≠ "") :
    ∃ t, (createChannels WrapperPg.database channels).run s = (.ok ⟨⟩, t) ∧
      t.db = s.db ∧ t.idClients = s.idClients ∧ t.written = s.written ∧
      (∀ k p, t.idChannels k = some p → p < t.objects.length) ∧
      (∀ k n, (k, n) ∈ channels →
        t.registry k = some ⟨n, k, (s.db.db.subscribers k).toFinset⟩) ∧
      ∀ k, (∀ n, (k, n) ∉ channels) → t.registry k = s.registry k := by
  induction channels generalizing s with
  | nil => exact ⟨s, rfl, rfl, rfl, rfl, valid, by simp, fun _ _ => rfl⟩
  | cons c channels ih =>
    obtain ⟨k, n⟩ := c
    have hk : k ≠ 0 := hpos _ List.mem_cons_self
    have hn : n ≠ "" := hnames _ List.mem_cons_self
    obtain ⟨hfresh, hids⟩ := List.nodup_cons.mp hids
    -- this round stores a channel for `k`; the invariant of the rest starts from there
    have hstore := Server.registry_store valid k ⟨n, k, (s.db.db.subscribers k).toFinset⟩
    have hvalid : ∀ k' p,
        Function.update s.idChannels k (some s.objects.length) k' = some p →
          p < (s.objects ++ [(⟨n, k, (s.db.db.subscribers k).toFinset⟩ : Channel)]).length := by
      intro k' p hp
      rw [List.length_append]
      by_cases hk' : k' = k
      · subst hk'
        obtain rfl : s.objects.length = p := by simpa using hp
        exact Nat.lt_succ_self _
      · have hlt := valid k' p (by simpa [Function.update_of_ne hk'] using hp)
        exact Nat.lt_succ_of_lt hlt
    obtain ⟨t, hrun, hdb, hidClients, hwritten, hvalid', hmade, hkept⟩ :=
      ih (s := { s with
        objects := s.objects ++ [⟨n, k, (s.db.db.subscribers k).toFinset⟩]
        idChannels := Function.update s.idChannels k (some s.objects.length) })
        faults hvalid hids (fun c hc => hpos c (List.mem_cons_of_mem _ hc))
        (fun c hc => hnames c (List.mem_cons_of_mem _ hc))
    -- the ids are distinct, so the rounds that follow leave this one's channel in place
    have hlater : ∀ n', (k, n') ∉ channels := by
      intro n' hmem
      exact hfresh (List.mem_map.mpr ⟨(k, n'), hmem, rfl⟩)
    refine ⟨t, (run_createChannels_cons faults hk hn channels).trans hrun, hdb, hidClients,
      hwritten, hvalid', ?_, ?_⟩
    · intro k' n' hmem
      rcases List.mem_cons.mp hmem with heq | hmem
      · obtain ⟨rfl, rfl⟩ := Prod.mk.inj heq
        rw [hkept k' hlater, hstore, if_pos rfl]
      · exact hmade k' n' hmem
    · intro k' hnot
      have hk' : k' ≠ k := by
        rintro rfl
        exact hnot n List.mem_cons_self
      rw [hkept k' fun n' hmem => hnot n' (List.mem_cons_of_mem _ hmem), hstore, if_neg hk']

/-- The loop ends at a row with an empty name. -/
theorem run_createChannels_empty (faults : s.db.faults = []) {channels : List (UserId × String)}
    (hpos : ∀ c ∈ channels, c.1 ≠ 0) (hempty : ∃ c ∈ channels, c.2 = "") :
    ((createChannels WrapperPg.database channels).run s).1 ≠ .ok ⟨⟩ := by
  induction channels generalizing s with
  | nil => exact absurd hempty (by simp)
  | cons c channels ih =>
    obtain ⟨k, n⟩ := c
    by_cases hn : n = ""
    · subst hn
      rw [createChannels, Prog.run_bind_error (Channel.run_makeShared_empty k)]
      simp
    -- this row is made, and the one with the empty name is still to come
    · rw [run_createChannels_cons faults (hpos _ List.mem_cons_self) hn]
      refine ih faults (fun c hc => hpos c (List.mem_cons_of_mem _ hc)) ?_
      obtain ⟨c, hc, hcn⟩ := hempty
      rcases List.mem_cons.mp hc with rfl | hc
      · exact absurd hcn hn
      · exact ⟨c, hc, hcn⟩

end ChannelsManager

/-- The rows as the start reads them. -/
theorem start_eq {d : Postgres} (faults : d.faults = []) :
    start WrapperPg.database d =
      (ChannelsManager.createChannels WrapperPg.database
        (d.db.channels.rows.map fun r => (r.id, r.data))).run (Server.initial d) := by
  rw [start, ChannelsManager.createChannelFromDb,
    Prog.run_bind_ok (Server.run_inDb_ok (WrapperPg.run_getCurrentChannels
      (s := (Server.initial d).db) faults))]
  rfl

/-- A start on names that are not empty succeeds. It changes no table, knows no user and has
written nothing, and its registry is the one of the tables. -/
theorem start_coherent {d : Postgres} (faults : d.faults = [])
    (hnames : ∀ r ∈ d.db.channels.rows, r.data ≠ "") :
    ∃ s, start WrapperPg.database d = (.ok ⟨⟩, s) ∧ s.Coherent ∧ s.db = d ∧
      (∀ i, s.idClients i = none) ∧ s.written = [] := by
  have hids : ((d.db.channels.rows.map fun r => (r.id, r.data)).map Prod.fst).Nodup := by
    rw [List.map_map]
    exact d.db.channels.nodup_id
  obtain ⟨t, hrun, hdb, hidClients, hwritten, hvalid, hmade, hkept⟩ :=
    ChannelsManager.run_createChannels (s := Server.initial d) faults (by simp [Server.initial])
      hids
      (by
        intro c hc
        obtain ⟨r, hr, rfl⟩ := List.mem_map.mp hc
        exact Nat.ne_of_gt (d.db.channels.id_pos r hr))
      (by
        intro c hc
        obtain ⟨r, hr, rfl⟩ := List.mem_map.mp hc
        exact hnames r hr)
  have hdb : t.db = d := hdb
  refine ⟨t, (start_eq faults).trans hrun, ?_, hdb, fun i => by rw [hidClients]; rfl, hwritten⟩
  refine ⟨hdb ▸ faults, ?_, hvalid, ?_⟩
  · intro i user huser
    rw [hidClients] at huser
    exact absurd huser (by simp [Server.initial])
  · intro k
    rw [hdb, Database.channelOf]
    cases hlookup : d.db.channels.lookup k with
    | none =>
      -- an id without a row was not stored by the loop, and the registry began empty
      have hnone : ∀ n, (k, n) ∉ d.db.channels.rows.map fun r => (r.id, r.data) := by
        intro n hmem
        obtain ⟨⟨id, data⟩, hr, heq⟩ := List.mem_map.mp hmem
        obtain ⟨rfl, rfl⟩ := Prod.mk.inj heq
        rw [SerialTable.lookup_eq_some_iff.mpr hr] at hlookup
        exact absurd hlookup (by simp)
      rw [hkept k hnone]
      rfl
    | some n =>
      have hrow := SerialTable.lookup_eq_some_iff.mp hlookup
      rw [hmade k n (List.mem_map.mpr ⟨_, hrow, rfl⟩)]
      exact (if_neg (hnames _ hrow)).symm

/-- A start on an empty name fails. -/
theorem start_error {d : Postgres} (faults : d.faults = [])
    (hempty : ∃ r ∈ d.db.channels.rows, r.data = "") :
    (start WrapperPg.database d).1 ≠ .ok ⟨⟩ := by
  rw [start_eq faults]
  apply ChannelsManager.run_createChannels_empty faults
  · intro c hc
    obtain ⟨r, hr, rfl⟩ := List.mem_map.mp hc
    exact Nat.ne_of_gt (d.db.channels.id_pos r hr)
  · obtain ⟨r, hr, hn⟩ := hempty
    exact ⟨_, List.mem_map.mpr ⟨r, hr, rfl⟩, hn⟩

end GatewayServer
