import Mathlib.Data.List.Nodup
import Mathlib.Data.List.Dedup

/-!
# Tables with a serial primary key

A table whose rows are numbered by a sequence. The sequence starts at one and only moves up, so
the ids of the rows are positive, distinct and below the next value; the table carries these
facts as fields. Rows stand in the order in which they were inserted.

## Main definitions

* `SerialTable` — rows with ids drawn from a sequence
* `SerialTable.insert` — a new row under the next id
* `SerialTable.lookup` — the row with an id
* `SerialTable.select` — the rows that satisfy a condition
* `SerialTable.firstId` — the id of the first selected row, zero when there is none
* `SerialTable.Distinct` — no two rows have the same value of a column

## Main results

* `firstId_insert_of_none`, `firstId_insert_of_ne_zero` — lookups after an insertion
* `firstId_insert_key` — lookups by the value of a column after an insertion
* `Distinct.insert`, `distinct_insert_iff` — inserting a value that is not there keeps a column
  distinct, and no other does
* `eq_of_id_eq` — a row is determined by its id
-/

namespace Lib

/-- A row: its id and the other columns. -/
structure Row (ρ : Type*) where
  id : ℕ
  data : ρ

/-- Rows numbered by a sequence that stands at `next`. -/
structure SerialTable (ρ : Type*) where
  rows : List (Row ρ)
  next : ℕ
  next_pos : 0 < next
  id_pos : ∀ r ∈ rows, 0 < r.id
  id_lt : ∀ r ∈ rows, r.id < next
  nodup_id : (rows.map Row.id).Nodup

namespace SerialTable

variable {ρ κ : Type*}

/-- The table without rows, its sequence at one. -/
def empty : SerialTable ρ where
  rows := []
  next := 1
  next_pos := by decide
  id_pos := by simp
  id_lt := by simp
  nodup_id := by simp

/-- A new row under the next id. -/
def insert (t : SerialTable ρ) (d : ρ) : SerialTable ρ where
  rows := t.rows ++ [⟨t.next, d⟩]
  next := t.next + 1
  next_pos := Nat.succ_pos _
  id_pos := by
    intro r hr
    rcases List.mem_append.mp hr with hr | hr
    · exact t.id_pos r hr
    · rw [List.mem_singleton.mp hr]
      exact t.next_pos
  id_lt := by
    intro r hr
    rcases List.mem_append.mp hr with hr | hr
    · exact Nat.lt_succ_of_lt (t.id_lt r hr)
    · rw [List.mem_singleton.mp hr]
      exact Nat.lt_succ_self _
  nodup_id := by
    rw [List.map_append, List.nodup_append']
    refine ⟨t.nodup_id, List.nodup_singleton _, ?_⟩
    rintro id hid hnew
    obtain ⟨r, hr, rfl⟩ := List.mem_map.mp hid
    have hlt := t.id_lt r hr
    rw [List.mem_singleton.mp hnew] at hlt
    exact Nat.lt_irrefl _ hlt

@[simp] theorem rows_empty : (empty : SerialTable ρ).rows = [] := rfl

@[simp] theorem rows_insert (t : SerialTable ρ) (d : ρ) :
    (t.insert d).rows = t.rows ++ [⟨t.next, d⟩] := rfl

@[simp] theorem next_insert (t : SerialTable ρ) (d : ρ) : (t.insert d).next = t.next + 1 := rfl

variable {t : SerialTable ρ} {r r' : Row ρ}

theorem eq_of_id_eq (hr : r ∈ t.rows) (hr' : r' ∈ t.rows) (h : r.id = r'.id) : r = r' :=
  List.inj_on_of_nodup_map t.nodup_id hr hr' h

/-! ## Lookup by id -/

/-- The other columns of the row with an id. -/
def lookup (t : SerialTable ρ) (k : ℕ) : Option ρ :=
  (t.rows.find? fun r => r.id = k).map Row.data

theorem lookup_eq_some_iff {k : ℕ} {d : ρ} : t.lookup k = some d ↔ ⟨k, d⟩ ∈ t.rows := by
  simp only [lookup, Option.map_eq_some_iff]
  constructor
  · rintro ⟨r, hfind, rfl⟩
    have hid : r.id = k := by simpa using List.find?_some hfind
    subst hid
    exact List.mem_of_find?_eq_some hfind
  · intro hmem
    cases hfind : t.rows.find? fun r => r.id = k with
    | none => exact absurd (List.find?_eq_none.mp hfind _ hmem) (by simp)
    | some r =>
      have hid : r.id = k := by simpa using List.find?_some hfind
      have hr := eq_of_id_eq (List.mem_of_find?_eq_some hfind) hmem hid
      exact ⟨r, rfl, by rw [hr]⟩

theorem lookup_next (t : SerialTable ρ) : t.lookup t.next = none := by
  rw [Option.eq_none_iff_forall_not_mem]
  intro d hd
  exact Nat.lt_irrefl _ (t.id_lt _ (lookup_eq_some_iff.mp hd))

theorem lookup_insert (t : SerialTable ρ) (d : ρ) (k : ℕ) :
    (t.insert d).lookup k = if k = t.next then some d else t.lookup k := by
  ext d'
  rw [lookup_eq_some_iff, rows_insert, List.mem_append, List.mem_singleton, Row.mk.injEq]
  by_cases hk : k = t.next
  · subst hk
    have hnew : ⟨t.next, d'⟩ ∉ t.rows := fun hmem => Nat.lt_irrefl _ (t.id_lt _ hmem)
    simp [hnew, eq_comm]
  · simp [hk, lookup_eq_some_iff]

/-! ## Selections -/

/-- The rows that satisfy a condition, in table order. -/
def select (t : SerialTable ρ) (p : ρ → Bool) : List (Row ρ) := t.rows.filter fun r => p r.data

@[simp] theorem mem_select {p : ρ → Bool} : r ∈ t.select p ↔ r ∈ t.rows ∧ p r.data = true := by
  simp [select]

theorem select_insert (t : SerialTable ρ) (d : ρ) (p : ρ → Bool) :
    (t.insert d).select p = t.select p ++ if p d then [⟨t.next, d⟩] else [] := by
  by_cases hd : p d <;> simp [select, List.filter_append, hd]

/-- The id of the first selected row; zero, which is no id, when there is none. -/
def firstId (t : SerialTable ρ) (p : ρ → Bool) : ℕ :=
  match t.select p with
  | [] => 0
  | r :: _ => r.id

theorem firstId_eq_zero_iff {p : ρ → Bool} : t.firstId p = 0 ↔ t.select p = [] := by
  unfold firstId
  cases h : t.select p with
  | nil => simp
  | cons r rs =>
    have hr : r ∈ t.rows := (mem_select.mp (h ▸ List.mem_cons_self)).1
    simp [Nat.ne_of_gt (t.id_pos r hr)]

theorem firstId_eq_zero_iff_forall {p : ρ → Bool} :
    t.firstId p = 0 ↔ ∀ r ∈ t.rows, ¬ p r.data = true := by
  rw [firstId_eq_zero_iff, List.eq_nil_iff_forall_not_mem]
  simp only [mem_select, not_and]

/-- A lookup that finds something finds the id of a row that satisfies the condition. -/
theorem exists_row_of_firstId_ne_zero {p : ρ → Bool} (h : t.firstId p ≠ 0) :
    ∃ r ∈ t.rows, r.id = t.firstId p ∧ p r.data = true := by
  cases hs : t.select p with
  | nil => exact absurd (firstId_eq_zero_iff.mpr hs) h
  | cons r rs =>
    obtain ⟨hr, hp⟩ := mem_select.mp (show r ∈ t.select p from hs ▸ List.mem_cons_self)
    exact ⟨r, hr, by simp [firstId, hs], hp⟩

theorem firstId_ne_zero_of_mem {p : ρ → Bool} (hr : r ∈ t.rows) (hp : p r.data = true) :
    t.firstId p ≠ 0 :=
  fun h => firstId_eq_zero_iff_forall.mp h r hr hp

/-- After nothing was found, an inserted row that satisfies the condition is the one found. -/
theorem firstId_insert_of_none {p : ρ → Bool} {d : ρ} (h : t.firstId p = 0) (hd : p d = true) :
    (t.insert d).firstId p = t.next := by
  rw [firstId_eq_zero_iff] at h
  simp [firstId, select_insert, h, hd]

/-- Insertions do not change what a successful lookup finds. -/
theorem firstId_insert_of_ne_zero {p : ρ → Bool} {d : ρ} (h : t.firstId p ≠ 0) :
    (t.insert d).firstId p = t.firstId p := by
  cases hs : t.select p with
  | nil => exact absurd (firstId_eq_zero_iff.mpr hs) h
  | cons r rs => simp [firstId, select_insert, hs]

theorem firstId_lt_next (p : ρ → Bool) : t.firstId p < t.next := by
  by_cases h : t.firstId p = 0
  · rw [h]
    exact t.next_pos
  · obtain ⟨r, hr, hid, -⟩ := exists_row_of_firstId_ne_zero h
    exact hid ▸ t.id_lt r hr

section Keys

variable [DecidableEq κ] {key : ρ → κ}

/-- Lookups by a column after a value was inserted that was not there. -/
theorem firstId_insert_key {d : ρ} (h : t.firstId (fun e => key e = key d) = 0) (k : κ) :
    (t.insert d).firstId (fun e => key e = k) =
      if k = key d then t.next else t.firstId fun e => key e = k := by
  by_cases hk : k = key d
  · rw [if_pos hk, hk]
    exact firstId_insert_of_none h (by simp)
  · rw [if_neg hk]
    by_cases hnone : t.firstId (fun e => key e = k) = 0
    · rw [hnone, firstId_eq_zero_iff_forall]
      intro r hr
      rcases List.mem_append.mp hr with hr | hr
      · exact firstId_eq_zero_iff_forall.mp hnone r hr
      · rw [List.mem_singleton.mp hr]
        simpa [eq_comm] using hk
    · exact firstId_insert_of_ne_zero hnone

end Keys

/-! ## Columns without repetitions -/

/-- No two rows have the same value of the column `key`. -/
def Distinct (t : SerialTable ρ) (key : ρ → κ) : Prop := (t.rows.map fun r => key r.data).Nodup

variable {key : ρ → κ}

theorem Distinct.empty : (empty : SerialTable ρ).Distinct key := List.nodup_nil

theorem Distinct.insert (h : t.Distinct key) {d : ρ} (hd : ∀ r ∈ t.rows, key r.data ≠ key d) :
    (t.insert d).Distinct key := by
  unfold Distinct
  rw [rows_insert, List.map_append, List.nodup_append']
  refine ⟨h, List.nodup_singleton _, ?_⟩
  rintro k hk hnew
  obtain ⟨r, hr, rfl⟩ := List.mem_map.mp hk
  exact hd r hr (List.mem_singleton.mp hnew)

/-- Inserting a value that is there makes two rows with it. -/
theorem distinct_insert_iff [DecidableEq κ] {d : ρ} :
    (t.insert d).Distinct key ↔ t.Distinct key ∧ t.firstId (fun e => key e = key d) = 0 := by
  simp only [firstId_eq_zero_iff_forall, decide_eq_true_eq]
  constructor
  · intro h
    unfold Distinct at h
    rw [rows_insert, List.map_append, List.nodup_append'] at h
    refine ⟨h.1, fun r hr hkey => h.2.2 (List.mem_map_of_mem hr) ?_⟩
    rw [hkey]
    exact List.mem_cons_self
  · rintro ⟨h, hd⟩
    exact h.insert hd

end SerialTable

end Lib
