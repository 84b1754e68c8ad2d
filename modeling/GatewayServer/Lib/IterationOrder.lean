import Mathlib.Data.Finset.Fold

/-!
# Iteration orders of unordered containers

An unordered set is iterated in an order that its contents do not determine. An iteration order
lists every set, each element once.

## Main definitions

* `IterationOrder` — a listing of every finite set
* `IterationOrder.ascending` — the listing of sets of numbers from the smallest up
-/

namespace Lib

/-- A way to list the elements of every finite set. -/
structure IterationOrder (α : Type*) where
  list : Finset α → List α
  nodup : ∀ s, (list s).Nodup
  mem_list : ∀ s a, a ∈ list s ↔ a ∈ s

namespace IterationOrder

/-- Sets of numbers from the smallest up. -/
def ascending : IterationOrder ℕ where
  list s := (List.range (s.fold max 0 id + 1)).filter (· ∈ s)
  nodup s := (List.nodup_range).filter _
  mem_list s a := by
    have hle : a ∈ s → a ≤ s.fold max 0 id :=
      fun ha => (Finset.le_fold_max a).mpr (Or.inr ⟨a, ha, le_rfl⟩)
    simp only [List.mem_filter, List.mem_range, decide_eq_true_eq, Nat.lt_succ_iff]
    exact ⟨And.right, fun ha => ⟨hle ha, ha⟩⟩

end IterationOrder

end Lib
