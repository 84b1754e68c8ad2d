import Mathlib.Algebra.BigOperators.Group.Finset.Basic
import Mathlib.Data.Fintype.Basic
import Mathlib.Data.Multiset.Bind
import Mathlib.Tactic.Abel

/-!
# Things at places

Finitely many places, each of which is empty or has one thing. As a multiset, what lies at the
places grows by what is put to an empty one, and shrinks by what is taken from one.

## Main definitions

* `contents` — all that lies at the places

## Main results

* `mem_contents` — it lies at one of them
* `contents_put`, `contents_take` — putting and taking
* `sum_update` — what lies at one place is exchanged, when a place may have any number of things
-/

namespace Lib

variable {ι β : Type*} [Fintype ι]

/-- All that lies at the places. -/
def contents (f : ι → Option β) : Multiset β := ∑ i, (f i).elim 0 ({·})

variable {f : ι → Option β} {i : ι} {b : β}

theorem mem_contents : b ∈ contents f ↔ ∃ i, f i = some b := by
  rw [contents, Multiset.mem_sum]
  constructor
  · rintro ⟨i, -, hb⟩
    cases hi : f i with
    | none =>
      rw [hi] at hb
      exact absurd hb (Multiset.notMem_zero b)
    | some c =>
      rw [hi] at hb
      exact ⟨i, hi.trans (congrArg some (Multiset.mem_singleton.mp hb).symm)⟩
  · rintro ⟨i, hi⟩
    refine ⟨i, Finset.mem_univ i, ?_⟩
    rw [hi]
    exact Multiset.mem_singleton_self b

theorem contents_eq_filterMap : contents f = Finset.univ.val.filterMap f := by
  rw [Multiset.filterMap_eq_bind]
  refine Finset.sum_congr rfl fun i _ => ?_
  cases f i <;> rfl

/-- Things are at different places, so none is there twice. -/
theorem nodup_contents (h : ∀ i j b, f i = some b → f j = some b → i = j) :
    (contents f).Nodup := by
  rw [contents_eq_filterMap]
  exact Finset.univ.nodup.filterMap f h

theorem contents_map {γ : Type*} (g : β → γ) :
    contents (fun i => (f i).map g) = (contents f).map g := by
  rw [contents_eq_filterMap, contents_eq_filterMap, Multiset.map_filterMap]

@[simp] theorem contents_none : contents (fun _ : ι => (none : Option β)) = 0 :=
  Finset.sum_const_zero

section Update

variable [DecidableEq ι]

/-- Only what a place has is exchanged, as far as `w` counts it. -/
theorem sum_update {α M : Type*} [AddCommMonoid M] (w : α → M) (g : ι → α) (i : ι) (a : α) :
    ∑ j, w (Function.update g i a j) + w (g i) = ∑ j, w (g j) + w a := by
  have hothers : ∑ j ∈ Finset.univ.erase i, w (Function.update g i a j) =
      ∑ j ∈ Finset.univ.erase i, w (g j) := by
    refine Finset.sum_congr rfl ?_
    intro j hj
    rw [Function.update_of_ne (Finset.ne_of_mem_erase hj)]
  rw [← Finset.add_sum_erase _ _ (Finset.mem_univ i), ← Finset.add_sum_erase _ _
    (Finset.mem_univ i), hothers, Function.update_self]
  abel

/-- Only what lies at `i` is exchanged. -/
theorem contents_update (i : ι) (o : Option β) :
    contents (Function.update f i o) + (f i).elim 0 ({·}) = contents f + o.elim 0 ({·}) :=
  sum_update (fun o : Option β => (o.elim 0 ({·}) : Multiset β)) f i o

/-- A thing is put to a place that is empty. -/
theorem contents_put (hi : f i = none) :
    contents (Function.update f i (some b)) = contents f + {b} := by
  have hupdate := contents_update (f := f) i (some b)
  rw [hi] at hupdate
  simpa using hupdate

/-- A thing is taken from its place. -/
theorem contents_take (hi : f i = some b) :
    contents (Function.update f i none) + {b} = contents f := by
  have hupdate := contents_update (f := f) i none
  rw [hi] at hupdate
  simpa using hupdate

end Update

end Lib
