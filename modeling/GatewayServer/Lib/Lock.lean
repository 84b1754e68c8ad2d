import Mathlib.Logic.Basic

/-!
# A lock and its critical sections

Threads that are inside a critical section, and the owner of the lock that guards it. Whatever else
a thread does, it keeps the two together when it enters and leaves with the lock.

## Main definitions

* `Guarded` — exactly the owner is inside

## Main results

* `Guarded.acquire`, `Guarded.release`, `Guarded.congr` — entering, leaving, and anything else
* `Guarded.unique` — mutual exclusion
-/

namespace Lib

variable {τ : Type*} {owner : Option τ} {inside inside' : τ → Prop} {t u : τ}

/-- The thread that is inside is the owner of the lock, and a lock without an owner has nobody
inside. -/
def Guarded (owner : Option τ) (inside : τ → Prop) : Prop := ∀ t, inside t ↔ owner = some t

namespace Guarded

/-- No two threads are inside. -/
theorem unique (h : Guarded owner inside) (ht : inside t) (hu : inside u) : t = u :=
  Option.some.inj (((h t).mp ht).symm.trans ((h u).mp hu))

theorem free (hnone : ∀ t, ¬ inside t) : Guarded none inside :=
  fun t => iff_of_false (hnone t) (Option.some_ne_none t).symm

/-- A thread enters with a lock that nobody has. -/
theorem acquire (h : Guarded none inside) (ht : inside' t)
    (hothers : ∀ u, u ≠ t → (inside' u ↔ inside u)) : Guarded (some t) inside' := by
  intro u
  by_cases hu : u = t
  · exact iff_of_true (hu ▸ ht) (congrArg some hu.symm)
  · rw [hothers u hu, h u]
    exact iff_of_false (Option.some_ne_none u).symm fun howner => hu (Option.some.inj howner).symm

/-- The owner leaves, and gives up the lock. -/
theorem release (h : Guarded owner inside) (ht : inside t) (ht' : ¬ inside' t)
    (hothers : ∀ u, u ≠ t → (inside' u ↔ inside u)) : Guarded none inside' := by
  refine free ?_
  intro u hu
  by_cases hne : u = t
  · exact ht' (hne ▸ hu)
  · exact hne (h.unique ((hothers u hne).mp hu) ht)

/-- Whoever is inside stays inside. -/
theorem congr (h : Guarded owner inside) (hsame : ∀ u, inside' u ↔ inside u) :
    Guarded owner inside' :=
  fun u => (hsame u).trans (h u)

end Guarded

end Lib
