import GatewayServer.Lib.Run

/-!
# A machine that refines another

A machine with small steps and one with larger ones, and a function that forgets what only the first
one knows. A small step is one step of the other machine, or none. So what is known of the runs of
the other machine is known of the runs of the first.

## Main definitions

* `translate` — the steps that the other machine takes on a run

## Main results

* `foldl_translate` — it comes to where the first machine comes to
* `foldl_forget` — the same for machines with the same labels
-/

namespace Lib

variable {S T L M : Type*}

/-- The labels of a run, each translated in the state in which it is taken. -/
def translate (step : S → L → S) (tr : S → L → Option M) : S → List L → List M
  | _, [] => []
  | s, l :: ls => (tr s l).toList ++ translate step tr (step s l) ls

variable {step : S → L → S} {stepT : T → M → T} {tr : S → L → Option M} {I : S → Prop} {s : S}
  (forget : S → T)

/-- When every step is translated to a step that does the same, or to none that does nothing, then
so is every run. -/
theorem foldl_translate (keep : ∀ s l, I s → I (step s l))
    (refines : ∀ s l, I s → forget (step s l) = (tr s l).elim (forget s) (stepT (forget s)))
    (hs : I s) (ls : List L) :
    forget (ls.foldl step s) = (translate step tr s ls).foldl stepT (forget s) := by
  induction ls generalizing s with
  | nil => rfl
  | cons l ls ih =>
    have hl : (tr s l).toList.foldl stepT (forget s) = forget (step s l) := by
      rw [refines s l hs]
      cases tr s l <;> rfl
    rw [translate, List.foldl_append, hl]
    exact ih (keep s l hs)

theorem translate_some (s : S) (ls : List L) : translate step (fun _ l => some l) s ls = ls := by
  induction ls generalizing s with
  | nil => rfl
  | cons l ls ih => exact congrArg (l :: ·) (ih (step s l))

/-- When the machines have the same labels and every step is one of the other, so is every run. -/
theorem foldl_forget {stepT : T → L → T} (keep : ∀ s l, I s → I (step s l))
    (refines : ∀ s l, I s → forget (step s l) = stepT (forget s) l)
    (hs : I s) (ls : List L) : forget (ls.foldl step s) = ls.foldl stepT (forget s) := by
  have hrun := @foldl_translate S T L L step stepT (fun _ l => some l) I s forget keep refines hs ls
  rwa [translate_some] at hrun

end Lib
