import Mathlib.Data.List.Forall2

/-!
# Machines that answer alike

Two machines take the same calls, each over states of its own. When a relation between their
states is kept by every call, and a relation between answers holds of the answers to every call
and is not lost later, the answers of whole runs are related.

The relation between answers may depend on the states. This is how a renaming of what the
machines make up themselves is built along a run: the states that are reached say what has been
renamed to what.

## Main definitions

* `answers` — the answers to some calls, and the state after them

## Main results

* `forall₂_answers` — the answers of two machines are related, one by one
-/

namespace Lib

variable {S T C A B : Type*}

/-- The answers to some calls, one after another, and the state after them. -/
def answers (step : S → C → A × S) : S → List C → List A × S
  | s, [] => ([], s)
  | s, c :: cs =>
    ((step s c).1 :: (answers step (step s c).2 cs).1, (answers step (step s c).2 cs).2)

variable {stepS : S → C → A × S} {stepT : T → C → B × T}

/-- A condition that cannot come true again held all the way if it holds at the end. -/
theorem ok_of_answers {P : S → Prop} (hok : ∀ s c, P (stepS s c).2 → P s) (s : S)
    (cs : List C) (h : P (answers stepS s cs).2) : P s := by
  induction cs generalizing s with
  | nil => exact h
  | cons c cs ih => exact hok s c (ih (stepS s c).2 h)

/-- Calls keep `R` between the states as long as `P`, give answers that are related by `Q`, and
answers that were related stay so. Then all answers are related by what `Q` is at the end. -/
theorem forall₂_answers {R : S → T → Prop} {P : S → Prop} {Q : S → T → A → B → Prop}
    (hok : ∀ s c, P (stepS s c).2 → P s)
    (keep : ∀ s t c, R s t → P (stepS s c).2 → R (stepS s c).2 (stepT t c).2)
    (reply : ∀ s t c, R s t → P (stepS s c).2 →
      Q (stepS s c).2 (stepT t c).2 (stepS s c).1 (stepT t c).1)
    (grow : ∀ s t c a b, R s t → P (stepS s c).2 → Q s t a b →
      Q (stepS s c).2 (stepT t c).2 a b)
    {s : S} {t : T} (h : R s t) {cs : List C} (hend : P (answers stepS s cs).2) :
    R (answers stepS s cs).2 (answers stepT t cs).2 ∧
      (∀ a b, Q s t a b → Q (answers stepS s cs).2 (answers stepT t cs).2 a b) ∧
      List.Forall₂ (Q (answers stepS s cs).2 (answers stepT t cs).2)
        (answers stepS s cs).1 (answers stepT t cs).1 := by
  induction cs generalizing s t with
  | nil => exact ⟨h, fun a b hab => hab, List.Forall₂.nil⟩
  | cons c cs ih =>
    have hstep : P (stepS s c).2 := ok_of_answers hok _ cs hend
    obtain ⟨hR, hgrow, hforall⟩ := ih (keep s t c h hstep) hend
    -- the first answers are related after the first call, and so at the end
    refine ⟨hR, ?_, List.Forall₂.cons (hgrow _ _ (reply s t c h hstep)) hforall⟩
    intro a b hab
    exact hgrow a b (grow s t c a b h hstep hab)

end Lib
