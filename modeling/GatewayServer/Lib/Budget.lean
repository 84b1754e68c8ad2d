import GatewayServer.Lib.Places
import GatewayServer.Lib.TaskPool
import Mathlib.Algebra.Order.BigOperators.Group.List
import Mathlib.Algebra.Order.Monoid.Canonical.Defs
import Mathlib.Data.List.Induction

/-!
# What programs may add

A part of the state that programs add to, and a budget for each of them. A program keeps to its
budget on every path, whatever others do between its steps. So a pool adds no more than the budgets
of the tasks that were posted, however the workers are interleaved.

## Main definitions

* `Prog.Spends` — on every path a program adds at most `b`
* `TaskPool.Within` — what was added and what may still be added is covered by the budgets

## Main results

* `Spends.bind`, `Spends.atomically`, `Spends.zoom` — how budgets compose
* `TaskPool.spent_foldl` — a pool adds at most the budgets of its tasks
-/

namespace Lib

universe u v

namespace Prog

variable {σ τ ε α β : Type u} {M : Type v} [AddCommMonoid M] [PartialOrder M]

/-- On every path, whatever others do between its steps, the program adds at most `b` to what
`measure` sees. -/
def Spends (measure : σ → M) : M → Prog σ ε α → Prop
  | _, .ret _ => True
  | _, .throw _ => True
  | b, .step update next => ∀ s, ∃ c d, c + d ≤ b ∧ measure (update s) ≤ measure s + c ∧
      (next s).Spends measure d

variable {measure : σ → M} {b c : M}

theorem Spends.mono {p : Prog σ ε α} (hp : p.Spends measure b) (hle : b ≤ c) :
    p.Spends measure c := by
  cases p with
  | ret a => trivial
  | throw e => trivial
  | step update next =>
    intro s
    obtain ⟨now, later, hnow, hstep, hnext⟩ := hp s
    exact ⟨now, later, hnow.trans hle, hstep, hnext⟩

theorem Spends.ofExcept (r : Except ε α) : (Prog.ofExcept r : Prog σ ε α).Spends measure b := by
  cases r <;> trivial

theorem Spends.atomic {f : σ → α × σ} (h : ∀ s, measure (f s).2 ≤ measure s + b) :
    (Prog.atomic f : Prog σ ε α).Spends measure b :=
  fun s => ⟨b, 0, (add_zero b).le, h s, trivial⟩

theorem Spends.modify {f : σ → σ} (h : ∀ s, measure (f s) ≤ measure s + b) :
    (Prog.modify f : Prog σ ε PUnit).Spends measure b :=
  fun s => ⟨b, 0, (add_zero b).le, h s, trivial⟩

/-- A program over a part of the state, when the whole grows as the part does. -/
theorem Spends.zoom {part : τ → M} {view : σ → τ} {set : τ → σ → σ} {p : Prog τ ε α}
    (hp : p.Spends part b)
    (h : ∀ s t d, part t ≤ part (view s) + d → measure (set t s) ≤ measure s + d) :
    (Prog.zoom view set p).Spends measure b := by
  induction p generalizing b with
  | ret a => trivial
  | throw e => trivial
  | step update next ih =>
    intro s
    obtain ⟨now, later, hnow, hstep, hnext⟩ := hp (view s)
    exact ⟨now, later, hnow, h s _ _ hstep, ih (view s) hnext⟩

variable [CanonicallyOrderedAdd M]

theorem Spends.read (f : σ → α) : (Prog.read f : Prog σ ε α).Spends measure b :=
  fun _ => ⟨b, 0, (add_zero b).le, le_add_right le_rfl, trivial⟩

variable [IsOrderedCancelAddMonoid M]

theorem Spends.bind {p : Prog σ ε α} {f : α → Prog σ ε β} (hp : p.Spends measure b)
    (hf : ∀ a, (f a).Spends measure c) : (p >>= f).Spends measure (b + c) := by
  induction p generalizing b with
  | ret a => exact (hf a).mono (le_add_left le_rfl)
  | throw e => trivial
  | step update next ih =>
    intro s
    obtain ⟨now, later, hnow, hstep, hnext⟩ := hp s
    refine ⟨now, later + c, ?_, hstep, ih s hnext⟩
    rw [← add_assoc]
    exact add_le_add_left hnow c

/-- What is free does not count. -/
theorem Spends.bind_free {p : Prog σ ε α} {f : α → Prog σ ε β} (hp : p.Spends measure 0)
    (hf : ∀ a, (f a).Spends measure b) : (p >>= f).Spends measure b := by
  have hbind := hp.bind hf
  rwa [zero_add] at hbind

theorem Spends.then_free {p : Prog σ ε α} {f : α → Prog σ ε β} (hp : p.Spends measure b)
    (hf : ∀ a, (f a).Spends measure 0) : (p >>= f).Spends measure b := by
  have hbind := hp.bind hf
  rwa [add_zero] at hbind

/-- Run alone, a program keeps to its budget. -/
theorem Spends.run {p : Prog σ ε α} (hp : p.Spends measure b) (s : σ) :
    measure (p.run s).2 ≤ measure s + b := by
  induction p generalizing b s with
  | ret a => exact le_add_right le_rfl
  | throw e => exact le_add_right le_rfl
  | step update next ih =>
    obtain ⟨now, later, hnow, hstep, hnext⟩ := hp s
    calc measure ((next s).run (update s)).2 ≤ measure (update s) + later := ih s hnext _
      _ ≤ measure s + now + later := add_le_add_left hstep later
      _ = measure s + (now + later) := add_assoc ..
      _ ≤ measure s + b := add_le_add_right hnow _

theorem Spends.atomically {p : Prog σ ε α} (hp : p.Spends measure b) :
    (Prog.atomically p).Spends measure b :=
  fun s => ⟨b, 0, (add_zero b).le, hp.run s, .ofExcept _⟩

end Prog

/-! ## Pools -/

namespace TaskPool

variable {σ ε α : Type u} {ι τ : Type v} {M : Type v} [AddCommMonoid M] [PartialOrder M]
  [Fintype ι]

/-- What was added to `start`, and what the workers and the tasks in the queue may still add, is
covered by the budgets of all tasks. -/
structure Within (measure : σ → M) (budget : τ → M) (start : M) (rest : ι → M)
    (p : TaskPool σ ε α ι τ) : Prop where
  spends : ∀ i, (p.left i).Spends measure (rest i)
  covered : measure p.shared + ∑ i, rest i + (p.tasks.queue.map fun job => budget job.data).sum ≤
    start + (p.tasks.posted.map fun job => budget job.data).sum

variable {measure : σ → M} {budget : τ → M} {code : τ → Prog σ ε α}

theorem within_start [Inhabited α] (s : σ) :
    (start s : TaskPool σ ε α ι τ).Within measure budget (measure s) 0 where
  spends _ := trivial
  covered := by simp [start, WorkQueue.empty]

variable [CanonicallyOrderedAdd M] [IsOrderedCancelAddMonoid M] [DecidableEq ι]
  {p t : TaskPool σ ε α ι τ} {l : PoolLabel ι τ} {start : M} {rest : ι → M}

/-- Every step is covered by the budget of the task that takes it. -/
theorem Within.moves (h : p.Within measure budget start rest)
    (hcode : ∀ task, (code task).Spends measure (budget task)) (hmoves : p.Moves code l t) :
    ∃ rest', t.Within measure budget start rest' := by
  have hupdate {i : ι} {q : Prog σ ε α} {b : M} (hq : q.Spends measure b) (i' : ι) :
      (Function.update p.left i q i').Spends measure (Function.update rest i b i') := by
    by_cases hne : i' = i
    · subst hne
      rwa [Function.update_self, Function.update_self]
    · rw [Function.update_of_ne hne, Function.update_of_ne hne]
      exact h.spends i'
  have hsum (i : ι) (b : M) : ∑ j, Function.update rest i b j + rest i = ∑ j, rest j + b :=
    sum_update id rest i b
  cases hmoves with
  | busy i task => exact ⟨rest, h⟩
  | post i task =>
    refine ⟨rest, h.spends, ?_⟩
    have hcovered := add_le_add_left h.covered (budget task)
    simpa [WorkQueue.post, add_assoc] using hcovered
  | idle i hi => exact ⟨rest, h⟩
  | take i hi job jobs hqueue =>
    -- the budget of the task goes from the queue to the worker
    refine ⟨Function.update rest i (budget job.data), hupdate (hcode job.data), ?_⟩
    rw [WorkQueue.take_cons hqueue]
    refine le_trans ?_ h.covered
    rw [hqueue, List.map_cons, List.sum_cons]
    let queue : M := (jobs.map fun job => budget job.data).sum
    calc measure p.shared + ∑ j, Function.update rest i (budget job.data) j + queue
        ≤ measure p.shared + (∑ j, Function.update rest i (budget job.data) j + rest i) + queue :=
          add_le_add_left (add_le_add_right (le_add_right le_rfl) _) _
      _ = measure p.shared + (∑ j, rest j + budget job.data) + queue := by rw [hsum]
      _ = measure p.shared + ∑ j, rest j + (budget job.data + queue) := by abel
  | run i job hi update next hleft =>
    have hspends := h.spends i
    rw [hleft] at hspends
    obtain ⟨now, later, hnow, hstep, hnext⟩ := hspends p.shared
    refine ⟨Function.update rest i later, hupdate hnext, le_trans ?_ h.covered⟩
    let queue : M := (p.tasks.queue.map fun job => budget job.data).sum
    -- what the step adds is no longer in the rest of the worker
    refine le_of_add_le_add_right (a := rest i) ?_
    calc measure (update p.shared) + ∑ j, Function.update rest i later j + queue + rest i
        = measure (update p.shared) + (∑ j, Function.update rest i later j + rest i) + queue := by
          abel
      _ = measure (update p.shared) + (∑ j, rest j + later) + queue := by rw [hsum]
      _ ≤ measure p.shared + now + (∑ j, rest j + later) + queue :=
          add_le_add_left (add_le_add_left hstep _) _
      _ = measure p.shared + ∑ j, rest j + queue + (now + later) := by abel
      _ ≤ measure p.shared + ∑ j, rest j + queue + rest i := add_le_add_right hnow _
  | release i job hi hleft => exact ⟨rest, h.spends, h.covered⟩

/-- Tasks that keep to their budgets add no more than these, however the workers are
interleaved. -/
theorem spent_foldl [Inhabited α] (s : σ)
    (hcode : ∀ task, (code task).Spends measure (budget task)) (labels : List (PoolLabel ι τ)) :
    measure (labels.foldl (step code) (TaskPool.start s)).shared ≤
      measure s + ((labels.foldl (step code) (TaskPool.start s)).tasks.posted.map
        fun job => budget job.data).sum := by
  have hrun : ∃ rest : ι → M, (labels.foldl (step code) (TaskPool.start s)).Within measure budget
      (measure s) rest := by
    induction labels using List.reverseRecOn with
    | nil => exact ⟨0, within_start s⟩
    | append_singleton labels l ih =>
      obtain ⟨rest, h⟩ := ih
      rw [List.foldl_append]
      exact h.moves hcode (moves_step code _ l)
  obtain ⟨rest, h⟩ := hrun
  refine le_trans ?_ h.covered
  rw [add_assoc]
  exact le_add_right le_rfl

end TaskPool

end Lib
