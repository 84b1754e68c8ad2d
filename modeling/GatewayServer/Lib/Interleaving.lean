import GatewayServer.Lib.Resumption
import GatewayServer.Lib.Run
import Mathlib.Logic.Function.Basic

/-!
# Interleavings of resumptions

Programs that share a state run one atomic step at a time, in the order a schedule names them.
The control points of a program name where it can stand, so that an invariant can speak of them
instead of the program that is left.

## Main definitions

* `Pool` — the shared state and what each thread has left to do
* `Pool.step` — the atomic step of one thread; a finished thread does nothing
* `ControlPoints` — names for the places of a program, with the effect of the step taken there
* `Machine` — the pool with control points for programs

## Main results

* `Pool.foldl_step_code` — a pool of programs at control points runs as its machine
-/

namespace Lib

universe u v

variable {σ ε α : Type u} {ι π : Type v}

/-- Threads over a shared state. -/
structure Pool (σ ε α : Type u) (ι : Type v) where
  shared : σ
  threads : ι → Prog σ ε α

namespace Pool

variable [DecidableEq ι]

/-- Thread `i` takes its next atomic step. -/
def step (c : Pool σ ε α ι) (i : ι) : Pool σ ε α ι :=
  match c.threads i with
  | .ret _ => c
  | .throw _ => c
  | .step update next =>
    { shared := update c.shared
      threads := Function.update c.threads i (next c.shared) }

theorem step_of_step {c : Pool σ ε α ι} {i : ι} {update : σ → σ} {next : σ → Prog σ ε α}
    (h : c.threads i = .step update next) :
    c.step i = ⟨update c.shared, Function.update c.threads i (next c.shared)⟩ := by
  simp only [step, h]

theorem step_of_ret {c : Pool σ ε α ι} {i : ι} {a : α} (h : c.threads i = .ret a) :
    c.step i = c := by
  simp only [step, h]

theorem step_of_throw {c : Pool σ ε α ι} {i : ι} {e : ε} (h : c.threads i = .throw e) :
    c.step i = c := by
  simp only [step, h]

/-- The threads at work take the steps that the schedule names. -/
def run (c : Pool σ ε α ι) (schedule : List ι) : Pool σ ε α ι := schedule.foldl step c

end Pool

/-- Names for the places of a program. At each one the program either takes the step `effect`
and stands at `next`, or has finished. -/
structure ControlPoints (σ ε α : Type u) (π : Type v) where
  code : π → Prog σ ε α
  effect : π → σ → σ
  next : π → σ → π
  sound : ∀ p, (code p = .step (effect p) fun s => code (next p s)) ∨
    (((∃ a, code p = .ret a) ∨ ∃ e, code p = .throw e) ∧ ∀ s, effect p s = s ∧ next p s = p)

/-- The pool, seen through control points. -/
structure Machine (σ : Type u) (ι π : Type v) where
  shared : σ
  points : ι → π

namespace Machine

variable [DecidableEq ι] (cp : ι → ControlPoints σ ε α π)

/-- Thread `i` takes the step of its control point. -/
def step (m : Machine σ ι π) (i : ι) : Machine σ ι π where
  shared := (cp i).effect (m.points i) m.shared
  points := Function.update m.points i ((cp i).next (m.points i) m.shared)

theorem step_points_self (m : Machine σ ι π) (i : ι) :
    (m.step cp i).points i = (cp i).next (m.points i) m.shared :=
  Function.update_self ..

theorem step_points_of_ne (m : Machine σ ι π) {i j : ι} (h : j ≠ i) :
    (m.step cp i).points j = m.points j :=
  Function.update_of_ne h ..

/-- The pool that the machine stands for. -/
def pool (m : Machine σ ι π) : Pool σ ε α ι where
  shared := m.shared
  threads i := (cp i).code (m.points i)

theorem pool_step (m : Machine σ ι π) (i : ι) :
    (m.pool cp).step i = (m.step cp i).pool cp := by
  rcases (cp i).sound (m.points i) with hstep | ⟨hend, hstay⟩
  -- the program takes the step of its control point, and the other threads wait
  · rw [Pool.step_of_step (c := m.pool cp) hstep]
    simp only [pool, step, Pool.mk.injEq, true_and]
    funext j
    rcases eq_or_ne j i with rfl | hj
    · simp
    · simp [Function.update_of_ne hj]
  -- a finished program takes no step, and neither does its control point
  · obtain ⟨heffect, hnext⟩ := hstay m.shared
    have hsame : m.step cp i = m := by
      simp only [step, heffect, hnext, Function.update_eq_self]
    rcases hend with ⟨a, hret⟩ | ⟨e, hthrow⟩
    · rw [Pool.step_of_ret (c := m.pool cp) hret, hsame]
    · rw [Pool.step_of_throw (c := m.pool cp) hthrow, hsame]

end Machine

/-- A pool of programs that stand at control points runs as the machine of those points. -/
theorem Pool.foldl_step_code [DecidableEq ι] (cp : ι → ControlPoints σ ε α π)
    (m : Machine σ ι π) (schedule : List ι) :
    (m.pool cp).run schedule = (schedule.foldl (Machine.step cp) m).pool cp := by
  unfold Pool.run
  induction schedule generalizing m with
  | nil => rfl
  | cons i schedule ih =>
    -- one thread steps; the rest of the schedule starts from the machine after it
    simp only [List.foldl_cons, Machine.pool_step]
    exact ih (m.step cp i)

end Lib
