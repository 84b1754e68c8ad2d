import Mathlib.Logic.Basic

/-!
# Resumptions: programs as trees of atomic steps

A program over a shared state either returns, throws, or takes one atomic step and goes on as
the state it met decides. The same tree has two readings. Run alone, it is a state transformer
that keeps the state it reached when it throws. Run beside others, any other program may step
between two of its steps.

## Main definitions

* `Prog` — a program over the state `σ`, with exceptions `ε` and results `α`
* `Prog.run` — the program run alone
* `Prog.atomically` — a whole program taken as one step
* `Prog.zoom` — a program over a part of the state
* `Prog.Guarantees` — every step of the program, from whatever state it finds, meets a relation

## Main results

* `run_bind`, `run_atomically`, `run_zoom` — how running alone composes
* `Guarantees.run` — what every step guarantees, a whole run does
-/

namespace Lib

universe u

/-- A program: its result, an exception, or an atomic step that updates the shared state by
`update` and goes on with `next`, both read from the state the step finds. -/
inductive Prog (σ ε α : Type u) : Type u where
  | ret (a : α)
  | throw (e : ε)
  | step (update : σ → σ) (next : σ → Prog σ ε α)

namespace Prog

variable {σ τ ε α β : Type u}

/-- Sequencing: the steps of the first program, then the program its result selects. -/
def bind : Prog σ ε α → (α → Prog σ ε β) → Prog σ ε β
  | .ret a, f => f a
  | .throw e, _ => .throw e
  | .step update next, f => .step update fun s => (next s).bind f

instance : Monad (Prog σ ε) where
  pure := .ret
  bind := bind

@[simp] theorem pure_eq_ret (a : α) : (pure a : Prog σ ε α) = .ret a := rfl

@[simp] theorem ret_bind (a : α) (f : α → Prog σ ε β) : (Prog.ret a >>= f) = f a := rfl

@[simp] theorem throw_bind (e : ε) (f : α → Prog σ ε β) :
    ((Prog.throw e : Prog σ ε α) >>= f) = .throw e := rfl

@[simp] theorem step_bind (update : σ → σ) (next : σ → Prog σ ε α) (f : α → Prog σ ε β) :
    (Prog.step update next >>= f) = .step update fun s => next s >>= f := rfl

theorem bind_ret (p : Prog σ ε α) : p.bind .ret = p := by
  induction p with
  | ret a => rfl
  | throw e => rfl
  | step update next ih => simp only [bind, ih]

theorem bind_bind {γ : Type u} (p : Prog σ ε α) (f : α → Prog σ ε β) (g : β → Prog σ ε γ) :
    (p.bind f).bind g = p.bind fun a => (f a).bind g := by
  induction p with
  | ret a => rfl
  | throw e => rfl
  | step update next ih => simp only [bind, ih]

instance : LawfulMonad (Prog σ ε) :=
  LawfulMonad.mk' _ bind_ret (fun _ _ => rfl) bind_bind

/-- One atomic step that computes a result and a new state from the state it finds. -/
def atomic (f : σ → α × σ) : Prog σ ε α :=
  .step (fun s => (f s).2) fun s => .ret (f s).1

/-- One atomic step that reads the state. -/
def read (f : σ → α) : Prog σ ε α := .step id fun s => .ret (f s)

/-- One atomic step that updates the state. -/
def modify (f : σ → σ) : Prog σ ε PUnit := .step f fun _ => .ret ⟨⟩

/-! ## Running alone -/

/-- The program run with nothing in between its steps. The state survives an exception. -/
def run : Prog σ ε α → σ → Except ε α × σ
  | .ret a, s => (.ok a, s)
  | .throw e, s => (.error e, s)
  | .step update next, s => (next s).run (update s)

@[simp] theorem run_ret (a : α) (s : σ) : (ret a : Prog σ ε α).run s = (.ok a, s) := rfl

@[simp] theorem run_throw (e : ε) (s : σ) :
    (throw e : Prog σ ε α).run s = (.error e, s) := rfl

@[simp] theorem run_atomic (f : σ → α × σ) (s : σ) :
    (atomic f : Prog σ ε α).run s = (.ok (f s).1, (f s).2) := rfl

@[simp] theorem run_read (f : σ → α) (s : σ) :
    (read f : Prog σ ε α).run s = (.ok (f s), s) := rfl

@[simp] theorem run_modify (f : σ → σ) (s : σ) :
    (modify f : Prog σ ε PUnit).run s = (.ok ⟨⟩, f s) := rfl

theorem run_bind (p : Prog σ ε α) (f : α → Prog σ ε β) (s : σ) :
    (p >>= f).run s =
      match p.run s with
      | (.ok a, s') => (f a).run s'
      | (.error e, s') => (.error e, s') := by
  induction p generalizing s with
  | ret a => rfl
  | throw e => rfl
  | step update next ih => exact ih s (update s)

theorem run_bind_ok {p : Prog σ ε α} {s t : σ} {a : α} (h : p.run s = (.ok a, t))
    (f : α → Prog σ ε β) : (p >>= f).run s = (f a).run t := by
  rw [run_bind, h]

theorem run_bind_error {p : Prog σ ε α} {s t : σ} {e : ε} (h : p.run s = (.error e, t))
    (f : α → Prog σ ε β) : (p >>= f).run s = (.error e, t) := by
  rw [run_bind, h]

/-! ## Critical sections and parts of the state -/

/-- The result of a finished program as a program. -/
def ofExcept : Except ε α → Prog σ ε α
  | .ok a => .ret a
  | .error e => .throw e

@[simp] theorem run_ofExcept (r : Except ε α) (s : σ) :
    (ofExcept r : Prog σ ε α).run s = (r, s) := by
  cases r <;> rfl

/-- A critical section: the whole program as one step. -/
def atomically (p : Prog σ ε α) : Prog σ ε α :=
  .step (fun s => (p.run s).2) fun s => ofExcept (p.run s).1

@[simp] theorem run_atomically (p : Prog σ ε α) (s : σ) : (atomically p).run s = p.run s := by
  simp [atomically, run]

/-- A critical section is the one step of its run. -/
theorem atomically_eq (p : Prog σ ε α) :
    atomically p =
      .step (fun s => ((atomically p).run s).2) fun s => ofExcept ((atomically p).run s).1 := by
  simp only [run_atomically]
  rfl

/-- A program over a part of the state, read by `view` and written back by `set`. -/
def zoom (view : σ → τ) (set : τ → σ → σ) : Prog τ ε α → Prog σ ε α
  | .ret a => .ret a
  | .throw e => .throw e
  | .step update next =>
    .step (fun s => set (update (view s)) s) fun s => zoom view set (next (view s))

@[simp] theorem zoom_ret (view : σ → τ) (set : τ → σ → σ) (a : α) :
    zoom view set (.ret a : Prog τ ε α) = .ret a := rfl

@[simp] theorem zoom_throw (view : σ → τ) (set : τ → σ → σ) (e : ε) :
    zoom view set (.throw e : Prog τ ε α) = .throw e := rfl

/-- What a view and a write-back owe each other for `zoom` to be the program on the part. -/
structure IsLens (view : σ → τ) (set : τ → σ → σ) : Prop where
  view_set : ∀ t s, view (set t s) = t
  set_view : ∀ s, set (view s) s = s
  set_set : ∀ t t' s, set t' (set t s) = set t' s

theorem run_zoom {view : σ → τ} {set : τ → σ → σ} (lens : IsLens view set)
    (p : Prog τ ε α) (s : σ) :
    (zoom view set p).run s = ((p.run (view s)).1, set (p.run (view s)).2 s) := by
  induction p generalizing s with
  | ret a => simp [run, lens.set_view]
  | throw e => simp [run, lens.set_view]
  | step update next ih =>
    -- what a step writes back is what the rest reads, and the rest overwrites it
    simp only [zoom, run]
    rw [ih, lens.view_set, lens.set_set]

/-! ## What every step guarantees -/

/-- Every atomic step of the program, taken in any state, relates that state to the next by
`R`. Steps of other programs may come in between. -/
def Guarantees (R : σ → σ → Prop) : Prog σ ε α → Prop
  | .ret _ => True
  | .throw _ => True
  | .step update next => ∀ s, R s (update s) ∧ (next s).Guarantees R

variable {R : σ → σ → Prop}

@[simp] theorem guarantees_ret (a : α) : (ret a : Prog σ ε α).Guarantees R := trivial

@[simp] theorem guarantees_throw (e : ε) : (throw e : Prog σ ε α).Guarantees R := trivial

theorem Guarantees.atomic {f : σ → α × σ} (h : ∀ s, R s (f s).2) :
    (Prog.atomic f : Prog σ ε α).Guarantees R :=
  fun s => ⟨h s, trivial⟩

theorem Guarantees.modify {f : σ → σ} (h : ∀ s, R s (f s)) :
    (Prog.modify f : Prog σ ε PUnit).Guarantees R :=
  fun s => ⟨h s, trivial⟩

theorem Guarantees.read (refl : ∀ s, R s s) (f : σ → α) :
    (Prog.read f : Prog σ ε α).Guarantees R :=
  fun s => ⟨refl s, trivial⟩

theorem Guarantees.bind {p : Prog σ ε α} {f : α → Prog σ ε β} (hp : p.Guarantees R)
    (hf : ∀ a, (f a).Guarantees R) : (p >>= f).Guarantees R := by
  induction p with
  | ret a => exact hf a
  | throw e => trivial
  | step update next ih => exact fun s => ⟨(hp s).1, ih s (hp s).2⟩

/-- A run alone composes the guarantees of its steps. -/
theorem Guarantees.run {p : Prog σ ε α} (hp : p.Guarantees R) (refl : ∀ s, R s s)
    (trans : ∀ s t u, R s t → R t u → R s u) (s : σ) : R s (p.run s).2 := by
  induction p generalizing s with
  | ret a => exact refl s
  | throw e => exact refl s
  | step update next ih => exact trans _ _ _ (hp s).1 (ih s (hp s).2 (update s))

theorem Guarantees.ofExcept (r : Except ε α) : (Prog.ofExcept r : Prog σ ε α).Guarantees R := by
  cases r <;> trivial

theorem Guarantees.atomically {p : Prog σ ε α} (hp : p.Guarantees R) (refl : ∀ s, R s s)
    (trans : ∀ s t u, R s t → R t u → R s u) : (Prog.atomically p).Guarantees R :=
  fun s => ⟨hp.run refl trans s, .ofExcept _⟩

/-- A program that guarantees `Q` on a part guarantees `R` on the whole when every update of
the part by `Q` is one by `R`. -/
theorem Guarantees.zoom {Q : τ → τ → Prop} {view : σ → τ} {set : τ → σ → σ} {p : Prog τ ε α}
    (hp : p.Guarantees Q) (h : ∀ s t, Q (view s) t → R s (set t s)) :
    (Prog.zoom view set p).Guarantees R := by
  induction p with
  | ret a => trivial
  | throw e => trivial
  | step update next ih =>
    exact fun s => ⟨h s _ (hp (view s)).1, ih (view s) (hp (view s)).2⟩

end Prog

end Lib
