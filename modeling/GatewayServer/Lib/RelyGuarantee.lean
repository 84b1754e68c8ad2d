import GatewayServer.Lib.TaskPool
import Mathlib.Data.List.Induction

/-!
# Programs beside others

What a program can promise when the steps of others come between its own. All of them keep an
invariant and move the state along a preorder. So what a program has found out and the preorder
keeps is still true when it takes its next step.

## Main definitions

* `Contract` — the invariant and the preorder
* `Prog.Honours` — beside others that honour the contract, so does the program, and it returns only
  when `post` holds

## Main results

* `Honours.bind` — the rule for sequencing
* `Honours.run`, `Honours.atomically` — the program run alone, and as a critical section
* `Honours.zoom` — a program over a part of the state
* `TaskPool.Honours.foldl` — tasks that honour a contract keep its invariant, however they are
  interleaved
-/

namespace Lib

universe u v

/-- What programs that run beside each other owe one another. -/
structure Contract (σ : Type u) where
  inv : σ → Prop
  rel : σ → σ → Prop
  refl : ∀ s, rel s s
  trans : ∀ s t u, rel s t → rel t u → rel s u

namespace Contract

variable {σ : Type u} (C : Contract σ)

/-- A step that the contract allows. -/
structure Allows (s t : σ) : Prop where
  inv : C.inv t
  rel : C.rel s t

variable {C} {s t u : σ}

theorem Allows.trans (hst : C.Allows s t) (htu : C.Allows t u) : C.Allows s u :=
  ⟨htu.inv, C.trans s t u hst.rel htu.rel⟩

theorem allows_self (h : C.inv s) : C.Allows s s := ⟨h, C.refl s⟩

end Contract

namespace Prog

variable {σ τ ε α β : Type u} {C : Contract σ} {post post' : α → σ → Prop} {s t : σ}

/-- From `s` on, where every step of the others is one that the contract allows, every step of the
program is one too, and `post` holds when it returns. -/
def Honours (C : Contract σ) (post : α → σ → Prop) : Prog σ ε α → σ → Prop
  | .ret a, s => post a s
  | .throw _, _ => True
  | .step update next, s => ∀ t, C.Allows s t →
      C.Allows t (update t) ∧ (next t).Honours C post (update t)

@[simp] theorem honours_ret {a : α} : (ret a : Prog σ ε α).Honours C post s ↔ post a s := Iff.rfl

@[simp] theorem honours_throw {e : ε} : (throw e : Prog σ ε α).Honours C post s := trivial

theorem Honours.mono {p : Prog σ ε α} (hp : p.Honours C post s)
    (h : ∀ a t, post a t → post' a t) : p.Honours C post' s := by
  induction p generalizing s with
  | ret a => exact h a s hp
  | throw e => trivial
  | step update next ih => exact fun t ht => ⟨(hp t ht).1, ih t (hp t ht).2⟩

/-- The others may go on before the program does. -/
theorem Honours.later {p : Prog σ ε α} (hp : p.Honours C post s)
    (hpost : ∀ a s t, C.Allows s t → post a s → post a t) (hst : C.Allows s t) :
    p.Honours C post t := by
  cases p with
  | ret a => exact hpost a s t hst hp
  | throw e => trivial
  | step update next => exact fun u hu => hp u (hst.trans hu)

/-- A program returns where the contract has led. -/
theorem Honours.tracked {p : Prog σ ε α} (hinv : C.inv s) (hp : p.Honours C post s) :
    p.Honours C (fun a t => C.Allows s t ∧ post a t) s := by
  induction p generalizing s with
  | ret a => exact ⟨C.allows_self hinv, hp⟩
  | throw e => trivial
  | step update next ih =>
    intro t ht
    obtain ⟨hstep, hnext⟩ := hp t ht
    refine ⟨hstep, (ih t hstep.inv hnext).mono ?_⟩
    rintro a u ⟨hu, hpost⟩
    exact ⟨ht.trans (hstep.trans hu), hpost⟩

/-- What follows a program starts where it returns, which is where the contract has led. -/
theorem Honours.bind {p : Prog σ ε α} {f : α → Prog σ ε β} {post : β → σ → Prop}
    {mid : α → σ → Prop} (hinv : C.inv s) (hp : p.Honours C mid s)
    (hf : ∀ a t, C.Allows s t → mid a t → (f a).Honours C post t) :
    (p >>= f).Honours C post s := by
  induction p generalizing s with
  | ret a => exact hf a s (C.allows_self hinv) hp
  | throw e => trivial
  | step update next ih =>
    intro t ht
    obtain ⟨hstep, hnext⟩ := hp t ht
    refine ⟨hstep, ih t hstep.inv hnext fun a u hu hmid => ?_⟩
    exact hf a u (ht.trans (hstep.trans hu)) hmid

theorem Honours.atomic {f : σ → α × σ}
    (h : ∀ t, C.Allows s t → C.Allows t (f t).2 ∧ post (f t).1 (f t).2) :
    (Prog.atomic f : Prog σ ε α).Honours C post s :=
  h

theorem Honours.modify {f : σ → σ} {post : PUnit → σ → Prop}
    (h : ∀ t, C.Allows s t → C.Allows t (f t) ∧ post ⟨⟩ (f t)) :
    (Prog.modify f : Prog σ ε PUnit).Honours C post s :=
  h

theorem Honours.read {f : σ → α} (h : ∀ t, C.Allows s t → post (f t) t) :
    (Prog.read f : Prog σ ε α).Honours C post s :=
  fun t ht => ⟨C.allows_self ht.inv, h t ht⟩

/-- Run alone, a program goes where the contract allows. -/
theorem Honours.run {p : Prog σ ε α} (hinv : C.inv s) (hp : p.Honours C post s) :
    C.Allows s (p.run s).2 ∧ ∀ a, (p.run s).1 = .ok a → post a (p.run s).2 := by
  induction p generalizing s with
  | ret a =>
    refine ⟨C.allows_self hinv, ?_⟩
    rintro _ ⟨⟩
    exact hp
  | throw e =>
    refine ⟨C.allows_self hinv, ?_⟩
    rintro _ ⟨⟩
  | step update next ih =>
    obtain ⟨hstep, hnext⟩ := hp s (C.allows_self hinv)
    obtain ⟨hrun, hpost⟩ := ih s hstep.inv hnext
    exact ⟨hstep.trans hrun, hpost⟩

/-- A critical section: nobody comes in between. -/
theorem Honours.atomically {p : Prog σ ε α}
    (hp : ∀ t, C.Allows s t → p.Honours C post t) : (Prog.atomically p).Honours C post s := by
  intro t ht
  obtain ⟨hrun, hpost⟩ := (hp t ht).run ht.inv
  refine ⟨hrun, ?_⟩
  dsimp only
  cases hresult : (p.run t).1 with
  | ok a => exact hpost a hresult
  | error e => trivial

/-- A program over a part of the state, under a contract on this part. -/
theorem Honours.zoom {D : Contract τ} {view : σ → τ} {set : τ → σ → σ} {post : α → τ → Prop}
    (lens : IsLens view set)
    (hdown : ∀ s t, C.Allows s t → D.Allows (view s) (view t))
    (hup : ∀ s d, C.inv s → D.Allows (view s) d → C.Allows s (set d s))
    {p : Prog τ ε α} (hp : p.Honours D post (view s)) :
    (Prog.zoom view set p).Honours C (fun a s => post a (view s)) s := by
  induction p generalizing s with
  | ret a => exact hp
  | throw e => trivial
  | step update next ih =>
    intro t ht
    obtain ⟨hstep, hnext⟩ := hp (view t) (hdown s t ht)
    refine ⟨hup t _ ht.inv hstep, ih (view t) ?_⟩
    rw [lens.view_set]
    exact hnext

end Prog

/-! ## Pools -/

namespace TaskPool

variable {σ ε α : Type u} {ι τ : Type v} {C : Contract σ} {code : τ → Prog σ ε α} {P : τ → Prop}

/-- All that is posted may be run beside the others, and so may what is left of it. -/
structure Honours (C : Contract σ) (code : τ → Prog σ ε α) (P : τ → Prop)
    (p : TaskPool σ ε α ι τ) : Prop where
  inv : C.inv p.shared
  queue : ∀ job ∈ p.tasks.queue, P job.data
  left : ∀ i, (p.left i).Honours C (fun _ _ => True) p.shared

variable [DecidableEq ι] {p t : TaskPool σ ε α ι τ} {l : PoolLabel ι τ}

theorem Honours.moves (h : p.Honours C code P)
    (hcode : ∀ task s, P task → C.inv s → (code task).Honours C (fun _ _ => True) s)
    (hposted : ∀ job ∈ t.tasks.posted, P job.data) (hmoves : p.Moves code l t) :
    t.Honours C code P ∧ C.rel p.shared t.shared := by
  cases hmoves with
  | busy i task => exact ⟨h, C.refl _⟩
  | post i task =>
    refine ⟨⟨h.inv, fun job hjob => ?_, h.left⟩, C.refl _⟩
    rcases List.mem_append.mp hjob with hjob | hjob
    · exact h.queue job hjob
    · rw [List.mem_singleton.mp hjob]
      exact hposted _ (List.mem_append_right _ List.mem_cons_self)
  | idle i hi => exact ⟨h, C.refl _⟩
  | take i hi job rest hqueue =>
    refine ⟨⟨h.inv, fun job' hjob' => ?_, fun i' => ?_⟩, C.refl _⟩
    · rw [WorkQueue.take_cons hqueue] at hjob'
      exact h.queue job' (hqueue ▸ List.mem_cons_of_mem job hjob')
    · dsimp only
      by_cases hne : i' = i
      · subst hne
        rw [Function.update_self]
        exact hcode job.data _ (h.queue job (hqueue ▸ List.mem_cons_self)) h.inv
      · rw [Function.update_of_ne hne]
        exact h.left i'
  | run i job hi update next hleft =>
    have hown := h.left i
    rw [hleft] at hown
    obtain ⟨hstep, hnext⟩ := hown p.shared (C.allows_self h.inv)
    refine ⟨⟨hstep.inv, h.queue, fun i' => ?_⟩, hstep.rel⟩
    dsimp only
    by_cases hne : i' = i
    · subst hne
      rw [Function.update_self]
      exact hnext
    -- what the others have left to do is not disturbed by the step
    · rw [Function.update_of_ne hne]
      exact (h.left i').later (fun _ _ _ _ => id) hstep
  | release i job hi hleft => exact ⟨⟨h.inv, h.queue, h.left⟩, C.refl _⟩

omit [DecidableEq ι] in
theorem honours_start [Inhabited α] {s : σ} (hs : C.inv s) :
    (start s : TaskPool σ ε α ι τ).Honours C code P where
  inv := hs
  queue _ hjob := absurd hjob List.not_mem_nil
  left _ := trivial

/-- The pool stays within the contract, however the workers are interleaved. -/
theorem Honours.foldl (h : p.Honours C code P)
    (hcode : ∀ task s, P task → C.inv s → (code task).Honours C (fun _ _ => True) s)
    (labels : List (PoolLabel ι τ))
    (hposted : ∀ job ∈ (labels.foldl (step code) p).tasks.posted, P job.data) :
    (labels.foldl (step code) p).Honours C code P ∧
      C.rel p.shared (labels.foldl (step code) p).shared := by
  induction labels using List.reverseRecOn with
  | nil => exact ⟨h, C.refl _⟩
  | append_singleton labels l ih =>
    rw [List.foldl_append, List.foldl_cons, List.foldl_nil] at hposted ⊢
    have hmoves := (labels.foldl (step code) p).moves_step code l
    obtain ⟨h, hrel⟩ := ih fun job hjob => hposted job (hmoves.posted_prefix.mem hjob)
    obtain ⟨h', hrel'⟩ := h.moves hcode hposted hmoves
    exact ⟨h', C.trans _ _ _ hrel hrel'⟩

end TaskPool

end Lib
