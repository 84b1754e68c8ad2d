import Mathlib.Data.List.Basic

/-!
# Runs of a step function

A run feeds a list of labels, one after another, to a step function. `Along` says that every
label of the run meets a condition in the state it finds, and an invariant that such a step
keeps holds where the run ends.

## Main definitions

* `Along` — every step of the run is taken where `Ok` allows it
* `Sometime` — something happened on the run
* `Since` — something happened on the run, and something else held ever since

## Main results

* `foldl_invariant` — an invariant of the allowed steps holds at the end of the run
* `foldl_iff_along` — what only the allowed steps keep holds at the end of an allowed run
* `forall_prefix_iff_along` — the same for every state of the run
* `forall_continued_iff_along` — the same for what may still come after these states
* `along_append` — a run is allowed when its two halves are
* `foldl_iff_sometime` — what holds at the end held before, or happened on the run
-/

namespace Lib

variable {S L : Type*}

/-- Every label of the run is taken in a state in which `Ok` allows it. -/
def Along (step : S → L → S) (Ok : S → L → Prop) : S → List L → Prop
  | _, [] => True
  | s, l :: ls => Ok s l ∧ Along step Ok (step s l) ls

variable {step : S → L → S} {Ok : S → L → Prop} {s : S}

@[simp] theorem along_nil : Along step Ok s [] := trivial

@[simp] theorem along_cons {l : L} {ls : List L} :
    Along step Ok s (l :: ls) ↔ Ok s l ∧ Along step Ok (step s l) ls := Iff.rfl

instance Along.decidable [∀ s l, Decidable (Ok s l)] :
    ∀ s ls, Decidable (Along step Ok s ls)
  | _, [] => isTrue trivial
  | s, l :: ls => @instDecidableAnd _ _ _ (Along.decidable (step s l) ls)

theorem along_append {ls ls' : List L} :
    Along step Ok s (ls ++ ls') ↔
      Along step Ok s ls ∧ Along step Ok (ls.foldl step s) ls' := by
  induction ls generalizing s with
  | nil => simp
  | cons l ls ih => simp [ih, and_assoc]

/-- A condition that follows for the labels of the run. -/
theorem Along.mono {Ok' : S → L → Prop} {ls : List L} (h : Along step Ok s ls)
    (himp : ∀ s, ∀ l ∈ ls, Ok s l → Ok' s l) : Along step Ok' s ls := by
  induction ls generalizing s with
  | nil => trivial
  | cons l ls ih =>
    exact ⟨himp s l List.mem_cons_self h.1,
      ih h.2 fun s l' hl' => himp s l' (List.mem_cons_of_mem l hl')⟩

/-- A run that two conditions allow. -/
theorem Along.and {Ok' : S → L → Prop} {ls : List L} (h : Along step Ok s ls)
    (h' : Along step Ok' s ls) : Along step (fun s l => Ok s l ∧ Ok' s l) s ls := by
  induction ls generalizing s with
  | nil => trivial
  | cons l ls ih => exact ⟨⟨h.1, h'.1⟩, ih h.2 h'.2⟩

/-- A run that is not allowed has a first label that is not. -/
theorem exists_first_of_not_along {ls : List L} (h : ¬ Along step Ok s ls) :
    ∃ pre l post, ls = pre ++ l :: post ∧ Along step Ok s pre ∧ ¬ Ok (pre.foldl step s) l := by
  induction ls generalizing s with
  | nil => exact absurd trivial h
  | cons l ls ih =>
    by_cases hl : Ok s l
    · have hrest : ¬ Along step Ok (step s l) ls := fun hrest => h ⟨hl, hrest⟩
      obtain ⟨pre, l', post, rfl, hpre, hl'⟩ := ih hrest
      exact ⟨l :: pre, l', post, rfl, ⟨hl, hpre⟩, hl'⟩
    · exact ⟨[], l, ls, rfl, trivial, hl⟩

/-- A condition on the labels alone is one along the run. -/
theorem along_of_forall {P : L → Prop} {ls : List L} (h : ∀ l ∈ ls, P l) :
    Along step (fun _ => P) s ls := by
  induction ls generalizing s with
  | nil => trivial
  | cons l ls ih =>
    exact ⟨h l List.mem_cons_self, ih fun l' hl' => h l' (List.mem_cons_of_mem l hl')⟩

/-- What holds at the start and is kept by every allowed step holds at the end. -/
theorem foldl_invariant {I : S → Prop} (keep : ∀ s l, I s → Ok s l → I (step s l))
    {ls : List L} (hs : I s) (hls : Along step Ok s ls) : I (ls.foldl step s) := by
  induction ls generalizing s with
  | nil => exact hs
  | cons l ls ih => exact ih (keep s l hs hls.1) hls.2

/-- What exactly the allowed steps keep, and what no step brings back, holds at the end of exactly
the allowed runs. -/
theorem foldl_iff_along {I : S → Prop} (keep : ∀ s l, I s → (I (step s l) ↔ Ok s l))
    (lost : ∀ s l, I (step s l) → I s) (hs : I s) (ls : List L) :
    I (ls.foldl step s) ↔ Along step Ok s ls := by
  induction ls generalizing s with
  | nil => simp [hs]
  | cons l ls ih =>
    rw [List.foldl_cons, along_cons]
    by_cases hl : I (step s l)
    · rw [ih hl, and_iff_right ((keep s l hs).mp hl)]
    · have hnot : ¬ I (ls.foldl step (step s l)) := by
        intro hend
        refine hl (List.foldlRecOn (motive := fun t => I t → I (step s l)) ls step id ?_ hend)
        intro t ih' l' _ ht
        exact ih' (lost t l' ht)
      exact iff_of_false hnot fun h => hl ((keep s l hs).mpr h.1)

/-- What exactly the allowed steps keep holds in every state of exactly the allowed runs. -/
theorem forall_prefix_iff_along {I J : S → Prop} (stable : ∀ s l, J s → J (step s l))
    (keep : ∀ s l, J s → I s → (I (step s l) ↔ Ok s l)) (hJ : J s) (hI : I s) (ls : List L) :
    (∀ pre, pre <+: ls → I (pre.foldl step s)) ↔ Along step Ok s ls := by
  induction ls generalizing s with
  | nil =>
    refine iff_of_true ?_ trivial
    intro pre hpre
    rw [List.prefix_nil.mp hpre]
    exact hI
  | cons l ls ih =>
    constructor
    · intro hall
      -- the prefix of one step says that this step is allowed
      have hl := (keep s l hJ hI).mp (hall [l] ⟨ls, rfl⟩)
      refine ⟨hl, (ih (stable s l hJ) ((keep s l hJ hI).mpr hl)).mp ?_⟩
      intro pre hpre
      exact hall (l :: pre) (List.cons_prefix_cons.mpr ⟨rfl, hpre⟩)
    · rintro ⟨hl, hls⟩ pre hpre
      cases pre with
      | nil => exact hI
      | cons l' pre =>
        obtain ⟨rfl, hrest⟩ := List.cons_prefix_cons.mp hpre
        exact (ih (stable s l' hJ) ((keep s l' hJ hI).mpr hl)).mpr hls pre hrest

/-- A step that is not allowed leaves a state from which free steps lead to one that is not safe,
and every other step keeps off such states. Then exactly the allowed runs have only safe states,
however free steps continue them. -/
theorem forall_continued_iff_along {I P : S → Prop} {Free : L → Prop}
    (keep : ∀ s l, I s → Ok s l → I (step s l)) (free : ∀ s l, Free l → Ok s l)
    (safe : ∀ s, I s → P s)
    (lost : ∀ s l, I s → ¬ Ok s l →
      ∃ more : List L, (∀ l' ∈ more, Free l') ∧ ¬ P (more.foldl step (step s l)))
    (hs : I s) (ls : List L) :
    (∀ pre, pre <+: ls → ∀ more : List L, (∀ l ∈ more, Free l) →
        P ((pre ++ more).foldl step s)) ↔ Along step Ok s ls := by
  constructor
  · intro hall
    by_contra hnot
    obtain ⟨pre, l, post, rfl, hpre, hl⟩ := exists_first_of_not_along hnot
    obtain ⟨more, hfree, hmore⟩ := lost _ l (foldl_invariant keep hs hpre) hl
    refine hmore ?_
    have hsafe := hall (pre ++ [l]) ⟨post, by simp⟩ more hfree
    simpa using hsafe
  · rintro halong pre ⟨post, rfl⟩ more hfree
    have hmore : Along step Ok (pre.foldl step s) more :=
      (along_of_forall hfree).mono fun s l _ hl => free s l hl
    exact safe _ (foldl_invariant keep hs
      (along_append.mpr ⟨(along_append.mp halong).1, hmore⟩))

/-! ## Sometime and since -/

/-- At some label of the run `P` holds. -/
def Sometime (step : S → L → S) (P : S → L → Prop) (s : S) (ls : List L) : Prop :=
  ∃ pre l post, ls = pre ++ l :: post ∧ P (pre.foldl step s) l

@[simp] theorem not_sometime_nil {P : S → L → Prop} : ¬ Sometime step P s [] := by
  rintro ⟨pre, l, post, hls, -⟩
  simp at hls

theorem sometime_cons {P : S → L → Prop} {l : L} {ls : List L} :
    Sometime step P s (l :: ls) ↔ P s l ∨ Sometime step P (step s l) ls := by
  constructor
  · rintro ⟨pre, l', post, hls, hP⟩
    cases pre with
    | nil =>
      obtain ⟨rfl, rfl⟩ := List.cons.inj hls
      exact Or.inl hP
    | cons l'' pre =>
      obtain ⟨rfl, rfl⟩ := List.cons.inj hls
      exact Or.inr ⟨pre, l', post, rfl, hP⟩
  · rintro (hP | ⟨pre, l', post, rfl, hP⟩)
    · exact ⟨[], l, ls, rfl, hP⟩
    · exact ⟨l :: pre, l', post, rfl, hP⟩

/-- Something that only the labels decide happens on a run with such a label. -/
theorem sometime_iff_exists_mem {P : L → Prop} {ls : List L} :
    Sometime step (fun _ => P) s ls ↔ ∃ l ∈ ls, P l := by
  induction ls generalizing s with
  | nil => simp
  | cons l ls ih => simp [sometime_cons, ih]

/-- A property that steps only add to, each where `P` holds, holds at the end when it held at the
start or `P` did on the way. -/
theorem foldl_iff_sometime {I Q : S → Prop} {P : S → L → Prop}
    (keep : ∀ s l, I s → I (step s l)) (add : ∀ s l, I s → (Q (step s l) ↔ Q s ∨ P s l))
    (hs : I s) (ls : List L) : Q (ls.foldl step s) ↔ Q s ∨ Sometime step P s ls := by
  induction ls generalizing s with
  | nil => simp
  | cons l ls ih => rw [List.foldl_cons, ih (keep s l hs), add s l hs, sometime_cons, or_assoc]

/-- At some label of the run `P` holds, and `Q` at every label after it. -/
def Since (step : S → L → S) (P Q : S → L → Prop) (s : S) (ls : List L) : Prop :=
  ∃ pre l post, ls = pre ++ l :: post ∧ P (pre.foldl step s) l ∧
    Along step Q ((pre ++ [l]).foldl step s) post

variable {P Q : S → L → Prop} {l : L} {ls : List L}

/-- `P` holds at the last label. -/
theorem Since.last (h : P (ls.foldl step s) l) : Since step P Q s (ls ++ [l]) :=
  ⟨ls, l, [], rfl, h, trivial⟩

/-- One more label at which `Q` holds. -/
theorem Since.append (h : Since step P Q s ls) (hl : Q (ls.foldl step s) l) :
    Since step P Q s (ls ++ [l]) := by
  obtain ⟨pre, l', post, rfl, hpre, hpost⟩ := h
  refine ⟨pre, l', post ++ [l], by simp, hpre, along_append.mpr ⟨hpost, ?_, trivial⟩⟩
  rw [← List.foldl_append]
  simpa using hl

end Lib
