import Mathlib.Data.List.Nodup
import Mathlib.Logic.Function.Basic

/-!
# A queue of jobs and the workers that take them

Jobs are posted to a queue, and workers take them from its front. What a worker does with a job is
left open, and so is for how long it holds it. Jobs leave the queue in the order in which they were
posted; they are done in that order only where workers wait for each other.

## Main definitions

* `Job` — something to do, with its number in the order of posting
* `WorkQueue` — the jobs posted so far, those in the queue, and those that workers hold
* `WorkQueue.Open` — a job that is in the queue or held
* `WorkQueue.Fifo` — the invariant of posting, taking and releasing
* `WorkQueue.InTurn` — of the jobs with one key that are held, a worker has the earliest

## Main results

* `Fifo.post`, `Fifo.take`, `Fifo.release` — the operations keep the invariant
* `open_post`, `open_take`, `open_release` — what they do to the open jobs
* `Fifo.inTurn_iff` — in turn, all earlier jobs with the key are done
* `Fifo.inTurn_iff_prefix` — in turn, doing the job keeps those that are done a prefix
-/

namespace Lib

/-- A job with its number in the order of posting. -/
structure Job (α : Type*) where
  number : ℕ
  data : α
  deriving DecidableEq, Repr

/-- Jobs on their way through a queue and the workers of it. -/
structure WorkQueue (ι α : Type*) where
  posted : List (Job α)
  queue : List (Job α)
  held : ι → Option (Job α)

namespace WorkQueue

variable {ι α κ : Type*}

/-- Nothing is posted yet. -/
def empty : WorkQueue ι α where
  posted := []
  queue := []
  held _ := none

/-- A job that is posted goes to the end of the queue. -/
def post (q : WorkQueue ι α) (a : α) : WorkQueue ι α :=
  { q with
    posted := q.posted ++ [⟨q.posted.length, a⟩]
    queue := q.queue ++ [⟨q.posted.length, a⟩] }

/-- A job that waits to be done, or is about to be. -/
def Open (q : WorkQueue ι α) (job : Job α) : Prop :=
  job ∈ q.queue ∨ ∃ i, q.held i = some job

/-- Nobody has a job, and none waits. -/
theorem not_open {q : WorkQueue ι α} (hqueue : q.queue.isEmpty = true)
    (hheld : ∀ i, (q.held i).isNone = true) (job : Job α) : ¬ q.Open job := by
  rintro (hjob | ⟨i, hjob⟩)
  · rw [List.isEmpty_iff.mp hqueue] at hjob
    exact List.not_mem_nil hjob
  · have hnone := hheld i
    rw [hjob] at hnone
    exact Bool.false_ne_true hnone

/-- Among the workers that hold a job with the key of the one that `i` holds, `i` has the
earliest. -/
def InTurn (key : α → κ) (q : WorkQueue ι α) (i : ι) : Prop :=
  ∀ job, q.held i = some job → ∀ i' job', q.held i' = some job' →
    key job'.data = key job.data → job.number ≤ job'.number

variable {q : WorkQueue ι α} {job : Job α}

@[simp] theorem posted_post (a : α) :
    (q.post a).posted = q.posted ++ [⟨q.posted.length, a⟩] := rfl

@[simp] theorem queue_post (a : α) :
    (q.post a).queue = q.queue ++ [⟨q.posted.length, a⟩] := rfl

@[simp] theorem held_post (a : α) : (q.post a).held = q.held := rfl

theorem open_post (a : α) :
    (q.post a).Open job ↔ q.Open job ∨ job = ⟨q.posted.length, a⟩ := by
  simp only [Open, queue_post, held_post, List.mem_append, List.mem_singleton]
  exact or_right_comm

section Workers

variable [DecidableEq ι]

/-- A worker takes the job at the front of the queue, if there is one. -/
def take (q : WorkQueue ι α) (i : ι) : WorkQueue ι α :=
  match q.queue with
  | [] => q
  | job :: rest => { q with queue := rest, held := Function.update q.held i (some job) }

/-- A worker is done with its job. -/
def release (q : WorkQueue ι α) (i : ι) : WorkQueue ι α :=
  { q with held := Function.update q.held i none }

variable {i : ι}

theorem take_nil (h : q.queue = []) : q.take i = q := by simp only [take, h]

theorem take_cons {rest : List (Job α)} (h : q.queue = job :: rest) :
    q.take i = { q with queue := rest, held := Function.update q.held i (some job) } := by
  simp only [take, h]

@[simp] theorem posted_take : (q.take i).posted = q.posted := by
  unfold take
  split <;> rfl

@[simp] theorem posted_release : (q.release i).posted = q.posted := rfl

@[simp] theorem queue_release : (q.release i).queue = q.queue := rfl

@[simp] theorem held_release_self : (q.release i).held i = none := Function.update_self ..

theorem held_release_of_ne {i' : ι} (h : i' ≠ i) : (q.release i).held i' = q.held i' :=
  Function.update_of_ne h ..

theorem held_take_self {rest : List (Job α)} (h : q.queue = job :: rest) :
    (q.take i).held i = some job := by
  rw [take_cons h]
  exact Function.update_self ..

theorem held_take_of_ne {i' : ι} (h : i' ≠ i) : (q.take i).held i' = q.held i' := by
  unfold take
  split
  · rfl
  · exact Function.update_of_ne h ..

/-- Taking a job only moves it. -/
theorem open_take (hi : q.held i = none) : (q.take i).Open job ↔ q.Open job := by
  cases hqueue : q.queue with
  | nil => rw [take_nil hqueue]
  | cons first rest =>
    simp only [take_cons hqueue, Open, hqueue, List.mem_cons]
    constructor
    · rintro (hrest | ⟨i', hi'⟩)
      · exact Or.inl (Or.inr hrest)
      -- the worker has the job that was the first, and the others have theirs
      · by_cases hne : i' = i
        · subst hne
          rw [Function.update_self] at hi'
          exact Or.inl (Or.inl (Option.some.inj hi').symm)
        · rw [Function.update_of_ne hne] at hi'
          exact Or.inr ⟨i', hi'⟩
    · rintro ((rfl | hrest) | ⟨i', hi'⟩)
      · exact Or.inr ⟨i, Function.update_self ..⟩
      · exact Or.inl hrest
      · have hne : i' ≠ i := by
          rintro rfl
          rw [hi] at hi'
          exact absurd hi' (by simp)
        exact Or.inr ⟨i', (Function.update_of_ne hne ..).trans hi'⟩

end Workers

/-! ## First in, first out -/

/-- Jobs are numbered in the order of posting, and leave the queue in this order. -/
structure Fifo (q : WorkQueue ι α) : Prop where
  lt_length : ∀ job ∈ q.posted, job.number < q.posted.length
  sorted : q.posted.Pairwise fun job job' => job.number < job'.number
  suffix : q.queue <:+ q.posted
  held_mem : ∀ i job, q.held i = some job → job ∈ q.posted
  held_lt : ∀ i job, q.held i = some job → ∀ job' ∈ q.queue, job.number < job'.number
  held_inj : ∀ i i' job, q.held i = some job → q.held i' = some job → i = i'

namespace Fifo

theorem empty : (empty : WorkQueue ι α).Fifo where
  lt_length _ hjob := absurd hjob List.not_mem_nil
  sorted := .nil
  suffix := List.suffix_refl _
  held_mem _ _ hi := absurd hi (by simp [WorkQueue.empty])
  held_lt _ _ hi := absurd hi (by simp [WorkQueue.empty])
  held_inj _ _ _ hi := absurd hi (by simp [WorkQueue.empty])

variable {q : WorkQueue ι α} (h : q.Fifo)
include h

theorem post (a : α) : (q.post a).Fifo where
  lt_length job hjob := by
    rw [WorkQueue.post, List.length_append]
    rcases List.mem_append.mp hjob with hjob | hjob
    · exact Nat.lt_succ_of_lt (h.lt_length job hjob)
    · rw [List.mem_singleton.mp hjob]
      exact Nat.lt_succ_self _
  sorted := by
    refine List.pairwise_append.mpr ⟨h.sorted, List.pairwise_singleton _ _, ?_⟩
    intro job hjob job' hjob'
    rw [List.mem_singleton.mp hjob']
    exact h.lt_length job hjob
  suffix := by
    obtain ⟨taken, htaken⟩ := h.suffix
    exact ⟨taken, by simp [WorkQueue.post, ← htaken]⟩
  held_mem i job hi := List.mem_append_left _ (h.held_mem i job hi)
  held_lt i job hi job' hjob' := by
    rcases List.mem_append.mp hjob' with hjob' | hjob'
    · exact h.held_lt i job hi job' hjob'
    · rw [List.mem_singleton.mp hjob']
      exact h.lt_length job (h.held_mem i job hi)
  held_inj := h.held_inj

theorem eq_of_number_eq {job job' : Job α} (hjob : job ∈ q.posted) (hjob' : job' ∈ q.posted)
    (hnumber : job.number = job'.number) : job = job' := by
  have hnodup : (q.posted.map Job.number).Nodup :=
    List.pairwise_map.mpr (h.sorted.imp fun hlt => Nat.ne_of_lt hlt)
  exact List.inj_on_of_nodup_map hnodup hjob hjob' hnumber

section Workers

variable [DecidableEq ι]

theorem take (i : ι) : (q.take i).Fifo := by
  cases hqueue : q.queue with
  | nil => rwa [take_nil hqueue]
  | cons first rest =>
    have hsuffix : first :: rest <:+ q.posted := hqueue ▸ h.suffix
    have hsorted := List.pairwise_cons.mp (h.sorted.sublist hsuffix.sublist)
    -- nobody holds what is still in the queue
    have hfree : ∀ i', q.held i' ≠ some first := by
      intro i' hi'
      exact Nat.lt_irrefl _ (h.held_lt i' first hi' first (hqueue ▸ List.mem_cons_self))
    rw [take_cons hqueue]
    refine ⟨h.lt_length, h.sorted, (List.suffix_cons first rest).trans hsuffix, ?_, ?_, ?_⟩
    · intro i' job hi'
      by_cases hne : i' = i
      · obtain rfl : first = job := by simpa [hne] using hi'
        exact hsuffix.mem List.mem_cons_self
      · exact h.held_mem i' job (by simpa [hne] using hi')
    · intro i' job hi' job' hjob'
      by_cases hne : i' = i
      · obtain rfl : first = job := by simpa [hne] using hi'
        exact hsorted.1 job' hjob'
      · exact h.held_lt i' job (by simpa [hne] using hi') job'
          (hqueue ▸ List.mem_cons_of_mem _ hjob')
    · intro i₁ i₂ job h₁ h₂
      by_cases hne₁ : i₁ = i
      · by_cases hne₂ : i₂ = i
        · rw [hne₁, hne₂]
        · obtain rfl : first = job := by simpa [hne₁] using h₁
          exact absurd (by simpa [hne₂] using h₂) (hfree i₂)
      · by_cases hne₂ : i₂ = i
        · obtain rfl : first = job := by simpa [hne₂] using h₂
          exact absurd (by simpa [hne₁] using h₁) (hfree i₁)
        · exact h.held_inj i₁ i₂ job (by simpa [hne₁] using h₁) (by simpa [hne₂] using h₂)

theorem release (i : ι) : (q.release i).Fifo := by
  have hkeep {i' : ι} {job : Job α} (hi' : (q.release i).held i' = some job) :
      q.held i' = some job := by
    by_cases hne : i' = i
    · rw [hne, held_release_self] at hi'
      exact absurd hi' (by simp)
    · rwa [held_release_of_ne hne] at hi'
  exact ⟨h.lt_length, h.sorted, h.suffix, fun i' job hi' => h.held_mem i' job (hkeep hi'),
    fun i' job hi' => h.held_lt i' job (hkeep hi'),
    fun i₁ i₂ job h₁ h₂ => h.held_inj i₁ i₂ job (hkeep h₁) (hkeep h₂)⟩

/-- A released job is done, and no other. -/
theorem open_release {i : ι} {job : Job α} (hi : q.held i = some job) (job' : Job α) :
    (q.release i).Open job' ↔ q.Open job' ∧ job' ≠ job := by
  constructor
  · rintro (hqueue | ⟨i', hi'⟩)
    · refine ⟨Or.inl hqueue, ?_⟩
      rintro rfl
      exact Nat.lt_irrefl _ (h.held_lt i job' hi job' hqueue)
    · have hne : i' ≠ i := by
        rintro rfl
        rw [held_release_self] at hi'
        exact absurd hi' (by simp)
      rw [held_release_of_ne hne] at hi'
      refine ⟨Or.inr ⟨i', hi'⟩, ?_⟩
      rintro rfl
      exact hne (h.held_inj i' i job' hi' hi)
  · rintro ⟨hqueue | ⟨i', hi'⟩, hjob⟩
    · exact Or.inl hqueue
    · have hne : i' ≠ i := by
        rintro rfl
        exact hjob (Option.some.inj (hi'.symm.trans hi))
      exact Or.inr ⟨i', (held_release_of_ne hne).trans hi'⟩

end Workers

/-! ## In turn -/

variable {key : α → κ} {i : ι} {job : Job α}

/-- A worker is in turn when every earlier job with the key of its own is done. -/
theorem inTurn_iff (hi : q.held i = some job) :
    q.InTurn key i ↔ ∀ job' ∈ q.posted, key job'.data = key job.data →
      job'.number < job.number → ¬ q.Open job' := by
  constructor
  · rintro hturn job' - hkey hlt (hqueue | ⟨i', hi'⟩)
    -- an earlier job has left the queue before this one
    · exact Nat.lt_asymm hlt (h.held_lt i job hi job' hqueue)
    · exact Nat.not_lt.mpr (hturn job hi i' job' hi' hkey) hlt
  · intro hdone job' hjob' i' job'' hi' hkey
    obtain rfl : job = job' := Option.some.inj (hi.symm.trans hjob')
    by_contra hlt
    exact hdone job'' (h.held_mem i' job'' hi') hkey (Nat.not_le.mp hlt) (Or.inr ⟨i', hi'⟩)

/-- When the jobs with a key that are done are the first ones posted, a worker is in turn exactly
when its job comes next. -/
theorem inTurn_iff_prefix [DecidableEq κ] {done : List (Job α)}
    (hi : q.held i = some job)
    (hdone : ∀ job', job' ∈ done ↔
      job' ∈ q.posted ∧ key job'.data = key job.data ∧ ¬ q.Open job')
    (hinit : done <+: q.posted.filter fun job' => key job'.data = key job.data) :
    q.InTurn key i ↔
      done ++ [job] <+: q.posted.filter fun job' => key job'.data = key job.data := by
  obtain ⟨rest, hrest⟩ := hinit
  have hsorted := h.sorted.filter fun job' => key job'.data = key job.data
  have hmem (job' : Job α) :
      job' ∈ done ++ rest ↔ job' ∈ q.posted ∧ key job'.data = key job.data := by
    rw [hrest, List.mem_filter, decide_eq_true_iff]
  rw [← hrest] at hsorted ⊢
  have hjob : job ∈ rest := by
    rcases List.mem_append.mp ((hmem job).mpr ⟨h.held_mem i job hi, rfl⟩) with hjob | hjob
    · exact absurd (Or.inr ⟨i, hi⟩) ((hdone job).mp hjob).2.2
    · exact hjob
  cases rest with
  | nil => exact absurd hjob List.not_mem_nil
  | cons next rest =>
    obtain ⟨-, hafter, hbefore⟩ := List.pairwise_append.mp hsorted
    have hlater := (List.pairwise_cons.mp hafter).1
    rw [List.prefix_append_right_inj, List.cons_prefix_cons, and_iff_left List.nil_prefix,
      h.inTurn_iff hi]
    constructor
    · intro hturn
      obtain ⟨hposted, hkey⟩ := (hmem next).mp (List.mem_append_right _ List.mem_cons_self)
      -- the next one is not done, so it does not come before the job
      have hnot : next ∉ done := fun hnext =>
        Nat.lt_irrefl _ (hbefore next hnext next List.mem_cons_self)
      have hopen : q.Open next := by
        by_contra hclosed
        exact hnot ((hdone next).mpr ⟨hposted, hkey, hclosed⟩)
      rcases List.mem_cons.mp hjob with rfl | hjob
      · rfl
      · exact absurd hopen (hturn next hposted hkey (hlater job hjob))
    · rintro rfl job' hposted hkey hlt
      rcases List.mem_append.mp ((hmem job').mpr ⟨hposted, hkey⟩) with hjob' | hjob'
      · exact ((hdone job').mp hjob').2.2
      · rcases List.mem_cons.mp hjob' with rfl | hjob'
        · exact absurd hlt (Nat.lt_irrefl _)
        · exact absurd hlt (Nat.lt_asymm (hlater job' hjob'))

end Fifo

end WorkQueue

end Lib
