import GatewayServer.Lib.Resumption
import GatewayServer.Lib.Run
import GatewayServer.Lib.WorkQueue

/-!
# Workers that run tasks on a shared state

Tasks are programs over a shared state. They are posted to a queue, workers take them from its
front, and a worker runs its task step by step while others run theirs. Every step is recorded, so
that one can ask in which order the tasks had their effects.

## Main definitions

* `Effect` — a step of a task, with the state before and after it
* `TaskPool`, `TaskPool.step` — the shared state, the queue, and what each worker has left to do
* `TaskPool.InOrder` — where a task had an effect, the earlier ones with its key are done
* `TaskPool.StepsInTurn` — a worker runs its task only when it is in turn

## Main results

* `inOrder_iff_along` — tasks have their effects in order when the steps are taken in turn
* `related_of_along` — what an earlier task leaves comes before what a later one finds
* `shared_eq_foldl` — tasks with one key that are run in turn are run one after another
-/

namespace Lib

universe u v

/-- A step of a task: the state that it found, and the one that it left. -/
structure Effect (σ : Type u) (τ : Type v) where
  job : Job τ
  before : σ
  after : σ

/-- Whether a program has a step left. -/
def Prog.isStep {σ ε α : Type u} : Prog σ ε α → Bool
  | .step _ _ => true
  | _ => false

/-- Workers that run tasks on a shared state. -/
structure TaskPool (σ ε α : Type u) (ι τ : Type v) where
  shared : σ
  tasks : WorkQueue ι τ
  /-- What is left of the task that a worker holds. -/
  left : ι → Prog σ ε α
  effects : List (Effect σ τ)

/-- What happens in a pool. -/
inductive PoolLabel (ι τ : Type v) where
  /-- A worker posts a task while it has none itself. -/
  | post (i : ι) (task : τ)
  /-- A worker takes its next step. -/
  | work (i : ι)

namespace TaskPool

variable {σ ε α : Type u} {ι τ κ : Type v}

/-- A pool without tasks. -/
def start [Inhabited α] (s : σ) : TaskPool σ ε α ι τ where
  shared := s
  tasks := .empty
  left _ := .ret default
  effects := []

section Steps

variable [DecidableEq ι] (code : τ → Prog σ ε α)

/-- A worker takes a task, takes a step of the one it has, or lets go of one that has ended. -/
def work (p : TaskPool σ ε α ι τ) (i : ι) : TaskPool σ ε α ι τ :=
  match p.tasks.held i with
  | none =>
    match p.tasks.queue with
    | [] => p
    | job :: _ =>
      { p with
        tasks := p.tasks.take i
        left := Function.update p.left i (code job.data) }
  | some job =>
    match p.left i with
    | .step update next =>
      { p with
        shared := update p.shared
        left := Function.update p.left i (next p.shared)
        effects := p.effects ++ [⟨job, p.shared, update p.shared⟩] }
    | .ret _ => { p with tasks := p.tasks.release i }
    | .throw _ => { p with tasks := p.tasks.release i }

def step (p : TaskPool σ ε α ι τ) : PoolLabel ι τ → TaskPool σ ε α ι τ
  | .post i task =>
    if (p.tasks.held i).isNone then { p with tasks := p.tasks.post task } else p
  | .work i => p.work code i

/-- All that a step can do. -/
inductive Moves (p : TaskPool σ ε α ι τ) : PoolLabel ι τ → TaskPool σ ε α ι τ → Prop
  | busy (i : ι) (task : τ) : Moves p (.post i task) p
  | post (i : ι) (task : τ) :
    Moves p (.post i task) { p with tasks := p.tasks.post task }
  | idle (i : ι) (hi : p.tasks.held i = none) : Moves p (.work i) p
  | take (i : ι) (hi : p.tasks.held i = none) (job : Job τ) (rest : List (Job τ))
    (hqueue : p.tasks.queue = job :: rest) :
    Moves p (.work i)
      { p with
        tasks := p.tasks.take i
        left := Function.update p.left i (code job.data) }
  | run (i : ι) (job : Job τ) (hi : p.tasks.held i = some job) (update : σ → σ)
    (next : σ → Prog σ ε α) (hleft : p.left i = .step update next) :
    Moves p (.work i)
      { p with
        shared := update p.shared
        left := Function.update p.left i (next p.shared)
        effects := p.effects ++ [⟨job, p.shared, update p.shared⟩] }
  | release (i : ι) (job : Job τ) (hi : p.tasks.held i = some job)
    (hleft : (p.left i).isStep = false) :
    Moves p (.work i) { p with tasks := p.tasks.release i }

theorem moves_step (p : TaskPool σ ε α ι τ) (l : PoolLabel ι τ) :
    p.Moves code l (p.step code l) := by
  cases l with
  | post i task =>
    by_cases hi : (p.tasks.held i).isNone
    · simp only [step, hi, if_true]
      exact .post i task
    · simp only [step, hi]
      exact .busy i task
  | work i =>
    cases hi : p.tasks.held i with
    | none =>
      cases hqueue : p.tasks.queue with
      | nil =>
        have hwork : p.step code (.work i) = p := by simp only [step, work, hi, hqueue]
        rw [hwork]
        exact .idle i hi
      | cons job rest =>
        simp only [step, work, hi, hqueue]
        exact .take i hi job rest hqueue
    | some job =>
      cases hleft : p.left i with
      | step update next =>
        simp only [step, work, hi, hleft]
        exact .run i job hi update next hleft
      | ret a =>
        simp only [step, work, hi, hleft]
        exact .release i job hi (by simp [hleft, Prog.isStep])
      | throw e =>
        simp only [step, work, hi, hleft]
        exact .release i job hi (by simp [hleft, Prog.isStep])

/-- Tasks leave the queue in order, and what has had an effect was posted. -/
structure Consistent (p : TaskPool σ ε α ι τ) : Prop where
  fifo : p.tasks.Fifo
  posted : ∀ e ∈ p.effects, e.job ∈ p.tasks.posted

omit [DecidableEq ι] in
theorem consistent_start [Inhabited α] (s : σ) :
    (start s : TaskPool σ ε α ι τ).Consistent where
  fifo := .empty
  posted _ he := absurd he List.not_mem_nil

variable {code} {p t : TaskPool σ ε α ι τ} {l : PoolLabel ι τ}

theorem Consistent.moves (h : p.Consistent) (hmoves : p.Moves code l t) : t.Consistent := by
  cases hmoves with
  | busy i task => exact h
  | post i task =>
    exact ⟨h.fifo.post task, fun e he => List.mem_append_left _ (h.posted e he)⟩
  | idle i hi => exact h
  | take i hi job rest hqueue =>
    refine ⟨h.fifo.take i, fun e he => ?_⟩
    rw [WorkQueue.posted_take]
    exact h.posted e he
  | run i job hi update next hleft =>
    refine ⟨h.fifo, fun e he => ?_⟩
    rcases List.mem_append.mp he with he | he
    · exact h.posted e he
    · rw [List.mem_singleton.mp he]
      exact h.fifo.held_mem i job hi
  | release i job hi hleft => exact ⟨h.fifo.release i, h.posted⟩

/-- What is posted stays so. -/
theorem Moves.posted_prefix (hmoves : p.Moves code l t) : p.tasks.posted <+: t.tasks.posted := by
  cases hmoves with
  | busy i task => exact List.prefix_refl _
  | post i task => exact List.prefix_append _ _
  | idle i hi => exact List.prefix_refl _
  | take i hi job rest hqueue => exact WorkQueue.posted_take (q := p.tasks) ▸ List.prefix_refl _
  | run i job hi update next hleft => exact List.prefix_refl _
  | release i job hi hleft => exact List.prefix_refl _

/-- A worker posts nothing when it takes a step. -/
theorem Moves.posted_work {i : ι} (hmoves : p.Moves code (.work i) t) :
    t.tasks.posted = p.tasks.posted := by
  cases hmoves with
  | idle _ hi => rfl
  | take _ hi job rest hqueue => exact WorkQueue.posted_take
  | run _ job hi update next hleft => rfl
  | release _ job hi hleft => rfl

/-- It leaves what the others hold alone. -/
theorem Moves.held_of_ne {i j : ι} (hmoves : p.Moves code (.work i) t) (hne : j ≠ i) :
    t.tasks.held j = p.tasks.held j := by
  cases hmoves with
  | idle _ hi => rfl
  | take _ hi job rest hqueue => exact WorkQueue.held_take_of_ne hne
  | run _ job hi update next hleft => rfl
  | release _ job hi hleft => exact WorkQueue.held_release_of_ne hne

/-! ## In order -/

variable (key : τ → κ)

/-- Where a task has had an effect, those with its key that were posted before it are done. -/
def InOrder (p : TaskPool σ ε α ι τ) : Prop :=
  ∀ e ∈ p.effects, ∀ job ∈ p.tasks.posted, key job.data = key e.job.data →
    job.number < e.job.number → ¬ p.tasks.Open job

/-- A worker takes a step of its task only when it holds the earliest of the tasks with its key
that workers hold. -/
def StepsInTurn (p : TaskPool σ ε α ι τ) : PoolLabel ι τ → Prop
  | .post _ _ => True
  | .work i => (p.left i).isStep = true → p.tasks.InTurn key i

variable {key}

omit [DecidableEq ι] in
/-- What records no effect, and opens no task that is earlier than one with an effect, keeps the
order. -/
theorem InOrder.of_same (horder : p.InOrder key) (heffects : t.effects = p.effects)
    (hopen : ∀ e ∈ p.effects, ∀ job ∈ t.tasks.posted, job.number < e.job.number →
      t.tasks.Open job → job ∈ p.tasks.posted ∧ p.tasks.Open job) : t.InOrder key := by
  intro e he job hjob hkey hlt hopen'
  rw [heffects] at he
  obtain ⟨hposted, hbefore⟩ := hopen e he job hjob hlt hopen'
  exact horder e he job hposted hkey hlt hbefore

/-- A step keeps the order exactly when the worker that takes it is in turn. -/
theorem Moves.inOrder_iff (hmoves : p.Moves code l t) (h : p.Consistent)
    (horder : p.InOrder key) : t.InOrder key ↔ p.StepsInTurn key l := by
  cases hmoves with
  | busy i task => exact iff_of_true horder trivial
  | post i task =>
    refine iff_of_true (horder.of_same rfl fun e he job hjob hlt hopen => ?_) trivial
    rw [WorkQueue.posted_post, List.mem_append, List.mem_singleton] at hjob
    rw [WorkQueue.open_post] at hopen
    -- the new task is later than all that had an effect
    have hne : job ≠ ⟨p.tasks.posted.length, task⟩ := by
      rintro rfl
      exact Nat.lt_asymm hlt (h.fifo.lt_length _ (h.posted e he))
    exact ⟨hjob.resolve_right hne, hopen.resolve_right hne⟩
  | idle i hi =>
    refine iff_of_true horder fun _ job hjob => ?_
    exact absurd (hi.symm.trans hjob) (by simp)
  | take i hi job rest hqueue =>
    refine iff_of_true (horder.of_same rfl fun e he job' hjob' hlt hopen => ?_) fun _ job' hi' => ?_
    · rw [WorkQueue.posted_take] at hjob'
      exact ⟨hjob', (WorkQueue.open_take hi).mp hopen⟩
    · exact absurd (hi.symm.trans hi') (by simp)
  | run i job hi update next hleft =>
    have hturn : p.tasks.InTurn key i ↔ _ := h.fifo.inTurn_iff hi
    constructor
    · intro hnew _
      refine hturn.mpr fun job' hjob' hkey hlt => ?_
      exact hnew ⟨job, p.shared, update p.shared⟩
        (List.mem_append_right _ List.mem_cons_self) job' hjob' hkey hlt
    · intro hsteps e he job' hjob' hkey hlt
      rcases List.mem_append.mp he with he | he
      · exact horder e he job' hjob' hkey hlt
      · rw [List.mem_singleton.mp he] at hkey hlt
        exact hturn.mp (hsteps (by simp [hleft, Prog.isStep])) job' hjob' hkey hlt
  | release i job hi hleft =>
    refine iff_of_true (horder.of_same rfl fun e he job' hjob' hlt hopen => ?_) fun hstep => ?_
    · exact ⟨hjob', ((h.fifo.open_release hi job').mp hopen).1⟩
    · exact absurd (hleft.symm.trans hstep) (by simp)

/-- In every state of a run the tasks have had their effects in order exactly when every worker
that takes a step is in turn. -/
theorem inOrder_iff_along [Inhabited α] (s : σ) (labels : List (PoolLabel ι τ)) :
    (∀ pre, pre <+: labels → (pre.foldl (step code) (start s)).InOrder key) ↔
      Along (step code) (StepsInTurn key) (start s) labels := by
  apply forall_prefix_iff_along (J := Consistent)
  · intro p l h
    exact h.moves (p.moves_step code l)
  · intro p l h horder
    exact (p.moves_step code l).inOrder_iff h horder
  · exact consistent_start s
  · intro e he
    exact absurd he List.not_mem_nil

/-! ## What a later task finds -/

/-- The effects of the tasks with one key come in the order of posting. -/
def Sorted (key : τ → κ) (p : TaskPool σ ε α ι τ) : Prop :=
  p.effects.Pairwise fun e e' => key e.job.data = key e'.job.data → e.job.number ≤ e'.job.number

theorem Sorted.moves (hsorted : p.Sorted key) (h : p.Consistent) (horder : p.InOrder key)
    (hmoves : p.Moves code l t) : t.Sorted key := by
  cases hmoves with
  | busy i task => exact hsorted
  | post i task => exact hsorted
  | idle i hi => exact hsorted
  | take i hi job rest hqueue => exact hsorted
  | run i job hi update next hleft =>
    refine List.pairwise_append.mpr ⟨hsorted, List.pairwise_singleton _ _, ?_⟩
    intro e he e' he' hkey
    rw [List.mem_singleton.mp he'] at hkey ⊢
    -- a task that is not done is not earlier than one with an effect
    by_contra hlt
    exact horder e he job (h.fifo.held_mem i job hi) hkey.symm (Nat.not_le.mp hlt)
      (Or.inr ⟨i, hi⟩)
  | release i job hi hleft => exact hsorted

variable {R : σ → σ → Prop}

/-- The effects follow one another, each with steps that `R` allows. -/
structure Tracked (R : σ → σ → Prop) (p : TaskPool σ ε α ι τ) : Prop where
  left : ∀ i, (p.left i).Guarantees R
  effects : p.effects.Pairwise fun e e' => R e.after e'.before
  shared : ∀ e ∈ p.effects, R e.after p.shared

theorem Tracked.moves (h : p.Tracked R) (hcode : ∀ task, (code task).Guarantees R)
    (refl : ∀ s, R s s) (trans : ∀ s t u, R s t → R t u → R s u)
    (hmoves : p.Moves code l t) : t.Tracked R := by
  have hupdate {i : ι} {q : Prog σ ε α} (hq : q.Guarantees R) (i' : ι) :
      (Function.update p.left i q i').Guarantees R := by
    by_cases hne : i' = i
    · rw [hne, Function.update_self]
      exact hq
    · rw [Function.update_of_ne hne]
      exact h.left i'
  cases hmoves with
  | busy i task => exact h
  | post i task => exact ⟨h.left, h.effects, h.shared⟩
  | idle i hi => exact h
  | take i hi job rest hqueue => exact ⟨hupdate (hcode job.data), h.effects, h.shared⟩
  | run i job hi update next hleft =>
    have hstep : R p.shared (update p.shared) ∧ (next p.shared).Guarantees R := by
      have hi' := h.left i
      rw [hleft] at hi'
      exact hi' p.shared
    -- the new effect comes after the others, and the shared state is what it has left
    refine ⟨hupdate hstep.2, ?_, ?_⟩
    · refine List.pairwise_append.mpr ⟨h.effects, List.pairwise_singleton _ _, ?_⟩
      intro e he e' he'
      rw [List.mem_singleton.mp he']
      exact h.shared e he
    · intro e he
      rcases List.mem_append.mp he with he | he
      · exact trans _ _ _ (h.shared e he) hstep.1
      · rw [List.mem_singleton.mp he]
        exact refl _
  | release i job hi hleft => exact ⟨h.left, h.effects, h.shared⟩

omit [DecidableEq ι] in
/-- In order, what an earlier task has left is before what a later one with its key finds. -/
theorem Tracked.related (h : p.Tracked R) (hsorted : p.Sorted key) {e e' : Effect σ τ}
    (he : e ∈ p.effects) (he' : e' ∈ p.effects) (hkey : key e.job.data = key e'.job.data)
    (hlt : e.job.number < e'.job.number) : R e.after e'.before := by
  obtain ⟨k, hk, rfl⟩ := List.getElem_of_mem he
  obtain ⟨k', hk', rfl⟩ := List.getElem_of_mem he'
  rcases Nat.lt_trichotomy k k' with hbefore | rfl | hafter
  · exact List.pairwise_iff_getElem.mp h.effects k k' hk hk' hbefore
  · exact absurd hlt (Nat.lt_irrefl _)
  · have hle := List.pairwise_iff_getElem.mp hsorted k' k hk' hk hafter hkey.symm
    exact absurd hlt (Nat.not_lt.mpr hle)

/-- On a run of steps in turn, what an earlier task has left is before what a later one with its
key finds. -/
theorem related_of_along [Inhabited α] (hcode : ∀ task, (code task).Guarantees R)
    (refl : ∀ s, R s s) (trans : ∀ s t u, R s t → R t u → R s u) {s : σ}
    {labels : List (PoolLabel ι τ)}
    (halong : Along (step code) (StepsInTurn key) (start s) labels) {e e' : Effect σ τ}
    (he : e ∈ (labels.foldl (step code) (start s)).effects)
    (he' : e' ∈ (labels.foldl (step code) (start s)).effects)
    (hkey : key e.job.data = key e'.job.data) (hlt : e.job.number < e'.job.number) :
    R e.after e'.before := by
  have hkeep (p : TaskPool σ ε α ι τ) (l : PoolLabel ι τ)
      (hp : p.Consistent ∧ p.InOrder key ∧ p.Sorted key ∧ p.Tracked R)
      (hl : p.StepsInTurn key l) :
      (p.step code l).Consistent ∧ (p.step code l).InOrder key ∧ (p.step code l).Sorted key ∧
        (p.step code l).Tracked R := by
    obtain ⟨h, horder, hsorted, htracked⟩ := hp
    have hmoves := p.moves_step code l
    exact ⟨h.moves hmoves, (hmoves.inOrder_iff h horder).mpr hl, hsorted.moves h horder hmoves,
      htracked.moves hcode refl trans hmoves⟩
  obtain ⟨-, -, hsorted, htracked⟩ := foldl_invariant hkeep
    ⟨consistent_start s, fun e he => absurd he List.not_mem_nil, .nil, fun _ => trivial, .nil,
      fun e he => absurd he List.not_mem_nil⟩ halong
  exact htracked.related hsorted he he' hkey hlt

/-! ## One after another -/

/-- What the tasks have left to do, by their numbers, takes the shared state to where all tasks, run
one after another, take `s`. -/
structure Serial (code : τ → Prog σ ε α) (s : σ) (rest : ℕ → σ → σ)
    (p : TaskPool σ ε α ι τ) : Prop where
  queue : ∀ job ∈ p.tasks.queue, ∀ t, rest job.number t = ((code job.data).run t).2
  held : ∀ i job, p.tasks.held i = some job →
    ∀ t, rest job.number t = ((p.left i).run t).2
  done : ∀ job ∈ p.tasks.posted, ¬ p.tasks.Open job → ∀ t, rest job.number t = t
  shared : p.tasks.posted.foldl (fun t job => rest job.number t) p.shared =
    p.tasks.posted.foldl (fun t job => ((code job.data).run t).2) s

/-- When the first of the tasks that are not done takes a step, what is left of it takes the new
state to where all of it took the old one. -/
theorem foldl_update_number {posted : List (Job τ)} {job : Job τ}
    (hsorted : posted.Pairwise fun job job' => job.number < job'.number) (hjob : job ∈ posted)
    {rest : ℕ → σ → σ} {after : σ → σ} {s t : σ} (hstep : after t = rest job.number s)
    (hdone : ∀ job' ∈ posted, job'.number < job.number → ∀ t, rest job'.number t = t) :
    posted.foldl (fun t job' => Function.update rest job.number after job'.number t) t =
      posted.foldl (fun t job' => rest job'.number t) s := by
  induction posted with
  | nil => exact absurd hjob List.not_mem_nil
  | cons first posted ih =>
    obtain ⟨hfirst, hsorted⟩ := List.pairwise_cons.mp hsorted
    rw [List.foldl_cons, List.foldl_cons]
    rcases List.mem_cons.mp hjob with rfl | hlater
    -- the tasks after it are left as they were
    · rw [Function.update_self, hstep]
      apply List.foldl_ext
      intro u job' hjob'
      rw [Function.update_of_ne (Nat.ne_of_gt (hfirst job' hjob'))]
    · rw [Function.update_of_ne (Nat.ne_of_lt (hfirst job hlater)),
        hdone first List.mem_cons_self (hfirst job hlater),
        hdone first List.mem_cons_self (hfirst job hlater)]
      exact ih hsorted hlater fun job' hjob' => hdone job' (List.mem_cons_of_mem _ hjob')

namespace Serial

variable {s : σ} {rest : ℕ → σ → σ} (hserial : p.Serial code s rest) (h : p.Consistent)
include hserial h

omit [DecidableEq ι] in
theorem post (task : τ) :
    Serial code s (Function.update rest p.tasks.posted.length fun u => ((code task).run u).2)
      { p with tasks := p.tasks.post task } := by
  -- the new number is behind all others
  have hold {job : Job τ} (hjob : job ∈ p.tasks.posted) (u : σ) :
      Function.update rest p.tasks.posted.length (fun u => ((code task).run u).2) job.number u =
        rest job.number u := by
    rw [Function.update_of_ne (Nat.ne_of_lt (h.fifo.lt_length job hjob))]
  refine ⟨?_, ?_, ?_, ?_⟩
  · intro job hjob u
    rcases List.mem_append.mp hjob with hjob | hjob
    · rw [hold (h.fifo.suffix.mem hjob)]
      exact hserial.queue job hjob u
    · rw [List.mem_singleton.mp hjob, Function.update_self]
  · intro i job hi u
    rw [hold (h.fifo.held_mem i job hi)]
    exact hserial.held i job hi u
  · intro job hjob hclosed u
    rw [WorkQueue.open_post] at hclosed
    rcases List.mem_append.mp hjob with hjob | hjob
    · rw [hold hjob]
      exact hserial.done job hjob (fun hopen => hclosed (Or.inl hopen)) u
    · exact absurd (Or.inr (List.mem_singleton.mp hjob)) hclosed
  · simp only [WorkQueue.posted_post, List.foldl_append, List.foldl_cons, List.foldl_nil]
    rw [List.foldl_ext _ _ _ fun u job hjob => hold hjob u, hserial.shared, Function.update_self]

omit h in
theorem take {i : ι} (hi : p.tasks.held i = none) {job : Job τ} {tail : List (Job τ)}
    (hqueue : p.tasks.queue = job :: tail) :
    Serial code s rest
      { p with
        tasks := p.tasks.take i
        left := Function.update p.left i (code job.data) } := by
  refine ⟨?_, ?_, ?_, ?_⟩
  · intro job' hjob'
    rw [WorkQueue.take_cons hqueue] at hjob'
    exact hserial.queue job' (hqueue ▸ List.mem_cons_of_mem job hjob')
  · intro i' job' hi' u
    dsimp only at hi' ⊢
    -- who takes a task has all of it left
    by_cases hne : i' = i
    · subst hne
      obtain rfl : job = job' := Option.some.inj ((WorkQueue.held_take_self hqueue).symm.trans hi')
      rw [Function.update_self]
      exact hserial.queue job (hqueue ▸ List.mem_cons_self) u
    · rw [WorkQueue.held_take_of_ne hne] at hi'
      rw [Function.update_of_ne hne]
      exact hserial.held i' job' hi' u
  · intro job' hjob' hclosed
    rw [WorkQueue.posted_take] at hjob'
    rw [WorkQueue.open_take hi] at hclosed
    exact hserial.done job' hjob' hclosed
  · rw [WorkQueue.posted_take]
    exact hserial.shared

theorem run {i : ι} {job : Job τ} (hi : p.tasks.held i = some job) {update : σ → σ}
    {next : σ → Prog σ ε α} (hleft : p.left i = .step update next)
    (hearlier : ∀ job' ∈ p.tasks.posted, job'.number < job.number → ¬ p.tasks.Open job') :
    Serial code s (Function.update rest job.number fun u => ((next p.shared).run u).2)
      { p with
        shared := update p.shared
        left := Function.update p.left i (next p.shared)
        effects := p.effects ++ [⟨job, p.shared, update p.shared⟩] } := by
  -- the task keeps its place in the order, so only its own rest changes
  have hjob := h.fifo.held_mem i job hi
  have hold {job' : Job τ} (hjob' : job' ∈ p.tasks.posted) (hne : job' ≠ job) (u : σ) :
      Function.update rest job.number (fun u => ((next p.shared).run u).2) job'.number u =
        rest job'.number u := by
    rw [Function.update_of_ne fun heq => hne (h.fifo.eq_of_number_eq hjob' hjob heq)]
  refine ⟨?_, ?_, ?_, ?_⟩
  · intro job' hjob' u
    rw [Function.update_of_ne (Nat.ne_of_gt (h.fifo.held_lt i job hi job' hjob'))]
    exact hserial.queue job' hjob' u
  · intro i' job' hi' u
    dsimp only at hi' ⊢
    by_cases hsame : i' = i
    · subst hsame
      obtain rfl : job = job' := Option.some.inj (hi.symm.trans hi')
      rw [Function.update_self, Function.update_self]
    · have hne : job' ≠ job := by
        rintro rfl
        exact hsame (h.fifo.held_inj i' i job' hi' hi)
      rw [hold (h.fifo.held_mem i' job' hi') hne, Function.update_of_ne hsame]
      exact hserial.held i' job' hi' u
  · intro job' hjob' hclosed u
    have hne : job' ≠ job := by
      rintro rfl
      exact hclosed (Or.inr ⟨i, hi⟩)
    rw [hold hjob' hne]
    exact hserial.done job' hjob' hclosed u
  -- the earlier tasks are done, so the step counts at the place of its task
  · refine (foldl_update_number h.fifo.sorted hjob ?_ ?_).trans hserial.shared
    · rw [hserial.held i job hi, hleft]
      rfl
    · intro job' hjob' hlt
      exact hserial.done job' hjob' (hearlier job' hjob' hlt)

theorem release {i : ι} {job : Job τ} (hi : p.tasks.held i = some job)
    (hleft : (p.left i).isStep = false) :
    Serial code s rest { p with tasks := p.tasks.release i } := by
  refine ⟨hserial.queue, ?_, ?_, hserial.shared⟩
  · intro i' job' hi'
    by_cases hne : i' = i
    · subst hne
      exact absurd hi' (by simp)
    · rw [WorkQueue.held_release_of_ne hne] at hi'
      exact hserial.held i' job' hi'
  · intro job' hjob' hclosed u
    rw [h.fifo.open_release hi] at hclosed
    by_cases hsame : job' = job
    · subst hsame
      rw [hserial.held i job' hi]
      -- a task that has ended leaves the state alone
      cases hprog : p.left i with
      | step update next =>
        rw [hprog] at hleft
        exact absurd hleft (by simp [Prog.isStep])
      | ret a => rfl
      | throw e => rfl
    · exact hserial.done job' hjob' (fun hopen => hclosed ⟨hopen, hsame⟩) u

/-- When all tasks have one key, a step in turn is one of the first task that is not done. -/
theorem moves (hmoves : p.Moves code l t) (hturn : p.StepsInTurn key l) {k : κ}
    (hkey : ∀ job ∈ p.tasks.posted, key job.data = k) : ∃ rest', t.Serial code s rest' := by
  cases hmoves with
  | busy i task => exact ⟨rest, hserial⟩
  | post i task => exact ⟨_, hserial.post h task⟩
  | idle i hi => exact ⟨rest, hserial⟩
  | take i hi job tail hqueue => exact ⟨rest, hserial.take hi hqueue⟩
  | run i job hi update next hleft =>
    refine ⟨_, hserial.run h hi hleft fun job' hjob' hlt => ?_⟩
    have hsame := (hkey job' hjob').trans (hkey job (h.fifo.held_mem i job hi)).symm
    exact (h.fifo.inTurn_iff hi).mp (hturn (by simp [hleft, Prog.isStep])) job' hjob' hsame hlt
  | release i job hi hleft => exact ⟨rest, hserial.release h hi hleft⟩

end Serial

/-- A label posts no task with another key than `k`. -/
def PostsKey (key : τ → κ) (k : κ) : PoolLabel ι τ → Prop
  | .post _ task => key task = k
  | .work _ => True

theorem Moves.posted_key (hmoves : p.Moves code l t) {k : κ} (hl : PostsKey key k l)
    (hkey : ∀ job ∈ p.tasks.posted, key job.data = k) :
    ∀ job ∈ t.tasks.posted, key job.data = k := by
  intro job hjob
  cases hmoves with
  | busy i task => exact hkey job hjob
  | post i task =>
    rcases List.mem_append.mp hjob with hjob | hjob
    · exact hkey job hjob
    · rw [List.mem_singleton.mp hjob]
      exact hl
  | idle i hi => exact hkey job hjob
  | take i hi first rest hqueue =>
    rw [WorkQueue.posted_take] at hjob
    exact hkey job hjob
  | run i first hi update next hleft => exact hkey job hjob
  | release i first hi hleft => exact hkey job hjob

/-- Tasks with one key whose steps are taken in turn are run one after another: once they are done,
the shared state is the one that their runs, in the order of posting, lead to. -/
theorem shared_eq_foldl [Inhabited α] {s : σ} {labels : List (PoolLabel ι τ)} {k : κ}
    (hkey : ∀ l ∈ labels, PostsKey key k l)
    (halong : Along (step code) (StepsInTurn key) (start s) labels)
    (hdone : ∀ job, ¬ (labels.foldl (step code) (start s)).tasks.Open job) :
    (labels.foldl (step code) (start s)).shared =
      ((labels.foldl (step code) (start s)).tasks.posted.map Job.data).foldl
        (fun t task => ((code task).run t).2) s := by
  have hkeep (p : TaskPool σ ε α ι τ) (l : PoolLabel ι τ)
      (hp : p.Consistent ∧ (∀ job ∈ p.tasks.posted, key job.data = k) ∧
        ∃ rest, p.Serial code s rest)
      (hl : p.StepsInTurn key l ∧ PostsKey key k l) :
      (p.step code l).Consistent ∧ (∀ job ∈ (p.step code l).tasks.posted, key job.data = k) ∧
        ∃ rest, (p.step code l).Serial code s rest := by
    obtain ⟨h, hposted, rest, hserial⟩ := hp
    have hmoves := p.moves_step code l
    exact ⟨h.moves hmoves, hmoves.posted_key hl.2 hposted, hserial.moves h hmoves hl.1 hposted⟩
  have hserial : (start s : TaskPool σ ε α ι τ).Serial code s fun _ t => t :=
    ⟨fun job hjob => absurd hjob List.not_mem_nil, fun i job hi => absurd hi (by
      simp [start, WorkQueue.empty]), fun job hjob => absurd hjob List.not_mem_nil, rfl⟩
  obtain ⟨-, -, rest, hend⟩ := foldl_invariant hkeep
    ⟨consistent_start s, fun job hjob => absurd hjob List.not_mem_nil, _, hserial⟩
    (halong.and (along_of_forall hkey))
  -- nothing is left to do
  have hrest := hend.shared
  rw [List.foldl_ext _ (fun t _ => t) _ fun t job hjob => hend.done job hjob (hdone job) t,
    List.foldl_fixed] at hrest
  rw [hrest, List.foldl_map]

end Steps

end TaskPool

end Lib
