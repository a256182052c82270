import NetCalc.Thread.PoolHistory

/-!
# Where a job is

An argument that is handed to the pool once is in one place at a time: with a
caller that has not enqueued it, in the queue, with a worker that dequeued it,
or inside its task. `Placed` says so by a function from arguments to places,
and `Placed.step` how an action moves an argument on. The argument of a caller
that is refused stays where it was.
-/

namespace NetCalc.Thread

set_option autoImplicit false
open NetCalc.Lib

/-- A place for an argument. -/
inductive Place (n m : Nat) where
  | away
  | calling (p : Fin m)
  | queued
  | held (w : Fin n)
  | running (w : Fin n)
  deriving DecidableEq

section Places
variable {n m : Nat} {τ δ α : Type}

/-- The job a caller has not enqueued yet. -/
def CallerPc.carries : CallerPc τ δ α → Option (Job τ δ α)
  | .entered job => some job
  | .tested job _ => some job
  | _ => none

/-- A job is in a place. -/
def JobAt (s : Pool n m τ δ α) : Place n m → Job τ δ α → Prop
  | .away, _ => False
  | .calling p, job => (s.callers p).carries = some job
  | .queued, job => job ∈ liveJobs s.queue
  | .held w, job => s.workers w = .unlocked job ∧ job.task ≠ none
  | .running w, job => s.workers w = .running job

/-- Every job is in the place of its argument, and nowhere twice. -/
structure Placed (place : α → Place n m) (s : Pool n m τ δ α) : Prop where
  there : ∀ x job, JobAt s x job → ∃ a, job.arg = some a ∧ place a = x
  once : (liveJobs s.queue).Pairwise fun j k => j.arg ≠ k.arg
  inside : ∀ a w, place a = .running w → ∃ job, s.workers w = .running job ∧ job.arg = some a

/-- How an action moves an argument. -/
inductive Moved (s : Pool n m τ δ α) : Act n m τ δ α → α → Place n m → Place n m → Prop where
  | enqueue (p : Fin m) (mem : Option Nat) (a : α) : Moved s (.enqueue p mem) a (.calling p) .queued
  | take (w : Fin n) (a : α) : Moved s (.lock w) a .queued (.held w)
  | invoke (w : Fin n) (job : Job τ δ α) (a : α) (pc : s.workers w = .unlocked job) (task : job.task ≠ none)
      (arg : job.arg = some a) : Moved s (.invoke w) a (.held w) (.running w)
  | ret (w : Fin n) (job : Job τ δ α) (a : α) (pc : s.workers w = .running job) (arg : job.arg = some a) :
      Moved s (.ret w) a (.running w) .away

theorem placed_init : Placed (fun _ => .away) (threadpoolCreate n m τ δ α) where
  there x job here := by
    cases x with
    | away => cases here
    | calling p => cases here
    | queued =>
      have empty : liveJobs (threadpoolCreate n m τ δ α).queue = [] := emptyQueue_jobs
      have member : job ∈ liveJobs (threadpoolCreate n m τ δ α).queue := here
      rw [empty] at member
      cases member
    | held w => cases here.1
    | running w => cases here
  once := by
    rw [show liveJobs (threadpoolCreate n m τ δ α).queue = [] from emptyQueue_jobs]
    exact List.Pairwise.nil
  inside _ _ here := by cases here

variable {place : α → Place n m} {s t : Pool n m τ δ α} {a : α} {job : Job τ δ α}

/-- No argument moves where no job does. -/
theorem Placed.still (h : Placed place s) (same : ∀ x k, JobAt t x k → JobAt s x k)
    (once : (liveJobs t.queue).Pairwise fun j k => j.arg ≠ k.arg)
    (inside : ∀ w k, s.workers w = .running k → t.workers w = .running k) : Placed place t where
  there x k here := h.there x k (same x k here)
  once := once
  inside b w here := by
    obtain ⟨k, pc, arg⟩ := h.inside b w here
    exact ⟨k, inside w k pc, arg⟩

/-- One job moves, and is gone from where it was. -/
theorem Placed.move [DecidableEq α] (h : Placed place s) {old new : Place n m} (arg : job.arg = some a)
    (here : place a = old)
    (others : ∀ x k, JobAt t x k → (x = new ∧ k = job) ∨ (JobAt s x k ∧ (x = old → k.arg ≠ some a)))
    (once : (liveJobs t.queue).Pairwise fun j k => j.arg ≠ k.arg)
    (inside : ∀ w k, k.arg ≠ some a → s.workers w = .running k → t.workers w = .running k)
    (own : ∀ w, new = .running w → t.workers w = .running job) : Placed (Function.update place a new) t where
  there x k at_x := by
    rcases others x k at_x with ⟨rfl, rfl⟩ | ⟨before, gone⟩
    · exact ⟨a, arg, Function.update_self ..⟩
    · obtain ⟨b, arg', there⟩ := h.there x k before
      refine ⟨b, arg', ?_⟩
      have different : b ≠ a := by
        rintro rfl
        exact gone (there.symm.trans here) arg'
      rw [Function.update_of_ne different, there]
  once := once
  inside b w there := by
    by_cases same : b = a
    · subst same
      rw [Function.update_self] at there
      exact ⟨job, own w there, arg⟩
    · rw [Function.update_of_ne same] at there
      obtain ⟨k, pc, arg'⟩ := h.inside b w there
      refine ⟨k, inside w k ?_ pc, arg'⟩
      rw [arg']
      simpa using same

/-! ## Steps -/

/-- A worker that has no job, before and after. -/
theorem Placed.worker (h : Placed place s) {w : Fin n} {old pc : WorkerPc τ δ α} (was : s.workers w = old)
    (workers : t.workers = Function.update s.workers w pc) (queue : t.queue = s.queue)
    (callers : t.callers = s.callers) (idle : ∀ k, old ≠ .running k)
    (jobless : ∀ k, pc = .unlocked k → k.task = none) (outside : ∀ k, pc ≠ .running k) : Placed place t := by
  apply h.still
  · intro x k here
    cases x with
    | away => cases here
    | calling p => simpa only [JobAt, callers] using here
    | queued => simpa only [JobAt, queue] using here
    | held v =>
      obtain ⟨here, task⟩ := here
      rw [workers] at here
      by_cases same : v = w
      · subst same
        rw [Function.update_self] at here
        exact absurd (jobless k here) task
      · rw [Function.update_of_ne same] at here
        exact ⟨here, task⟩
    | running v =>
      have here : t.workers v = .running k := here
      rw [workers] at here
      by_cases same : v = w
      · subst same
        rw [Function.update_self] at here
        exact absurd here (outside k)
      · rwa [Function.update_of_ne same] at here
  · rw [queue]
    exact h.once
  · intro v k pc'
    have other : v ≠ w := by
      rintro rfl
      exact idle k (was.symm.trans pc')
    rw [workers, Function.update_of_ne other]
    exact pc'

/-- Sleepers are woken, and no caller gets a job. -/
theorem Placed.callers (h : Placed place s) {chosen : Fin n → Bool}
    (workers : t.workers = wake s.workers chosen)
    (asleep : ∀ w, chosen w = true → (s.workers w).isBlocked = true)
    (callers : ∀ p k, (t.callers p).carries = some k → (s.callers p).carries = some k)
    (queue : t.queue = s.queue) : Placed place t := by
  have awake : ∀ w pc, pc.isBlocked = false → pc.isWoken = false → (t.workers w = pc ↔ s.workers w = pc) := by
    intro w pc unblocked unwoken
    rw [workers, wake]
    split
    · rename_i picked
      have blocked := asleep w picked
      constructor
      · rintro rfl
        cases unwoken
      · rintro rfl
        rw [blocked] at unblocked
        cases unblocked
    · exact Iff.rfl
  apply h.still
  · intro x k here
    cases x with
    | away => cases here
    | calling p => exact callers p k here
    | queued => simpa only [JobAt, queue] using here
    | held v => exact ⟨(awake v _ rfl rfl).mp here.1, here.2⟩
    | running v => exact (awake v _ rfl rfl).mp here
  · rw [queue]
    exact h.once
  · intro w k pc
    exact (awake w _ rfl rfl).mpr pc

/-- No worker is woken. -/
theorem wake_none (workers : Fin n → WorkerPc τ δ α) : wake workers (fun _ => false) = workers := rfl

/-- The workers stay where they are, and no caller gets a job. -/
theorem Placed.unwoken (h : Placed place s) (workers : t.workers = s.workers)
    (callers : ∀ p k, (t.callers p).carries = some k → (s.callers p).carries = some k)
    (queue : t.queue = s.queue) : Placed place t :=
  h.callers (workers.trans (wake_none s.workers).symm) (fun _ => Bool.noConfusion) callers queue

/-- What a caller carries after one of them moved. -/
theorem carries_update {p q : Fin m} {pc : CallerPc τ δ α} {k : Job τ δ α}
    (carried : (Function.update s.callers p pc q).carries = some k)
    (before : ∀ k, pc.carries = some k → (s.callers p).carries = some k) : (s.callers q).carries = some k := by
  by_cases same : q = p
  · subst same
    rw [Function.update_self] at carried
    exact before k carried
  · rwa [Function.update_of_ne same] at carried

variable [DecidableEq α]

/-- **A caller enters** with an argument that is nowhere. -/
theorem Placed.enter (h : Placed place s) {p : Fin m} (arg : job.arg = some a) (away : place a = .away) :
    Placed (Function.update place a (.calling p))
      { s with callers := Function.update s.callers p (.entered job) } := by
  apply h.move arg away
  · intro x k here
    cases x with
    | away => cases here
    | calling q =>
      by_cases same : q = p
      · subst same
        have here : (Function.update s.callers q (.entered job) q).carries = some k := here
        rw [Function.update_self] at here
        cases here
        exact .inl ⟨rfl, rfl⟩
      · have here : (Function.update s.callers p (.entered job) q).carries = some k := here
        rw [Function.update_of_ne same] at here
        exact .inr ⟨here, by simp⟩
    | queued => exact .inr ⟨here, by simp⟩
    | held w => exact .inr ⟨here, by simp⟩
    | running w => exact .inr ⟨here, by simp⟩
  · exact h.once
  · intro w k _ pc
    exact pc
  · intro w same
    cases same

/-- **A caller's job is stored.** -/
theorem Placed.enqueue (h : Placed place s) {p : Fin m} {pc : CallerPc τ δ α}
    (carried : (s.callers p).carries = some job) (queue : liveJobs t.queue = liveJobs s.queue ++ [job])
    (workers : t.workers = s.workers) (callers : t.callers = Function.update s.callers p pc)
    (after : pc.carries = none) :
    ∃ a, job.arg = some a ∧ place a = .calling p ∧ Placed (Function.update place a .queued) t := by
  obtain ⟨a, arg, here⟩ := h.there (.calling p) job carried
  refine ⟨a, arg, here, h.move arg here ?_ ?_ ?_ ?_⟩
  · intro x k at_x
    cases x with
    | away => cases at_x
    | calling q =>
      have at_x : (t.callers q).carries = some k := at_x
      rw [callers] at at_x
      by_cases same : q = p
      · subst same
        rw [Function.update_self, after] at at_x
        cases at_x
      · rw [Function.update_of_ne same] at at_x
        exact .inr ⟨at_x, by simp [same]⟩
    | queued =>
      have at_x : k ∈ liveJobs t.queue := at_x
      rw [queue] at at_x
      rcases List.mem_append.mp at_x with before | last
      · exact .inr ⟨before, by simp⟩
      · exact .inl ⟨rfl, List.mem_singleton.mp last⟩
    | held w => exact .inr ⟨by simpa only [JobAt, workers] using at_x, by simp⟩
    | running w => exact .inr ⟨by simpa only [JobAt, workers] using at_x, by simp⟩
  · rw [queue]
    apply List.pairwise_append.mpr
    refine ⟨h.once, List.pairwise_singleton .., ?_⟩
    intro other before k last same
    obtain rfl := List.mem_singleton.mp last
    obtain ⟨b, arg', there⟩ := h.there .queued other before
    obtain rfl : a = b := Option.some.inj (arg.symm.trans (same.symm.trans arg'))
    rw [here] at there
    cases there
  · intro w k _ pc'
    rw [workers]
    exact pc'
  · intro w same
    cases same

/-- **A worker takes the first job.** -/
theorem Placed.take (h : Placed place s) {w : Fin n} {rest : List (Job τ δ α)}
    (first : liveJobs s.queue = job :: rest) (queue : liveJobs t.queue = rest)
    (workers : t.workers = Function.update s.workers w (.unlocked job)) (callers : t.callers = s.callers)
    (idle : ∀ k, s.workers w ≠ .running k) :
    ∃ a, place a = .queued ∧ Placed (Function.update place a (.held w)) t := by
  have head : job ∈ liveJobs s.queue := by
    rw [first]
    exact List.mem_cons_self
  obtain ⟨a, arg, here⟩ := h.there .queued job head
  have once := h.once
  rw [first] at once
  obtain ⟨apart, once⟩ := List.pairwise_cons.mp once
  refine ⟨a, here, h.move arg here ?_ ?_ ?_ ?_⟩
  · intro x k at_x
    cases x with
    | away => cases at_x
    | calling q => exact .inr ⟨by simpa only [JobAt, callers] using at_x, by simp⟩
    | queued =>
      have at_x : k ∈ liveJobs t.queue := at_x
      rw [queue] at at_x
      have before : k ∈ liveJobs s.queue := by
        rw [first]
        exact List.mem_cons_of_mem _ at_x
      refine .inr ⟨before, fun _ same => ?_⟩
      exact apart k at_x (arg.trans same.symm)
    | held v =>
      obtain ⟨pc, task⟩ := at_x
      rw [workers] at pc
      by_cases same : v = w
      · subst same
        rw [Function.update_self] at pc
        cases pc
        exact .inl ⟨rfl, rfl⟩
      · rw [Function.update_of_ne same] at pc
        exact .inr ⟨⟨pc, task⟩, by simp⟩
    | running v =>
      have pc : t.workers v = .running k := at_x
      rw [workers] at pc
      by_cases same : v = w
      · subst same
        rw [Function.update_self] at pc
        cases pc
      · rw [Function.update_of_ne same] at pc
        exact .inr ⟨pc, by simp⟩
  · rw [queue]
    exact once
  · intro v k _ pc
    have different : v ≠ w := by
      rintro rfl
      exact idle k pc
    rw [workers, Function.update_of_ne different]
    exact pc
  · intro v same
    cases same

/-- A worker's own job moves with it. -/
theorem Placed.own (h : Placed place s) {w : Fin n} {pc : WorkerPc τ δ α} {old new : Place n m}
    (arg : job.arg = some a) (here : place a = old) (was : old = .held w ∨ old = .running w)
    (workers : t.workers = Function.update s.workers w pc) (queue : t.queue = s.queue)
    (callers : t.callers = s.callers) (only : ∀ k, s.workers w = .running k → k.arg = some a)
    (unlocked : ∀ k, pc ≠ .unlocked k) (running : ∀ k, pc = .running k → new = .running w ∧ k = job)
    (own : ∀ v, new = .running v → v = w ∧ pc = .running job) : Placed (Function.update place a new) t := by
  have elsewhere : ∀ x (k : Job τ δ α), x ≠ .held w → x ≠ .running w → x = old → k.arg ≠ some a := by
    rintro x k not_held not_running rfl
    rcases was with rfl | rfl
    · exact absurd rfl not_held
    · exact absurd rfl not_running
  apply h.move arg here
  · intro x k at_x
    cases x with
    | away => cases at_x
    | calling q =>
      exact .inr ⟨by simpa only [JobAt, callers] using at_x, elsewhere _ k (by simp) (by simp)⟩
    | queued =>
      exact .inr ⟨by simpa only [JobAt, queue] using at_x, elsewhere _ k (by simp) (by simp)⟩
    | held v =>
      obtain ⟨at_v, task⟩ := at_x
      rw [workers] at at_v
      by_cases same : v = w
      · subst same
        rw [Function.update_self] at at_v
        exact absurd at_v (unlocked k)
      · rw [Function.update_of_ne same] at at_v
        exact .inr ⟨⟨at_v, task⟩, elsewhere _ k (by simpa using same) (by simp)⟩
    | running v =>
      have at_v : t.workers v = .running k := at_x
      rw [workers] at at_v
      by_cases same : v = w
      · subst same
        rw [Function.update_self] at at_v
        obtain ⟨place_eq, job_eq⟩ := running k at_v
        exact .inl ⟨place_eq.symm, job_eq⟩
      · rw [Function.update_of_ne same] at at_v
        exact .inr ⟨at_v, elsewhere _ k (by simp) (by simpa using same)⟩
  · rw [queue]
    exact h.once
  · intro v k other at_v
    have different : v ≠ w := by
      rintro rfl
      exact other (only k at_v)
    rw [workers, Function.update_of_ne different]
    exact at_v
  · intro v same
    obtain ⟨rfl, pc_eq⟩ := own v same
    rw [workers, Function.update_self]
    exact pc_eq

/-- **A worker starts its job.** -/
theorem Placed.invoke (h : Placed place s) {w : Fin n} (pc : s.workers w = .unlocked job)
    (task : job.task ≠ none)
    (workers : t.workers = Function.update s.workers w (.running job)) (queue : t.queue = s.queue)
    (callers : t.callers = s.callers) :
    ∃ a, job.arg = some a ∧ place a = .held w ∧ Placed (Function.update place a (.running w)) t := by
  obtain ⟨a, arg, here⟩ := h.there (.held w) job ⟨pc, task⟩
  refine ⟨a, arg, here, h.own arg here (.inl rfl) workers queue callers ?_ ?_ ?_ ?_⟩
  · intro k pc'
    rw [pc] at pc'
    cases pc'
  · intro k same
    cases same
  · intro k same
    cases same
    exact ⟨rfl, rfl⟩
  · intro v same
    cases same
    exact ⟨rfl, rfl⟩

/-- **A worker comes back from its job.** -/
theorem Placed.ret (h : Placed place s) {w : Fin n} (pc : s.workers w = .running job)
    (workers : t.workers = Function.update s.workers w (.returned job)) (queue : t.queue = s.queue)
    (callers : t.callers = s.callers) :
    ∃ a, job.arg = some a ∧ place a = .running w ∧ Placed (Function.update place a .away) t := by
  obtain ⟨a, arg, here⟩ := h.there (.running w) job pc
  refine ⟨a, arg, here, h.own arg here (.inr rfl) workers queue callers ?_ ?_ ?_ ?_⟩
  · intro k pc'
    rw [pc] at pc'
    cases pc'
    exact arg
  · intro k same
    cases same
  · intro k same
    cases same
  · intro v same
    cases same

/-- An argument that one step moved. -/
theorem moved_update {act : Act n m τ δ α} {old new : Place n m} (here : place a = old)
    (moved : Moved s act a old new) (x : α) : Function.update place a new x = place x ∨
      Moved s act x (place x) (Function.update place a new x) := by
  by_cases same : x = a
  · subst same
    rw [Function.update_self, here]
    exact .inr moved
  · exact .inl (Function.update_of_ne same ..)

/-- **A step of the pool moves one argument on, or none.** -/
theorem Placed.step {act : Act n m τ δ α} (h : Placed place s) (order : Ordered s) (taken : Step s act t)
    (outside : ∀ p job, act ≠ .enter p job) :
    ∃ place', Placed place' t ∧ ∀ x, place' x = place x ∨ Moved s act x (place x) (place' x) := by
  have none_moves : Placed place t →
      ∃ place', Placed place' t ∧ ∀ x, place' x = place x ∨ Moved s act x (place x) (place' x) :=
    fun placed => ⟨place, placed, fun _ => .inl rfl⟩
  cases taken with
  | enter p job pc => exact absurd rfl (outside p job)
  | reject p job pc refused =>
    apply none_moves
    refine h.unwoken rfl ?_ rfl
    intro q k carried
    exact carries_update carried fun _ impossible => by cases impossible
  | proceed p job pc task active =>
    apply none_moves
    refine h.unwoken rfl ?_ rfl
    intro q k carried
    apply carries_update carried
    rw [pc]
    exact fun _ same => same
  | enqueue p mem job active pc =>
    have carried : (s.callers p).carries = some job := by
      rw [pc]
      rfl
    rcases enqueueSection_cases order.queue_ok mem job active with ⟨same, _⟩ | ⟨_, queue, _⟩
    · apply none_moves
      refine h.unwoken rfl ?_ same
      intro q k carried
      exact carries_update carried fun _ impossible => by cases impossible
    · obtain ⟨a, _, here, placed⟩ :=
        h.enqueue (t := enqueueSection s p mem job active) carried queue rfl rfl rfl
      exact ⟨_, placed, moved_update here (.enqueue p mem a)⟩
  | signal p chosen call pc ok =>
    apply none_moves
    refine h.callers rfl (fun w picked => ok.1 w (of_decide_eq_true picked)) ?_ rfl
    intro q k carried
    exact carries_update carried fun _ impossible => by cases impossible
  | shutdown => exact none_moves (h.unwoken rfl (fun _ _ carried => carried) rfl)
  | destroy pc => exact none_moves (h.unwoken rfl (fun _ _ carried => carried) rfl)
  | broadcast pc => exact none_moves (h.callers rfl (fun _ blocked => blocked) (fun _ _ carried => carried) rfl)
  | join k small pc left => exact none_moves (h.unwoken rfl (fun _ _ carried => carried) rfl)
  | release pc =>
    apply none_moves
    have empty := order.queue_ok.clear.2
    apply h.still
    · intro x k here
      cases x with
      | queued =>
        have member : k ∈ liveJobs (queueClear s.queue).2.1 := here
        rw [empty] at member
        cases member
      | _ => exact here
    · rw [empty]
      exact List.Pairwise.nil
    · exact fun _ _ same => same
  | wait w pc nothing active =>
    apply none_moves
    rcases pc with pc | pc <;> exact h.worker pc rfl rfl rfl (by simp) (by simp) (by simp)
  | take w pc go =>
    have idle : ∀ k, s.workers w ≠ .running k := by
      intro k running
      rcases pc with pc | pc <;> rw [pc] at running <;> cases running
    cases jobs : liveJobs s.queue with
    | nil =>
      apply none_moves
      rw [take_nothing order.queue_ok jobs]
      refine h.worker rfl rfl rfl rfl idle ?_ (by simp)
      intro k same
      cases same
      rfl
    | cons job rest =>
      obtain ⟨_, out, left, _⟩ := take_first (m := m) order.queue_ok jobs w
      rw [out]
      obtain ⟨a, here, placed⟩ := h.take (t := {
        s with
        queue := (queueDequeue s.queue Job.null).queue
        workers := Function.update s.workers w (.unlocked job)
        log := s.log ++ (queueDequeue s.queue Job.null).freed.map fun node => .removed w node.job })
        jobs left rfl rfl idle
      exact ⟨_, placed, moved_update here (.take w a)⟩
  | spurious w pc =>
    exact none_moves (h.worker pc rfl rfl rfl (by simp) (by simp) (by simp))
  | skip w locals pc nothing =>
    exact none_moves (h.worker pc rfl rfl rfl (by simp) (by simp) (by simp))
  | invoke w locals task pc given =>
    have real : locals.task ≠ none := by
      rw [given]
      simp
    obtain ⟨a, arg, here, placed⟩ := h.invoke (t := {
      s with
      workers := Function.update s.workers w (.running locals)
      log := s.log ++ [.invoked w task locals.arg] }) pc real rfl rfl rfl
    exact ⟨_, placed, moved_update here (.invoke w locals a pc real arg)⟩
  | ret w locals pc =>
    obtain ⟨a, arg, here, placed⟩ := h.ret (t := {
      s with
      workers := Function.update s.workers w (.returned locals)
      log := s.log ++ locals.task.toList.map fun task => .returned w task locals.arg }) pc rfl rfl rfl
    exact ⟨_, placed, moved_update here (.ret w locals a pc arg)⟩
  | del w locals pc =>
    exact none_moves (h.worker pc rfl rfl rfl (by simp) (by simp) (by simp))
  | sizeEmpty w pc | sizeMore w pc | leave w pc | again w pc =>
    exact none_moves (h.worker pc rfl rfl rfl (by simp) (by simp) (by simp))

omit [DecidableEq α] in
/-- Only a worker that comes back from a task reports it. -/
theorem Step.returned {act : Act n m τ δ α} (taken : Step s act t) {w : Fin n} {task : τ} {arg : Option α}
    (after : .returned w task arg ∈ t.log) : .returned w task arg ∈ s.log ∨
      ∃ locals, act = .ret w ∧ s.workers w = .running locals ∧ locals.arg = arg := by
  cases taken with
  | ret v locals pc =>
    rcases List.mem_append.mp after with before | now
    · exact .inl before
    · obtain ⟨_, _, same⟩ := List.mem_map.mp now
      cases same
      exact .inr ⟨locals, rfl, pc, rfl⟩
  | enqueue p mem job active pc =>
    rcases List.mem_append.mp after with before | now
    · exact .inl before
    · split at now <;> simp at now
  | _ => exact .inl (by simpa [shutdownSection] using after)

end Places

end NetCalc.Thread
