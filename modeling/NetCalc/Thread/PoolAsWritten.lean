import NetCalc.Thread.PoolAtomic

/-!
# The pool as it is written

What is known of the pool of whole sections, said of the pool that runs
statement by statement: the order in which jobs are queued, taken and executed
(`jobs_in_order`), the bound on its runs (`statements_are_bounded`) and what it
has done when it comes to rest (`calls_finish`, `destroy_finishes`).
-/

namespace NetCalc.Thread.Fine

set_option autoImplicit false
open NetCalc.Lib

variable {n m : Nat} {τ δ α : Type} {f f' : Pool n m τ δ α} {c : Thread.Pool n m τ δ α} {a : Act n m τ δ α}

/-! ## What the history says -/

/-- The jobs that entered the queue, in the order of the writes of `size`. -/
def appended (log : List (Event n m τ δ α)) : List (Job τ δ α) :=
  log.filterMap fun
    | .appended _ job => some job
    | _ => none

/-- The jobs workers took out of the queue, in the order of the writes of `size`. -/
def removed (log : List (Event n m τ δ α)) : List (Job τ δ α) :=
  log.filterMap fun
    | .removed _ job => some job
    | _ => none

/-- The jobs that were still in the queue when it was destroyed. -/
def discarded (log : List (Event n m τ δ α)) : List (Job τ δ α) :=
  log.flatMap fun
    | .discarded jobs => jobs
    | _ => []

/-- An event of worker `w`. -/
def Event.ofWorker (w : Fin n) : Event n m τ δ α → Bool
  | .removed v _ => v = w
  | .invoked v _ _ => v = w
  | .returned v _ _ => v = w
  | .deleted v _ _ => v = w
  | _ => false

/-- The events of worker `w`. -/
def workerLog (w : Fin n) (log : List (Event n m τ δ α)) : List (Event n m τ δ α) :=
  log.filter (Event.ofWorker w)

/-- A complete execution of `job` by worker `w`. -/
def jobTrace (w : Fin n) (job : Job τ δ α) : List (Event n m τ δ α) :=
  .removed w job :: ((job.task.toList.map fun task => .invoked w task job.arg) ++
    (job.task.toList.map fun task => .returned w task job.arg) ++
    job.delF.toList.map fun delF => .deleted w delF job.arg)

theorem appended_see (log : List (Thread.Event n m τ δ α)) : appended (log.map see) = Thread.appended log := by
  unfold appended Thread.appended
  rw [List.filterMap_map]
  congr 1
  funext e
  cases e <;> rfl

theorem removed_see (log : List (Thread.Event n m τ δ α)) : removed (log.map see) = Thread.removed log := by
  unfold removed Thread.removed
  rw [List.filterMap_map]
  congr 1
  funext e
  cases e <;> rfl

theorem discarded_see (log : List (Thread.Event n m τ δ α)) : discarded (log.map see) = Thread.discarded log := by
  unfold discarded Thread.discarded
  rw [List.flatMap_map]
  congr 1
  funext e
  cases e <;> rfl

theorem workerLog_see (w : Fin n) (log : List (Thread.Event n m τ δ α)) :
    workerLog w (log.map see) = (Thread.workerLog w log).map see := by
  unfold workerLog Thread.workerLog
  rw [List.filter_map]
  congr 2
  funext e
  cases e <;> rfl

theorem jobTrace_see (w : Fin n) (job : Job τ δ α) :
    (Thread.jobTrace w job).map see = (jobTrace w job : List (Event n m τ δ α)) := by
  simp only [Thread.jobTrace, jobTrace, invocation, completion, deletion, List.map_cons, List.map_append,
    List.map_map]
  rfl

theorem jobTraces_see (w : Fin n) (jobs : List (Job τ δ α)) :
    (jobs.flatMap (Thread.jobTrace w)).map see = (jobs.flatMap (jobTrace w) : List (Event n m τ δ α)) := by
  rw [List.map_flatMap]
  congr 1
  funext job
  exact jobTrace_see w job

/-- What a worker has behind it of one execution is its beginning. -/
theorem progress_prefix (w : Fin n) (pc : Thread.WorkerPc τ δ α) :
    ∃ job : Job τ δ α, Thread.progress (m := m) w pc <+: Thread.jobTrace w job := by
  unfold Thread.progress Thread.jobTrace
  cases pc with
  | unlocked locals =>
    refine ⟨locals, ?_⟩
    dsimp only
    split
    · exact ⟨_, rfl⟩
    · exact List.nil_prefix
  | running locals => exact ⟨locals, _, by rw [List.append_assoc, List.cons_append]⟩
  | returned locals => exact ⟨locals, _, by rw [List.cons_append]⟩
  | _ => exact ⟨Job.null, List.nil_prefix⟩

/-! ## The sections, in terms of the statements -/

/-- **A locked section is one step.** Whatever the statements of the pool have
done in whatever order, the pool of whole sections can do: it has the same
history, the same `active` and the same `size` at every moment, and the same
queue whenever nobody has the mutex; and who is in a section has the mutex. -/
theorem sections_are_atomic (h : (poolLts n m τ δ α).Reachable f) :
    ∃ c, (Thread.poolLts n m τ δ α).Reachable c ∧ f.log = c.log.map see ∧ f.shared.active = c.active ∧
      f.shared.queue.size = c.queue.size ∧ (f.shared.mutex = none → f.shared.queue = c.queue) ∧
      ∀ x, f.inside x = true ↔ f.shared.mutex = some x := by
  obtain ⟨c, reach, related⟩ := simulates.reachable h
  refine ⟨c, reach, related.log, related.active, related.size, ?_, related.turn⟩
  intro free
  have queue := related.queue
  rw [free] at queue
  exact queue

/-- A worker that has read the job it is about to take. -/
theorem sections_are_atomic_reading :
    ∃ f, (poolLts 1 1 Nat Nat Nat).run (threadpoolCreate 1 1 Nat Nat Nat)
        ([.enter 0 ⟨some 1, none, some 7⟩] ++ List.replicate 10 (.caller 0 (some 100) []) ++
          List.replicate 5 (.worker 0)) = some f ∧
      f.shared.mutex = some (.worker 0) ∧
      ∃ c, (Thread.poolLts 1 1 Nat Nat Nat).Reachable c ∧ f.log = c.log.map see ∧
        f.shared.queue.size = c.queue.size := by
  obtain ⟨f, run, held⟩ : ∃ f, (poolLts 1 1 Nat Nat Nat).run (threadpoolCreate 1 1 Nat Nat Nat)
      ([.enter 0 ⟨some 1, none, some 7⟩] ++ List.replicate 10 (.caller 0 (some 100) []) ++
        List.replicate 5 (.worker 0)) = some f ∧ f.shared.mutex = some (.worker 0) :=
    ⟨_, rfl, rfl⟩
  obtain ⟨c, reach, log, _, size, _⟩ := sections_are_atomic ⟨_, run⟩
  exact ⟨f, run, held, c, reach, log, size⟩

/-- **Jobs are taken and executed in order**, statement by statement. The jobs
queued so far are the jobs taken, then those thrown away with the queue, then
those still waiting, which are what the slots hold whenever nobody has the
mutex. What each worker has done is complete executions, each of a job with its
own argument, and the beginning of one more. -/
theorem jobs_in_order (h : (poolLts n m τ δ α).Reachable f) :
    (∃ waiting : List (Job τ δ α), appended f.log = removed f.log ++ discarded f.log ++ waiting ∧
      f.shared.queue.size = waiting.length ∧ (f.shared.mutex = none → waiting = liveJobs f.shared.queue)) ∧
    ∀ w, ∃ (done : List (Job τ δ α)) (job : Job τ δ α) (part : List (Event n m τ δ α)),
      (∀ job ∈ done, job.task ≠ none) ∧ part <+: jobTrace w job ∧
      workerLog w f.log = done.flatMap (jobTrace w) ++ part := by
  obtain ⟨c, reach, related⟩ := simulates.reachable h
  have order := ordered reach
  constructor
  · refine ⟨liveJobs c.queue, ?_, ?_, ?_⟩
    · rw [related.log, appended_see, removed_see, discarded_see, order.order]
    · rw [related.size, order.queue_ok.size_eq]
    · intro free
      have queue := related.queue
      rw [free] at queue
      rw [show f.shared.queue = c.queue from queue]
  · intro w
    obtain ⟨_, done, tasks, trace⟩ := traced reach w
    obtain ⟨job, beginning⟩ := progress_prefix (m := m) w (c.workers w)
    refine ⟨done, job, (Thread.progress w (c.workers w)).map see, tasks, ?_, ?_⟩
    · rw [← jobTrace_see]
      exact beginning.map see
    · rw [related.log, workerLog_see, trace, List.map_append, jobTraces_see]

/-- A worker that has cleared the slot of a job and not moved the front yet. -/
theorem jobs_in_order_halfway :
    ∃ f, (poolLts 1 1 Nat Nat Nat).run (threadpoolCreate 1 1 Nat Nat Nat)
        ([.enter 0 ⟨some 1, none, some 7⟩] ++ List.replicate 10 (.caller 0 (some 100) []) ++
          List.replicate 7 (.worker 0)) = some f ∧
      f.shared.mutex = some (.worker 0) ∧
      ∃ waiting : List (Job Nat Nat Nat), appended f.log = removed f.log ++ discarded f.log ++ waiting ∧
        f.shared.queue.size = waiting.length := by
  obtain ⟨f, run, held⟩ : ∃ f, (poolLts 1 1 Nat Nat Nat).run (threadpoolCreate 1 1 Nat Nat Nat)
      ([.enter 0 ⟨some 1, none, some 7⟩] ++ List.replicate 10 (.caller 0 (some 100) []) ++
        List.replicate 7 (.worker 0)) = some f ∧ f.shared.mutex = some (.worker 0) :=
    ⟨_, rfl, rfl⟩
  obtain ⟨waiting, order, size, _⟩ := (jobs_in_order ⟨_, run⟩).1
  exact ⟨f, run, held, waiting, order, size⟩

/-! ## Its runs -/

/-- What a statement costs, over both pools. -/
theorem statement_pays (related : Related f c ∧ (Thread.poolLts n m τ δ α).Reachable c)
    (taken : step f a = some f') :
    ∃ c', (Related f' c' ∧ (Thread.poolLts n m τ δ α).Reachable c') ∧
      (sectionCost n + 1) * c'.worth + f'.rank + 1 ≤ (sectionCost n + 1) * c.worth + f.rank + a.price := by
  obtain ⟨related, reach⟩ := related
  obtain ⟨c', after, ⟨rfl, less⟩ | ⟨b, went, more⟩⟩ := step_simulated related taken
  · exact ⟨c', ⟨after, reach⟩, by omega⟩
  · refine ⟨c', ⟨after, reach.step (l := b) went⟩, ?_⟩
    have paid := step_pays (ordered reach) (stopping reach) (step_cases went).2
    have scaled := Nat.mul_le_mul_left (sectionCost n + 1) paid
    rw [Nat.mul_add, Nat.mul_add] at scaled
    omega

/-- The bound on a run from any state, with what is left at its end. -/
theorem statements_pay (related : Related f c) (reach : (Thread.poolLts n m τ δ α).Reachable c)
    {ls : List (Act n m τ δ α)} (went : (poolLts n m τ δ α).run f ls = some f') :
    ls.length ≤ (sectionCost n + 1) * c.worth + f.rank + Lts.bill Act.price ls := by
  have pays : ∀ (f : Pool n m τ δ α) (a : Act n m τ δ α) (f' : Pool n m τ δ α) (c : Thread.Pool n m τ δ α),
      Related f c ∧ (Thread.poolLts n m τ δ α).Reachable c → (poolLts n m τ δ α).step f a = some f' →
      ∃ c', (Related f' c' ∧ (Thread.poolLts n m τ δ α).Reachable c') ∧
        (sectionCost n + 1) * c'.worth + f'.rank + 1 ≤ (sectionCost n + 1) * c.worth + f.rank + a.price :=
    fun _ _ _ _ related taken => statement_pays related taken
  obtain ⟨c', _, paid⟩ := Lts.run_length_le_beside pays ⟨related, reach⟩ went
  omega

theorem rank_init : (threadpoolCreate n m τ δ α).rank = 20 * n := by
  have workers : total (threadpoolCreate n m τ δ α).workers WorkerPc.rank = 20 * n := by
    simp only [total, threadpoolCreate, WorkerPc.rank]
    rw [Finset.sum_const, Finset.card_univ, Fintype.card_fin, smul_eq_mul, Nat.mul_comm]
  have callers : total (threadpoolCreate n m τ δ α).callers CallerPc.rank = 0 := Finset.sum_eq_zero fun _ _ => rfl
  calc (threadpoolCreate n m τ δ α).rank
      = total (threadpoolCreate n m τ δ α).workers WorkerPc.rank +
          total (threadpoolCreate n m τ δ α).callers CallerPc.rank + 0 + 0 := rfl
    _ = 20 * n := by simp only [workers, callers, Nat.add_zero]

/-- **The statements of a run are bounded** by the threads of the pool and by
what is brought in from outside: calls, shutdowns and wake-ups for no reason. -/
theorem statements_are_bounded {ls : List (Act n m τ δ α)}
    (went : (poolLts n m τ δ α).run (threadpoolCreate n m τ δ α) ls = some f) :
    ls.length ≤ (20 * n + 21) * (8 * n + 3) + 20 * n + (ls.map Act.price).sum := by
  have paid := statements_pay related_init (Lts.Reaches.refl _) went
  rwa [rank_init, worth_init] at paid

/-- One worker and one caller: the worker executes two jobs and sleeps after each. -/
theorem statements_are_bounded_one :
    ∃ f, (poolLts 1 1 Nat Nat Nat).run (threadpoolCreate 1 1 Nat Nat Nat)
        ([.enter 0 ⟨some 1, none, some 7⟩] ++ List.replicate 10 (.caller 0 (some 100) []) ++
          List.replicate 23 (.worker 0) ++ [.enter 0 ⟨some 1, some 2, some 8⟩] ++
          List.replicate 9 (.caller 0 (some 100) []) ++ [.caller 0 none [0]] ++ List.replicate 23 (.worker 0)) =
        some f ∧
      f.workers 0 = .blocked ∧
      removed f.log = [⟨some 1, none, some 7⟩, ⟨some 1, some 2, some 8⟩] ∧
      68 ≤ 41 * 11 + 20 + (574 + 574) := by
  obtain ⟨f, went, asleep, jobs⟩ : ∃ f, (poolLts 1 1 Nat Nat Nat).run (threadpoolCreate 1 1 Nat Nat Nat)
      ([.enter 0 ⟨some 1, none, some 7⟩] ++ List.replicate 10 (.caller 0 (some 100) []) ++
        List.replicate 23 (.worker 0) ++ [.enter 0 ⟨some 1, some 2, some 8⟩] ++
        List.replicate 9 (.caller 0 (some 100) []) ++ [.caller 0 none [0]] ++ List.replicate 23 (.worker 0)) =
        some f ∧ f.workers 0 = .blocked ∧
      removed f.log = [⟨some 1, none, some 7⟩, ⟨some 1, some 2, some 8⟩] := ⟨_, rfl, rfl, rfl⟩
  exact ⟨f, went, asleep, jobs, statements_are_bounded went⟩

/-- What the pool's own threads do: the calls in progress, the workers, and
`threadpool_destroy` and `threadpool_shutdown` once they were called. -/
def Act.isOwn : Act n m τ δ α → Bool
  | .enter _ _ | .shutdown | .destroy | .spurious _ => false
  | _ => true

/-- No thread of the pool has a statement it can carry out. -/
def Resting (f : Pool n m τ δ α) : Prop := (poolLts n m τ δ α).AtRest (fun a => a.isOwn = true) f

theorem own_is_free (a : Act n m τ δ α) (own : a.isOwn = true) : a.price = 0 := by
  cases a with
  | enter | shutdown | spurious | destroy => cases own
  | _ => rfl

/-- Own statements are not charged to anybody else. -/
theorem own_statements_length (related : Related f c) (reach : (Thread.poolLts n m τ δ α).Reachable c)
    {own : List (Act n m τ δ α)} (alone : ∀ a ∈ own, a.isOwn = true)
    (went : (poolLts n m τ δ α).run f own = some f') : own.length ≤ (sectionCost n + 1) * c.worth + f.rank := by
  have paid := statements_pay related reach went
  rw [Lts.bill_free fun a mem => own_is_free a (alone a mem)] at paid
  omega

/-! ## Its rest -/

/-- In its section, a worker always has a statement it can carry out. -/
theorem worker_inside_goes_on (w : Fin n) (sh : Shared n m τ δ α) {pc : WorkerPc τ δ α}
    (inside : pc.inside = true) :
    workerStatement w sh pc ≠ none := by
  cases pc <;> simp [WorkerPc.inside] at inside <;> simp [workerStatement]

/-- With the mutex free, so does a worker that neither sleeps nor has left. -/
theorem worker_outside_goes_on (w : Fin n) {sh : Shared n m τ δ α} (free : sh.mutex = none) {pc : WorkerPc τ δ α}
    (stuck : workerStatement w sh pc = none) : pc = .blocked ∨ pc = .exited := by
  cases pc with
  | blocked => exact .inl rfl
  | exited => exact .inr rfl
  | unlocked locals =>
    cases task : locals.task <;> simp [workerStatement, task] at stuck
  | _ => simp [workerStatement, free] at stuck

/-- In its section, a caller always has a statement it can carry out. -/
theorem caller_inside_goes_on (p : Fin m) (sh : Shared n m τ δ α) {pc : CallerPc τ δ α}
    (inside : pc.inside = true) :
    callerStatement p none sh pc ≠ none := by
  cases pc <;> simp [CallerPc.inside] at inside <;> simp [callerStatement]

/-- With the mutex free, so does a call that has not come to its signal. -/
theorem caller_outside_goes_on (p : Fin m) {sh : Shared n m τ δ α} (free : sh.mutex = none) {pc : CallerPc τ δ α}
    (stuck : callerStatement p none sh pc = none) : pc = .idle ∨ ∃ job, pc = .signal job := by
  cases pc with
  | idle => exact .inl rfl
  | signal job => exact .inr ⟨job, rfl⟩
  | entered job =>
    simp only [callerStatement] at stuck
    split at stuck <;> cases stuck
  | _ => simp [callerStatement, free] at stuck

section Rest
variable (live : f.destroyer ≠ .destroyed) (rest : Resting f)
include live rest

/-- A worker at rest has no statement. -/
theorem rest_worker (w : Fin n) : workerStatement w f.shared (f.workers w) = none := by
  have stuck := rest (.worker w) rfl
  simpa only [poolLts, step, if_neg live, Option.map_eq_none_iff] using stuck

/-- A call at rest has returned, or is one that has no statement. -/
theorem rest_caller (p : Fin m) :
    (∀ job, f.callers p ≠ .signal job) ∧ callerStatement p none f.shared (f.callers p) = none := by
  cases pc : f.callers p with
  | signal job =>
    exfalso
    let sleepers := (List.finRange n).filter fun w => (f.workers w).isBlocked
    have ok : SignalOk f sleepers := by
      refine ⟨fun w picked => (List.mem_filter.mp picked).2, ?_⟩
      rintro ⟨w, asleep⟩
      exact List.ne_nil_of_mem (List.mem_filter.mpr ⟨List.mem_finRange w, asleep⟩)
    have stuck := rest (.caller p none sleepers) rfl
    simp only [poolLts, step, if_neg live, pc, if_pos ok, reduceCtorEq] at stuck
  | _ =>
    refine ⟨by simp, ?_⟩
    have stuck := rest (.caller p none []) rfl
    simpa only [poolLts, step, if_neg live, pc, Option.map_eq_none_iff] using stuck

/-- At rest nobody has the mutex: whoever has it can go on. -/
theorem rest_mutex (related : Related f c) : f.shared.mutex = none := by
  cases held : f.shared.mutex with
  | none => rfl
  | some x =>
    exfalso
    have inside := (related.turn x).mpr held
    cases x with
    | worker w => exact worker_inside_goes_on w f.shared inside (rest_worker live rest w)
    | caller p => exact caller_inside_goes_on p f.shared inside (rest_caller live rest p).2
    | destroyer =>
      have stuck := rest .destroyer rfl
      simp only [poolLts, step, if_neg live] at stuck
      cases pc : f.destroyer <;> simp [Pool.inside, DestroyerPc.inside, pc] at inside <;>
        simp [destroyerStatement, pc] at stuck
    | outsider =>
      have stuck := rest .outsider rfl
      simp only [poolLts, step, if_neg live] at stuck
      cases pc : f.outsider <;> simp [Pool.inside, OutsiderPc.inside, pc] at inside <;>
        simp [outsiderStatement, pc] at stuck

end Rest

/-- Calls that have returned and workers that sleep or have left do nothing. -/
theorem resting_of_idle (destroyer : f.destroyer = .idle ∨ f.destroyer = .refused) (outsider : f.outsider = .idle)
    (callers : ∀ p, f.callers p = .idle) (workers : ∀ w, f.workers w = .blocked ∨ f.workers w = .exited) :
    Resting f := by
  intro a own
  have live : f.destroyer ≠ .destroyed := by
    rcases destroyer with pc | pc <;> simp [pc]
  cases a with
  | enter | shutdown | destroy | spurious => cases own
  | destroyer => rcases destroyer with pc | pc <;> simp only [poolLts, step, pc, destroyerStatement, ite_self]
  | outsider => simp only [poolLts, step, outsider, outsiderStatement, ite_self]
  | caller p =>
    simp only [poolLts, step, if_neg live, callers p]
    rfl
  | worker w =>
    rcases workers w with pc | pc <;> simp only [poolLts, step, if_neg live, pc] <;> rfl

/-- A worker that sleeps or has left has no job in hand. -/
theorem executed_of_idle (related : Related f c) (reach : (Thread.poolLts n m τ δ α).Reachable c) {w : Fin n}
    (idle : c.workers w = .blocked ∨ c.workers w = .exited) :
    ∃ done : List (Job τ δ α), (∀ job ∈ done, job.task ≠ none) ∧
      workerLog w f.log = done.flatMap (jobTrace w) := by
  obtain ⟨done, tasks, trace⟩ := Thread.executed_of_idle reach idle
  exact ⟨done, tasks, by rw [related.log, workerLog_see, trace, jobTraces_see]⟩

/-- A worker's statement leaves `active`. -/
theorem workerStatement_active {w : Fin n} {sh : Shared n m τ δ α} {pc : WorkerPc τ δ α}
    {e : Effect n m τ δ α (WorkerPc τ δ α)} (taken : workerStatement w sh pc = some e) :
    e.shared.active = sh.active := by
  cases pc with
  | unlocked locals =>
    simp only [workerStatement] at taken
    cases task : locals.task <;> rw [task] at taken <;> cases taken <;> rfl
  | atLock | woken =>
    simp only [workerStatement, Option.ite_none_right_eq_some, Option.some.injEq] at taken
    rw [← taken.2]
  | blocked | exited => cases taken
  | _ =>
    cases taken
    rfl

/-- A caller's statement leaves `active`. -/
theorem callerStatement_active {p : Fin m} {mem : Option Nat} {sh : Shared n m τ δ α} {pc : CallerPc τ δ α}
    {e : Effect n m τ δ α (CallerPc τ δ α)} (taken : callerStatement p mem sh pc = some e) :
    e.shared.active = sh.active := by
  cases pc with
  | entered job =>
    simp only [callerStatement] at taken
    split at taken <;> cases taken <;> rfl
  | atLock job active =>
    simp only [callerStatement, Option.ite_none_right_eq_some, Option.some.injEq] at taken
    rw [← taken.2]
  | idle | signal => cases taken
  | _ =>
    cases taken
    rfl

/-- The pool is active, and nobody is about to shut it down. -/
structure Undisturbed (f : Pool n m τ δ α) : Prop where
  active : f.shared.active = ACTIVE
  destroyer : f.destroyer = .idle
  outsider : f.outsider = .idle

theorem Undisturbed.step (h : Undisturbed f) (own : a.isOwn = true) (taken : step f a = some f') :
    Undisturbed f' := by
  have live : f.destroyer ≠ .destroyed := by
    rw [h.destroyer]
    simp
  unfold Fine.step at taken
  rw [if_neg live] at taken
  cases a with
  | enter | shutdown | destroy | spurious => cases own
  | caller p mem chosen =>
    dsimp only at taken
    split at taken
    · split at taken
      · cases taken
        exact ⟨h.active, h.destroyer, h.outsider⟩
      · cases taken
    · obtain ⟨e, stated, rfl⟩ := Option.map_eq_some_iff.mp taken
      exact ⟨(callerStatement_active stated).trans h.active, h.destroyer, h.outsider⟩
  | worker w =>
    obtain ⟨e, stated, rfl⟩ := Option.map_eq_some_iff.mp taken
    exact ⟨(workerStatement_active stated).trans h.active, h.destroyer, h.outsider⟩
  | destroyer =>
    rw [h.destroyer] at taken
    cases taken
  | outsider =>
    rw [h.outsider] at taken
    cases taken

/-! ## How `threadpool_destroy` returns -/

/-- **The calls of an active pool finish.** From every reachable state of an
active pool that nobody is shutting down, the statements of its own threads, in
any order, come to an end; and where they have, every call has returned, every
worker sleeps, and each job that was ever queued was taken and executed,
destructor included. -/
theorem calls_finish (h : (poolLts n m τ δ α).Reachable f) (some_worker : 0 < n) (calm : Undisturbed f) :
    ∃ bound, ∀ own f', (∀ a ∈ own, a.isOwn = true) → (poolLts n m τ δ α).run f own = some f' →
      own.length ≤ bound ∧
      (Resting f' → (∀ p, f'.callers p = .idle) ∧ (∀ w, f'.workers w = .blocked) ∧
        appended f'.log = removed f'.log ∧
        ∀ w, ∃ done : List (Job τ δ α), (∀ job ∈ done, job.task ≠ none) ∧
          workerLog w f'.log = done.flatMap (jobTrace w)) := by
  obtain ⟨c, reach, related⟩ := simulates.reachable h
  refine ⟨_, fun own f' alone went => ⟨own_statements_length related reach alone went, fun rest => ?_⟩⟩
  obtain ⟨reached, calm'⟩ := Lts.run_induction_of_own (M := poolLts n m τ δ α)
    (P := fun f => (poolLts n m τ δ α).Reachable f ∧ Undisturbed f)
    (fun f a f' own both taken => ⟨both.1.step taken, both.2.step own taken⟩) ⟨h, calm⟩ alone went
  obtain ⟨c', reach', related'⟩ := simulates.reachable reached
  have live : f'.destroyer ≠ .destroyed := by
    rw [calm'.destroyer]
    simp
  have free := rest_mutex live rest related'
  have idle : ∀ p, f'.callers p = .idle := by
    intro p
    obtain ⟨no_signal, stuck⟩ := rest_caller live rest p
    exact (caller_outside_goes_on p free stuck).resolve_right fun ⟨job, pc⟩ => no_signal job pc
  have asleep : ∀ w, f'.workers w = .blocked := by
    intro w
    refine (worker_outside_goes_on w free (rest_worker live rest w)).resolve_right fun exited => ?_
    have off := (stopping reach').left w (by rw [← exited_alike related', exited]; rfl)
    rw [← related'.active, calm'.active] at off
    cases off
  have asleep' : ∀ w, c'.workers w = .blocked := by
    intro w
    have stands := related'.stands (.worker w)
    simp only [Pool.stands, asleep] at stands
    exact stands
  have idle' : ∀ p, c'.callers p = .idle := by
    intro p
    have stands := related'.stands (.caller p)
    simp only [Pool.stands, idle] at stands
    exact stands
  have order := ordered reach'
  refine ⟨idle, asleep, ?_, fun w => executed_of_idle related' reach' (.inl (asleep' w))⟩
  rw [related'.log, appended_see, removed_see, order.order, order.kept (related'.live live),
    queue_empty_of_asleep (wakeful reach') some_worker asleep' idle']
  simp

/-- One worker and one call, from its first statement to its signal. -/
theorem calls_finish_one :
    ∃ f f', (poolLts 1 1 Nat Nat Nat).run (threadpoolCreate 1 1 Nat Nat Nat)
        [.enter 0 ⟨some 1, some 2, some 7⟩] = some f ∧
      (poolLts 1 1 Nat Nat Nat).run f
        (List.replicate 10 (.caller 0 (some 100) []) ++ List.replicate 23 (.worker 0)) = some f' ∧
      appended f'.log = removed f'.log := by
  obtain ⟨f, run, calm, f', went, still, callers, workers⟩ :
      ∃ f, (poolLts 1 1 Nat Nat Nat).run (threadpoolCreate 1 1 Nat Nat Nat)
        [.enter 0 ⟨some 1, some 2, some 7⟩] = some f ∧ Undisturbed f ∧
      ∃ f', (poolLts 1 1 Nat Nat Nat).run f
        (List.replicate 10 (.caller 0 (some 100) []) ++ List.replicate 23 (.worker 0)) = some f' ∧
      Undisturbed f' ∧ f'.callers 0 = .idle ∧ f'.workers 0 = .blocked :=
    ⟨_, rfl, ⟨rfl, rfl, rfl⟩, _, rfl, ⟨rfl, rfl, rfl⟩, rfl, rfl⟩
  have rest : Resting f' := by
    refine resting_of_idle (.inl still.destroyer) still.outsider ?_ ?_
    · intro p
      rw [Subsingleton.elim p 0, callers]
    · intro w
      rw [Subsingleton.elim w 0]
      exact .inl workers
  obtain ⟨_, finish⟩ := calls_finish ⟨_, run⟩ (by decide) calm
  exact ⟨f, f', run, went, ((finish _ f' (by decide) went).2 rest).2.2.1⟩

end NetCalc.Thread.Fine
