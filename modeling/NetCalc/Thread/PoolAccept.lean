import NetCalc.Thread.PoolHistory

/-!
# What an answer of `threadpool_add_job` means

A call is answered in one of two ways (`AddJobCall.Kind`): its test refused
it, with `ERROR` and no effect, or it went through the locked section and
answers what the unlock and the signal said, whatever `queue_enqueue` did with
the job. `accepted_iff_appended` says when the answer tells the truth.
-/

namespace NetCalc.Thread

set_option autoImplicit false
open NetCalc.Lib

variable {n m : Nat} {τ δ α : Type} {s t : Pool n m τ δ α} {a : Act n m τ δ α} {call : AddJobCall τ δ α}

/-- A call that went through the locked section. -/
structure AddJobCall.Entered (call : AddJobCall τ δ α) : Prop where
  queue_ok : QueueOk MAX_JOBS call.before
  task : call.job.task ≠ none
  active : call.active ≠ INACTIVE
  after : call.after = (queueEnqueue call.before call.mem call.job.task call.job.delF call.job.arg).2
  err : call.err = SUCCESS

/-- A call that its test refused. -/
structure AddJobCall.Refused (call : AddJobCall τ δ α) : Prop where
  why : call.job.task = none ∨ call.active = INACTIVE
  after : call.after = call.before
  err : call.err = ERROR

/-- The two ways to answer. -/
def AddJobCall.Kind (call : AddJobCall τ δ α) : Prop := call.Refused ∨ call.Entered

/-- Calls past their locked section, and answered calls, are of the two kinds. -/
structure Answers (s : Pool n m τ δ α) : Prop where
  pending : ∀ p call, s.callers p = .unlocked call → call.Entered
  answered : ∀ p call, Event.answered p call ∈ s.log → call.Kind

theorem answers_init : Answers (threadpoolCreate n m τ δ α) where
  pending := by
    intro p call pc
    cases pc
  answered := by
    intro p call member
    cases member

/-- A step that keeps the callers and answers no call. -/
theorem Answers.frame (h : Answers s) (callers : t.callers = s.callers) {more : List (Event n m τ δ α)}
    (log : t.log = s.log ++ more) (quiet : ∀ p call, Event.answered p call ∉ more) : Answers t where
  pending := by
    rw [callers]
    exact h.pending
  answered := by
    intro p call member
    rw [log, List.mem_append] at member
    rcases member with old | new
    · exact h.answered p call old
    · exact absurd new (quiet p call)

/-- A step that logs nothing. -/
theorem Answers.silent (h : Answers s) (callers : t.callers = s.callers) (log : t.log = s.log) :
    Answers t :=
  have same : t.log = s.log ++ [] := by rw [log, List.append_nil]
  h.frame callers same (by simp)

/-- A caller moves, and what it answers is of the two kinds. -/
theorem Answers.caller (h : Answers s) {p : Fin m} {pc : CallerPc τ δ α}
    (callers : t.callers = Function.update s.callers p pc) {more : List (Event n m τ δ α)}
    (log : t.log = s.log ++ more) (entered : ∀ call, pc = .unlocked call → call.Entered)
    (kinds : ∀ q call, Event.answered q call ∈ more → call.Kind) : Answers t where
  pending := by
    intro q call past
    rw [callers] at past
    by_cases same : q = p
    · subst same
      rw [Function.update_self] at past
      exact entered call past
    · rw [Function.update_of_ne same] at past
      exact h.pending q call past
  answered := by
    intro q call member
    rw [log, List.mem_append] at member
    rcases member with old | new
    · exact h.answered q call old
    · exact kinds q call new

/-- A caller moves on silently. -/
theorem Answers.moves (h : Answers s) {p : Fin m} {pc : CallerPc τ δ α}
    (callers : t.callers = Function.update s.callers p pc) (log : t.log = s.log)
    (inside : ∀ call, pc ≠ .unlocked call) : Answers t :=
  have same : t.log = s.log ++ [] := by rw [log, List.append_nil]
  h.caller callers same (fun call past => absurd past (inside call)) (by simp)

theorem Answers.step (h : Answers s) (order : Ordered s) (tasks : Sound s) (taken : Step s a t) :
    Answers t := by
  cases taken with
  | enter p job pc => exact h.moves (p := p) rfl rfl (by simp)
  | reject p job pc refused =>
    refine h.caller (p := p) rfl rfl (by simp) ?_
    intro q call member
    obtain ⟨_, rfl⟩ : q = p ∧ call = ⟨job, s.active, none, s.queue, s.queue, ERROR⟩ := by
      simpa using member
    exact .inl ⟨refused, rfl, rfl⟩
  | proceed p job pc task active => exact h.moves (p := p) rfl rfl (by simp)
  | enqueue p mem job active pc =>
    refine h.caller (p := p) rfl rfl ?_ ?_
    · intro call past
      cases past
      obtain ⟨task, on⟩ := tasks.tested p job active pc
      exact ⟨order.queue_ok, task, on, rfl, rfl⟩
    · intro q call member
      split at member <;> simp at member
  | signal p chosen call pc ok =>
    refine h.caller (p := p) rfl rfl (by simp) ?_
    intro q other member
    obtain ⟨_, rfl⟩ : q = p ∧ other = call := by simpa using member
    exact .inr (h.pending p other pc)
  | shutdown => exact h.frame rfl rfl (by simp)
  | destroy => exact h.frame rfl rfl (by simp)
  | broadcast => exact h.silent rfl rfl
  | join => exact h.silent rfl rfl
  | release => exact h.frame rfl rfl (by simp)
  | wait => exact h.silent rfl rfl
  | take => exact h.frame rfl rfl (by simp)
  | spurious => exact h.silent rfl rfl
  | skip => exact h.silent rfl rfl
  | invoke => exact h.frame rfl rfl (by simp)
  | ret => exact h.frame rfl rfl (by simp)
  | del => exact h.frame rfl rfl (by simp)
  | sizeEmpty => exact h.silent rfl rfl
  | sizeMore => exact h.silent rfl rfl
  | leave => exact h.silent rfl rfl
  | again => exact h.silent rfl rfl

theorem answers (h : (poolLts n m τ δ α).Reachable s) : Answers s :=
  Lts.reachable_induction_with (Q := fun s => Ordered s ∧ Sound s)
    (fun _ reach => ⟨ordered reach, sound reach⟩) answers_init
    (fun _ _ _ known inv taken => inv.step known.1 known.2 (step_cases taken).2) h

/-! ## Truthful answers -/

/-- The answer tells whether the job is now the last of the queue, and any
answer but `SUCCESS` that nothing changed. -/
def AddJobCall.Truthful (call : AddJobCall τ δ α) : Prop :=
  (call.err = SUCCESS ↔ liveJobs call.after = liveJobs call.before ++ [call.job]) ∧
    (call.err ≠ SUCCESS → call.after = call.before)

/-- The queue has room, the argument is not `NULL` and the node was allocated. -/
def AddJobCall.Storable (call : AddJobCall τ δ α) : Prop :=
  (liveJobs call.before).length < MAX_JOBS ∧ call.job.arg ≠ none ∧ call.mem ≠ none

/-- A refusal is truthful. -/
theorem AddJobCall.Refused.truthful (h : call.Refused) : call.Truthful := by
  refine ⟨?_, fun _ => h.after⟩
  rw [h.err, h.after]
  constructor
  · intro same
    cases same
  · intro longer
    simp at longer

/-- The locked section appends exactly what can be stored. -/
theorem AddJobCall.Entered.appends_iff (h : call.Entered) :
    liveJobs call.after = liveJobs call.before ++ [call.job] ↔ call.Storable := by
  rw [h.after]
  rcases h.queue_ok.enqueue_cases call.mem call.job with ⟨same, why⟩ | ⟨_, jobs, why⟩
  · rw [same]
    constructor
    · intro longer
      simp at longer
    · rintro ⟨room, arg, mem⟩
      rcases why with full | null | failed
      · omega
      · exact absurd null arg
      · exact absurd failed mem
  · exact iff_of_true jobs why

theorem AddJobCall.Entered.truthful_iff (h : call.Entered) : call.Truthful ↔ call.Storable := by
  rw [← h.appends_iff]
  constructor
  · exact fun truth => truth.1.mp h.err
  · exact fun appends => ⟨⟨fun _ => appends, fun _ => h.err⟩, fun failed => absurd h.err failed⟩

/-- **An answered call told the truth exactly when it found the pool inactive,
or found room for a job whose argument is not `NULL` and got a node for it.** -/
theorem accepted_iff_appended (h : (poolLts n m τ δ α).Reachable s) {p : Fin m}
    (answered : Event.answered p call ∈ s.log) (task : call.job.task ≠ none) :
    call.Truthful ↔ (call.active = INACTIVE ∨ call.Storable) := by
  rcases (answers h).answered p call answered with refused | entered
  · refine iff_of_true refused.truthful (.inl ?_)
    rcases refused.why with null | inactive
    · exact absurd null task
    · exact inactive
  · rw [entered.truthful_iff]
    constructor
    · exact .inr
    · rintro (inactive | storable)
      · exact absurd inactive entered.active
      · exact storable

/-- A job stored in an empty queue, and the call says so. -/
theorem accepted_iff_appended_first :
    ∃ s call, (poolLts 1 1 Nat Nat Nat).run (threadpoolCreate 1 1 Nat Nat Nat)
        [.enter 0 ⟨some 1, none, some 7⟩, .test 0, .enqueue 0 (some 100), .signal 0 []] = some s ∧
      Event.answered 0 call ∈ s.log ∧ call.job.task ≠ none ∧ call.err = SUCCESS ∧ call.Truthful := by
  let call : AddJobCall Nat Nat Nat := ⟨⟨some 1, none, some 7⟩, ACTIVE, some 100, emptyQueue,
    (queueEnqueue emptyQueue (some 100) (some 1) none (some 7)).2, SUCCESS⟩
  obtain ⟨s, run, log⟩ : ∃ s, (poolLts 1 1 Nat Nat Nat).run (threadpoolCreate 1 1 Nat Nat Nat)
      [.enter 0 ⟨some 1, none, some 7⟩, .test 0, .enqueue 0 (some 100), .signal 0 []] = some s ∧
      s.log = [.appended 0 ⟨some 1, none, some 7⟩, .answered 0 call] := ⟨_, rfl, rfl⟩
  have answered : Event.answered 0 call ∈ s.log := by
    rw [log]
    simp
  have task : call.job.task ≠ none := by decide
  have storable : call.Storable := by
    refine ⟨?_, by decide, by decide⟩
    rw [emptyQueue_jobs]
    decide
  exact ⟨s, call, run, answered, task, rfl, (accepted_iff_appended ⟨_, run⟩ answered task).mpr (.inr storable)⟩

/-- A call with a `NULL` argument is answered `SUCCESS`, and its job is not
stored. -/
theorem null_argument_accepted_not_appended :
    ∃ s call, (poolLts 1 1 Nat Nat Nat).run (threadpoolCreate 1 1 Nat Nat Nat)
        [.enter 0 ⟨some 1, none, none⟩, .test 0, .enqueue 0 (some 100), .signal 0 []] = some s ∧
      Event.answered 0 call ∈ s.log ∧ call.job = ⟨some 1, none, none⟩ ∧ call.err = SUCCESS ∧
      liveJobs s.queue = [] ∧ ¬call.Truthful := by
  refine ⟨_, ⟨⟨some 1, none, none⟩, ACTIVE, some 100, emptyQueue, emptyQueue, SUCCESS⟩, rfl,
    List.mem_cons_self, rfl, rfl, emptyQueue_jobs, ?_⟩
  intro truth
  have stored := truth.1.mp rfl
  rw [emptyQueue_jobs] at stored
  cases stored

end NetCalc.Thread
