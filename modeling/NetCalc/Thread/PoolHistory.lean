import NetCalc.Thread.Pool

/-!
# What the pool's history says

Two invariants of every reachable pool:

* `Ordered`: the jobs appended so far are the jobs removed, then the jobs
  `threadpool_destroy` discarded, then the jobs still in the queue, in this
  order;
* `Traced`: the events of each worker are complete executions, one after the
  other, followed by as much of one more as its program counter says.

Together they are `jobs_run_once_in_order`.
-/

namespace NetCalc.Thread

set_option autoImplicit false
open NetCalc.Lib

section Projections
variable {n m : Nat} {τ δ α : Type}

/-- The jobs that entered the queue, in mutex order. -/
def appended (log : List (Event n m τ δ α)) : List (Job τ δ α) :=
  log.filterMap fun
    | .appended _ job => some job
    | _ => none

/-- The jobs workers took out of the queue, in mutex order. -/
def removed (log : List (Event n m τ δ α)) : List (Job τ δ α) :=
  log.filterMap fun
    | .removed _ job => some job
    | _ => none

/-- The jobs that were still in the queue when it was destroyed. -/
def discarded (log : List (Event n m τ δ α)) : List (Job τ δ α) :=
  log.flatMap fun
    | .discarded jobs => jobs
    | _ => []

/-- An event of worker `w`. -/
def Event.ofWorker (w : Fin n) : Event n m τ δ α → Bool
  | .removed v _ => v = w
  | .invoked v _ _ => v = w
  | .returned v _ _ => v = w
  | .deleted v _ _ => v = w
  | _ => false

/-- The events of worker `w`. -/
def workerLog (w : Fin n) (log : List (Event n m τ δ α)) : List (Event n m τ δ α) :=
  log.filter (Event.ofWorker w)

@[simp] theorem appended_append (log more : List (Event n m τ δ α)) :
    appended (log ++ more) = appended log ++ appended more := List.filterMap_append

@[simp] theorem removed_append (log more : List (Event n m τ δ α)) :
    removed (log ++ more) = removed log ++ removed more := List.filterMap_append

@[simp] theorem discarded_append (log more : List (Event n m τ δ α)) :
    discarded (log ++ more) = discarded log ++ discarded more := List.flatMap_append

@[simp] theorem workerLog_append (w : Fin n) (log more : List (Event n m τ δ α)) :
    workerLog w (log ++ more) = workerLog w log ++ workerLog w more := List.filter_append ..

/-- Events that are neither insertions nor removals nor discards. -/
theorem not_queue_events {more : List (Event n m τ δ α)}
    (h : ∀ e ∈ more, (∃ p call, e = .answered p call) ∨ e = .inactive ∨
      (∃ w task arg, e = .invoked w task arg) ∨ (∃ w task arg, e = .returned w task arg) ∨
      ∃ w delF arg, e = .deleted w delF arg) :
    appended more = [] ∧ removed more = [] ∧ discarded more = [] := by
  induction more with
  | nil => exact ⟨rfl, rfl, rfl⟩
  | cons e more ih =>
    obtain ⟨ha, hr, hd⟩ := ih fun e he => h e (List.mem_cons_of_mem _ he)
    have here := h e List.mem_cons_self
    refine ⟨?_, ?_, ?_⟩
    · rcases here with ⟨_, _, rfl⟩ | rfl | ⟨_, _, _, rfl⟩ | ⟨_, _, _, rfl⟩ | ⟨_, _, _, rfl⟩ <;> exact ha
    · rcases here with ⟨_, _, rfl⟩ | rfl | ⟨_, _, _, rfl⟩ | ⟨_, _, _, rfl⟩ | ⟨_, _, _, rfl⟩ <;> exact hr
    · rcases here with ⟨_, _, rfl⟩ | rfl | ⟨_, _, _, rfl⟩ | ⟨_, _, _, rfl⟩ | ⟨_, _, _, rfl⟩ <;> exact hd

end Projections

/-! ## The two locked sections on the queue -/

section Sections
variable {n m : Nat} {τ δ α : Type} {s : Pool n m τ δ α}

/-- A worker that finds no job leaves the queue and takes locals that are `NULL`. -/
theorem take_nothing (ok : QueueOk MAX_JOBS s.queue) (idle : liveJobs s.queue = []) :
    queueDequeue s.queue Job.null = ⟨ERROR, Job.null, s.queue, []⟩ :=
  ok.dequeue_empty idle Job.null

/-- A worker that finds jobs takes the first and logs its removal. -/
theorem take_first (ok : QueueOk MAX_JOBS s.queue) {job : Job τ δ α} {rest : List (Job τ δ α)}
    (first : liveJobs s.queue = job :: rest) (w : Fin n) :
    QueueOk MAX_JOBS (queueDequeue s.queue Job.null).queue ∧
    (queueDequeue s.queue Job.null).out = job ∧
    liveJobs (queueDequeue s.queue Job.null).queue = rest ∧
    ((queueDequeue s.queue Job.null).freed.map fun node => Event.removed (m := m) w node.job) =
      [.removed w job] := by
  obtain ⟨after, out, freed, left⟩ := ok.dequeue_cons first Job.null
  refine ⟨after, out, left, ?_⟩
  calc (queueDequeue s.queue Job.null).freed.map (fun node => Event.removed (m := m) w node.job)
      = ((queueDequeue s.queue Job.null).freed.map Node.job).map (Event.removed w) := by
        rw [List.map_map]; rfl
    _ = [.removed w job] := by rw [freed]; rfl

/-- A caller's section is refused, and then nothing changes, or stores its job. -/
theorem enqueueSection_cases (ok : QueueOk MAX_JOBS s.queue) (mem : Option Nat) (job : Job τ δ α)
    (active : Int) :
    let call : AddJobCall τ δ α :=
      ⟨job, active, mem, s.queue, (queueEnqueue s.queue mem job.task job.delF job.arg).2, SUCCESS⟩
    (call.after = s.queue ∧ call.stored = false ∧
      ((liveJobs s.queue).length = MAX_JOBS ∨ job.arg = none ∨ mem = none)) ∨
    (QueueOk MAX_JOBS call.after ∧ liveJobs call.after = liveJobs s.queue ++ [job] ∧
      call.stored = true ∧ (liveJobs s.queue).length < MAX_JOBS ∧ job.arg ≠ none ∧ mem ≠ none) := by
  intro call
  rcases ok.enqueue_cases mem job with ⟨same, refused⟩ | ⟨after, jobs, why⟩
  · refine .inl ⟨same, ?_, refused⟩
    simp [AddJobCall.stored, call, same]
  · refine .inr ⟨after, jobs, ?_, why⟩
    have grown := after.size_eq
    rw [jobs, List.length_append, List.length_singleton] at grown
    simp only [AddJobCall.stored, call, grown, ok.size_eq]
    simp

end Sections

/-! ## First in, first out -/

section Order
variable {n m : Nat} {τ δ α : Type} {s t : Pool n m τ δ α}

/-- The queue holds what was appended and neither removed nor discarded. -/
structure Ordered (s : Pool n m τ δ α) : Prop where
  queue_ok : QueueOk MAX_JOBS s.queue
  order : appended s.log = removed s.log ++ discarded s.log ++ liveJobs s.queue
  kept : s.destroyer ≠ .destroyed → discarded s.log = []

theorem ordered_init : Ordered (threadpoolCreate n m τ δ α) where
  queue_ok := emptyQueue_ok
  order := by
    show [] = [] ++ [] ++ liveJobs emptyQueue
    rw [emptyQueue_jobs]
    rfl
  kept := fun _ => rfl

/-- A step that leaves the queue and logs no movement of jobs. -/
theorem Ordered.still (h : Ordered s) (queue : t.queue = s.queue) {more : List (Event n m τ δ α)}
    (log : t.log = s.log ++ more) (quiet : appended more = [] ∧ removed more = [] ∧ discarded more = [])
    (live : s.destroyer ≠ .destroyed) : Ordered t where
  queue_ok := by rw [queue]; exact h.queue_ok
  order := by
    obtain ⟨ha, hr, hd⟩ := quiet
    rw [log, queue, appended_append, removed_append, discarded_append, ha, hr, hd, h.order]
    simp
  kept := by
    intro _
    rw [log, discarded_append, h.kept live, quiet.2.2]
    rfl

/-- The same for a step that logs nothing. -/
theorem Ordered.silent (h : Ordered s) (queue : t.queue = s.queue) (log : t.log = s.log)
    (live : s.destroyer ≠ .destroyed) : Ordered t := by
  have nothing : t.log = s.log ++ [] := by rw [log, List.append_nil]
  exact h.still queue nothing ⟨rfl, rfl, rfl⟩ live

theorem Ordered.step {a : Act n m τ δ α} (h : Ordered s) (live : s.destroyer ≠ .destroyed)
    (taken : Step s a t) : Ordered t := by
  cases taken with
  | enter => exact h.silent rfl rfl live
  | reject => exact h.still rfl rfl (not_queue_events (by simp)) live
  | proceed => exact h.silent rfl rfl live
  | enqueue p mem job active pc =>
    rcases enqueueSection_cases h.queue_ok mem job active with
      ⟨same, refused, _⟩ | ⟨ok, jobs, stored, _⟩
    · refine h.silent same ?_ live
      simp only [enqueueSection, refused]
      exact List.append_nil _
    · have log : (enqueueSection s p mem job active).log = s.log ++ [.appended p job] := by
        simp only [enqueueSection, stored]
        rfl
      have lost := h.kept live
      exact
        { queue_ok := ok
          order := by
            have queue : liveJobs (enqueueSection s p mem job active).queue = liveJobs s.queue ++ [job] := jobs
            rw [log, queue, appended_append, removed_append, discarded_append, h.order, lost]
            simp [appended, removed, discarded]
          kept := fun _ => by rw [log, discarded_append, lost]; rfl }
  | signal => exact h.still rfl rfl (not_queue_events (by simp)) live
  | shutdown => exact h.still rfl rfl (not_queue_events (by simp)) live
  | destroy => exact h.still rfl rfl (not_queue_events (by simp)) live
  | broadcast => exact h.silent rfl rfl live
  | join => exact h.silent rfl rfl live
  | release pc =>
    obtain ⟨ok, none_left⟩ := h.queue_ok.clear
    exact
      { queue_ok := ok
        order := by
          simp only [none_left, appended_append, removed_append, discarded_append, h.order, h.kept live]
          simp [appended, removed, discarded]
        kept := fun alive => absurd rfl alive }
  | wait => exact h.silent rfl rfl live
  | take w pc go =>
    cases jobs : liveJobs s.queue with
    | nil =>
      rw [take_nothing h.queue_ok jobs]
      exact h.silent rfl (List.append_nil _) live
    | cons job rest =>
      obtain ⟨ok, _, left, log⟩ := take_first (m := m) h.queue_ok jobs w
      rw [log]
      have lost := h.kept live
      exact
        { queue_ok := ok
          order := by
            simp only [left, appended_append, removed_append, discarded_append, h.order, jobs, lost]
            simp [appended, removed, discarded]
          kept := fun _ => by simp only [discarded_append, lost]; rfl }
  | spurious => exact h.silent rfl rfl live
  | skip => exact h.silent rfl rfl live
  | invoke => exact h.still rfl rfl (not_queue_events (by simp)) live
  | ret => exact h.still rfl rfl (not_queue_events (by simp)) live
  | del => exact h.still rfl rfl (not_queue_events (by simp)) live
  | sizeEmpty => exact h.silent rfl rfl live
  | sizeMore => exact h.silent rfl rfl live
  | leave => exact h.silent rfl rfl live
  | again => exact h.silent rfl rfl live

theorem ordered (h : (poolLts n m τ δ α).Reachable s) : Ordered s :=
  Lts.reachable_induction ordered_init
    (fun _ _ _ inv taken => inv.step (step_cases taken).1 (step_cases taken).2) h

end Order

/-! ## One execution after the other -/

section Traces
variable {n m : Nat} {τ δ α : Type} {s t : Pool n m τ δ α}

/-- The task of `job` starts. -/
def invocation (w : Fin n) (job : Job τ δ α) : List (Event n m τ δ α) :=
  job.task.toList.map fun task => .invoked w task job.arg

/-- The task of `job` returns. -/
def completion (w : Fin n) (job : Job τ δ α) : List (Event n m τ δ α) :=
  job.task.toList.map fun task => .returned w task job.arg

/-- The destructor of `job`, if it has one, is called. -/
def deletion (w : Fin n) (job : Job τ δ α) : List (Event n m τ δ α) :=
  job.delF.toList.map fun delF => .deleted w delF job.arg

/-- A complete execution of `job` by worker `w`. -/
def jobTrace (w : Fin n) (job : Job τ δ α) : List (Event n m τ δ α) :=
  .removed w job :: (invocation w job ++ completion w job ++ deletion w job)

/-- How much of an execution a worker has behind it. -/
def progress (w : Fin n) : WorkerPc τ δ α → List (Event n m τ δ α)
  | .unlocked locals => if locals.task.isSome then [.removed w locals] else []
  | .running locals => .removed w locals :: invocation w locals
  | .returned locals => .removed w locals :: (invocation w locals ++ completion w locals)
  | _ => []

/-- A task that runs is not `NULL`. -/
def WorkerPc.Real : WorkerPc τ δ α → Prop
  | .running locals => locals.task ≠ none
  | .returned locals => locals.task ≠ none
  | _ => True

/-- The events of `w` are complete executions of real jobs and as much of one
more as `pc` says. -/
def Traced (w : Fin n) (log : List (Event n m τ δ α)) (pc : WorkerPc τ δ α) : Prop :=
  pc.Real ∧ ∃ done : List (Job τ δ α), (∀ job ∈ done, job.task ≠ none) ∧
    workerLog w log = done.flatMap (jobTrace w) ++ progress w pc

/-- Every job has a task, from the test of `threadpool_add_job` on. -/
structure Sound (s : Pool n m τ δ α) : Prop where
  tested : ∀ p job active, s.callers p = .tested job active → job.task ≠ none ∧ active ≠ INACTIVE
  queued : ∀ job ∈ appended s.log, job.task ≠ none

/-- A step of worker or destroyer keeps the callers and appends nothing. -/
theorem Sound.frame (h : Sound s) (callers : t.callers = s.callers)
    (jobs : appended t.log = appended s.log) : Sound t where
  tested := by rw [callers]; exact h.tested
  queued := by rw [jobs]; exact h.queued

/-- A caller moves to a place that is not between test and lock. -/
theorem Sound.caller (h : Sound s) {p : Fin m} {pc : CallerPc τ δ α}
    (callers : t.callers = Function.update s.callers p pc) (jobs : appended t.log = appended s.log)
    (fine : ∀ job active, pc = .tested job active → job.task ≠ none ∧ active ≠ INACTIVE) : Sound t where
  tested := by
    intro q job active at_test
    rw [callers] at at_test
    by_cases same : q = p
    · subst same
      rw [Function.update_self] at at_test
      exact fine job active at_test
    · rw [Function.update_of_ne same] at at_test
      exact h.tested q job active at_test
  queued := by rw [jobs]; exact h.queued

theorem appended_frame {log more : List (Event n m τ δ α)} (quiet : appended more = []) :
    appended (log ++ more) = appended log := by
  rw [appended_append, quiet, List.append_nil]

theorem Sound.step {a : Act n m τ δ α} (h : Sound s) (order : Ordered s) (taken : Step s a t) :
    Sound t := by
  cases taken with
  | enter p job pc => exact h.caller (p := p) rfl rfl (by simp)
  | reject p job pc refused => exact h.caller (p := p) rfl (appended_frame rfl) (by simp)
  | proceed p job pc task active =>
    refine h.caller (p := p) rfl rfl ?_
    intro job' active' same
    cases same
    exact ⟨task, active⟩
  | enqueue p mem job active pc =>
    rcases enqueueSection_cases order.queue_ok mem job active with ⟨_, refused, _⟩ | ⟨_, _, stored, _⟩
    · have log : (enqueueSection s p mem job active).log = s.log ++ [] := by
        simp only [enqueueSection, refused]
        rfl
      exact h.caller (p := p) rfl (by rw [log, List.append_nil]) (by simp)
    · have log : (enqueueSection s p mem job active).log = s.log ++ [.appended p job] := by
        simp only [enqueueSection, stored]
        rfl
      have kept := h.caller (t := { s with callers := (enqueueSection s p mem job active).callers })
        (p := p) rfl rfl (by simp)
      refine ⟨kept.tested, ?_⟩
      intro job' member
      rw [log, appended_append, List.mem_append] at member
      rcases member with old | new
      · exact h.queued job' old
      · have same : job' = job := by simpa [appended] using new
        subst same
        exact (h.tested p job' active pc).1
  | signal p chosen call pc ok => exact h.caller (p := p) rfl (appended_frame rfl) (by simp)
  | shutdown => exact h.frame rfl (appended_frame rfl)
  | destroy => exact h.frame rfl (appended_frame rfl)
  | broadcast => exact h.frame rfl rfl
  | join => exact h.frame rfl rfl
  | release => exact h.frame rfl (appended_frame rfl)
  | wait => exact h.frame rfl rfl
  | take =>
    refine h.frame rfl ?_
    apply appended_frame
    exact List.filterMap_eq_nil_iff.mpr (by simp)
  | spurious => exact h.frame rfl rfl
  | skip => exact h.frame rfl rfl
  | invoke => exact h.frame rfl (appended_frame rfl)
  | ret => exact h.frame rfl (appended_frame (not_queue_events (by simp)).1)
  | del => exact h.frame rfl (appended_frame (not_queue_events (by simp)).1)
  | sizeEmpty => exact h.frame rfl rfl
  | sizeMore => exact h.frame rfl rfl
  | leave => exact h.frame rfl rfl
  | again => exact h.frame rfl rfl

theorem sound (h : (poolLts n m τ δ α).Reachable s) : Sound s := by
  refine Lts.reachable_induction_with (Q := Ordered) (fun _ reach => ordered reach) ?_ ?_ h
  · constructor
    · intro p job active pc
      cases pc
    · intro job member
      cases member
  · exact fun _ _ _ order inv taken => inv.step order (step_cases taken).2

/-- A place with the same progress. -/
theorem Traced.move {w : Fin n} {log : List (Event n m τ δ α)} {pc pc' : WorkerPc τ δ α}
    (h : Traced w log pc) (real : pc'.Real) (same : progress (m := m) w pc' = progress w pc) :
    Traced w log pc' := by
  obtain ⟨_, done, tasks, trace⟩ := h
  exact ⟨real, done, tasks, by rw [trace, same]⟩

/-- Events of others do not count. -/
theorem Traced.frame {w : Fin n} {log more : List (Event n m τ δ α)} {pc : WorkerPc τ δ α}
    (h : Traced w log pc) (others : workerLog w more = []) : Traced w (log ++ more) pc := by
  obtain ⟨real, done, tasks, trace⟩ := h
  exact ⟨real, done, tasks, by rw [workerLog_append, others, List.append_nil, trace]⟩

/-- The next events of an execution. -/
theorem Traced.advance {w : Fin n} {log more : List (Event n m τ δ α)} {pc pc' : WorkerPc τ δ α}
    (h : Traced w log pc) (real : pc'.Real) (own : workerLog w more = more)
    (next : progress w pc' = progress w pc ++ more) : Traced w (log ++ more) pc' := by
  obtain ⟨_, done, tasks, trace⟩ := h
  exact ⟨real, done, tasks, by rw [workerLog_append, own, trace, next, List.append_assoc]⟩

/-- The last events of an execution. -/
theorem Traced.finish {w : Fin n} {log more : List (Event n m τ δ α)} {pc pc' : WorkerPc τ δ α}
    {job : Job τ δ α} (h : Traced w log pc) (real : pc'.Real) (own : workerLog w more = more)
    (task : job.task ≠ none) (last : jobTrace w job = progress w pc ++ more)
    (fresh : progress (m := m) w pc' = []) : Traced w (log ++ more) pc' := by
  obtain ⟨_, done, tasks, trace⟩ := h
  refine ⟨real, done ++ [job], ?_, ?_⟩
  · intro job' member
    rcases List.mem_append.mp member with old | new
    · exact tasks job' old
    · rw [List.mem_singleton.mp new]
      exact task
  · rw [workerLog_append, own, trace, fresh, List.flatMap_append, List.flatMap_singleton, last]
    simp

/-- A step of worker `v` leaves the other workers' events and places. -/
theorem traced_update {v : Fin n} {pc : WorkerPc τ δ α} {more : List (Event n m τ δ α)}
    (h : ∀ w, Traced w s.log (s.workers w)) (own : ∀ w, w ≠ v → workerLog w more = [])
    (here : Traced v (s.log ++ more) pc) :
    ∀ w, Traced w (s.log ++ more) (Function.update s.workers v pc w) := by
  intro w
  by_cases same : w = v
  · subst same
    rw [Function.update_self]
    exact here
  · rw [Function.update_of_ne same]
    exact (h w).frame (own w same)

/-- The same for a step that logs nothing. -/
theorem traced_update_silent {v : Fin n} {pc : WorkerPc τ δ α}
    (h : ∀ w, Traced w s.log (s.workers w)) (here : Traced v s.log pc) :
    ∀ w, Traced w s.log (Function.update s.workers v pc w) := by
  have all : ∀ w, Traced w (s.log ++ []) (Function.update s.workers v pc w) :=
    traced_update h (fun _ _ => rfl) (by rw [List.append_nil]; exact here)
  simpa only [List.append_nil] using all

/-- Waking a worker that is blocked is not progress. -/
theorem traced_wake {log : List (Event n m τ δ α)} {workers : Fin n → WorkerPc τ δ α}
    {chosen : Fin n → Bool} (h : ∀ w, Traced w log (workers w))
    (blocked : ∀ w, chosen w = true → (workers w).isBlocked = true) :
    ∀ w, Traced w log (wake workers chosen w) := by
  intro w
  unfold wake
  split
  · rename_i picked
    refine (h w).move trivial ?_
    have asleep := blocked w picked
    cases pc : workers w <;> simp [WorkerPc.isBlocked, pc] at asleep
    rfl
  · exact h w

theorem workerLog_own {v : Fin n} {β : Type} (xs : List β) (f : β → Event n m τ δ α)
    (own : ∀ x, (f x).ofWorker v = true) : workerLog v (xs.map f) = xs.map f := by
  apply List.filter_eq_self.mpr
  intro e member
  obtain ⟨x, _, rfl⟩ := List.mem_map.mp member
  exact own x

theorem workerLog_other {w : Fin n} {β : Type} (xs : List β) (f : β → Event n m τ δ α)
    (other : ∀ x, (f x).ofWorker w = false) : workerLog w (xs.map f) = [] := by
  apply List.filter_eq_nil_iff.mpr
  intro e member
  obtain ⟨x, _, rfl⟩ := List.mem_map.mp member
  simp [other x]

theorem traced_step {a : Act n m τ δ α} (h : ∀ w, Traced w s.log (s.workers w)) (order : Ordered s)
    (tasks : Sound s) (taken : Step s a t) :
    ∀ w, Traced w t.log (t.workers w) := by
  cases taken with
  | enter => exact h
  | reject => exact fun w => (h w).frame rfl
  | proceed => exact h
  | enqueue p mem job active pc =>
    intro w
    apply (h w).frame
    split <;> rfl
  | signal p chosen call pc ok =>
    apply traced_wake fun w => (h w).frame rfl
    intro w picked
    exact ok.1 w (by simpa using picked)
  | shutdown => exact fun w => (h w).frame rfl
  | destroy => exact fun w => (h w).frame rfl
  | broadcast => exact traced_wake h fun w picked => picked
  | join => exact h
  | release => exact fun w => (h w).frame rfl
  | wait v pc =>
    apply traced_update_silent h
    refine (h v).move trivial ?_
    rcases pc with pc | pc <;> rw [pc] <;> rfl
  | take v pc go =>
    have before : progress (m := m) v (s.workers v) = [] := by
      rcases pc with pc | pc <;> rw [pc] <;> rfl
    cases jobs : liveJobs s.queue with
    | nil =>
      rw [take_nothing order.queue_ok jobs]
      have here : Traced v s.log (.unlocked Job.null) := by
        refine (h v).move trivial ?_
        rw [before]
        rfl
      exact traced_update h (fun _ _ => rfl) (here.frame rfl)
    | cons job rest =>
      obtain ⟨_, out, _, log⟩ := take_first (m := m) order.queue_ok jobs v
      have task : job.task ≠ none := by
        apply tasks.queued
        rw [order.order, jobs]
        simp
      rw [log, out]
      refine traced_update h (fun w other => ?_) ((h v).advance trivial ?_ ?_)
      · simp [workerLog, Event.ofWorker, Ne.symm other]
      · simp [workerLog, Event.ofWorker]
      · rw [before]
        simp [progress, Option.isSome_iff_ne_none, task]
  | spurious v pc =>
    apply traced_update_silent h
    refine (h v).move trivial ?_
    rw [pc]
    rfl
  | skip v locals pc nothing =>
    apply traced_update_silent h
    refine (h v).move trivial ?_
    rw [pc]
    simp [progress, nothing]
  | invoke v locals task pc given =>
    refine traced_update h (fun w other => ?_) ((h v).advance ?_ ?_ ?_)
    · simp [workerLog, Event.ofWorker, Ne.symm other]
    · simp [WorkerPc.Real, given]
    · simp [workerLog, Event.ofWorker]
    · rw [pc]
      simp [progress, invocation, given]
  | ret v locals pc =>
    have real := (h v).1
    rw [pc] at real
    refine traced_update h (fun w other => ?_) ((h v).advance real ?_ ?_)
    · exact workerLog_other _ _ fun task => by simp [Event.ofWorker, Ne.symm other]
    · exact workerLog_own _ _ fun task => by simp [Event.ofWorker]
    · rw [pc]
      rfl
  | del v locals pc =>
    have real := (h v).1
    rw [pc] at real
    have task : locals.task ≠ none := real
    refine traced_update h (fun w other => ?_) ((h v).finish trivial ?_ task ?_ rfl)
    · exact workerLog_other _ _ fun delF => by simp [Event.ofWorker, Ne.symm other]
    · exact workerLog_own _ _ fun delF => by simp [Event.ofWorker]
    · rw [pc]
      rfl
  | sizeEmpty v pc =>
    apply traced_update_silent h
    refine (h v).move trivial ?_
    rw [pc]
    rfl
  | sizeMore v pc =>
    apply traced_update_silent h
    refine (h v).move trivial ?_
    rw [pc]
    rfl
  | leave v pc =>
    apply traced_update_silent h
    refine (h v).move trivial ?_
    rw [pc]
    rfl
  | again v pc =>
    apply traced_update_silent h
    refine (h v).move trivial ?_
    rw [pc]
    rfl

theorem traced (h : (poolLts n m τ δ α).Reachable s) : ∀ w, Traced w s.log (s.workers w) := by
  refine Lts.reachable_induction_with
    (P := fun s => ∀ w, Traced w s.log (s.workers w))
    (Q := fun s => Ordered s ∧ Sound s) (fun _ reach => ⟨ordered reach, sound reach⟩) ?_ ?_ h
  · exact fun w => ⟨trivial, [], by simp, rfl⟩
  · rintro s a t ⟨order, tasks⟩ inv taken
    exact traced_step inv order tasks (step_cases taken).2

/-- **Each job runs at most once, in order, with its own argument.** The jobs
removed are a prefix of the jobs appended; each worker's history is, job by
job, the removal, the task on the job's argument, its return and the
destructor on the same argument if there is one, and as much of the last as
the worker has come to. -/
theorem jobs_run_once_in_order (h : (poolLts n m τ δ α).Reachable s) :
    removed s.log <+: appended s.log ∧
    ∀ w, ∃ done : List (Job τ δ α), (∀ job ∈ done, job.task ≠ none) ∧
      workerLog w s.log = done.flatMap (jobTrace w) ++ progress w (s.workers w) := by
  refine ⟨?_, fun w => (traced h w).2⟩
  rw [(ordered h).order, List.append_assoc]
  exact List.prefix_append ..

/-- One worker, two jobs, the second with a destructor and still running. -/
theorem jobs_run_once_in_order_two :
    ∃ s, (poolLts 1 1 Nat Nat Nat).run (threadpoolCreate 1 1 Nat Nat Nat)
        [.lock 0, .enter 0 ⟨some 1, none, some 7⟩, .test 0, .enqueue 0 (some 100), .signal 0 [0],
          .enter 0 ⟨some 2, some 3, some 8⟩, .test 0, .lock 0, .enqueue 0 (some 101), .signal 0 [],
          .invoke 0, .ret 0, .del 0, .readSize 0, .lock 0, .invoke 0] = some s ∧
      (removed s.log <+: appended s.log ∧
        ∀ w, ∃ done : List (Job Nat Nat Nat), (∀ job ∈ done, job.task ≠ none) ∧
          workerLog w s.log = done.flatMap (jobTrace w) ++ progress w (s.workers w)) := by
  obtain ⟨s, run⟩ := Option.isSome_iff_exists.mp (by rfl :
    ((poolLts 1 1 Nat Nat Nat).run (threadpoolCreate 1 1 Nat Nat Nat)
      [.lock 0, .enter 0 ⟨some 1, none, some 7⟩, .test 0, .enqueue 0 (some 100), .signal 0 [0],
        .enter 0 ⟨some 2, some 3, some 8⟩, .test 0, .lock 0, .enqueue 0 (some 101), .signal 0 [],
        .invoke 0, .ret 0, .del 0, .readSize 0, .lock 0, .invoke 0]).isSome = true)
  exact ⟨s, run, jobs_run_once_in_order ⟨_, run⟩⟩

end Traces

end NetCalc.Thread
