import Mathlib.Data.List.Count
import NetCalc.Lib.Tally
import NetCalc.Net.Listener

/-!
# Which connections are isolated

The listener and all workers share one `con_args_t`. A job that is queued, or
taken out of the queue and not yet past its read of the cell, depends on
nobody writing it: `unread` counts these jobs. Along the runs that write or
free the cell only while `unread` is zero (`CleanRun`), the executions of
`handle_new_connection` read the accepted descriptors in the order of their
acceptance, each one once, and each execution uses and closes the descriptor
it read (`connections_isolated`). Without that condition a descriptor is
served twice and another never (`one_descriptor_served_twice`).
-/

namespace NetCalc.Net

set_option autoImplicit false
open NetCalc.Lib NetCalc.Thread

section History
variable {n : Nat}

/-- The descriptors `accept` returned. -/
def acceptedFds (log : List (Note n)) : List Int :=
  log.filterMap fun
    | .accepted fd => some fd
    | _ => none

/-- The descriptors written to `c_args->socket` and handed to the pool. -/
def storedFds (log : List (Note n)) : List Int :=
  log.filterMap fun
    | .stored fd => some fd
    | _ => none

/-- A worker's copy of the cell into its `socket`. -/
def Note.took? : Note n → Option (Fin n × Int)
  | .took w fd => some (w, fd)
  | _ => none

/-- A worker's `close(socket)`. -/
def Note.closed? : Note n → Option (Fin n × Int)
  | .closed w fd => some (w, fd)
  | _ => none

/-- The descriptors the executions of `handle_new_connection` were given. -/
def tookFds (log : List (Note n)) : List Int := (log.filterMap Note.took?).map Prod.snd

/-- The descriptors they closed. -/
def closedFds (log : List (Note n)) : List Int := (log.filterMap Note.closed?).map Prod.snd

/-- A note of worker `w`. -/
def Note.ofWorker (w : Fin n) : Note n → Bool
  | .took v _ => v = w
  | .used v _ => v = w
  | .closed v _ => v = w
  | .tookFreed v => v = w
  | _ => false

/-- The notes of worker `w`. -/
def notesOf (w : Fin n) (log : List (Note n)) : List (Note n) := log.filter (Note.ofWorker w)

@[simp] theorem acceptedFds_append (log more : List (Note n)) :
    acceptedFds (log ++ more) = acceptedFds log ++ acceptedFds more := List.filterMap_append

@[simp] theorem storedFds_append (log more : List (Note n)) :
    storedFds (log ++ more) = storedFds log ++ storedFds more := List.filterMap_append

@[simp] theorem tookFds_append (log more : List (Note n)) :
    tookFds (log ++ more) = tookFds log ++ tookFds more := by
  simp [tookFds]

@[simp] theorem notesOf_append (w : Fin n) (log more : List (Note n)) :
    notesOf w (log ++ more) = notesOf w log ++ notesOf w more := List.filter_append ..

/-- One complete execution: its descriptor, and how often it used it. -/
structure Service where
  fd : Int
  ios : Nat

/-- What worker `w` does in it: take the descriptor, use it, close it. -/
def Service.trace (w : Fin n) (e : Service) : List (Note n) :=
  .took w e.fd :: (List.replicate e.ios (.used w e.fd) ++ [.closed w e.fd])

/-- What worker `w` has done of an execution it is in. -/
def underway (w : Fin n) (ios : Nat) : HandlerPc → List (Note n)
  | .holding fd => [.took w fd]
  | .serving fd => .took w fd :: List.replicate ios (.used w fd)
  | _ => []

/-- The notes of `w` are complete executions and as much of one more as the
handler's place says. -/
def Served (w : Fin n) (log : List (Note n)) (pc : HandlerPc) : Prop :=
  ∃ (done : List Service) (ios : Nat), notesOf w log = done.flatMap (Service.trace w) ++ underway w ios pc

/-- The descriptor `accept` returned and the listener has not stored. -/
def ListenerPc.unstored : ListenerPc → List Int
  | .accepted fd => [fd]
  | _ => []

end History

/-! ## The jobs that depend on the cell -/

section Unread
variable {n : Nat}

/-- Between the listener's write and the pool's queue. -/
def carriesJob : CallerPc Task Empty Arg → Bool
  | .entered _ => true
  | .tested _ _ => true
  | _ => false

/-- In `handle_new_connection`, before the read of the cell. -/
def isEntered : HandlerPc → Bool
  | .entered => true
  | _ => false

/-- The jobs handed over whose argument has not been read. -/
def unread (s : Server n) : Nat :=
  (liveJobs s.pool.queue).length + tally s.pool.callers carriesJob + tally s.pool.workers holdsJob +
    tally s.handlers isEntered

/-- The side condition: the cell is written and freed only while no job depends
on it, descriptors stay below 128, and the allocations of a queue node and of
a net header succeed. -/
def isClean (s : Server n) : Act n → Bool
  | .accept fd => fd < 128
  | .store => unread s = 0
  | .free => unread s = 0
  | .pool (.enqueue _ mem) => mem.isSome
  | .callocHeader _ ok => ok
  | _ => true

/-- A run all of whose steps are clean. -/
def CleanRun (base : List Int) (ls : List (Act n)) : Prop :=
  (serverLts n base).Obeys (fun s a => isClean s a = true) (startListener n base) ls

instance (base : List Int) (ls : List (Act n)) : Decidable (CleanRun base ls) :=
  inferInstanceAs (Decidable (Lts.Obeys _ _ _))

/-- What holds in every state of a clean run. -/
structure Isolated (s : Server n) : Prop where
  pool : (poolLts n 1 Task Empty Arg).Reachable s.pool
  alive : s.listener ≠ .released → s.pool.active = ACTIVE ∧ s.pool.destroyer = .idle
  calling : s.listener ≠ .looping → s.pool.callers 0 = .idle
  entered_job : ∀ job, s.pool.callers 0 = .entered job → job = connectionJob
  tested_job : ∀ job active, s.pool.callers 0 = .tested job active → job = connectionJob
  busy : ∀ w, s.handlers w ≠ .idle → isRunning (s.pool.workers w) = true
  drained : s.listener = .released → unread s = 0
  small : ∀ fd, s.listener = .accepted fd → 0 ≤ fd ∧ fd < 128
  handed : acceptedFds s.log = storedFds s.log ++ s.listener.unstored
  answered : (unread s = 0 ∧ storedFds s.log = tookFds s.log) ∨
    (unread s = 1 ∧ ∃ fd, storedFds s.log = tookFds s.log ++ [fd] ∧ s.args = some fd)
  served : ∀ w, Served w s.log (s.handlers w)

theorem isolated_init (base : List Int) : Isolated (startListener n base) where
  pool := Lts.Reaches.refl _
  alive _ := ⟨rfl, rfl⟩
  calling _ := rfl
  entered_job := by
    intro job pc
    cases pc
  tested_job := by
    intro job active pc
    cases pc
  busy := by
    intro w pc
    exact absurd rfl pc
  drained := by
    intro pc
    cases pc
  small := by
    intro fd pc
    cases pc
  handed := rfl
  answered := by
    refine .inl ⟨?_, rfl⟩
    have queue : liveJobs (startListener n base).pool.queue = [] := emptyQueue_jobs
    have callers : tally (startListener n base).pool.callers carriesJob = 0 := tally_eq_zero.mpr fun _ => rfl
    have workers : tally (startListener n base).pool.workers holdsJob = 0 := tally_eq_zero.mpr fun _ => rfl
    have handlers : tally (startListener n base).handlers isEntered = 0 := tally_eq_zero.mpr fun _ => rfl
    simp [unread, queue, callers, workers, handlers]
  served w := ⟨[], 0, rfl⟩

theorem Isolated.unread_le {s : Server n} (h : Isolated s) : unread s ≤ 1 := by
  rcases h.answered with ⟨none_left, _⟩ | ⟨one, _⟩ <;> omega

end Unread

/-! ## Steps of the pool -/

section PoolSteps
variable {n : Nat} {s : Server n} {a : ConPoolAct n} {p : ConPool n}

/-- A pool step that moves one worker only. -/
theorem unread_worker {w : Fin n} {pc : WorkerPc Task Empty Arg}
    (same : holdsJob pc = holdsJob (s.pool.workers w))
    (queue : p.queue = s.pool.queue) (callers : p.callers = s.pool.callers)
    (workers : p.workers = Function.update s.pool.workers w pc) :
    unread { s with pool := p } = unread s := by
  unfold unread
  simp only [queue, callers, workers, tally_update_same _ _ _ _ same]

/-- A pool step that moves one caller only. -/
theorem unread_caller {q : Fin 1} {pc : CallerPc Task Empty Arg}
    (same : carriesJob pc = carriesJob (s.pool.callers q))
    (queue : p.queue = s.pool.queue) (callers : p.callers = Function.update s.pool.callers q pc)
    (workers : tally p.workers holdsJob = tally s.pool.workers holdsJob) :
    unread { s with pool := p } = unread s := by
  unfold unread
  simp only [queue, callers, workers, tally_update_same _ _ _ _ same]

/-- Waking sleepers moves no job. -/
theorem tally_wake {workers : Fin n → WorkerPc Task Empty Arg} {chosen : Fin n → Bool}
    (blocked : ∀ w, chosen w = true → (workers w).isBlocked = true) :
    tally (wake workers chosen) holdsJob = tally workers holdsJob := by
  apply tally_congr
  intro w
  unfold wake
  split
  · rename_i picked
    have asleep := blocked w picked
    cases pc : workers w <;> simp [WorkerPc.isBlocked, pc] at asleep
    rfl
  · rfl

/-- A worker that takes a job holds it instead of the queue. -/
theorem unread_take {w : Fin n} (order : Ordered s.pool) (tasks : Sound s.pool)
    (pc : s.pool.workers w = .atLock ∨ s.pool.workers w = .woken)
    (queue : p.queue = (queueDequeue s.pool.queue Job.null).queue) (callers : p.callers = s.pool.callers)
    (workers : p.workers =
      Function.update s.pool.workers w (.unlocked (queueDequeue s.pool.queue Job.null).out)) :
    unread { s with pool := p } = unread s := by
  have free : holdsJob (s.pool.workers w) = false := by
    rcases pc with pc | pc <;> rw [pc] <;> rfl
  unfold unread
  simp only [queue, callers, workers]
  cases jobs : liveJobs s.pool.queue with
  | nil =>
    rw [take_nothing order.queue_ok jobs, jobs, tally_update_same _ _ _ _ (by rw [free]; rfl)]
  | cons job rest =>
    obtain ⟨_, out, left, _⟩ := take_first (m := 1) order.queue_ok jobs w
    have real : holdsJob (.unlocked job : WorkerPc Task Empty Arg) = true := by
      apply Option.isSome_iff_ne_none.mpr
      apply tasks.queued job
      rw [order.order, jobs]
      simp
    rw [out, left, tally_gain free real, List.length_cons]
    omega

/-- The listener's locked section moves its job into the queue. -/
theorem unread_enqueue (h : Isolated s) {q : Fin 1} {addr : Nat} {job : Job Task Empty Arg} {active : Int}
    (pc : s.pool.callers q = .tested job active) :
    unread { s with pool := enqueueSection s.pool q (some addr) job active } = unread s := by
  have order := ordered h.pool
  have only : q = 0 := Subsingleton.elim _ _
  subst only
  have job_eq := h.tested_job job active pc
  subst job_eq
  have carrying : carriesJob (s.pool.callers 0) = true := by
    rw [pc]
    rfl
  have few := h.unread_le
  rcases enqueueSection_cases order.queue_ok (some addr) connectionJob active with
    ⟨_, _, full | null | failed⟩ | ⟨_, jobs, _, _⟩
  · unfold unread at few
    rw [full] at few
    exact absurd few (by simp [MAX_JOBS]; omega)
  · cases null
  · cases failed
  · have moved := tally_loss (f := s.pool.callers) (a := (.unlocked ⟨connectionJob, active, some addr,
      s.pool.queue, (queueEnqueue s.pool.queue (some addr) connectionJob.task connectionJob.delF
        connectionJob.arg).2, SUCCESS⟩ : CallerPc Task Empty Arg)) carrying rfl
    have longer := congrArg List.length jobs
    rw [List.length_append, List.length_singleton] at longer
    unfold unread
    simp only [enqueueSection]
    dsimp only at longer
    omega

/-- While the listener is in `threadpool_add_job` the pool is active. -/
theorem Isolated.active_of_calling (h : Isolated s) (pc : s.pool.callers 0 ≠ .idle) :
    s.pool.active = ACTIVE ∧ s.listener = .looping := by
  have looping : s.listener = .looping := by
    by_contra elsewhere
    exact pc (h.calling elsewhere)
  exact ⟨(h.alive (by rw [looping]; simp)).1, looping⟩

/-- The pool never refuses the listener. -/
theorem Isolated.not_refused (h : Isolated s) {q : Fin 1} {job : Job Task Empty Arg}
    (pc : s.pool.callers q = .entered job) : ¬(job.task = none ∨ s.pool.active = INACTIVE) := by
  have only : q = 0 := Subsingleton.elim _ _
  subst only
  have job_eq := h.entered_job job pc
  have active := (h.active_of_calling (by rw [pc]; simp)).1
  rw [job_eq, active]
  rintro (null | inactive)
  · cases null
  · cases inactive

/-- A handler is entered from the idle place only. -/
theorem idle_of_not_running (busy : ∀ w, s.handlers w ≠ .idle → isRunning (s.pool.workers w) = true)
    {w : Fin n} (pc : isRunning (s.pool.workers w) = false) : s.handlers w = .idle := by
  by_contra inside
  rw [busy w inside] at pc
  cases pc

/-- A job that a worker held is its handler's. -/
theorem invoked_tallies (busy : ∀ w, s.handlers w ≠ .idle → isRunning (s.pool.workers w) = true) {w : Fin n}
    {locals : Job Task Empty Arg} {task : Task} (pc : s.pool.workers w = .unlocked locals)
    (given : locals.task = some task) : holdsJob (s.pool.workers w) = true ∧
      tally (Function.update s.pool.workers w (.running locals)) holdsJob +
          tally (Function.update s.handlers w .entered) isEntered =
        tally s.pool.workers holdsJob + tally s.handlers isEntered := by
  have holding : holdsJob (s.pool.workers w) = true := by
    rw [pc]
    simp [holdsJob, given]
  have idle := idle_of_not_running busy (w := w) (by rw [pc]; rfl)
  have outside : isEntered (s.handlers w) = false := by
    rw [idle]
    rfl
  have lost := tally_loss (a := (.running locals : WorkerPc Task Empty Arg)) holding rfl
  have gained := tally_gain (a := HandlerPc.entered) outside rfl
  refine ⟨holding, ?_⟩
  omega

/-- A handler that comes back had read its argument. -/
theorem returned_tallies {w : Fin n} {locals : Job Task Empty Arg} (guard : poolGuard s (.ret w) = true)
    (pc : s.pool.workers w = .running locals) :
    tally (Function.update s.pool.workers w (.returned locals)) holdsJob = tally s.pool.workers holdsJob ∧
      tally (Function.update s.handlers w .idle) isEntered = tally s.handlers isEntered := by
  have done : s.handlers w = .finished := by simpa [poolGuard] using guard
  constructor
  · apply tally_update_same
    rw [pc]
    rfl
  · apply tally_update_same
    rw [done]
    rfl

/-- No pool step of a clean run changes how many jobs depend on the cell. -/
theorem unread_pool (h : Isolated s) (guard : poolGuard s a = true)
    (clean : isClean s (.pool a) = true) (taken : Thread.Step s.pool a p) :
    unread { s with pool := p, handlers := handlersAfter s a } = unread s := by
  cases taken with
  | enter => cases guard
  | reject q job pc refused => exact absurd refused (h.not_refused pc)
  | proceed q job pc task active => exact unread_caller (by rw [pc]; rfl) rfl rfl rfl
  | enqueue q mem job active pc =>
    cases mem with
    | none => cases clean
    | some addr => exact unread_enqueue h pc
  | signal q chosen call pc ok =>
    refine unread_caller (by rw [pc]; rfl) rfl rfl ?_
    apply tally_wake
    intro w picked
    exact ok.1 w (by simpa using picked)
  | shutdown => cases guard
  | destroy pc => rfl
  | broadcast pc =>
    have same : tally (wake s.pool.workers fun w => (s.pool.workers w).isBlocked) holdsJob =
        tally s.pool.workers holdsJob := tally_wake fun w blocked => blocked
    unfold unread
    simp only [same]
    rfl
  | join => rfl
  | release pc =>
    have released : s.listener = .released := by simpa [poolGuard] using guard
    have nothing := h.drained released
    have empty := (ordered h.pool).queue_ok.clear.2
    unfold unread at nothing ⊢
    simp only [empty, handlersAfter]
    simp only [List.length_nil]
    omega
  | wait w pc nothing active =>
    refine unread_worker ?_ rfl rfl rfl
    rcases pc with pc | pc <;> rw [pc] <;> rfl
  | take w pc go => exact unread_take (ordered h.pool) (sound h.pool) pc rfl rfl rfl
  | spurious w pc => exact unread_worker (by rw [pc]; rfl) rfl rfl rfl
  | skip w locals pc nothing =>
    have empty : holdsJob (s.pool.workers w) = false := by
      rw [pc]
      simp [holdsJob, nothing]
    simp only [handlersAfter, empty]
    exact unread_worker (w := w) (by rw [empty]; rfl) rfl rfl rfl
  | invoke w locals task pc given =>
    obtain ⟨holding, moves⟩ := invoked_tallies h.busy pc given
    unfold unread
    simp only [handlersAfter, holding, if_true]
    omega
  | ret w locals pc =>
    obtain ⟨jobs, entered⟩ := returned_tallies guard pc
    unfold unread
    simp only [handlersAfter, jobs, entered]
  | del w locals pc => exact unread_worker (by rw [pc]; rfl) rfl rfl rfl
  | sizeEmpty w pc nothing => exact unread_worker (by rw [pc]; rfl) rfl rfl rfl
  | sizeMore w pc more => exact unread_worker (by rw [pc]; rfl) rfl rfl rfl
  | leave w pc inactive => exact unread_worker (by rw [pc]; rfl) rfl rfl rfl
  | again w pc active => exact unread_worker (by rw [pc]; rfl) rfl rfl rfl

/-- A pool action of a clean run that is not the destroyer's leaves the pool
active. -/
theorem alive_pool (alive : s.pool.active = ACTIVE ∧ s.pool.destroyer = .idle) (guard : poolGuard s a = true)
    (taken : Thread.Step s.pool a p) (listening : s.listener ≠ .released) :
    p.active = ACTIVE ∧ p.destroyer = .idle := by
  cases taken with
  | shutdown => cases guard
  | destroy | broadcast | join | release => exact absurd (by simpa [poolGuard] using guard) listening
  | _ => exact alive

/-- The callers after a pool action of the server: none enters. -/
theorem callers_pool (guard : poolGuard s a = true) (taken : Thread.Step s.pool a p) :
    p.callers 0 = s.pool.callers 0 ∨ p.callers 0 = .idle ∨
    (∃ job, s.pool.callers 0 = .entered job ∧ p.callers 0 = .tested job s.pool.active) ∨
    (∃ job active, s.pool.callers 0 = .tested job active ∧ carriesJob (p.callers 0) = false) := by
  cases taken with
  | enter => cases guard
  | reject q job pc refused =>
    have only : q = 0 := Subsingleton.elim _ _
    subst only
    exact .inr (.inl (by simp))
  | proceed q job pc task active =>
    have only : q = 0 := Subsingleton.elim _ _
    subst only
    exact .inr (.inr (.inl ⟨job, pc, by simp⟩))
  | enqueue q mem job active pc =>
    have only : q = 0 := Subsingleton.elim _ _
    subst only
    exact .inr (.inr (.inr ⟨job, active, pc, by simp [enqueueSection, carriesJob]⟩))
  | signal q chosen call pc ok =>
    have only : q = 0 := Subsingleton.elim _ _
    subst only
    exact .inr (.inl (by simp))
  | _ => exact .inl rfl

/-- A worker inside a task stays there until `ret`. -/
theorem running_pool {w : Fin n} (taken : Thread.Step s.pool a p) (inside : isRunning (s.pool.workers w) = true)
    (stays : a ≠ .ret w) : isRunning (p.workers w) = true := by
  cases taken with
  | signal q chosen call pc ok =>
    have awake : w ∉ chosen := by
      intro picked
      have blocked := ok.1 w picked
      cases pc : s.pool.workers w <;> simp [WorkerPc.isBlocked, isRunning, pc] at blocked inside
    simpa [wake, awake] using inside
  | broadcast pc =>
    have awake : (s.pool.workers w).isBlocked = false := by
      cases pc : s.pool.workers w <;> simp [isRunning, pc] at inside
      rfl
    simpa [wake, awake] using inside
  | wait v pc | take v pc =>
    have other : w ≠ v := by
      rintro rfl
      rcases pc with pc | pc <;> simp [isRunning, pc] at inside
    simpa [Function.update_of_ne other] using inside
  | spurious v pc | sizeEmpty v pc | sizeMore v pc | leave v pc | again v pc =>
    have other : w ≠ v := by
      rintro rfl
      simp [isRunning, pc] at inside
    simpa [Function.update_of_ne other] using inside
  | skip v locals pc | del v locals pc | invoke v locals task pc =>
    have other : w ≠ v := by
      rintro rfl
      simp [isRunning, pc] at inside
    simpa [Function.update_of_ne other] using inside
  | ret v locals pc =>
    have other : w ≠ v := by
      rintro rfl
      exact stays rfl
    simpa [Function.update_of_ne other] using inside
  | _ => exact inside

/-- Handlers that are not idle sit on workers that are inside a task. -/
theorem busy_pool (busy : ∀ w, s.handlers w ≠ .idle → isRunning (s.pool.workers w) = true)
    (taken : Thread.Step s.pool a p) : ∀ w, handlersAfter s a w ≠ .idle → isRunning (p.workers w) = true := by
  intro w inside
  by_cases returns : a = .ret w
  · subst returns
    exact absurd (Function.update_self ..) inside
  · by_cases was : s.handlers w = .idle
    · cases taken with
      | invoke v locals task pc given =>
        by_cases same : w = v
        · subst same
          simp [isRunning]
        · refine absurd ?_ inside
          simp only [handlersAfter]
          split <;> simp [Function.update_of_ne same, was]
      | skip v locals pc nothing =>
        refine absurd ?_ inside
        simp [handlersAfter, holdsJob, pc, nothing, was]
      | ret v locals pc =>
        refine absurd ?_ inside
        by_cases same : w = v <;> simp [handlersAfter, same, was]
      | _ => exact absurd was inside
    · exact running_pool taken (busy w was) returns

/-- A pool action moves no handler along its execution. -/
theorem served_pool (h : Isolated s) (guard : poolGuard s a = true) (taken : Thread.Step s.pool a p) :
    ∀ w, Served w s.log (handlersAfter s a w) := by
  intro w
  obtain ⟨done, ios, notes⟩ := h.served w
  cases taken with
  | invoke v locals task pc given =>
    by_cases same : w = v
    · subst same
      have idle := idle_of_not_running h.busy (w := w) (by rw [pc]; rfl)
      rw [idle] at notes
      refine ⟨done, ios, ?_⟩
      simp only [handlersAfter]
      split
      · rw [Function.update_self]
        exact notes
      · rw [idle]
        exact notes
    · refine ⟨done, ios, ?_⟩
      simp only [handlersAfter]
      split
      · rw [Function.update_of_ne same]
        exact notes
      · exact notes
  | skip v locals pc nothing =>
    refine ⟨done, ios, ?_⟩
    simpa [handlersAfter, holdsJob, pc, nothing] using notes
  | ret v locals pc =>
    have finished : s.handlers v = .finished := by simpa [poolGuard] using guard
    refine ⟨done, ios, ?_⟩
    by_cases same : w = v
    · subst same
      rw [finished] at notes
      simp only [handlersAfter, Function.update_self]
      exact notes
    · simpa [handlersAfter, Function.update_of_ne same] using notes
  | _ => exact ⟨done, ios, notes⟩

/-- **A pool action of a clean run keeps the invariant.** -/
theorem Isolated.pool_step (h : Isolated s) (guard : poolGuard s a = true)
    (clean : isClean s (.pool a) = true) (taken : Thread.step s.pool a = some p) :
    Isolated { s with pool := p, handlers := handlersAfter s a } := by
  obtain ⟨_, moved⟩ := Thread.step_cases taken
  have kept := unread_pool h guard clean moved
  have callers := callers_pool guard moved
  exact
    { pool := h.pool.step (l := a) taken
      alive := fun listening => alive_pool (h.alive listening) guard moved listening
      calling := by
        intro elsewhere
        have idle := h.calling elsewhere
        rcases callers with same | now | ⟨job, pc, _⟩ | ⟨job, active, pc, _⟩
        · exact same.trans idle
        · exact now
        · rw [idle] at pc
          cases pc
        · rw [idle] at pc
          cases pc
      entered_job := by
        intro job pc
        rcases callers with same | now | ⟨_, _, now⟩ | ⟨_, _, _, now⟩
        · exact h.entered_job job (same ▸ pc)
        all_goals simp_all [carriesJob]
      tested_job := by
        intro job active pc
        rcases callers with same | now | ⟨other, was, now⟩ | ⟨_, _, _, now⟩
        · exact h.tested_job job active (same ▸ pc)
        · simp_all
        · rw [now] at pc
          cases pc
          exact h.entered_job _ was
        · rw [pc] at now
          cases now
      busy := busy_pool h.busy moved
      drained := by
        rw [kept]
        exact h.drained
      small := h.small
      handed := h.handed
      answered := by
        rw [kept]
        exact h.answered
      served := served_pool h guard moved }

end PoolSteps

/-! ## Steps of the listener and of the handlers -/

section Steps
variable {n : Nat} {s t : Server n} {a : Act n}

/-- A note of somebody else. -/
theorem Served.note {w : Fin n} {log : List (Note n)} {pc : HandlerPc} (h : Served w log pc) {e : Note n}
    (other : e.ofWorker w = false) : Served w (log ++ [e]) pc := by
  obtain ⟨done, ios, notes⟩ := h
  refine ⟨done, ios, ?_⟩
  rw [notesOf_append, notes]
  simp [notesOf, other]

/-- A note of `w`, which carries its execution on. -/
theorem Served.advance {w : Fin n} {log : List (Note n)} {pc : HandlerPc} {e : Note n}
    (own : e.ofWorker w = true)
    (h : ∃ (done : List Service) (ios : Nat),
      notesOf w log ++ [e] = done.flatMap (Service.trace w) ++ underway w ios pc) :
    Served w (log ++ [e]) pc := by
  obtain ⟨done, ios, notes⟩ := h
  refine ⟨done, ios, ?_⟩
  rw [notesOf_append, ← notes]
  simp [notesOf, own]

/-- One handler moves, with or without a note; the others are as before. -/
theorem served_update {v : Fin n} {pc : HandlerPc} {log : List (Note n)} (h : ∀ w, Served w s.log (s.handlers w))
    (others : ∀ w, w ≠ v → Served w s.log (s.handlers w) → Served w log (s.handlers w))
    (here : Served v log pc) : ∀ w, Served w log (Function.update s.handlers v pc w) := by
  intro w
  by_cases same : w = v
  · subst same
    rw [Function.update_self]
    exact here
  · rw [Function.update_of_ne same]
    exact others w same (h w)

/-- One handler moves inside its task. -/
theorem busy_update {v : Fin n} {pc : HandlerPc}
    (busy : ∀ w, s.handlers w ≠ .idle → isRunning (s.pool.workers w) = true) (inside : s.handlers v ≠ .idle) :
    ∀ w, Function.update s.handlers v pc w ≠ .idle → isRunning (s.pool.workers w) = true := by
  intro w moved
  by_cases same : w = v
  · subst same
    exact busy w inside
  · rw [Function.update_of_ne same] at moved
    exact busy w moved

/-- A handler that is past its read moves on: nothing depends on it. -/
theorem unread_handler {v : Fin n} {pc : HandlerPc} (same : isEntered pc = isEntered (s.handlers v)) :
    unread { s with handlers := Function.update s.handlers v pc } = unread s := by
  unfold unread
  simp only [tally_update_same _ _ _ _ same]

/-- The listener writes the cell, while nothing depends on it. -/
theorem Isolated.store (h : Isolated s) {fd : Int} {pool : ConPool n} (pc : s.listener = .accepted fd)
    (entered : Thread.step s.pool (.enter 0 connectionJob) = some pool) (clean : unread s = 0) :
    Isolated { s with
      pool := pool
      args := some (narrow 8 fd)
      listener := .looping
      log := s.log ++ [.stored fd] } := by
  have reach : (poolLts n 1 Task Empty Arg).Reachable pool := h.pool.step (l := .enter 0 connectionJob) entered
  have alive := h.alive (by rw [pc]; simp)
  cases (Thread.step_cases entered).2 with
  | enter _ _ idle =>
  have fits : narrow 8 fd = fd := by
    obtain ⟨low, high⟩ := h.small fd pc
    exact narrow_of_fits (by decide) (by omega) (by omega)
  have free : carriesJob (s.pool.callers 0) = false := by
    rw [idle]
    rfl
  have one : unread { s with
      pool := { s.pool with callers := Function.update s.pool.callers 0 (.entered connectionJob) } } = 1 := by
    unfold unread at clean ⊢
    rw [tally_gain free rfl]
    dsimp only
    omega
  have answered : storedFds s.log = tookFds s.log := by
    rcases h.answered with ⟨_, same⟩ | ⟨busy, _⟩
    · exact same
    · rw [clean] at busy
      cases busy
  exact
    { pool := reach
      alive := fun _ => alive
      calling := fun elsewhere => absurd rfl elsewhere
      entered_job := by
        intro job now
        dsimp only at now
        rw [Function.update_self] at now
        cases now
        rfl
      tested_job := by
        intro job active now
        dsimp only at now
        rw [Function.update_self] at now
        cases now
      busy := h.busy
      drained := by
        intro released
        cases released
      small := by
        intro other now
        cases now
      handed := by
        have handed := h.handed
        rw [pc] at handed
        rw [acceptedFds_append, storedFds_append, handed]
        simp [acceptedFds, storedFds, ListenerPc.unstored]
      answered := by
        refine .inr ⟨one, fd, ?_, by rw [fits]⟩
        rw [storedFds_append, tookFds_append, answered]
        simp [storedFds, tookFds, Note.took?]
      served := fun w => (h.served w).note rfl }

/-- A worker reads the cell: it gets the descriptor that was stored last, and
nothing depends on the cell any more. -/
theorem Isolated.read (h : Isolated s) {w : Fin n} {fd : Int} (pc : s.handlers w = .entered)
    (cell : s.args = some fd) :
    Isolated { s with
      handlers := Function.update s.handlers w (.holding fd)
      log := s.log ++ [.took w fd] } := by
  have waiting : isEntered (s.handlers w) = true := by
    rw [pc]
    rfl
  have left := tally_loss (a := HandlerPc.holding fd) waiting rfl
  have before : unread s =
      unread { s with handlers := Function.update s.handlers w (.holding fd) } + 1 := by
    unfold unread
    dsimp only
    omega
  have stored : unread { s with handlers := Function.update s.handlers w (.holding fd) } = 0 ∧
      storedFds s.log = tookFds s.log ++ [fd] := by
    rcases h.answered with ⟨none_left, _⟩ | ⟨one, other, order, now⟩
    · omega
    · rw [cell] at now
      cases now
      exact ⟨by omega, order⟩
  have logged : tookFds (s.log ++ [.took w fd]) = tookFds s.log ++ [fd] := by
    simp [tookFds, Note.took?]
  exact
    { pool := h.pool
      alive := h.alive
      calling := h.calling
      entered_job := h.entered_job
      tested_job := h.tested_job
      busy := busy_update h.busy (by rw [pc]; simp)
      drained := fun _ => stored.1
      small := h.small
      handed := by
        rw [acceptedFds_append, storedFds_append, h.handed]
        simp [acceptedFds, storedFds]
      answered := by
        refine .inl ⟨stored.1, ?_⟩
        rw [logged, storedFds_append, stored.2]
        simp [storedFds]
      served := by
        refine served_update h.served (fun v other => ?_) ?_
        · intro had
          exact had.note (by simp [Note.ofWorker, Ne.symm other])
        · obtain ⟨done, ios, notes⟩ := h.served w
          rw [pc] at notes
          refine Served.advance (by simp [Note.ofWorker]) ⟨done, ios, ?_⟩
          rw [notes]
          simp [underway] }

/-- A handler past its read takes a step that leaves the listener alone. -/
theorem Isolated.handler (h : Isolated s) {w : Fin n} {pc : HandlerPc} {openFds : List Int} {log : List (Note n)}
    (inside : s.handlers w ≠ .idle) (past : isEntered pc = isEntered (s.handlers w))
    (accepted : acceptedFds log = acceptedFds s.log) (stored : storedFds log = storedFds s.log)
    (took : tookFds log = tookFds s.log)
    (served : ∀ v, Served v log (Function.update s.handlers w pc v)) :
    Isolated { s with handlers := Function.update s.handlers w pc, openFds := openFds, log := log } := by
  have same := unread_handler past
  exact
    { pool := h.pool
      alive := h.alive
      calling := h.calling
      entered_job := h.entered_job
      tested_job := h.tested_job
      busy := busy_update h.busy inside
      drained := fun released => same.trans (h.drained released)
      small := h.small
      handed := by
        rw [accepted, stored]
        exact h.handed
      answered := by
        rw [stored, took]
        rcases h.answered with ⟨none_left, order⟩ | ⟨one, fd, order, now⟩
        · exact .inl ⟨same.trans none_left, order⟩
        · exact .inr ⟨same.trans one, fd, order, now⟩
      served := served }

/-- **Every step of a clean run keeps the invariant.** -/
theorem Isolated.step (h : Isolated s) (clean : isClean s a = true) (taken : Step s a t) : Isolated t := by
  cases taken with
  | raise => exact { h with }
  | accept fd pc nonneg fresh =>
    have idle := h.calling (by rw [pc]; simp)
    have alive := h.alive (by rw [pc]; simp)
    have handed := h.handed
    rw [pc] at handed
    exact
      { h with
        alive := fun _ => alive
        calling := fun _ => idle
        drained := by
          intro released
          cases released
        small := by
          intro other now
          cases now
          exact ⟨nonneg, by simpa [isClean] using clean⟩
        handed := by
          rw [acceptedFds_append, storedFds_append, handed]
          simp [acceptedFds, storedFds, ListenerPc.unstored]
        answered := by
          have stored : storedFds (s.log ++ [.accepted fd]) = storedFds s.log := by
            simp [storedFds]
          have took : tookFds (s.log ++ [.accepted fd]) = tookFds s.log := by
            simp [tookFds, Note.took?]
          rw [stored, took]
          exact h.answered
        served := fun w => (h.served w).note rfl }
  | acceptFails pc =>
    have handed := h.handed
    rw [pc] at handed
    exact
      { h with
        alive := fun _ => h.alive (by rw [pc]; simp)
        calling := fun elsewhere => absurd rfl elsewhere
        drained := by
          intro released
          cases released
        small := by
          intro other now
          cases now
        handed := handed }
  | store fd pool pc entered => exact h.store pc entered (by simpa [isClean] using clean)
  | loop pc idle =>
    have handed := h.handed
    rw [pc] at handed
    have elsewhere : (if s.flag = true then ListenerPc.stopping else .accepting) ≠ .released := by
      split <;> simp
    exact
      { h with
        alive := fun _ => h.alive (by rw [pc]; simp)
        calling := fun _ => idle
        drained := fun released => absurd released elsewhere
        small := by
          intro fd now
          dsimp only at now
          split at now <;> cases now
        handed := by
          rw [handed]
          dsimp only
          split <;> rfl }
  | free pc =>
    have nothing : unread s = 0 := by simpa [isClean] using clean
    have handed := h.handed
    rw [pc] at handed
    exact
      { h with
        alive := fun released => absurd rfl released
        calling := fun _ => h.calling (by rw [pc]; simp)
        drained := fun _ => nothing
        small := by
          intro fd now
          cases now
        handed := handed
        answered := by
          rcases h.answered with none_left | ⟨one, _⟩
          · exact .inl none_left
          · rw [nothing] at one
            cases one }
  | pool b pool guard moved => exact h.pool_step guard clean moved
  | readArg w fd pc cell => exact h.read pc cell
  | readFreed w pc cell =>
    have waiting : 0 < tally s.handlers isEntered := tally_pos.mpr ⟨w, by rw [pc]; rfl⟩
    rcases h.answered with ⟨none_left, _⟩ | ⟨_, fd, _, now⟩
    · unfold unread at none_left
      omega
    · rw [cell] at now
      cases now
  | callocHeader w ok fd pc =>
    cases ok with
    | false => cases clean
    | true =>
      refine h.handler (by rw [pc]; simp) (by rw [pc]; rfl) rfl rfl rfl ?_
      apply served_update h.served fun _ _ had => had
      obtain ⟨done, _, notes⟩ := h.served w
      rw [pc] at notes
      exact ⟨done, 0, notes⟩
  | io w fd pc =>
    have log : ∀ v, Served v (s.log ++ [.used w fd]) (Function.update s.handlers w (.serving fd) v) := by
      apply served_update h.served fun v other had => had.note (by simp [Note.ofWorker, Ne.symm other])
      obtain ⟨done, ios, notes⟩ := h.served w
      rw [pc] at notes
      refine Served.advance (by simp [Note.ofWorker]) ⟨done, ios + 1, ?_⟩
      rw [notes]
      simp [underway, List.replicate_succ']
    have next : Isolated { s with
        handlers := Function.update s.handlers w (.serving fd)
        openFds := s.openFds
        log := s.log ++ [.used w fd] } :=
      h.handler (by rw [pc]; simp) (by rw [pc]) (by simp [acceptedFds]) (by simp [storedFds])
        (by simp [tookFds, Note.took?]) log
    rw [← pc, Function.update_eq_self] at next
    exact next
  | close w fd pc =>
    refine h.handler (by rw [pc]; simp) (by rw [pc]; rfl) (by simp [acceptedFds]) (by simp [storedFds])
      (by simp [tookFds, Note.took?]) ?_
    apply served_update h.served fun v other had => had.note (by simp [Note.ofWorker, Ne.symm other])
    obtain ⟨done, ios, notes⟩ := h.served w
    rw [pc] at notes
    refine Served.advance (by simp [Note.ofWorker]) ⟨done ++ [⟨fd, ios⟩], 0, ?_⟩
    rw [notes]
    simp [underway, Service.trace]

theorem isolated {base : List Int} {ls : List (Act n)} (clean : CleanRun base ls)
    (run : (serverLts n base).run (startListener n base) ls = some s) : Isolated s :=
  Lts.run_induction_of_obeys (fun _ _ _ inv ok taken => inv.step ok (step_cases taken))
    (isolated_init base) clean run

end Steps

/-! ## What isolation means at the end -/

section Multisets
variable {n : Nat} {s : Server n}

/-- All jobs have run, and the listener holds no descriptor of its own. -/
structure Quiescent (s : Server n) : Prop where
  listener : s.listener.unstored = []
  unread : unread s = 0
  handlers : ∀ w, s.handlers w = .idle

/-- What worker `w` contributed to a selection of the notes. -/
theorem worker_share {sel : Note n → Option (Fin n × Int)}
    (owner : ∀ e x, sel e = some x → ∀ w, e.ofWorker w = decide (x.1 = w)) (w : Fin n) (log : List (Note n)) :
    (log.filterMap sel).filter (fun x => x.1 = w) = (notesOf w log).filterMap sel := by
  unfold notesOf
  rw [List.filter_filterMap, List.filterMap_filter]
  apply List.filterMap_congr
  intro e _
  cases found : sel e with
  | none => simp
  | some x =>
    rw [owner e x found w]
    by_cases own : x.1 = w <;> simp [own]

theorem Note.took?_owner (e : Note n) (x : Fin n × Int) (found : e.took? = some x) (w : Fin n) :
    e.ofWorker w = decide (x.1 = w) := by
  cases e <;> cases found
  rfl

theorem Note.closed?_owner (e : Note n) (x : Fin n × Int) (found : e.closed? = some x) (w : Fin n) :
    e.ofWorker w = decide (x.1 = w) := by
  cases e <;> cases found
  rfl

/-- An execution takes one descriptor. -/
theorem took_trace (w : Fin n) (e : Service) : (e.trace w).filterMap Note.took? = [(w, e.fd)] := by
  simp [Service.trace, Note.took?]

/-- It closes the one it took. -/
theorem closed_trace (w : Fin n) (e : Service) : (e.trace w).filterMap Note.closed? = [(w, e.fd)] := by
  unfold Service.trace
  rw [List.filterMap_cons_none rfl, List.filterMap_append, List.filterMap_replicate_of_none rfl]
  rfl

/-- When every handler is idle, each worker has closed what it took. -/
theorem closed_eq_took (h : Isolated s) (idle : ∀ w, s.handlers w = .idle) :
    (closedFds s.log).Perm (tookFds s.log) := by
  apply List.Perm.map
  apply List.perm_iff_count.mpr
  rintro ⟨w, fd⟩
  obtain ⟨done, ios, notes⟩ := h.served w
  have complete : notesOf w s.log = done.flatMap (Service.trace w) := by
    rw [notes, idle w]
    exact List.append_nil _
  have share : ∀ xs : List (Fin n × Int), xs.count (w, fd) = (xs.filter fun x => x.1 = w).count (w, fd) := by
    intro xs
    rw [List.count_filter (by simp)]
  rw [share (s.log.filterMap Note.closed?), share (s.log.filterMap Note.took?),
    worker_share Note.closed?_owner, worker_share Note.took?_owner, complete, List.filterMap_flatMap,
    List.filterMap_flatMap]
  simp only [took_trace, closed_trace]

/-- **Connection isolation.** In every clean run the executions of
`handle_new_connection` are given the accepted descriptors in the order of
their acceptance, one execution each; every worker's history is executions
that use and close the descriptor they were given; and when all jobs have run,
the descriptors handled and closed are the descriptors accepted. -/
theorem connections_isolated {base : List Int} {ls : List (Act n)} (clean : CleanRun base ls)
    (run : (serverLts n base).run (startListener n base) ls = some s) :
    tookFds s.log <+: acceptedFds s.log ∧
    (∀ w, ∃ (done : List Service) (ios : Nat),
      notesOf w s.log = done.flatMap (Service.trace w) ++ underway w ios (s.handlers w)) ∧
    (Quiescent s → tookFds s.log = acceptedFds s.log ∧ (closedFds s.log).Perm (acceptedFds s.log)) := by
  have h := isolated clean run
  refine ⟨?_, h.served, ?_⟩
  · rw [h.handed]
    rcases h.answered with ⟨_, order⟩ | ⟨_, fd, order, _⟩
    · rw [order]
      exact List.prefix_append ..
    · rw [order, List.append_assoc]
      exact List.prefix_append ..
  · intro quiet
    have all : tookFds s.log = acceptedFds s.log := by
      rw [h.handed, quiet.listener, List.append_nil]
      rcases h.answered with ⟨_, order⟩ | ⟨one, _⟩
      · exact order.symm
      · rw [quiet.unread] at one
        cases one
    exact ⟨all, all ▸ closed_eq_took h quiet.handlers⟩

/-- One worker, two connections, the second accepted while the first is served. -/
theorem connections_isolated_two :
    ∃ s, (serverLts 1 [0, 1, 2, 3]).run (startListener 1 [0, 1, 2, 3])
        [.accept 4, .store, .pool (.test 0), .pool (.enqueue 0 (some 100)), .pool (.signal 0 []), .loop,
          .pool (.lock 0), .pool (.invoke 0), .readArg 0, .callocHeader 0 true, .accept 5, .store, .io 0,
          .pool (.test 0), .pool (.enqueue 0 (some 101)), .pool (.signal 0 []), .io 0, .close 0, .pool (.ret 0),
          .pool (.del 0), .pool (.readSize 0), .pool (.lock 0), .pool (.invoke 0), .readArg 0,
          .callocHeader 0 true, .io 0, .close 0, .pool (.ret 0)] = some s ∧
      tookFds s.log = acceptedFds s.log ∧ (closedFds s.log).Perm (acceptedFds s.log) := by
  let ls : List (Act 1) :=
    [.accept 4, .store, .pool (.test 0), .pool (.enqueue 0 (some 100)), .pool (.signal 0 []), .loop,
      .pool (.lock 0), .pool (.invoke 0), .readArg 0, .callocHeader 0 true, .accept 5, .store, .io 0,
      .pool (.test 0), .pool (.enqueue 0 (some 101)), .pool (.signal 0 []), .io 0, .close 0, .pool (.ret 0),
      .pool (.del 0), .pool (.readSize 0), .pool (.lock 0), .pool (.invoke 0), .readArg 0,
      .callocHeader 0 true, .io 0, .close 0, .pool (.ret 0)]
  obtain ⟨s, run, quiet⟩ : ∃ s, (serverLts 1 [0, 1, 2, 3]).run (startListener 1 [0, 1, 2, 3]) ls = some s ∧
      Quiescent s := ⟨_, rfl, ⟨by decide, by decide, by decide⟩⟩
  have clean : CleanRun [0, 1, 2, 3] ls := by decide
  exact ⟨s, run, (connections_isolated clean run).2.2 quiet⟩

/-- Two connections are accepted before the first job is taken up: both
workers serve the second, and nobody the first. -/
theorem one_descriptor_served_twice :
    ∃ s, (serverLts 2 [0, 1, 2, 3]).run (startListener 2 [0, 1, 2, 3])
        [.accept 4, .store, .pool (.test 0), .pool (.enqueue 0 (some 100)), .pool (.signal 0 []), .loop,
          .accept 5, .store, .pool (.test 0), .pool (.enqueue 0 (some 101)), .pool (.signal 0 []),
          .pool (.lock 0), .pool (.invoke 0), .readArg 0, .callocHeader 0 true,
          .pool (.lock 1), .pool (.invoke 1), .readArg 1, .callocHeader 1 true,
          .io 0, .close 0, .pool (.ret 0), .io 1, .close 1, .pool (.ret 1)] = some s ∧
      Quiescent s ∧ acceptedFds s.log = [4, 5] ∧ tookFds s.log = [5, 5] ∧ closedFds s.log = [5, 5] := by
  exact ⟨_, rfl, ⟨by decide, by decide, by decide⟩, by decide, by decide, by decide⟩

end Multisets

end NetCalc.Net
