import NetCalc.Net.Isolation
import NetCalc.Thread.PoolBarrier

/-!
# Does the argument outlive its jobs?

`start_listener` frees `c_args` when its loop ends, and returns to `main`,
which only then has the pool finish its jobs. A job that is still queued, or
dequeued and not yet past its read of `*c_args`, reads freed memory.

Two histories tell when that happens: the jobs that were appended to the queue,
and the reads of the cell. They are in balance, in every run, with the jobs
that are still under way (`Accounted`), so the cell is freed in time exactly
when there were as many reads as jobs (`arguments_outlive_iff`).
-/

namespace NetCalc.Net

set_option autoImplicit false
open NetCalc.Lib NetCalc.Thread

section Lifetime
variable {n : Nat} {s t : Server n} {a : Act n}

/-- A worker's read of `*c_args`, freed or not. -/
def Note.isRead : Note n → Bool
  | .took _ _ => true
  | .tookFreed _ => true
  | _ => false

/-- How often the cell was read. -/
def reads (log : List (Note n)) : Nat := log.countP Note.isRead

/-- How many jobs were queued, by the history of the pool. -/
def queued (s : Server n) : Nat := (appended s.pool.log).length

/-- Nobody needs the cell: no job that holds its address is queued, or taken
out and not called, or called and not past its read. -/
structure Unneeded (s : Server n) : Prop where
  queue : liveJobs s.pool.queue = []
  workers : ∀ w, holdsJob (s.pool.workers w) = false
  handlers : ∀ w, isEntered (s.handlers w) = false

/-- `free(c_args)` is taken when nobody needs the cell. -/
def freesUnneeded (s : Server n) : Act n → Prop
  | .free => Unneeded s
  | _ => True

/-- `free(c_args)` is taken when the cell was read as often as jobs were queued. -/
def freesLate (s : Server n) : Act n → Bool
  | .free => queued s = reads s.log
  | _ => true

/-- The argument of the jobs outlives them in a run: whenever it is freed
nobody needs it, and it is never read after that. -/
structure ArgumentsOutlive (base : List Int) (ls : List (Act n)) : Prop where
  freed : (serverLts n base).Obeys freesUnneeded (startListener n base) ls
  read : ∀ s, (serverLts n base).run (startListener n base) ls = some s → ∀ w, Note.tookFreed w ∉ s.log

/-- Every step of a run that frees the cell does so late enough. -/
def FreesLate (base : List Int) (ls : List (Act n)) : Prop :=
  (serverLts n base).Obeys (fun s a => freesLate s a = true) (startListener n base) ls

instance (base : List Int) (ls : List (Act n)) : Decidable (FreesLate base ls) :=
  inferInstanceAs (Decidable (Lts.Obeys _ _ _))

/-! ## Every run -/

/-- What holds in every state: where the parties stand to each other, and that
every job taken out of the queue is under way to its read or has read. -/
structure Accounted (s : Server n) : Prop where
  pool : (poolLts n 1 Task Empty Arg).Reachable s.pool
  alive : s.listener ≠ .released → s.pool.active = ACTIVE ∧ s.pool.destroyer = .idle
  calling : s.listener ≠ .looping → s.pool.callers 0 = .idle
  busy : ∀ w, s.handlers w ≠ .idle → isRunning (s.pool.workers w) = true
  cell : s.args = none → s.listener = .released
  balance : (removed s.pool.log).length =
    tally s.pool.workers holdsJob + tally s.handlers isEntered + reads s.log

theorem accounted_init (base : List Int) : Accounted (startListener n base) where
  pool := Lts.Reaches.refl _
  alive _ := ⟨rfl, rfl⟩
  calling _ := rfl
  busy := by
    intro w pc
    exact absurd rfl pc
  cell := by
    intro freed
    cases freed
  balance := by
    have workers : tally (startListener n base).pool.workers holdsJob = 0 := tally_eq_zero.mpr fun _ => rfl
    have handlers : tally (startListener n base).handlers isEntered = 0 := tally_eq_zero.mpr fun _ => rfl
    rw [workers, handlers]
    rfl

/-- Until it is freed the cell is there. -/
theorem Accounted.kept (h : Accounted s) (listening : s.listener ≠ .released) : s.args ≠ none := by
  intro freed
  exact listening (h.cell freed)

section Pool
variable {b : ConPoolAct n} {p : ConPool n}

/-- A pool action after which as many workers hold a job, and as many handlers
are before their read, as before. -/
theorem Accounted.unmoved (h : Accounted s) (log : removed p.log = removed s.pool.log)
    (workers : tally p.workers holdsJob = tally s.pool.workers holdsJob)
    (handlers : handlersAfter s b = s.handlers) :
    (removed p.log).length = tally p.workers holdsJob + tally (handlersAfter s b) isEntered + reads s.log := by
  rw [log, workers, handlers]
  exact h.balance

/-- A worker that takes the first job out of the queue holds it. -/
theorem Accounted.take (h : Accounted s) {w : Fin n}
    (pc : s.pool.workers w = .atLock ∨ s.pool.workers w = .woken) :
    (removed (s.pool.log ++
        (queueDequeue s.pool.queue Job.null).freed.map fun node => .removed w node.job)).length =
      tally (Function.update s.pool.workers w (.unlocked (queueDequeue s.pool.queue Job.null).out)) holdsJob +
        tally s.handlers isEntered + reads s.log := by
  have order := ordered h.pool
  have free : holdsJob (s.pool.workers w) = false := by
    rcases pc with pc | pc <;> rw [pc] <;> rfl
  cases jobs : liveJobs s.pool.queue with
  | nil =>
    rw [take_nothing order.queue_ok jobs, tally_update_same _ _ _ _ (by rw [free]; rfl)]
    show (removed (s.pool.log ++ [])).length = _
    rw [List.append_nil]
    exact h.balance
  | cons job rest =>
    obtain ⟨_, out, _, log⟩ := take_first (m := 1) order.queue_ok jobs w
    have real : holdsJob (.unlocked job : WorkerPc Task Empty Arg) = true := by
      apply Option.isSome_iff_ne_none.mpr
      apply (sound h.pool).queued job
      rw [order.order, jobs]
      simp
    rw [log, out, tally_gain free real, removed_append, List.length_append, h.balance]
    show _ + 1 = _
    omega

/-- **A pool action keeps the balance** of jobs taken out of the queue. -/
theorem Accounted.balance_pool (h : Accounted s) (guard : poolGuard s b = true)
    (taken : Thread.Step s.pool b p) :
    (removed p.log).length = tally p.workers holdsJob + tally (handlersAfter s b) isEntered + reads s.log := by
  have quiet : ∀ more : List (Event n 1 Task Empty Arg), removed more = [] →
      removed (s.pool.log ++ more) = removed s.pool.log := by
    intro more nothing
    rw [removed_append, nothing, List.append_nil]
  cases taken with
  | enter => cases guard
  | shutdown => cases guard
  | reject | release => exact h.unmoved (quiet _ rfl) rfl rfl
  | destroy => exact h.unmoved (quiet _ rfl) rfl rfl
  | proceed | join => exact h.unmoved rfl rfl rfl
  | enqueue q mem job active pc =>
    refine h.unmoved ?_ rfl rfl
    apply quiet
    split <;> rfl
  | signal q chosen call pc ok =>
    refine h.unmoved (quiet _ rfl) ?_ rfl
    apply tally_wake
    intro w picked
    exact ok.1 w (by simpa using picked)
  | broadcast pc =>
    refine h.unmoved rfl ?_ rfl
    exact tally_wake fun w blocked => blocked
  | wait w pc nothing active =>
    refine h.unmoved rfl ?_ rfl
    apply tally_update_same
    rcases pc with pc | pc <;> rw [pc] <;> rfl
  | take w pc go => exact h.take pc
  | spurious w pc | sizeEmpty w pc | sizeMore w pc | leave w pc | again w pc =>
    refine h.unmoved rfl ?_ rfl
    apply tally_update_same
    rw [pc]
    rfl
  | skip w locals pc nothing =>
    have empty : holdsJob (s.pool.workers w) = false := by
      rw [pc]
      simp [holdsJob, nothing]
    refine h.unmoved rfl ?_ ?_
    · apply tally_update_same
      rw [empty]
      rfl
    · simp [handlersAfter, empty]
  | invoke w locals task pc given =>
    obtain ⟨holding, moves⟩ := invoked_tallies h.busy pc given
    have balance := h.balance
    have log : removed (s.pool.log ++ [.invoked w task locals.arg]) = removed s.pool.log := quiet _ rfl
    simp only [handlersAfter, holding, if_true, log]
    omega
  | ret w locals pc =>
    obtain ⟨jobs, entered⟩ := returned_tallies guard pc
    have log : removed (s.pool.log ++ locals.task.toList.map fun task => .returned w task locals.arg) =
        removed s.pool.log := quiet _ (by simp [removed])
    simp only [handlersAfter, jobs, entered, log]
    exact h.balance
  | del w locals pc =>
    refine h.unmoved (quiet _ (by simp [removed])) ?_ rfl
    apply tally_update_same
    rw [pc]
    rfl

end Pool

theorem reads_append (log : List (Note n)) (e : Note n) :
    reads (log ++ [e]) = reads log + if e.isRead then 1 else 0 := by
  unfold reads
  rw [List.countP_append, List.countP_singleton]

/-- A worker's read of the cell moves its job from one side of the balance to
the other. -/
theorem Accounted.read_balance (h : Accounted s) {w : Fin n} {pc : HandlerPc} {e : Note n}
    (waiting : s.handlers w = .entered) (past : isEntered pc = false) (read : e.isRead = true) :
    (removed s.pool.log).length = tally s.pool.workers holdsJob +
      tally (Function.update s.handlers w pc) isEntered + reads (s.log ++ [e]) := by
  have before : isEntered (s.handlers w) = true := by
    rw [waiting]
    rfl
  have lost := tally_loss before past
  have balance := h.balance
  rw [reads_append, read]
  simp only [if_true]
  omega

/-- **Every step keeps the account.** -/
theorem Accounted.step (h : Accounted s) (taken : Step s a t) : Accounted t := by
  cases taken with
  | raise => exact { h with }
  | accept fd pc nonneg fresh =>
    have idle := h.calling (by rw [pc]; simp)
    have alive := h.alive (by rw [pc]; simp)
    exact
      { h with
        alive := fun _ => alive
        calling := fun _ => idle
        cell := fun freed => absurd freed (h.kept (by rw [pc]; simp))
        balance := by
          rw [reads_append]
          exact h.balance }
  | acceptFails pc =>
    have alive := h.alive (by rw [pc]; simp)
    exact
      { h with
        alive := fun _ => alive
        calling := fun elsewhere => absurd rfl elsewhere
        cell := fun freed => absurd freed (h.kept (by rw [pc]; simp)) }
  | store fd pool pc entered =>
    have alive := h.alive (by rw [pc]; simp)
    have reach : (poolLts n 1 Task Empty Arg).Reachable pool := h.pool.step (l := .enter 0 connectionJob) entered
    cases (Thread.step_cases entered).2 with
    | enter _ _ idle =>
    exact
      { pool := reach
        alive := fun _ => alive
        calling := fun elsewhere => absurd rfl elsewhere
        busy := h.busy
        cell := by
          intro freed
          cases freed
        balance := by
          rw [reads_append]
          exact h.balance }
  | loop pc idle =>
    have alive := h.alive (by rw [pc]; simp)
    exact
      { h with
        alive := fun _ => alive
        calling := fun _ => idle
        cell := fun freed => absurd freed (h.kept (by rw [pc]; simp)) }
  | free pc =>
    have idle := h.calling (by rw [pc]; simp)
    exact
      { h with
        alive := fun released => absurd rfl released
        calling := fun _ => idle
        cell := fun _ => rfl }
  | pool b p guard moved =>
    obtain ⟨_, taken⟩ := Thread.step_cases moved
    exact
      { pool := h.pool.step (l := b) moved
        alive := fun listening => alive_pool (h.alive listening) guard taken listening
        calling := by
          intro elsewhere
          have idle := h.calling elsewhere
          rcases callers_pool guard taken with same | now | ⟨job, pc, _⟩ | ⟨job, active, pc, _⟩
          · exact same.trans idle
          · exact now
          · rw [idle] at pc
            cases pc
          · rw [idle] at pc
            cases pc
        busy := busy_pool h.busy taken
        cell := h.cell
        balance := h.balance_pool guard taken }
  | readArg w fd pc cell =>
    exact
      { h with
        busy := busy_update h.busy (by rw [pc]; simp)
        balance := h.read_balance pc rfl rfl }
  | readFreed w pc cell =>
    exact
      { h with
        busy := busy_update h.busy (by rw [pc]; simp)
        balance := h.read_balance pc rfl rfl }
  | callocHeader w ok fd pc =>
    have same : isEntered (if ok then .serving fd else .finished) = isEntered (s.handlers w) := by
      rw [pc]
      cases ok <;> rfl
    exact
      { h with
        busy := busy_update h.busy (by rw [pc]; simp)
        balance := by
          rw [tally_update_same _ _ _ _ same]
          exact h.balance }
  | io w fd pc =>
    exact
      { h with
        balance := by
          rw [reads_append]
          exact h.balance }
  | close w fd pc =>
    have same : isEntered .finished = isEntered (s.handlers w) := by
      rw [pc]
      rfl
    exact
      { h with
        busy := busy_update h.busy (by rw [pc]; simp)
        balance := by
          rw [tally_update_same _ _ _ _ same, reads_append]
          exact h.balance }

/-- Nobody needs the cell exactly when the workers have read it as often as jobs
were queued, those apart that were thrown away. -/
theorem Accounted.unneeded_iff (h : Accounted s) :
    Unneeded s ↔ queued s = reads s.log + (discarded s.pool.log).length := by
  have order := congrArg List.length (ordered h.pool).order
  simp only [List.length_append] at order
  have balance := h.balance
  unfold queued
  constructor
  · intro nobody
    rw [order, balance, nobody.queue, tally_eq_zero.mpr nobody.workers, tally_eq_zero.mpr nobody.handlers,
      List.length_nil]
    omega
  · intro same
    constructor
    · apply List.length_eq_zero_iff.mp
      omega
    · apply tally_eq_zero.mp
      omega
    · apply tally_eq_zero.mp
      omega

/-! ## After the cell is freed -/

/-- Reads of the cell and jobs thrown away are jobs that were queued. -/
theorem Accounted.bound (h : Accounted s) : reads s.log + (discarded s.pool.log).length ≤ queued s := by
  have order := congrArg List.length (ordered h.pool).order
  simp only [List.length_append] at order
  have balance := h.balance
  unfold queued
  omega

/-- Until the cell is freed no job is thrown away. -/
theorem Accounted.none_discarded (h : Accounted s) (listening : s.listener ≠ .released) :
    discarded s.pool.log = [] := by
  apply (ordered h.pool).kept
  rw [(h.alive listening).2]
  exact DestroyerPc.noConfusion

theorem Step.reads_grow (taken : Step s a t) : reads s.log ≤ reads t.log := by
  cases taken with
  | accept | store | readArg | readFreed | io | close =>
    rw [reads_append]
    exact Nat.le_add_right ..
  | _ => exact Nat.le_refl _

theorem Step.discarded_grow (taken : Step s a t) :
    (discarded s.pool.log).length ≤ (discarded t.pool.log).length := by
  rcases taken.pool_step with same | ⟨b, moved⟩
  · rw [same]
  · exact (Thread.step_cases moved).2.discarded_grows.length_le

/-- When the listener has returned no job is queued any more. -/
theorem Accounted.queues_nothing (h : Accounted s) (released : s.listener = .released) (taken : Step s a t) :
    queued t = queued s := by
  have idle := h.calling (by rw [released]; simp)
  have untested : ∀ q, (s.pool.callers q).isTested = false := by
    intro q
    have only : q = 0 := Subsingleton.elim _ _
    rw [only, idle]
    rfl
  rcases taken.pool_step with same | ⟨b, moved⟩
  · unfold queued
    rw [same]
  · unfold queued
    rw [(Thread.step_cases moved).2.appends_nothing untested]

/-- Freeing the cell is the only way to return from `start_listener`. -/
theorem Step.released (taken : Step s a t) (after : t.listener = .released) :
    s.listener = .released ∨ (a = .free ∧ s.listener = .stopping ∧ t.log = s.log ∧ t.pool = s.pool) := by
  cases taken with
  | free pc => exact .inr ⟨rfl, pc, rfl, rfl⟩
  | accept | acceptFails | store => cases after
  | loop pc idle =>
    dsimp only at after
    split at after <;> cases after
  | _ => exact .inl after

/-- What holds in every state of a run that frees the cell late: the account,
and no job is left, and none was late, once it is freed. -/
structure Spent (s : Server n) : Prop where
  accounted : Accounted s
  late : s.listener = .released → queued s = reads s.log + (discarded s.pool.log).length
  read : ∀ w, Note.tookFreed w ∉ s.log

theorem Spent.step (h : Spent s) (ok : freesLate s a = true) (taken : Step s a t) : Spent t where
  accounted := h.accounted.step taken
  late := by
    intro after
    rcases taken.released after with released | ⟨rfl, stopping, log, pool⟩
    · have bound := (h.accounted.step taken).bound
      have same := h.accounted.queues_nothing released taken
      have before := h.late released
      have more_reads := taken.reads_grow
      have more_discarded := taken.discarded_grow
      omega
    · have exact_count : queued s = reads s.log := of_decide_eq_true ok
      have none_lost := h.accounted.none_discarded (by rw [stopping]; simp)
      unfold queued at exact_count ⊢
      rw [log, pool, none_lost, exact_count]
      rfl
  read := by
    intro w
    cases taken with
    | readFreed v pc cell =>
      have nobody := h.accounted.unneeded_iff.mpr (h.late (h.accounted.cell cell))
      have outside := nobody.handlers v
      rw [pc] at outside
      cases outside
    | accept | store | readArg | io | close =>
      intro member
      rcases List.mem_append.mp member with old | new
      · exact h.read w old
      · cases List.mem_singleton.mp new
    | _ => exact h.read w

/-- **The argument outlives the jobs exactly when the workers have caught up.**
For every run of the server, however connections, signal and workers are
interleaved: `c_args` is freed when nobody needs it, and not read after that,
if and only if it is freed when the workers have read it as often as jobs were
queued. -/
theorem arguments_outlive_iff {base : List Int} {ls : List (Act n)}
    (run : (serverLts n base).run (startListener n base) ls = some s) :
    ArgumentsOutlive base ls ↔ FreesLate base ls := by
  have keeps : ∀ s a t, Accounted s → (serverLts n base).step s a = some t → Accounted t :=
    fun _ _ _ inv taken => inv.step (step_cases taken)
  have at_free : ∀ s : Server n, Accounted s → s.listener = .stopping →
      (Unneeded s ↔ queued s = reads s.log) := by
    intro s inv stopping
    rw [inv.unneeded_iff, inv.none_discarded (by rw [stopping]; simp)]
    rfl
  constructor
  · intro outlive
    refine Lts.Obeys.imp keeps ?_ (accounted_init base) run outlive.freed
    intro s a t inv taken ok
    cases step_cases taken with
    | free pc => exact decide_eq_true ((at_free s inv pc).mp ok)
    | _ => rfl
  · intro late
    constructor
    · refine Lts.Obeys.imp keeps ?_ (accounted_init base) run late
      intro s a t inv taken ok
      cases step_cases taken with
      | free pc => exact (at_free s inv pc).mpr (of_decide_eq_true ok)
      | _ => trivial
    · intro s run
      have start : Spent (startListener n base) := by
        refine ⟨accounted_init base, ?_, ?_⟩
        · intro released
          cases released
        · intro w member
          cases member
      have spent : Spent s := Lts.run_induction_of_obeys
        (fun _ _ _ inv ok taken => inv.step ok (step_cases taken)) start late run
      exact spent.read

/-- A connection is taken up before the signal arrives. -/
theorem arguments_outlive_one :
    ArgumentsOutlive (n := 1) [0, 1, 2, 3]
      [.accept 4, .store, .pool (.test 0), .pool (.enqueue 0 (some 100)), .pool (.signal 0 []),
        .pool (.lock 0), .pool (.invoke 0), .readArg 0, .raise, .loop, .free, .callocHeader 0 true, .close 0] := by
  have run : (serverLts 1 [0, 1, 2, 3]).run (startListener 1 [0, 1, 2, 3])
      [.accept 4, .store, .pool (.test 0), .pool (.enqueue 0 (some 100)), .pool (.signal 0 []),
        .pool (.lock 0), .pool (.invoke 0), .readArg 0, .raise, .loop, .free, .callocHeader 0 true, .close 0] =
      some _ := rfl
  exact (arguments_outlive_iff run).mpr (by decide)

/-- The signal arrives while a connection is queued: its worker reads the cell
after `start_listener` has freed it. -/
theorem argument_read_after_free :
    ∃ s, (serverLts 1 [0, 1, 2, 3]).run (startListener 1 [0, 1, 2, 3])
        [.accept 4, .store, .pool (.test 0), .pool (.enqueue 0 (some 100)), .pool (.signal 0 []), .raise,
          .loop, .free, .pool (.lock 0), .pool (.invoke 0), .readArg 0] = some s ∧
      s.log = [.accepted 4, .stored 4, .tookFreed 0] ∧
      ¬ArgumentsOutlive (n := 1) [0, 1, 2, 3]
        [.accept 4, .store, .pool (.test 0), .pool (.enqueue 0 (some 100)), .pool (.signal 0 []), .raise,
          .loop, .free, .pool (.lock 0), .pool (.invoke 0), .readArg 0] := by
  refine ⟨_, rfl, rfl, ?_⟩
  intro outlive
  exact outlive.read _ rfl 0 (by decide)

end Lifetime

end NetCalc.Net
