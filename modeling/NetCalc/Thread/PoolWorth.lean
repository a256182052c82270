import NetCalc.Lib.Potential
import NetCalc.Thread.PoolShutdown
import NetCalc.Thread.PoolWakeup

/-!
# What bounds the pool's loops

The loop of `start_thread` has no bound of its own. What bounds it is charged
here: a queued job pays for the pass that takes it and for the passes it makes
other workers try; a signal pays for whom it wakes; `threadpool_destroy` pays
for the change from an active pool, where an idle worker sleeps, to an
inactive one, where it leaves. Beyond that, only a new call of
`threadpool_add_job`, a call of `threadpool_shutdown` and a wake-up for no
reason bring in steps (`Act.price`): `step_pays` is the account of one step.

`Stopping` is the other half of why the pool ends well: who has left, and how
far `threadpool_destroy` has come with joining them.
-/

namespace NetCalc.Thread

set_option autoImplicit false
open NetCalc.Lib

variable {n m : Nat} {τ δ α : Type} {s t : Pool n m τ δ α} {a : Act n m τ δ α}

/-! ## Where the parties are when the pool stops -/

/-- How far the pool is shut down, and who has noticed. -/
structure Stopping (s : Pool n m τ δ α) : Prop where
  two : s.active = ACTIVE ∨ s.active = INACTIVE
  left : ∀ w, (s.workers w).isExited = true → s.active = INACTIVE
  joined : ∀ k, s.destroyer = .joining k → k ≤ n ∧ ∀ w : Fin n, w.val < k → (s.workers w).isExited = true
  gone : s.destroyer = .destroyed → AllExited s ∧ liveJobs s.queue = []

theorem stopping_init : Stopping (threadpoolCreate n m τ δ α) where
  two := .inl rfl
  left := by
    intro w exited
    cases exited
  joined := by
    intro k joins
    cases joins
  gone := by
    intro destroyed
    cases destroyed

/-- Nobody comes back. -/
theorem exited_of_update {workers : Fin n → WorkerPc τ δ α} {w : Fin n} {pc : WorkerPc τ δ α}
    (inside : (workers w).isExited = false) {v : Fin n} (exited : (workers v).isExited = true) :
    (Function.update workers w pc v).isExited = true := by
  have other : v ≠ w := by
    rintro rfl
    rw [inside] at exited
    cases exited
  rw [Function.update_of_ne other]
  exact exited

/-- Waking the blocked makes nobody leave or come back. -/
theorem exited_wake {workers : Fin n → WorkerPc τ δ α} {chosen : Fin n → Bool}
    (blocked : ∀ w, chosen w = true → (workers w).isBlocked = true) (v : Fin n) :
    (wake workers chosen v).isExited = (workers v).isExited := by
  unfold wake
  split
  · rename_i picked
    have asleep := blocked v picked
    cases pc : workers v <;> simp [WorkerPc.isBlocked, pc] at asleep
    rfl
  · rfl

/-- The workers that have left are the same. -/
theorem Stopping.same (h : Stopping s) (live : s.destroyer ≠ .destroyed)
    (workers : ∀ w, (t.workers w).isExited = (s.workers w).isExited) (active : t.active = s.active)
    (destroyer : t.destroyer = s.destroyer) : Stopping t where
  two := by rw [active]; exact h.two
  left := by
    intro w exited
    rw [active]
    exact h.left w (by rw [← workers]; exact exited)
  joined := by
    intro k joins
    rw [destroyer] at joins
    obtain ⟨le, before⟩ := h.joined k joins
    exact ⟨le, fun w lt => by rw [workers]; exact before w lt⟩
  gone := by
    intro destroyed
    exact absurd (destroyer ▸ destroyed) live

/-- A worker that has not left moves on inside the loop. -/
theorem Stopping.worker (h : Stopping s) (live : s.destroyer ≠ .destroyed) {w : Fin n} {pc : WorkerPc τ δ α}
    (workers : t.workers = Function.update s.workers w pc) (before : (s.workers w).isExited = false)
    (after : pc.isExited = false) (active : t.active = s.active) (destroyer : t.destroyer = s.destroyer) :
    Stopping t := by
  refine h.same live ?_ active destroyer
  intro v
  rw [workers]
  by_cases same : v = w
  · subst same
    rw [Function.update_self, before, after]
  · rw [Function.update_of_ne same]

theorem Stopping.step (h : Stopping s) (order : Ordered s) (live : s.destroyer ≠ .destroyed)
    (taken : Step s a t) : Stopping t := by
  cases taken with
  | enter | reject | proceed | enqueue => exact h.same live (fun _ => rfl) rfl rfl
  | signal p chosen call pc ok =>
    exact h.same live (exited_wake fun w picked => ok.1 w (by simpa using picked)) rfl rfl
  | shutdown => exact ⟨.inr rfl, fun _ _ => rfl, h.joined, fun destroyed => absurd destroyed live⟩
  | destroy => exact ⟨.inr rfl, fun _ _ => rfl, by simp, by simp⟩
  | broadcast =>
    refine ⟨h.two, ?_, ?_, by simp⟩
    · intro w exited
      exact h.left w (by rw [← exited]; exact (exited_wake (fun _ asleep => asleep) w).symm)
    · rintro k ⟨⟩
      exact ⟨Nat.zero_le n, fun w lt => absurd lt (Nat.not_lt_zero _)⟩
  | join k less pc left =>
    refine ⟨h.two, h.left, ?_, by simp⟩
    rintro _ ⟨⟩
    refine ⟨less, ?_⟩
    intro w le
    rcases Nat.lt_succ_iff_lt_or_eq.mp le with earlier | same
    · exact (h.joined k pc).2 w earlier
    · have this : w = ⟨k, less⟩ := Fin.ext same
      rw [this]
      exact left
  | release pc =>
    obtain ⟨_, none_left⟩ := order.queue_ok.clear
    exact ⟨h.two, h.left, by simp, fun _ => ⟨fun w => (h.joined n pc).2 w w.isLt, none_left⟩⟩
  | wait w pc | take w pc =>
    have before : (s.workers w).isExited = false := by rcases pc with pc | pc <;> rw [pc] <;> rfl
    exact h.worker live (w := w) rfl before rfl rfl rfl
  | spurious w pc | sizeEmpty w pc | sizeMore w pc | again w pc =>
    exact h.worker live (w := w) rfl (by rw [pc]; rfl) rfl rfl rfl
  | skip w locals pc | ret w locals pc | del w locals pc =>
    exact h.worker live (w := w) rfl (by rw [pc]; rfl) rfl rfl rfl
  | invoke w locals task pc => exact h.worker live (w := w) rfl (by rw [pc]; rfl) rfl rfl rfl
  | leave w pc inactive =>
    have inside : (s.workers w).isExited = false := by rw [pc]; rfl
    refine ⟨h.two, fun _ _ => inactive, ?_, fun destroyed => absurd destroyed live⟩
    intro k joins
    obtain ⟨le, before⟩ := h.joined k joins
    exact ⟨le, fun v lt => exited_of_update inside (before v lt)⟩

theorem stopping (h : (poolLts n m τ δ α).Reachable s) : Stopping s :=
  Lts.reachable_induction_with (Q := Ordered) (fun _ reach => ordered reach) stopping_init
    (fun _ _ _ order inv taken => inv.step order (step_cases taken).1 (step_cases taken).2) h

/-! ## What the parties can still do -/

/-- Steps a worker has before it, as long as it finds no job: in an active pool
until it sleeps, in an inactive one until it leaves. There a pass over an empty
queue ends in leaving, unless a job comes in before `size` is read. -/
def WorkerPc.worth (active : Int) (empty : Bool) : WorkerPc τ δ α → Nat
  | .exited => 0
  | .blocked => if active = INACTIVE then 5 else 0
  | .atLock | .woken => if active = INACTIVE then 4 else 1
  | .testActive => if active = INACTIVE then 1 else 2
  | .testSize => if active = INACTIVE then if empty then 2 else 5 else 3
  | .unlocked locals =>
    if active = INACTIVE then if locals.task.isSome then 8 else if empty then 3 else 6 else 6
  | .running _ => if active = INACTIVE then 7 else 5
  | .returned _ => if active = INACTIVE then 6 else 4

/-- What a call of `threadpool_add_job` can still cause with `n` workers. -/
def CallerPc.worth (n : Nat) : CallerPc τ δ α → Nat
  | .idle => 0
  | .unlocked _ => n + 1
  | .tested _ _ => 4 * n + 8
  | .entered _ => 4 * n + 9

/-- What `threadpool_destroy` can still cause with `n` workers. -/
def DestroyerPc.worth (n : Nat) : DestroyerPc → Nat
  | .idle => 7 * n + 3
  | .inactive => 2 * n + 2
  | .joining k => n - k + 1
  | .destroyed => 0

/-- The pool's potential. -/
def Pool.worth (s : Pool n m τ δ α) : Nat :=
  6 * (liveJobs s.queue).length + total s.workers (WorkerPc.worth s.active (liveJobs s.queue).isEmpty) +
    total s.callers (CallerPc.worth n) + s.destroyer.worth n

/-- What an action brings in from outside the pool. -/
def Act.price : Act n m τ δ α → Nat
  | .enter _ _ => 4 * n + 10
  | .shutdown => 5 * n + 1
  | .spurious _ => 2
  | _ => 0

/-- A worker alone moves. -/
theorem worker_pays {w : Fin n} {pc : WorkerPc τ δ α} {c : Nat}
    (workers : t.workers = Function.update s.workers w pc) (queue : t.queue = s.queue)
    (callers : t.callers = s.callers) (active : t.active = s.active) (destroyer : t.destroyer = s.destroyer)
    (less : pc.worth s.active (liveJobs s.queue).isEmpty + 1 ≤
      (s.workers w).worth s.active (liveJobs s.queue).isEmpty + c) : t.worth + 1 ≤ s.worth + c := by
  have exchanged := total_update s.workers (WorkerPc.worth s.active (liveJobs s.queue).isEmpty) w pc
  unfold Pool.worth
  rw [workers, queue, callers, active, destroyer]
  omega

/-- A caller alone moves. -/
theorem caller_pays {p : Fin m} {pc : CallerPc τ δ α} {c : Nat}
    (callers : t.callers = Function.update s.callers p pc) (queue : t.queue = s.queue)
    (workers : t.workers = s.workers) (active : t.active = s.active) (destroyer : t.destroyer = s.destroyer)
    (less : pc.worth n + 1 ≤ (s.callers p).worth n + c) : t.worth + 1 ≤ s.worth + c := by
  have exchanged := total_update s.callers (CallerPc.worth n) p pc
  unfold Pool.worth
  rw [workers, queue, callers, active, destroyer]
  omega

/-- A queue that is no longer empty gives a worker another pass. -/
theorem WorkerPc.worth_refilled (active : Int) (empty : Bool) (pc : WorkerPc τ δ α) :
    pc.worth active false ≤ pc.worth active empty + 3 := by
  unfold WorkerPc.worth
  cases pc <;> dsimp only <;> grind

/-- A queue that is emptied takes it away again. -/
theorem WorkerPc.worth_emptied (active : Int) (empty : Bool) (pc : WorkerPc τ δ α) :
    pc.worth active empty ≤ pc.worth active false := by
  unfold WorkerPc.worth
  cases pc <;> dsimp only <;> grind

/-- A sleeper in an inactive pool has a whole pass before it. -/
theorem WorkerPc.worth_inactive (active : Int) (empty : Bool) (pc : WorkerPc τ δ α) :
    pc.worth INACTIVE empty ≤ pc.worth active empty + 5 := by
  unfold WorkerPc.worth
  cases pc <;> dsimp only <;> grind

/-- Somebody wakes sleepers. -/
theorem worth_wake (workers : Fin n → WorkerPc τ δ α) (chosen : Fin n → Bool) (active : Int) (empty : Bool)
    (blocked : ∀ w, chosen w = true → (workers w).isBlocked = true) :
    total (wake workers chosen) (WorkerPc.worth active empty) ≤
      total workers (WorkerPc.worth active empty) + n := by
  have each : ∀ w, (wake workers chosen w).worth active empty ≤ (workers w).worth active empty + 1 := by
    intro w
    unfold wake
    split
    · rename_i picked
      have asleep := blocked w picked
      cases pc : workers w <;> simp [WorkerPc.isBlocked, pc] at asleep
      unfold WorkerPc.worth
      dsimp only
      grind
    · exact Nat.le_succ _
  have all := total_le 1 each
  rwa [Fintype.card_fin, Nat.mul_one] at all

/-- A shutdown turns passes that end in sleep into passes that end in leaving. -/
theorem worth_shutdown (workers : Fin n → WorkerPc τ δ α) (active : Int) (empty : Bool) :
    total workers (WorkerPc.worth INACTIVE empty) ≤ total workers (WorkerPc.worth active empty) + 5 * n := by
  have all := total_le (f := workers) (g := workers) 5 fun w => WorkerPc.worth_inactive active empty (workers w)
  rwa [Fintype.card_fin, Nat.mul_comm] at all

/-- A stored job pays for the pass that takes it, for its signal, and for the
passes of workers that had seen the queue empty. -/
theorem enqueue_pays (order : Ordered s) {p : Fin m} (mem : Option Nat) {job : Job τ δ α} {active : Int}
    (pc : s.callers p = .tested job active) : (enqueueSection s p mem job active).worth + 1 ≤ s.worth := by
  rcases enqueueSection_cases order.queue_ok mem job active with ⟨same, _⟩ | ⟨_, jobs, _⟩
  · refine caller_pays (c := 0) (p := p) rfl same rfl rfl rfl ?_
    rw [pc]
    simp only [CallerPc.worth]
    omega
  · let call : AddJobCall τ δ α :=
      ⟨job, active, mem, s.queue, (queueEnqueue s.queue mem job.task job.delF job.arg).2, SUCCESS⟩
    have longer : liveJobs call.after = liveJobs s.queue ++ [job] := jobs
    have passes := total_le (f := s.workers) (g := s.workers) 3 fun w =>
      WorkerPc.worth_refilled s.active (liveJobs s.queue).isEmpty (s.workers w)
    have exchanged := total_update s.callers (CallerPc.worth n) p (.unlocked call)
    have refilled : (liveJobs call.after).isEmpty = false := by rw [longer]; simp
    rw [Fintype.card_fin] at passes
    rw [pc] at exchanged
    simp only [CallerPc.worth] at exchanged
    show 6 * (liveJobs call.after).length +
        total s.workers (WorkerPc.worth s.active (liveJobs call.after).isEmpty) +
      total (Function.update s.callers p (.unlocked call)) (CallerPc.worth n) + s.destroyer.worth n + 1 ≤ s.worth
    unfold Pool.worth
    rw [refilled, longer, List.length_append, List.length_singleton]
    omega

/-- A pass of the loop is paid for by the job it takes, and a pass that takes
none by leaving. -/
theorem take_pays (order : Ordered s) (stops : Stopping s) {w : Fin n}
    (pc : s.workers w = .atLock ∨ s.workers w = .woken) (go : ¬(s.queue.size = EMPTY ∧ s.active = ACTIVE))
    (workers : t.workers = Function.update s.workers w (.unlocked (queueDequeue s.queue Job.null).out))
    (queue : t.queue = (queueDequeue s.queue Job.null).queue) (callers : t.callers = s.callers)
    (active : t.active = s.active) (destroyer : t.destroyer = s.destroyer) : t.worth + 1 ≤ s.worth := by
  have before : ∀ empty, (s.workers w).worth s.active empty = if s.active = INACTIVE then 4 else 1 := by
    intro empty
    rcases pc with pc | pc <;> rw [pc] <;> rfl
  cases jobs : liveJobs s.queue with
  | nil =>
    have nothing := take_nothing order.queue_ok jobs
    rw [nothing] at workers queue
    have empty : s.queue.size = EMPTY := order.queue_ok.size_eq_zero.mpr jobs
    have off : s.active = INACTIVE := stops.two.resolve_left fun on => go ⟨empty, on⟩
    refine worker_pays (c := 0) workers queue callers active destroyer ?_
    rw [before, off, jobs]
    exact Nat.le_refl _
  | cons job rest =>
    obtain ⟨_, out, left, _⟩ := take_first (m := m) order.queue_ok jobs w
    rw [out] at workers
    have emptied := total_mono (f := t.workers) (g := t.workers) fun v =>
      WorkerPc.worth_emptied s.active rest.isEmpty (t.workers v)
    have exchanged := total_update s.workers (WorkerPc.worth s.active false) w (.unlocked job)
    have pass : (WorkerPc.unlocked job).worth s.active false ≤ (s.workers w).worth s.active false + 5 := by
      rw [before]
      unfold WorkerPc.worth
      dsimp only
      grind
    unfold Pool.worth
    rw [queue, left, callers, active, destroyer, jobs, List.length_cons, List.isEmpty_cons]
    rw [workers] at emptied ⊢
    omega

/-- **Every step of the pool is paid for.** -/
theorem step_pays (order : Ordered s) (stops : Stopping s) (taken : Step s a t) :
    t.worth + 1 ≤ s.worth + a.price := by
  cases taken with
  | enter p job pc =>
    refine caller_pays (p := p) rfl rfl rfl rfl rfl ?_
    rw [pc]
    simp only [CallerPc.worth, Act.price]
    omega
  | reject p job pc | proceed p job pc =>
    refine caller_pays (p := p) rfl rfl rfl rfl rfl ?_
    rw [pc]
    simp only [CallerPc.worth, Act.price]
    omega
  | enqueue p mem job active pc => exact enqueue_pays order mem pc
  | signal p chosen call pc ok =>
    have woken := worth_wake s.workers (fun w => decide (w ∈ chosen)) s.active
      (liveJobs s.queue).isEmpty fun w picked => ok.1 w (by simpa using picked)
    have exchanged := total_update s.callers (CallerPc.worth n) p .idle
    rw [pc] at exchanged
    simp only [CallerPc.worth] at exchanged
    unfold Pool.worth Act.price
    dsimp only
    omega
  | shutdown =>
    have passes := worth_shutdown s.workers s.active (liveJobs s.queue).isEmpty
    unfold Pool.worth Act.price shutdownSection
    dsimp only
    omega
  | destroy pc =>
    have passes := worth_shutdown s.workers s.active (liveJobs s.queue).isEmpty
    unfold Pool.worth Act.price shutdownSection
    rw [pc]
    simp only [DestroyerPc.worth]
    omega
  | broadcast pc =>
    have woken := worth_wake s.workers (fun w => (s.workers w).isBlocked) s.active
      (liveJobs s.queue).isEmpty fun _ asleep => asleep
    unfold Pool.worth Act.price
    rw [pc]
    simp only [DestroyerPc.worth]
    omega
  | join k less pc =>
    unfold Pool.worth Act.price
    rw [pc]
    simp only [DestroyerPc.worth]
    omega
  | release pc =>
    obtain ⟨_, none_left⟩ := order.queue_ok.clear
    have gone : ∀ empty, total s.workers (WorkerPc.worth s.active empty) = 0 := by
      intro empty
      apply Finset.sum_eq_zero
      intro w _
      have left := (stops.joined n pc).2 w w.isLt
      cases at_end : s.workers w <;> simp [WorkerPc.isExited, at_end] at left
      rfl
    unfold Pool.worth Act.price
    rw [pc]
    simp only [DestroyerPc.worth, none_left, gone, List.length_nil]
    omega
  | wait w pc nothing active =>
    refine worker_pays (w := w) rfl rfl rfl rfl rfl ?_
    rw [active]
    rcases pc with pc | pc <;> rw [pc] <;> exact Nat.le_refl _
  | take w pc go => exact take_pays order stops pc go rfl rfl rfl rfl rfl
  | spurious w pc =>
    refine worker_pays (w := w) rfl rfl rfl rfl rfl ?_
    rw [pc]
    unfold WorkerPc.worth Act.price
    dsimp only
    grind
  | skip w locals pc nothing =>
    refine worker_pays (w := w) rfl rfl rfl rfl rfl ?_
    rw [pc]
    unfold WorkerPc.worth
    dsimp only
    grind
  | invoke w locals task pc given =>
    refine worker_pays (w := w) rfl rfl rfl rfl rfl ?_
    rw [pc]
    unfold WorkerPc.worth
    dsimp only
    grind
  | ret w locals pc | del w locals pc | again w pc =>
    refine worker_pays (w := w) rfl rfl rfl rfl rfl ?_
    rw [pc]
    unfold WorkerPc.worth
    dsimp only
    grind
  | sizeEmpty w pc nothing =>
    refine worker_pays (w := w) rfl rfl rfl rfl rfl ?_
    rw [pc, order.queue_ok.size_eq_zero.mp nothing]
    unfold WorkerPc.worth
    dsimp only
    grind
  | sizeMore w pc more =>
    refine worker_pays (w := w) rfl rfl rfl rfl rfl ?_
    rw [pc]
    have jobs : (liveJobs s.queue).isEmpty = false := by
      rw [List.isEmpty_eq_false_iff]
      exact fun none_left => more (order.queue_ok.size_eq_zero.mpr none_left)
    rw [jobs]
    unfold WorkerPc.worth
    dsimp only
    grind
  | leave w pc inactive =>
    refine worker_pays (w := w) rfl rfl rfl rfl rfl ?_
    rw [pc, inactive]
    exact Nat.le_refl _

theorem worth_init : (threadpoolCreate n m τ δ α).worth = 8 * n + 3 := by
  have workers : total (threadpoolCreate n m τ δ α).workers
      (WorkerPc.worth ACTIVE (liveJobs (emptyQueue : Queue τ δ α)).isEmpty) = n := by
    simp only [total, threadpoolCreate, WorkerPc.worth]
    rw [if_neg (by decide), Finset.sum_const, Finset.card_univ, Fintype.card_fin, smul_eq_mul, Nat.mul_one]
  have callers : total (threadpoolCreate n m τ δ α).callers (CallerPc.worth n) = 0 :=
    Finset.sum_eq_zero fun _ _ => rfl
  calc (threadpoolCreate n m τ δ α).worth
      = 6 * (liveJobs (emptyQueue : Queue τ δ α)).length +
          total (threadpoolCreate n m τ δ α).workers
            (WorkerPc.worth ACTIVE (liveJobs (emptyQueue : Queue τ δ α)).isEmpty) +
          total (threadpoolCreate n m τ δ α).callers (CallerPc.worth n) + (7 * n + 3) := rfl
    _ = 8 * n + 3 := by
      rw [workers, callers, emptyQueue_jobs, List.length_nil]
      omega

/-! ## Nothing left to do -/

/-- A worker that sleeps or has left has no job in hand. -/
theorem executed_of_idle (h : (poolLts n m τ δ α).Reachable s) {w : Fin n}
    (idle : s.workers w = .blocked ∨ s.workers w = .exited) :
    ∃ done : List (Job τ δ α), (∀ job ∈ done, job.task ≠ none) ∧
      workerLog w s.log = done.flatMap (jobTrace w) := by
  obtain ⟨_, done, tasks, trace⟩ := traced h w
  refine ⟨done, tasks, ?_⟩
  rw [trace]
  rcases idle with pc | pc <;> rw [pc] <;> exact List.append_nil _

/-- Where everybody sleeps, the queue is empty. -/
theorem queue_empty_of_asleep (h : Wakeful s) (some_worker : 0 < n) (asleep : ∀ w, s.workers w = .blocked)
    (quiet : ∀ p, s.callers p = .idle) : liveJobs s.queue = [] := by
  by_contra queued
  obtain ⟨p, owes⟩ := signal_owed h ⟨⟨0, some_worker⟩, by rw [asleep]; rfl⟩
    (fun w _ => by rw [asleep]; rfl) queued
  rw [quiet p] at owes
  cases owes

end NetCalc.Thread
