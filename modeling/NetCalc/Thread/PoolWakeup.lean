import NetCalc.Lib.Tally
import NetCalc.Thread.PoolHistory

/-!
# No lost wake-up

While some worker sleeps in `pthread_cond_wait`, each queued job is accounted
for: by a caller that has enqueued and not signalled yet, or by a worker that
has been woken and has not looked yet (`Wakeful.counted`). A signal that finds
a sleeper turns one of the first kind into one of the second; a worker that
takes a job uses itself up together with the job. Once the pool's destroyer
has broadcast nobody sleeps, because a worker sleeps in an active pool only
(`Wakeful.swept`).
-/

namespace NetCalc.Thread

set_option autoImplicit false
open NetCalc.Lib

variable {n m : Nat} {τ δ α : Type} {s t : Pool n m τ δ α} {a : Act n m τ δ α}

/-- `threadpool_destroy` has broadcast. -/
def DestroyerPc.hasBroadcast : DestroyerPc → Bool
  | .joining _ => true
  | .destroyed => true
  | _ => false

/-- `threadpool_destroy` has called `threadpool_shutdown`. -/
def DestroyerPc.hasShutdown : DestroyerPc → Bool
  | .idle => false
  | _ => true

/-- The jobs somebody will look for: signals to come and workers woken. -/
def Pool.attention (s : Pool n m τ δ α) : Nat :=
  tally s.callers CallerPc.owesSignal + tally s.workers WorkerPc.isWoken

/-- Some worker sleeps in `pthread_cond_wait`. -/
def Pool.Asleep (s : Pool n m τ δ α) : Prop := ∃ w, (s.workers w).isBlocked = true

/-- No sleeper is left behind. -/
structure Wakeful (s : Pool n m τ δ α) : Prop where
  counted : s.Asleep → (liveJobs s.queue).length ≤ s.attention
  down : s.destroyer.hasShutdown = true → s.active = INACTIVE
  swept : s.destroyer.hasBroadcast = true → ¬s.Asleep

theorem wakeful_init : Wakeful (threadpoolCreate n m τ δ α) where
  counted := by
    rintro ⟨w, asleep⟩
    cases asleep
  down := by
    intro called
    cases called
  swept := by
    intro called
    cases called

/-! ## Frames -/

/-- A step after which nobody sleeps that did not sleep before, and which
accounts for every job. -/
theorem Wakeful.weaken (h : Wakeful s) (sleepers : t.Asleep → s.Asleep)
    (counted : t.Asleep → (liveJobs s.queue).length ≤ s.attention → (liveJobs t.queue).length ≤ t.attention)
    (destroyer : t.destroyer = s.destroyer) (active : t.active = s.active) : Wakeful t where
  counted asleep := counted asleep (h.counted (sleepers asleep))
  down := by
    rw [destroyer, active]
    exact h.down
  swept := by
    rw [destroyer]
    exact fun called asleep => h.swept called (sleepers asleep)

/-- A worker's own step to a place where it is not asleep. -/
theorem asleep_of_update {workers : Fin n → WorkerPc τ δ α} {w : Fin n} {pc : WorkerPc τ δ α}
    (awake : pc.isBlocked = false) (asleep : ∃ v, (Function.update workers w pc v).isBlocked = true) :
    ∃ v, (workers v).isBlocked = true := by
  obtain ⟨v, blocked⟩ := asleep
  by_cases same : v = w
  · subst same
    rw [Function.update_self, awake] at blocked
    cases blocked
  · rw [Function.update_of_ne same] at blocked
    exact ⟨v, blocked⟩

/-- Waking makes no sleepers. -/
theorem asleep_of_wake {workers : Fin n → WorkerPc τ δ α} {chosen : Fin n → Bool} {v : Fin n}
    (asleep : (wake workers chosen v).isBlocked = true) :
    chosen v = false ∧ (workers v).isBlocked = true := by
  unfold wake at asleep
  split at asleep
  · cases asleep
  · rename_i passed
    exact ⟨by simpa using passed, asleep⟩

/-- A caller's step that neither stores nor signals. -/
theorem Wakeful.caller (h : Wakeful s) {p : Fin m} {pc : CallerPc τ δ α}
    (callers : t.callers = Function.update s.callers p pc) (queue : t.queue = s.queue)
    (workers : t.workers = s.workers) (same : pc.owesSignal = (s.callers p).owesSignal)
    (destroyer : t.destroyer = s.destroyer) (active : t.active = s.active) : Wakeful t := by
  refine h.weaken (by simp [Pool.Asleep, workers]) ?_ destroyer active
  intro _ counted
  unfold Pool.attention
  rw [queue, callers, workers, tally_update_same _ _ _ _ same]
  exact counted

/-- A worker's step, from a place where it was not woken to one where it does
not sleep. -/
theorem Wakeful.worker (h : Wakeful s) {w : Fin n} {pc : WorkerPc τ δ α}
    (workers : t.workers = Function.update s.workers w pc) (queue : t.queue = s.queue)
    (callers : t.callers = s.callers) (awake : pc.isBlocked = false)
    (woken : (s.workers w).isWoken = false)
    (destroyer : t.destroyer = s.destroyer) (active : t.active = s.active) : Wakeful t := by
  refine h.weaken ?_ ?_ destroyer active
  · unfold Pool.Asleep
    rw [workers]
    exact asleep_of_update awake
  · intro _ counted
    have more := tally_update s.workers WorkerPc.isWoken w pc
    simp only [woken, Bool.false_eq_true, if_false] at more
    unfold Pool.attention at counted ⊢
    rw [queue, callers, workers]
    omega

/-! ## The steps that move attention -/

/-- A stored job brings a signal to come. -/
theorem Wakeful.enqueue (h : Wakeful s) (order : Ordered s) {p : Fin m} (mem : Option Nat)
    {job : Job τ δ α} {active : Int} (pc : s.callers p = .tested job active) :
    Wakeful (enqueueSection s p mem job active) := by
  refine h.weaken id ?_ rfl rfl
  intro _ counted
  let call : AddJobCall τ δ α :=
    ⟨job, active, mem, s.queue, (queueEnqueue s.queue mem job.task job.delF job.arg).2, SUCCESS⟩
  have owes_nothing : (s.callers p).owesSignal = false := by
    rw [pc]
    rfl
  show (liveJobs call.after).length ≤
    tally (Function.update s.callers p (.unlocked call)) CallerPc.owesSignal + tally s.workers WorkerPc.isWoken
  unfold Pool.attention at counted
  rcases enqueueSection_cases order.queue_ok mem job active with ⟨same, refused, _⟩ | ⟨_, jobs, stored, _⟩
  · have kept : (CallerPc.unlocked call).owesSignal = (s.callers p).owesSignal := by
      rw [owes_nothing]
      exact refused
    rw [tally_update_same _ _ _ _ kept, show call.after = s.queue from same]
    exact counted
  · have gained : (CallerPc.unlocked call).owesSignal = true := stored
    rw [tally_gain owes_nothing gained, show liveJobs call.after = liveJobs s.queue ++ [job] from jobs,
      List.length_append, List.length_singleton]
    omega

/-- A signal that is sent while somebody sleeps wakes somebody. -/
theorem Wakeful.signal (h : Wakeful s) {p : Fin m} {chosen : List (Fin n)}
    (ok : SignalOk s chosen)
    (queue : t.queue = s.queue) (workers : t.workers = wake s.workers fun w => decide (w ∈ chosen))
    (callers : t.callers = Function.update s.callers p .idle)
    (destroyer : t.destroyer = s.destroyer) (active : t.active = s.active) : Wakeful t := by
  have sleepers : t.Asleep → s.Asleep := by
    rintro ⟨w, asleep⟩
    rw [workers] at asleep
    exact ⟨w, (asleep_of_wake asleep).2⟩
  refine h.weaken sleepers ?_ destroyer active
  intro asleep counted
  have paid := tally_le_update s.callers CallerPc.owesSignal p .idle
  have woke : tally s.workers WorkerPc.isWoken < tally t.workers WorkerPc.isWoken := by
    rw [workers]
    apply tally_lt
    · intro w woken
      unfold wake
      split
      · rfl
      · exact woken
    · obtain ⟨w, picked⟩ := List.exists_mem_of_ne_nil chosen (ok.2 (sleepers asleep))
      have blocked := ok.1 w picked
      refine ⟨w, ?_, ?_⟩
      · cases pc : s.workers w <;> simp [WorkerPc.isBlocked, pc] at blocked
        rfl
      · simp [wake, picked, WorkerPc.isWoken]
  unfold Pool.attention at counted ⊢
  rw [queue, callers]
  omega

/-- A worker that takes a job takes itself out of the account with it. -/
theorem Wakeful.take (h : Wakeful s) (order : Ordered s) {w : Fin n} {out : Job τ δ α}
    (queue : t.queue = (queueDequeue s.queue Job.null).queue)
    (workers : t.workers = Function.update s.workers w (.unlocked out)) (callers : t.callers = s.callers)
    (destroyer : t.destroyer = s.destroyer) (active : t.active = s.active) : Wakeful t := by
  refine h.weaken ?_ ?_ destroyer active
  · unfold Pool.Asleep
    rw [workers]
    exact asleep_of_update rfl
  · intro _ counted
    have used := tally_le_update s.workers WorkerPc.isWoken w (.unlocked out)
    unfold Pool.attention at counted ⊢
    rw [queue, callers, workers]
    cases jobs : liveJobs s.queue with
    | nil =>
      rw [take_nothing order.queue_ok jobs, jobs]
      exact Nat.zero_le _
    | cons job rest =>
      obtain ⟨_, _, left, _⟩ := take_first (m := m) order.queue_ok jobs w
      rw [jobs, List.length_cons] at counted
      rw [left]
      omega

theorem Wakeful.step (h : Wakeful s) (order : Ordered s) (taken : Step s a t) : Wakeful t := by
  cases taken with
  | enter p job pc => exact h.caller (p := p) rfl rfl rfl (by rw [pc]; rfl) rfl rfl
  | reject p job pc refused => exact h.caller (p := p) rfl rfl rfl (by rw [pc]; rfl) rfl rfl
  | proceed p job pc task active => exact h.caller (p := p) rfl rfl rfl (by rw [pc]; rfl) rfl rfl
  | enqueue p mem job active pc => exact h.enqueue order mem pc
  | signal p chosen call pc ok => exact h.signal (p := p) ok rfl rfl rfl rfl rfl
  | shutdown => exact ⟨h.counted, fun _ => rfl, h.swept⟩
  | destroy pc =>
    refine ⟨h.counted, fun _ => rfl, ?_⟩
    intro called
    cases called
  | broadcast pc =>
    have nobody : ¬Pool.Asleep ({ s with
        workers := wake s.workers fun w => (s.workers w).isBlocked
        destroyer := .joining 0 } : Pool n m τ δ α) := by
      rintro ⟨w, asleep⟩
      dsimp only at asleep
      obtain ⟨passed, blocked⟩ := asleep_of_wake asleep
      rw [passed] at blocked
      cases blocked
    exact ⟨fun asleep => absurd asleep nobody, fun _ => h.down (by rw [pc]; rfl), fun _ => nobody⟩
  | join k _ pc =>
    exact ⟨h.counted, fun _ => h.down (by rw [pc]; rfl), fun _ => h.swept (by rw [pc]; rfl)⟩
  | release pc =>
    have nobody := h.swept (by rw [pc]; rfl)
    exact ⟨fun asleep => absurd asleep nobody, fun _ => h.down (by rw [pc]; rfl), fun _ => nobody⟩
  | wait w pc nothing active =>
    refine ⟨?_, h.down, ?_⟩
    · intro _
      show (liveJobs s.queue).length ≤ _
      rw [order.queue_ok.size_eq_zero.mp nothing]
      exact Nat.zero_le _
    · intro called
      have off : s.active = INACTIVE := by
        apply h.down
        cases d : s.destroyer <;> simp [DestroyerPc.hasBroadcast, DestroyerPc.hasShutdown, d] at called ⊢
      rw [active] at off
      cases off
  | take w pc go => exact h.take order rfl rfl rfl rfl rfl
  | spurious w pc =>
    refine h.weaken (asleep_of_update rfl) ?_ rfl rfl
    intro _ counted
    have asleep : (s.workers w).isWoken = false := by
      rw [pc]
      rfl
    unfold Pool.attention at counted ⊢
    dsimp only
    rw [tally_gain asleep rfl]
    omega
  | skip w locals pc nothing => exact h.worker (w := w) rfl rfl rfl rfl (by rw [pc]; rfl) rfl rfl
  | invoke w locals task pc given => exact h.worker (w := w) rfl rfl rfl rfl (by rw [pc]; rfl) rfl rfl
  | ret w locals pc => exact h.worker (w := w) rfl rfl rfl rfl (by rw [pc]; rfl) rfl rfl
  | del w locals pc => exact h.worker (w := w) rfl rfl rfl rfl (by rw [pc]; rfl) rfl rfl
  | sizeEmpty w pc nothing => exact h.worker (w := w) rfl rfl rfl rfl (by rw [pc]; rfl) rfl rfl
  | sizeMore w pc more => exact h.worker (w := w) rfl rfl rfl rfl (by rw [pc]; rfl) rfl rfl
  | leave w pc inactive => exact h.worker (w := w) rfl rfl rfl rfl (by rw [pc]; rfl) rfl rfl
  | again w pc active => exact h.worker (w := w) rfl rfl rfl rfl (by rw [pc]; rfl) rfl rfl

theorem wakeful (h : (poolLts n m τ δ α).Reachable s) : Wakeful s :=
  Lts.reachable_induction_with (Q := Ordered) (fun _ reach => ordered reach) wakeful_init
    (fun _ _ _ order inv taken => inv.step order (step_cases taken).2) h

/-! ## The two halves of the claim -/

/-- Nothing takes a broadcast back. -/
theorem Step.broadcast_stays (taken : Step s a t) (called : s.destroyer.hasBroadcast = true) :
    t.destroyer.hasBroadcast = true := by
  cases taken with
  | destroy pc =>
    rw [pc] at called
    cases called
  | broadcast | join | release => rfl
  | _ => exact called

/-- With everyone asleep or gone, somebody owes the queued jobs a signal. -/
theorem signal_owed (h : Wakeful s) (some_left : ∃ w, (s.workers w).isExited = false)
    (asleep : ∀ w, (s.workers w).isExited = false → (s.workers w).isBlocked = true)
    (queued : liveJobs s.queue ≠ []) : ∃ p, (s.callers p).owesSignal = true := by
  obtain ⟨w, left⟩ := some_left
  have counted := h.counted ⟨w, asleep w left⟩
  have nobody_woken : tally s.workers WorkerPc.isWoken = 0 := by
    apply tally_eq_zero.mpr
    intro v
    cases pc : s.workers v with
    | woken =>
      have blocked := asleep v (by rw [pc]; rfl)
      rw [pc] at blocked
      cases blocked
    | _ => rfl
  have some_queued := List.length_pos_of_ne_nil queued
  unfold Pool.attention at counted
  exact tally_pos.mp (by omega)

/-- **No lost wake-up.** If every worker that has not left is asleep while jobs
are queued, a caller has stored its job and is about to signal; and after the
destroyer's broadcast no worker is ever asleep again. -/
theorem no_lost_wakeup (h : (poolLts n m τ δ α).Reachable s) :
    ((∃ w, (s.workers w).isExited = false) →
      (∀ w, (s.workers w).isExited = false → (s.workers w).isBlocked = true) →
      liveJobs s.queue ≠ [] → ∃ p, (s.callers p).owesSignal = true) ∧
    (∀ s₁ t, step s .broadcast = some s₁ → (poolLts n m τ δ α).Reaches s₁ t →
      ∀ w, (t.workers w).isBlocked = false) := by
  refine ⟨signal_owed (wakeful h), ?_⟩
  intro s₁ t taken run w
  have start : s₁.destroyer.hasBroadcast = true := by
    cases (step_cases taken).2
    rfl
  have reach₁ : (poolLts n m τ δ α).Reachable s₁ := h.step (l := .broadcast) taken
  have later : (poolLts n m τ δ α).Reachable t ∧ t.destroyer.hasBroadcast = true := by
    refine Lts.reaches_induction
      (P := fun t => (poolLts n m τ δ α).Reachable t ∧ t.destroyer.hasBroadcast = true)
      ?_ ⟨reach₁, start⟩ run
    rintro u b v ⟨reach, called⟩ went
    exact ⟨reach.step went, (step_cases went).2.broadcast_stays called⟩
  have nobody := (wakeful later.1).swept later.2
  by_contra asleep
  exact nobody ⟨w, by simpa using asleep⟩

/-- Two workers asleep, one job stored: its caller still owes the signal. Then
`threadpool_destroy` wakes both, and neither sleeps again. -/
theorem no_lost_wakeup_two :
    (∃ s, (poolLts 2 1 Nat Nat Nat).run (threadpoolCreate 2 1 Nat Nat Nat)
        [.lock 0, .lock 1, .enter 0 ⟨some 1, none, some 7⟩, .test 0, .enqueue 0 (some 100)] = some s ∧
      (s.workers 0).isBlocked = true ∧ ∃ p, (s.callers p).owesSignal = true) ∧
    ∃ s s₁, (poolLts 2 1 Nat Nat Nat).run (threadpoolCreate 2 1 Nat Nat Nat)
        [.lock 0, .lock 1, .enter 0 ⟨some 1, none, some 7⟩, .test 0, .enqueue 0 (some 100), .destroy] = some s ∧
      (s.workers 0).isBlocked = true ∧ step s .broadcast = some s₁ ∧
      ∀ t, (poolLts 2 1 Nat Nat Nat).Reaches s₁ t → ∀ w, (t.workers w).isBlocked = false := by
  constructor
  · obtain ⟨s, run, all, queued⟩ : ∃ s, (poolLts 2 1 Nat Nat Nat).run (threadpoolCreate 2 1 Nat Nat Nat)
        [.lock 0, .lock 1, .enter 0 ⟨some 1, none, some 7⟩, .test 0, .enqueue 0 (some 100)] = some s ∧
        (∀ w, (s.workers w).isExited = false ∧ (s.workers w).isBlocked = true) ∧ liveJobs s.queue ≠ [] :=
      ⟨_, rfl, by decide, by decide⟩
    have owed := (no_lost_wakeup ⟨_, run⟩).1 ⟨0, (all 0).1⟩ (fun w _ => (all w).2) queued
    exact ⟨s, run, (all 0).2, owed⟩
  · obtain ⟨s, run, asleep, s₁, taken⟩ : ∃ s, (poolLts 2 1 Nat Nat Nat).run (threadpoolCreate 2 1 Nat Nat Nat)
        [.lock 0, .lock 1, .enter 0 ⟨some 1, none, some 7⟩, .test 0, .enqueue 0 (some 100), .destroy] = some s ∧
        (s.workers 0).isBlocked = true ∧ ∃ s₁, step s .broadcast = some s₁ := ⟨_, rfl, rfl, _, rfl⟩
    exact ⟨s, s₁, run, asleep, taken, fun t => (no_lost_wakeup ⟨_, run⟩).2 s₁ t taken⟩

end NetCalc.Thread
