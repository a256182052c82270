import NetCalc.Thread.PoolShutdown

/-!
# Does a shutdown keep new work out?

`threadpool_add_job` reads `active` before it locks the mutex and does not look
again. A call that has passed its test is thus not stopped by a shutdown: it
enqueues its job and answers `SUCCESS`. Nobody passes the test of an inactive
pool, so these calls are the only ones (`shutdown_barrier_iff`).
-/

namespace NetCalc.Thread

set_option autoImplicit false
open NetCalc.Lib

variable {n m : Nat} {τ δ α : Type} {s t s₀ s₁ : Pool n m τ δ α} {a : Act n m τ δ α}

/-- Has passed the test of `active` and not enqueued yet. -/
def CallerPc.isTested : CallerPc τ δ α → Bool
  | .tested _ _ => true
  | _ => false

/-- From this state on no job comes in: no step appends one or makes the queue
longer, and every call that gets to its enqueue leaves the queue as it is and
answers `ERROR`. -/
structure Barrier (s₁ : Pool n m τ δ α) : Prop where
  keeps : ∀ s a t, (poolLts n m τ δ α).Reaches s₁ s → step s a = some t →
    appended t.log = appended s.log ∧ t.queue.size ≤ s.queue.size
  refuses : ∀ s p mem t call, (poolLts n m τ δ α).Reaches s₁ s → step s (.enqueue p mem) = some t →
    t.callers p = .unlocked call → t.queue = s.queue ∧ call.err = ERROR

/-- An inactive pool whose callers are all before their test or past their
enqueue. -/
structure Closed (s : Pool n m τ δ α) : Prop where
  inactive : s.active = INACTIVE
  callers : ∀ p, (s.callers p).isTested = false

/-! ## A closed pool stays closed -/

/-- No caller of a closed pool comes to stand between its test and its enqueue. -/
theorem Closed.update (h : Closed s) {p : Fin m} {pc : CallerPc τ δ α} (quiet : pc.isTested = false)
    (q : Fin m) : (Function.update s.callers p pc q).isTested = false := by
  by_cases same : q = p
  · subst same
    rw [Function.update_self]
    exact quiet
  · rw [Function.update_of_ne same]
    exact h.callers q

theorem Closed.step (h : Closed s) (taken : Step s a t) : Closed t where
  inactive := taken.inactive_stays h.inactive
  callers := by
    cases taken with
    | enter | reject | signal => exact h.update rfl
    | proceed _ _ _ _ active => exact absurd h.inactive active
    | enqueue => exact h.update rfl
    | _ => exact h.callers

/-- Where no caller stands between its test and its enqueue, a step appends nothing. -/
theorem Step.appends_nothing (taken : Step s a t) (callers : ∀ p, (s.callers p).isTested = false) :
    appended t.log = appended s.log := by
  cases taken with
  | enqueue p mem job active pc =>
    have untested := callers p
    rw [pc] at untested
    cases untested
  | take => exact appended_frame (by simp [appended])
  | ret | del => exact appended_frame (by simp [appended])
  | reject | signal | shutdown | destroy | release | invoke => exact appended_frame rfl
  | _ => rfl

/-- What was appended before is all that was taken out, thrown away or kept, so
a step that appends nothing does not make the queue longer. -/
theorem Step.size_le (taken : Step s a t) (before : Ordered s) (after : Ordered t)
    (nothing : appended t.log = appended s.log) : t.queue.size ≤ s.queue.size := by
  have removed_le := taken.removed_grows.length_le
  have discarded_le := taken.discarded_grows.length_le
  have same := congrArg List.length nothing
  rw [before.order, after.order] at same
  simp only [List.length_append] at same
  rw [before.queue_ok.size_eq, after.queue_ok.size_eq]
  omega

theorem Closed.barrier (h : Closed s₁) (reachable : (poolLts n m τ δ α).Reachable s₁) : Barrier s₁ := by
  have stays : ∀ s, (poolLts n m τ δ α).Reaches s₁ s → (poolLts n m τ δ α).Reachable s ∧ Closed s := by
    intro s run
    refine Lts.reaches_induction (P := fun s => (poolLts n m τ δ α).Reachable s ∧ Closed s) ?_ ⟨reachable, h⟩ run
    rintro u b v ⟨reach, closed⟩ went
    exact ⟨reach.step went, closed.step (step_cases went).2⟩
  constructor
  · intro s a t run went
    obtain ⟨reach, closed⟩ := stays s run
    have taken := (step_cases went).2
    have nothing := taken.appends_nothing closed.callers
    have later : (poolLts n m τ δ α).Reachable t := reach.step (l := a) went
    exact ⟨nothing, taken.size_le (ordered reach) (ordered later) nothing⟩
  · intro s p mem t call run went
    obtain ⟨_, closed⟩ := stays s run
    cases (step_cases went).2 with
    | enqueue _ _ job active pc =>
      have untested := closed.callers p
      rw [pc] at untested
      cases untested

/-! ## The calls in between -/

/-- A call past its test enqueues and answers `SUCCESS`. -/
theorem tested_enqueues {p : Fin m} (live : s.destroyer ≠ .destroyed) (tested : (s.callers p).isTested = true)
    (mem : Option Nat) :
    ∃ t call, step s (.enqueue p mem) = some t ∧ t.callers p = .unlocked call ∧ call.err = SUCCESS := by
  cases pc : s.callers p with
  | tested job active =>
    refine ⟨enqueueSection s p mem job active, _, ?_, Function.update_self .., rfl⟩
    simp [step, live, pc]
  | _ =>
    rw [pc] at tested
    cases tested

/-- The callers at a shutdown. -/
theorem sets_inactive_callers (sets : SetsInactive a) (taken : step s a = some t) : t.callers = s.callers := by
  rcases sets with rfl | rfl
  · cases (step_cases taken).2
    rfl
  · cases (step_cases taken).2
    rfl

/-- **A shutdown is a barrier, unless a call stands between its test and its
enqueue.** For any number of callers and every reachable state in which `active`
is set to `INACTIVE`: from then on, in every interleaving, no job is appended,
the queue does not grow, and every later enqueue is refused, if and only if no
call has passed its test and not enqueued yet. -/
theorem shutdown_barrier_iff (h : (poolLts n m τ δ α).Reachable s₀) (sets : SetsInactive a)
    (taken : step s₀ a = some s₁) : Barrier s₁ ↔ ∀ p, (s₀.callers p).isTested = false := by
  have callers := sets_inactive_callers sets taken
  obtain ⟨inactive, _, _, _, _, live⟩ := sets_inactive sets taken
  constructor
  · intro barrier p
    by_contra passed
    have tested : (s₁.callers p).isTested = true := by
      rw [callers]
      simpa using passed
    obtain ⟨t, call, went, pc, success⟩ := tested_enqueues live tested none
    have refused := (barrier.refuses s₁ p none t call (.refl s₁) went pc).2
    rw [success] at refused
    cases refused
  · intro untested
    have closed : Closed s₁ := ⟨inactive, by rw [callers]; exact untested⟩
    exact closed.barrier (h.step (l := a) taken)

/-- A shutdown while one caller has not tested yet. -/
theorem shutdown_barrier_iff_entered :
    ∃ s₀ s₁, (poolLts 1 1 Nat Nat Nat).run (threadpoolCreate 1 1 Nat Nat Nat)
        [.enter 0 ⟨some 1, none, some 7⟩] = some s₀ ∧ step s₀ .shutdown = some s₁ ∧ Barrier s₁ := by
  have run : (poolLts 1 1 Nat Nat Nat).run (threadpoolCreate 1 1 Nat Nat Nat)
      [.enter 0 ⟨some 1, none, some 7⟩] = some _ := rfl
  refine ⟨_, _, run, rfl, ?_⟩
  apply (shutdown_barrier_iff ⟨_, run⟩ (.inl rfl) rfl).mpr
  intro p
  have only : p = 0 := Subsingleton.elim _ _
  subst only
  rfl

/-- A job that is appended after the shutdown: the call had read `active` as
`ACTIVE`. -/
theorem job_behind_the_barrier :
    ∃ s₀ s₁ s, (poolLts 1 1 Nat Nat Nat).run (threadpoolCreate 1 1 Nat Nat Nat)
        [.enter 0 ⟨some 1, none, some 7⟩, .test 0] = some s₀ ∧
      step s₀ .shutdown = some s₁ ∧
      (poolLts 1 1 Nat Nat Nat).run s₁ [.enqueue 0 (some 100)] = some s ∧
      appended s₁.log = [] ∧ appended s.log = [⟨some 1, none, some 7⟩] ∧ ¬Barrier s₁ := by
  refine ⟨_, _, _, rfl, rfl, rfl, rfl, by decide, ?_⟩
  intro barrier
  have none_appended := (barrier.keeps _ (.enqueue 0 (some 100)) _ (.refl _) rfl).1
  revert none_appended
  decide

end NetCalc.Thread
