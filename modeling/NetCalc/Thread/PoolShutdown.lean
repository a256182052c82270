import Mathlib.Data.List.FinRange
import NetCalc.Thread.PoolHistory

/-!
# What a shutdown leaves in the queue

A worker leaves its loop after two reads outside the mutex: `size`, which must
be `EMPTY`, and then `active`, which must be `INACTIVE`. A job may be enqueued,
and the pool shut down, between the two. `shutdown_drains_iff` says when that
loses jobs: exactly when, at the moment of the shutdown, the queue is not
empty and every worker stands between its two reads.
-/

namespace NetCalc.Thread

set_option autoImplicit false
open NetCalc.Lib

variable {n m : Nat} {τ δ α : Type} {s t s₀ s₁ : Pool n m τ δ α} {a : Act n m τ δ α}

/-- Every worker has left the loop of `start_thread`. -/
def AllExited (s : Pool n m τ δ α) : Prop := ∀ w, (s.workers w).isExited = true

/-- The actions that run `threadpool_shutdown`. -/
def SetsInactive (a : Act n m τ δ α) : Prop := a = .shutdown ∨ a = .destroy

/-- Every job that was in the queue of `s₀` has been executed in `s`: all jobs
appended by then have been taken out by workers, and each worker's history is
complete executions only. -/
def Drained (s₀ s : Pool n m τ δ α) : Prop :=
  appended s₀.log <+: removed s.log ∧
    ∀ w, ∃ done : List (Job τ δ α), (∀ job ∈ done, job.task ≠ none) ∧
      workerLog w s.log = done.flatMap (jobTrace w)

/-- Has read `size` as `EMPTY` in its last pass, or has left. -/
def WorkerPc.isLeaving : WorkerPc τ δ α → Bool
  | .testActive => true
  | .exited => true
  | _ => false

/-! ## What only grows -/

/-- The history is never rewritten. -/
theorem Step.log_grows (taken : Step s a t) : ∃ more, t.log = s.log ++ more := by
  cases taken with
  | reject | signal | shutdown | destroy | release | take | invoke | ret | del => exact ⟨_, rfl⟩
  | enqueue => exact ⟨_, rfl⟩
  | enter | proceed | broadcast | join | wait | spurious | skip | sizeEmpty | sizeMore | leave | again =>
    exact ⟨[], (List.append_nil _).symm⟩

theorem Step.appended_grows (taken : Step s a t) : appended s.log <+: appended t.log := by
  obtain ⟨more, log⟩ := taken.log_grows
  rw [log, appended_append]
  exact List.prefix_append ..

theorem Step.removed_grows (taken : Step s a t) : removed s.log <+: removed t.log := by
  obtain ⟨more, log⟩ := taken.log_grows
  rw [log, removed_append]
  exact List.prefix_append ..

theorem Step.discarded_grows (taken : Step s a t) : discarded s.log <+: discarded t.log := by
  obtain ⟨more, log⟩ := taken.log_grows
  rw [log, discarded_append]
  exact List.prefix_append ..

/-- Nothing makes an inactive pool active again. -/
theorem Step.inactive_stays (taken : Step s a t) (inactive : s.active = INACTIVE) :
    t.active = INACTIVE := by
  cases taken with
  | shutdown | destroy => rfl
  | _ => exact inactive

/-! ## When a shutdown drains -/

/-- A worker comes to leave only by reading the queue as empty. -/
theorem Step.leaving (taken : Step s a t) {w : Fin n} (before : (s.workers w).isLeaving = false)
    (after : (t.workers w).isLeaving = true) : s.queue.size = EMPTY := by
  cases taken with
  | sizeEmpty v _ nothing => exact nothing
  | leave v pc _ =>
    dsimp only at after
    by_cases same : w = v
    · subst same
      rw [pc] at before
      cases before
    · rw [Function.update_of_ne same, before] at after
      cases after
  | signal | broadcast =>
    dsimp only [wake] at after
    split at after
    · cases after
    · rw [before] at after
      cases after
  | wait v | take v | spurious v | skip v | invoke v | ret v | del v | sizeMore v | again v =>
    dsimp only at after
    by_cases same : w = v
    · subst same
      rw [Function.update_self] at after
      cases after
    · rw [Function.update_of_ne same, before] at after
      cases after
  | _ =>
    have kept : (s.workers w).isLeaving = true := after
    rw [before] at kept
    cases kept

/-- Either all that was appended before `s₀` has been removed, or somebody is
still going to look at the queue. -/
def Settled (s₀ s : Pool n m τ δ α) : Prop :=
  appended s₀.log <+: removed s.log ∨ ∃ w, (s.workers w).isLeaving = false

theorem Settled.step (h : Settled s₀ s) (past : appended s₀.log <+: appended s.log) (order : Ordered s)
    (live : s.destroyer ≠ .destroyed) (taken : Step s a t) : Settled s₀ t := by
  rcases h with gone | ⟨w, looking⟩
  · exact .inl (gone.trans taken.removed_grows)
  · by_cases still : (t.workers w).isLeaving = false
    · exact .inr ⟨w, still⟩
    · have nothing := taken.leaving looking (by simpa using still)
      have empty := order.queue_ok.size_eq_zero.mp nothing
      have all : appended s.log = removed s.log := by
        rw [order.order, order.kept live, empty]
        simp
      exact .inl ((all ▸ past).trans taken.removed_grows)

/-- The state `shutdown` leaves, however it was called. -/
theorem sets_inactive (sets : SetsInactive a) (taken : step s a = some t) :
    t.active = INACTIVE ∧ t.queue = s.queue ∧ t.workers = s.workers ∧
    appended t.log = appended s.log ∧ removed t.log = removed s.log ∧ t.destroyer ≠ .destroyed := by
  obtain ⟨live, taken⟩ := step_cases taken
  rcases sets with rfl | rfl
  · cases taken
    exact ⟨rfl, rfl, rfl, appended_frame rfl, by simp [shutdownSection, removed], live⟩
  · cases taken
    exact ⟨rfl, rfl, rfl, appended_frame rfl, by simp [shutdownSection, removed], by simp⟩

/-- With all workers gone, what was removed was executed. -/
theorem all_exited_complete (h : (poolLts n m τ δ α).Reachable s) (gone : AllExited s) :
    ∀ w, ∃ done : List (Job τ δ α), (∀ job ∈ done, job.task ≠ none) ∧
      workerLog w s.log = done.flatMap (jobTrace w) := by
  intro w
  obtain ⟨_, done, tasks, trace⟩ := traced h w
  refine ⟨done, tasks, ?_⟩
  have left := gone w
  cases pc : s.workers w <;> simp [WorkerPc.isExited, pc] at left
  rw [trace, pc]
  exact List.append_nil _

/-- If the queue is empty at the shutdown, or some worker will look again, the
pool drains. -/
theorem drains_of_looking (h : (poolLts n m τ δ α).Reachable s₀) (sets : SetsInactive a)
    (taken : step s₀ a = some s₁)
    (safe : liveJobs s₀.queue = [] ∨ ∃ w, (s₀.workers w).isLeaving = false)
    (run : (poolLts n m τ δ α).Reaches s₁ s) (gone : AllExited s) : Drained s₀ s := by
  have order := ordered h
  obtain ⟨_, _, workers, app, rem, _⟩ := sets_inactive sets taken
  have start : Settled s₀ s₁ := by
    rcases safe with empty | ⟨w, looking⟩
    · left
      rw [rem, order.order, order.kept (step_cases taken).1, empty]
      simp
    · exact .inr ⟨w, by rw [workers]; exact looking⟩
  have all : (poolLts n m τ δ α).Reachable s ∧ appended s₀.log <+: appended s.log ∧ Settled s₀ s := by
    refine Lts.reaches_induction
      (P := fun s => (poolLts n m τ δ α).Reachable s ∧ appended s₀.log <+: appended s.log ∧ Settled s₀ s)
      ?_ ⟨h.step taken, by rw [app], start⟩ run
    rintro u b v ⟨reach, past, settled⟩ went
    obtain ⟨alive, went'⟩ := step_cases went
    exact ⟨reach.step went, past.trans went'.appended_grows, settled.step past (ordered reach) alive went'⟩
  obtain ⟨reach, _, settled⟩ := all
  refine ⟨?_, all_exited_complete reach gone⟩
  rcases settled with taken_out | ⟨w, looking⟩
  · exact taken_out
  · have left := gone w
    cases pc : s.workers w <;> simp [WorkerPc.isExited, WorkerPc.isLeaving, pc] at left looking

/-- Workers that stand between their two reads of an inactive pool leave, one
after the other, and nothing else happens. -/
theorem exit_run (ws : List (Fin n)) (distinct : ws.Nodup) (s : Pool n m τ δ α)
    (live : s.destroyer ≠ .destroyed) (inactive : s.active = INACTIVE)
    (window : ∀ w ∈ ws, s.workers w = .testActive) :
    (poolLts n m τ δ α).run s (ws.map .readActive) =
      some { s with workers := fun w => if w ∈ ws then .exited else s.workers w } := by
  induction ws generalizing s with
  | nil => simp
  | cons v ws ih =>
    obtain ⟨fresh, rest⟩ := List.nodup_cons.mp distinct
    have first : (poolLts n m τ δ α).step s (.readActive v) =
        some { s with workers := Function.update s.workers v .exited } := by
      simp [poolLts, step, live, window v List.mem_cons_self, inactive]
    have later : ∀ w ∈ ws, Function.update s.workers v .exited w = .testActive := by
      intro w member
      have other : w ≠ v := fun same => fresh (same ▸ member)
      rw [Function.update_of_ne other]
      exact window w (List.mem_cons_of_mem _ member)
    have others := ih rest { s with workers := Function.update s.workers v .exited } live inactive later
    rw [List.map_cons, Lts.run_cons, first, Option.bind_some, others]
    congr 2
    funext w
    by_cases same : w = v
    · subst same
      simp [fresh]
    · simp [same]

/-- From a pool whose workers have all read `size` as `EMPTY`, a shutdown can
be followed by the exits alone. -/
theorem exit_without_looking (inactive : s.active = INACTIVE) (live : s.destroyer ≠ .destroyed)
    (window : ∀ w, (s.workers w).isLeaving = true) :
    ∃ t, (poolLts n m τ δ α).Reaches s t ∧ AllExited t ∧ t.log = s.log := by
  let ws := (List.finRange n).filter fun w => !(s.workers w).isExited
  have deciding : ∀ w ∈ ws, s.workers w = .testActive := by
    intro w member
    have inside : (s.workers w).isExited = false := by simpa [ws] using member
    have leaving := window w
    cases pc : s.workers w <;> simp [WorkerPc.isExited, WorkerPc.isLeaving, pc] at inside leaving ⊢
  refine ⟨_, ⟨_, exit_run ws ((List.nodup_finRange n).filter _) s live inactive deciding⟩, ?_, rfl⟩
  intro w
  by_cases member : w ∈ ws
  · simp [member, WorkerPc.isExited]
  · have out : (s.workers w).isExited = true := by simpa [ws] using member
    simp [member, out]

/-- **A shutdown drains the queue, unless jobs are queued while every worker
has left or stands between its two reads.** -/
theorem shutdown_drains_iff (h : (poolLts n m τ δ α).Reachable s₀) (sets : SetsInactive a)
    (taken : step s₀ a = some s₁) :
    (∀ s, (poolLts n m τ δ α).Reaches s₁ s → AllExited s → Drained s₀ s) ↔
      (liveJobs s₀.queue = [] ∨ ∃ w, (s₀.workers w).isLeaving = false) := by
  constructor
  · intro drains
    by_cases looking : ∃ w, (s₀.workers w).isLeaving = false
    · exact .inr looking
    · left
      obtain ⟨inactive, _, workers, _, rem, alive⟩ := sets_inactive sets taken
      have window : ∀ w, (s₁.workers w).isLeaving = true := by
        rw [workers]
        simpa using looking
      obtain ⟨s, run, gone, log⟩ := exit_without_looking inactive alive window
      have short : (appended s₀.log).length ≤ (removed s.log).length := (drains s run gone).1.length_le
      have order := ordered h
      rw [log, rem, order.order, order.kept (step_cases taken).1] at short
      simp only [List.append_nil, List.length_append] at short
      exact List.length_eq_zero_iff.mp (by omega)
  · exact fun safe s run gone => drains_of_looking h sets taken safe run gone

/-- One worker runs a job while the next is enqueued and the pool shut down: the
next is executed too. -/
theorem shutdown_drains_iff_busy :
    ∃ s₀ s₁, (poolLts 1 1 Nat Nat Nat).run (threadpoolCreate 1 1 Nat Nat Nat)
        [.enter 0 ⟨some 1, none, some 7⟩, .test 0, .enqueue 0 (some 100), .signal 0 [], .lock 0, .invoke 0,
          .enter 0 ⟨some 2, none, some 8⟩, .test 0, .enqueue 0 (some 101)] = some s₀ ∧
      step s₀ .shutdown = some s₁ ∧ liveJobs s₀.queue = [⟨some 2, none, some 8⟩] ∧
      ∀ s, (poolLts 1 1 Nat Nat Nat).Reaches s₁ s → AllExited s → Drained s₀ s := by
  obtain ⟨s₀, run, queued, looking⟩ : ∃ s₀, (poolLts 1 1 Nat Nat Nat).run (threadpoolCreate 1 1 Nat Nat Nat)
      [.enter 0 ⟨some 1, none, some 7⟩, .test 0, .enqueue 0 (some 100), .signal 0 [], .lock 0, .invoke 0,
        .enter 0 ⟨some 2, none, some 8⟩, .test 0, .enqueue 0 (some 101)] = some s₀ ∧
      liveJobs s₀.queue = [⟨some 2, none, some 8⟩] ∧ (s₀.workers 0).isLeaving = false := ⟨_, rfl, by decide, rfl⟩
  have taken : step s₀ .shutdown = some (shutdownSection s₀) := by
    cases run
    rfl
  exact ⟨s₀, _, run, taken, queued, (shutdown_drains_iff ⟨_, run⟩ (.inl rfl) taken).mpr (.inr ⟨0, looking⟩)⟩

/-- One worker has read `size` as `EMPTY`; a job is enqueued, the pool is shut
down, and the worker leaves. -/
theorem shutdown_loses_a_job :
    ∃ s₀ s₁ s, (poolLts 1 1 Nat Nat Nat).run (threadpoolCreate 1 1 Nat Nat Nat)
        [.enter 0 ⟨some 1, none, some 7⟩, .test 0, .enqueue 0 (some 100), .signal 0 [], .lock 0, .invoke 0,
          .ret 0, .del 0, .readSize 0,
          .enter 0 ⟨some 2, none, some 8⟩, .test 0, .enqueue 0 (some 101), .signal 0 []] = some s₀ ∧
      step s₀ .shutdown = some s₁ ∧
      (poolLts 1 1 Nat Nat Nat).run s₁ [.readActive 0] = some s ∧
      AllExited s ∧ liveJobs s.queue = [⟨some 2, none, some 8⟩] ∧ ¬Drained s₀ s := by
  refine ⟨_, _, _, rfl, rfl, rfl, ?_, by decide, ?_⟩
  · intro w
    have only : w = 0 := Subsingleton.elim _ _
    subst only
    rfl
  · intro drained
    have short := drained.1.length_le
    revert short
    decide

end NetCalc.Thread
