import NetCalc.Thread.Pool

/-!
# A pool that cannot be started (`threadpool_create`, `failed_start`)

`threadpool_create` starts the workers one after the other. When a
`pthread_create` fails, `failed_start` takes the pool apart, while the workers
that were started are in `start_thread`. `failed_start` does not take the mutex,
so what a worker does between `pthread_mutex_lock` and `pthread_mutex_unlock` is
not one action here: each access to the pool is an action of its own, as is each
call of `failed_start`. The calls succeed; `failed_start` does not look at what
they return. Nobody else has the pool yet, so no job is queued, and only a
spurious wake-up ends a wait. To destroy the condition variable a worker waits
on is not defined either: an implementation may block, and then the next step of
`failed_start` does not come.

A worker that accesses what has been released is `lost`: what it does then is
not defined. Nothing is left running exactly when the workers have returned by
the time the queue is destroyed (`failed_start_iff`), which `failed_start` does
not wait for. `threadpool_destroy` joins them first.
-/

namespace NetCalc.Thread

set_option autoImplicit false
open NetCalc.Lib

/-- What `failed_start` releases. -/
inductive Resource where
  | queue
  | mutex
  | threads
  | cond
  | pool
  deriving DecidableEq, Repr

/-- Where `threadpool_create` stands: about to create thread `iter`, at one of
the lines of `failed_start`, or returned. -/
inductive CreatorPc where
  | creating (iter : Nat)
  | deactivating
  | destroyingQueue
  | destroyingMutex
  | freeingThreads
  | destroyingCond
  | freeingPool
  | returnedNull
  | returnedPool
  deriving DecidableEq, Repr

/-- Where a worker stands in `start_thread`, before the access the name tells.
It holds the mutex from `size` to `unlocking`; `locals` are `job_p`, `del_p` and
`args_p`. -/
inductive StartedPc (τ δ α : Type) where
  | unstarted
  | locking
  | size
  | active
  | wait
  | waiting
  | woken
  | dequeuing
  | unlocking (locals : Job τ δ α)
  | unlocked (locals : Job τ δ α)
  | running (locals : Job τ δ α)
  | returned (locals : Job τ δ α)
  | testSize
  | testActive
  | exited
  | lost

/-- The pool while it is being started: its queue, `active`, who holds the
mutex, the threads, and what has been released. -/
structure Startup (n : Nat) (τ δ α : Type) where
  queue : Queue τ δ α
  active : Int
  mutex : Option (Fin n)
  workers : Fin n → StartedPc τ δ α
  creator : CreatorPc
  released : Resource → Bool

/-- The actions: `threadpool_create` goes on, or a worker does. -/
inductive StartAct (n : Nat) where
  | main
  | work (w : Fin n)
  deriving DecidableEq, Repr

section Machine
variable {n : Nat} {τ δ α : Type}

/-- What a worker's next action accesses. -/
def StartedPc.uses : StartedPc τ δ α → List Resource
  | .locking | .woken | .unlocking _ => [.pool, .mutex]
  | .size | .dequeuing | .testSize => [.pool, .queue]
  | .active | .testActive => [.pool]
  | .wait => [.pool, .cond, .mutex]
  | .waiting => [.pool, .cond]
  | _ => []

/-- The worker `w` goes to `pc`. -/
def Startup.move (s : Startup n τ δ α) (w : Fin n) (pc : StartedPc τ δ α) : Startup n τ δ α :=
  { s with workers := Function.update s.workers w pc }

/-- A line of `failed_start`. -/
def Startup.release (s : Startup n τ δ α) (r : Resource) (next : CreatorPc) : Startup n τ δ α :=
  { s with released := Function.update s.released r true, creator := next }

/-- `threadpool_create` from its loop on, when the call for thread `fails` fails.
`pthread_cond_destroy` succeeds, whoever is waiting. -/
def creatorStep (fails : Nat) (s : Startup n τ δ α) : Option (Startup n τ δ α) :=
  match s.creator with
  | .creating iter =>
    if h : iter < n then
      if iter = fails then some { s with creator := .deactivating }
      else some { s.move ⟨iter, h⟩ .locking with creator := .creating (iter + 1) }
    else some { s with creator := .returnedPool }
  | .deactivating => some { s with active := INACTIVE, creator := .destroyingQueue }
  | .destroyingQueue => some (s.release .queue .destroyingMutex)
  | .destroyingMutex => some (s.release .mutex .freeingThreads)
  | .freeingThreads => some (s.release .threads .destroyingCond)
  | .destroyingCond => some (s.release .cond .freeingPool)
  | .freeingPool => some (s.release .pool .returnedNull)
  | .returnedNull => none
  | .returnedPool => none

/-- `start_thread`, where everything it accesses is there. -/
def workerStep (s : Startup n τ δ α) (w : Fin n) : Option (Startup n τ δ α) :=
  match s.workers w with
  | .locking | .woken => if s.mutex = none then some { s.move w .size with mutex := some w } else none
  | .size => some (s.move w (if s.queue.size = EMPTY then .active else .dequeuing))
  | .active => some (s.move w (if s.active = ACTIVE then .wait else .dequeuing))
  | .wait => some { s.move w .waiting with mutex := none }
  | .waiting => some (s.move w .woken)
  | .dequeuing =>
    let d := queueDequeue s.queue Job.null
    some { s.move w (.unlocking d.out) with queue := d.queue }
  | .unlocking locals => some { s.move w (.unlocked locals) with mutex := none }
  | .unlocked locals => some (s.move w (if locals.task.isSome then .running locals else .testSize))
  | .running locals => some (s.move w (.returned locals))
  | .returned _ => some (s.move w .testSize)
  | .testSize => some (s.move w (if s.queue.size = EMPTY then .testActive else .locking))
  | .testActive => some (s.move w (if s.active = INACTIVE then .exited else .locking))
  | .unstarted | .exited | .lost => none

/-- One action. -/
def startStep (fails : Nat) (s : Startup n τ δ α) : StartAct n → Option (Startup n τ δ α)
  | .main => creatorStep fails s
  | .work w =>
    if (s.workers w).uses.any s.released then some (s.move w .lost) else workerStep s w

/-- The pool before its first thread is created. -/
def unstartedPool (n : Nat) (τ δ α : Type) : Startup n τ δ α where
  queue := emptyQueue
  active := ACTIVE
  mutex := none
  workers _ := .unstarted
  creator := .creating 0
  released _ := false

/-- The machine of a start in which the first `fails` threads are created. -/
def startLts (n fails : Nat) (τ δ α : Type) : Lts (Startup n τ δ α) (StartAct n) where
  init := unstartedPool n τ δ α
  step := startStep fails

/-- Every worker that was started has returned. -/
def AllLeft (s : Startup n τ δ α) : Prop := ∀ w, s.workers w = .unstarted ∨ s.workers w = .exited

/-- No worker has accessed what was released, and when `threadpool_create` has
returned `NULL` none is left. -/
structure LeavesNothing (s : Startup n τ δ α) : Prop where
  sound : ∀ w, s.workers w ≠ .lost
  ended : s.creator = .returnedNull → AllLeft s

/-- `failed_start` destroys the queue when all workers have returned. -/
def destroysLate (s : Startup n τ δ α) : StartAct n → Prop
  | .main => s.creator = .destroyingQueue → AllLeft s
  | .work _ => True

end Machine

/-! ## What a step can do -/

section Steps
variable {n fails : Nat} {τ δ α : Type} {s t : Startup n τ δ α} {a : StartAct n}

/-- Nothing has been released at these places. -/
def CreatorPc.holdsPool : CreatorPc → Bool
  | .creating _ | .deactivating | .destroyingQueue | .returnedPool => true
  | _ => false

/-- What `threadpool_create` does next: another thread, or something the workers
do not see, until it releases what they use. -/
inductive Created (fails : Nat) (s t : Startup n τ δ α) : Prop where
  | thread (w : Fin n) (pc : s.creator = .creating w) (succeeds : w.val ≠ fails)
      (next : t.creator = .creating (w + 1)) (workers : t.workers = Function.update s.workers w .locking)
      (released : t.released = s.released)
  | held (before : s.creator.holdsPool = true) (after : t.creator.holdsPool = true)
      (past : ∀ iter, t.creator ≠ .creating iter) (workers : t.workers = s.workers)
      (released : t.released = s.released)
  | destroyed (pc : s.creator = .destroyingQueue) (after : t.creator.holdsPool = false)
      (workers : t.workers = s.workers)
  | releasing (before : s.creator.holdsPool = false) (after : t.creator.holdsPool = false)
      (workers : t.workers = s.workers)

theorem creatorStep_cases (h : creatorStep fails s = some t) : Created fails s t := by
  unfold creatorStep at h
  split at h
  · rename_i iter pc
    split at h
    · split at h
      · cases h
        exact .held (by rw [pc]; rfl) rfl (fun _ => CreatorPc.noConfusion) rfl rfl
      · rename_i inside succeeds
        cases h
        exact .thread ⟨iter, inside⟩ pc succeeds rfl rfl rfl
    · cases h
      exact .held (by rw [pc]; rfl) rfl (fun _ => CreatorPc.noConfusion) rfl rfl
  · rename_i pc
    cases h
    exact .held (by rw [pc]; rfl) rfl (fun _ => CreatorPc.noConfusion) rfl rfl
  · cases h
    exact .destroyed ‹_› rfl rfl
  · cases h
    exact .releasing (by simp [*, CreatorPc.holdsPool]) rfl rfl
  · cases h
    exact .releasing (by simp [*, CreatorPc.holdsPool]) rfl rfl
  · cases h
    exact .releasing (by simp [*, CreatorPc.holdsPool]) rfl rfl
  · cases h
    exact .releasing (by simp [*, CreatorPc.holdsPool]) rfl rfl
  · cases h
  · cases h

/-- A worker moves itself only, and is lost only where something it uses has been
released. -/
structure Worked (s t : Startup n τ δ α) (w : Fin n) : Prop where
  creator : t.creator = s.creator
  released : t.released = s.released
  started : s.workers w ≠ .unstarted
  running : s.workers w ≠ .exited
  moved : ∃ pc, t.workers = Function.update s.workers w pc ∧ pc ≠ .unstarted ∧
    (pc = .lost → ∃ r, s.released r = true)

/-- A worker that finds everything there. -/
theorem worked_of {w : Fin n} {pc : StartedPc τ δ α} {queue : Queue τ δ α} {mutex : Option (Fin n)}
    (started : s.workers w ≠ .unstarted) (running : s.workers w ≠ .exited) (new : pc ≠ .unstarted)
    (sound : pc ≠ .lost) :
    Worked s { s.move w pc with queue := queue, mutex := mutex } w where
  creator := rfl
  released := rfl
  started := started
  running := running
  moved := ⟨pc, rfl, new, fun lost => absurd lost sound⟩

theorem workerStep_cases {w : Fin n} (h : workerStep s w = some t) : Worked s t w := by
  unfold workerStep at h
  cases pc : s.workers w with
  | unstarted | exited | lost =>
    rw [pc] at h
    cases h
  | locking | woken =>
    rw [pc] at h
    dsimp only at h
    split at h
    · cases h
      exact worked_of (by rw [pc]; simp) (by rw [pc]; simp) (by simp) (by simp)
    · cases h
  | size | active | unlocked | testSize | testActive =>
    rw [pc] at h
    cases h
    exact worked_of (by rw [pc]; simp) (by rw [pc]; simp) (by split <;> simp) (by split <;> simp)
  | wait | waiting | dequeuing | unlocking | running | returned =>
    rw [pc] at h
    cases h
    exact worked_of (by rw [pc]; simp) (by rw [pc]; simp) (by simp) (by simp)

theorem startStep_work {w : Fin n} (h : startStep fails s (.work w) = some t) : Worked s t w := by
  unfold startStep at h
  dsimp only at h
  split at h
  · rename_i gone
    cases h
    obtain ⟨r, used, released⟩ := List.any_eq_true.mp gone
    refine ⟨rfl, rfl, ?_, ?_, .lost, rfl, by simp, fun _ => ⟨r, released⟩⟩
    · intro pc
      rw [pc] at used
      cases used
    · intro pc
      rw [pc] at used
      cases used
  · exact workerStep_cases h

/-! ## Every run -/

/-- What holds as long as `failed_start` destroys the queue late. -/
structure Kept (s : Startup n τ δ α) : Prop where
  early : s.creator.holdsPool = true → (∀ r, s.released r = false) ∧ ∀ w, s.workers w ≠ .lost
  late : s.creator.holdsPool = false → AllLeft s

theorem kept_init : Kept (unstartedPool n τ δ α) where
  early _ := ⟨fun _ => rfl, fun _ lost => by cases lost⟩
  late gone := by cases gone

/-- Only the workers matter. -/
theorem AllLeft.of_workers (left : AllLeft s) (same : t.workers = s.workers) : AllLeft t := by
  unfold AllLeft
  rw [same]
  exact left

/-- Workers that have returned are not lost. -/
theorem AllLeft.not_lost (left : AllLeft s) (w : Fin n) : s.workers w ≠ .lost := by
  rcases left w with pc | pc <;> rw [pc] <;> simp

theorem Kept.leavesNothing (h : Kept s) : LeavesNothing s where
  sound := by
    cases holds : s.creator.holdsPool with
    | true => exact (h.early holds).2
    | false => exact (h.late holds).not_lost
  ended := by
    intro pc
    apply h.late
    rw [pc]
    rfl

/-- One worker moves, and is not lost. -/
theorem not_lost_update {w : Fin n} {pc : StartedPc τ δ α} (others : ∀ v, s.workers v ≠ .lost)
    (here : pc ≠ .lost) : ∀ v, Function.update s.workers w pc v ≠ .lost := by
  intro v
  by_cases same : v = w
  · rw [same, Function.update_self]
    exact here
  · rw [Function.update_of_ne same]
    exact others v

/-- A worker takes no step after all have returned. -/
theorem Worked.not_left {w : Fin n} (worked : Worked s t w) : ¬AllLeft s := by
  intro left
  rcases left w with pc | pc
  · exact worked.started pc
  · exact worked.running pc

/-- Before the queue is destroyed nothing has to have returned. -/
theorem Kept.of_held (holds : s.creator.holdsPool = true) (none_released : ∀ r, s.released r = false)
    (none_lost : ∀ w, s.workers w ≠ .lost) : Kept s where
  early _ := ⟨none_released, none_lost⟩
  late gone := by
    rw [holds] at gone
    cases gone

/-- After that everything has. -/
theorem Kept.of_left (gone : s.creator.holdsPool = false) (left : AllLeft s) : Kept s where
  early holds := by
    rw [gone] at holds
    cases holds
  late _ := left

/-- As long as a worker can take a step the queue has not been destroyed. -/
theorem Kept.holds {w : Fin n} (h : Kept s) (worked : Worked s t w) : s.creator.holdsPool = true := by
  cases gone : s.creator.holdsPool with
  | true => rfl
  | false => exact absurd (h.late gone) worked.not_left

theorem Kept.step (h : Kept s) (late : destroysLate s a) (taken : startStep fails s a = some t) : Kept t := by
  cases a with
  | work w =>
    have worked := startStep_work taken
    have holds := h.holds worked
    obtain ⟨none_released, none_lost⟩ := h.early holds
    obtain ⟨pc, moved, _, lost⟩ := worked.moved
    have sound : pc ≠ .lost := by
      intro gone
      obtain ⟨r, released⟩ := lost gone
      rw [none_released r] at released
      cases released
    apply Kept.of_held
    · rw [worked.creator]
      exact holds
    · rw [worked.released]
      exact none_released
    · rw [moved]
      exact not_lost_update none_lost sound
  | main =>
    cases creatorStep_cases taken with
    | thread w pc succeeds next workers released =>
      obtain ⟨none_released, none_lost⟩ := h.early (by rw [pc]; rfl)
      apply Kept.of_held
      · rw [next]
        rfl
      · rw [released]
        exact none_released
      · rw [workers]
        exact not_lost_update none_lost (by simp)
    | held before after past workers released =>
      obtain ⟨none_released, none_lost⟩ := h.early before
      exact .of_held after (released ▸ none_released) (workers ▸ none_lost)
    | destroyed pc after workers => exact .of_left after ((late pc).of_workers workers)
    | releasing before after workers => exact .of_left after ((h.late before).of_workers workers)

/-- Once the workers have returned they stay so, whatever `failed_start` does. -/
theorem AllLeft.step (left : AllLeft s) (ends : s.creator = .destroyingQueue ∨ s.creator.holdsPool = false)
    (taken : startStep fails s a = some t) : AllLeft t ∧ t.creator.holdsPool = false := by
  cases a with
  | work w => exact absurd left (startStep_work taken).not_left
  | main =>
    unfold startStep creatorStep at taken
    dsimp only at taken
    cases pc : s.creator with
    | creating | deactivating | returnedPool =>
      rw [pc] at ends
      rcases ends with here | gone
      · cases here
      · cases gone
    | returnedNull =>
      rw [pc] at taken
      cases taken
    | destroyingQueue | destroyingMutex | freeingThreads | destroyingCond | freeingPool =>
      rw [pc] at taken
      cases taken
      exact ⟨left.of_workers rfl, rfl⟩

end Steps

/-! ## Which starts leave nothing -/

section Starts
variable {n fails : Nat} {τ δ α : Type} {s t : Startup n τ δ α}

/-- The rest of `failed_start` waits for nobody. -/
theorem failed_start_ends (fails : Nat) (pc : s.creator = .destroyingQueue) :
    ∃ t, (startLts n fails τ δ α).Reaches s t ∧ t.creator = .returnedNull ∧ t.workers = s.workers := by
  obtain ⟨queue, active, mutex, workers, creator, released⟩ := s
  cases pc
  exact ⟨_, ⟨List.replicate 5 .main, rfl⟩, rfl, rfl⟩

/-- The pool when its first `i` threads have been created, and done nothing. -/
def createdPool (n i : Nat) (τ δ α : Type) : Startup n τ δ α :=
  { unstartedPool n τ δ α with
    creator := .creating i
    workers := fun w => if w < i then .locking else .unstarted }

theorem createdPool_next {i : Nat} (inside : i < n) (succeeds : i ≠ fails) :
    startStep fails (createdPool n i τ δ α) .main = some (createdPool n (i + 1) τ δ α) := by
  have workers : Function.update (createdPool n i τ δ α).workers ⟨i, inside⟩ .locking =
      (createdPool n (i + 1) τ δ α).workers := by
    funext w
    by_cases same : w = ⟨i, inside⟩
    · rw [same, Function.update_self]
      simp [createdPool]
    · have other : w.val ≠ i := fun eq => same (Fin.ext eq)
      rw [Function.update_of_ne same]
      have before : w.val < i ↔ w.val < i + 1 := by omega
      simp [createdPool, before]
  simp only [startStep, creatorStep]
  rw [show (createdPool n i τ δ α).creator = .creating i from rfl]
  dsimp only
  rw [dif_pos inside, if_neg succeeds, Startup.move, workers]
  rfl

theorem createdPool_reachable (enough : fails < n) {i : Nat} (before : i ≤ fails) :
    (startLts n fails τ δ α).Reachable (createdPool n i τ δ α) := by
  induction i with
  | zero =>
    have start : createdPool n 0 τ δ α = unstartedPool n τ δ α := by simp [createdPool, unstartedPool]
    rw [start]
    exact Lts.Reaches.refl _
  | succ i ih => exact (ih (by omega)).step (l := .main) (createdPool_next (by omega) (by omega))

/-- `failed_start` may come to the queue before a worker has done anything. -/
theorem destroying_reachable (enough : fails < n) :
    ∃ s, (startLts n fails τ δ α).Reachable s ∧ s.creator = .destroyingQueue ∧
      s.workers = (createdPool n fails τ δ α).workers := by
  have created := createdPool_reachable (τ := τ) (δ := δ) (α := α) enough (Nat.le_refl fails)
  have given_up : ∃ d, (startLts n fails τ δ α).step (createdPool n fails τ δ α) .main = some d ∧
      d.creator = .deactivating ∧ d.workers = (createdPool n fails τ δ α).workers := by
    refine ⟨{ createdPool n fails τ δ α with creator := .deactivating }, ?_, rfl, rfl⟩
    simp only [startLts, startStep, creatorStep]
    rw [show (createdPool n fails τ δ α).creator = .creating fails from rfl]
    dsimp only
    rw [dif_pos enough, if_pos rfl]
  obtain ⟨⟨queue, active, mutex, workers, creator, released⟩, taken, pc, same⟩ := given_up
  cases pc
  exact ⟨_, (created.step taken).step (l := .main) rfl, rfl, same⟩

/-- From there on nothing is left exactly when all workers have returned. -/
theorem leavesNothing_from_iff (pc : s.creator = .destroyingQueue) :
    (∀ t, (startLts n fails τ δ α).Reaches s t → LeavesNothing t) ↔ AllLeft s := by
  constructor
  · intro all
    obtain ⟨t, reaches, returned, workers⟩ := failed_start_ends fails pc
    exact ((all t reaches).ended returned).of_workers workers.symm
  · intro left t reaches
    have stays : AllLeft t ∧ (t.creator = .destroyingQueue ∨ t.creator.holdsPool = false) := by
      refine Lts.reaches_induction
        (P := fun u => AllLeft u ∧ (u.creator = .destroyingQueue ∨ u.creator.holdsPool = false))
        (fun u a v inv taken => ?_) ⟨left, .inl pc⟩ reaches
      obtain ⟨left, gone⟩ := inv.1.step inv.2 taken
      exact ⟨left, .inr gone⟩
    exact ⟨stays.1.not_lost, fun _ => stays.1⟩

/-- Where no thread was created none is left. -/
theorem unstarted_of_none {t : Startup n τ δ α} (reach : (startLts n 0 τ δ α).Reachable t) :
    ∀ w, t.workers w = .unstarted := by
  have both : (∀ w, t.workers w = .unstarted) ∧ ∀ iter, t.creator = .creating iter → iter = 0 := by
    refine Lts.reachable_induction (M := startLts n 0 τ δ α)
      (P := fun t => (∀ w, t.workers w = .unstarted) ∧ ∀ iter, t.creator = .creating iter → iter = 0)
      ⟨fun _ => rfl, fun iter pc => by cases pc; rfl⟩ (fun s a t inv taken => ?_) reach
    cases a with
    | work w =>
      have worked : startStep 0 s (.work w) = some t := taken
      exact absurd (inv.1 w) (startStep_work worked).started
    | main =>
      cases creatorStep_cases taken with
      | thread w pc succeeds => exact absurd (inv.2 w pc) succeeds
      | held before after past workers => exact ⟨workers ▸ inv.1, fun iter pc => absurd pc (past iter)⟩
      | destroyed _ after workers | releasing _ after workers =>
        refine ⟨workers ▸ inv.1, fun iter pc => ?_⟩
        rw [pc] at after
        cases after
  exact both.1

/-- **A failed start leaves nothing running exactly when no thread had been
created, or all of them have returned before the queue is destroyed.** For every
number of threads and every call of `pthread_create` that fails, in every
interleaving: runs in which `failed_start` destroys the queue late leave nothing
(the first part), from every state in which it is about to destroy the queue
early there is one that does (the second), and there is such a state whenever a
thread was created (the third). -/
theorem failed_start_iff (enough : fails < n) :
    (∀ ls t, (startLts n fails τ δ α).Obeys destroysLate (unstartedPool n τ δ α) ls →
      (startLts n fails τ δ α).run (unstartedPool n τ δ α) ls = some t → LeavesNothing t) ∧
    (∀ s, s.creator = .destroyingQueue →
      ((∀ t, (startLts n fails τ δ α).Reaches s t → LeavesNothing t) ↔ AllLeft s)) ∧
    ((∀ t, (startLts n fails τ δ α).Reachable t → LeavesNothing t) ↔ fails = 0) := by
  refine ⟨?_, fun s pc => leavesNothing_from_iff pc, ?_⟩
  · intro ls t late run
    have kept : Kept t := Lts.run_induction_of_obeys (fun _ _ _ h late taken => h.step late taken)
      kept_init late run
    exact kept.leavesNothing
  · constructor
    · intro all
      obtain ⟨s, reach, pc, workers⟩ := destroying_reachable (τ := τ) (δ := δ) (α := α) enough
      have left : AllLeft s := (leavesNothing_from_iff pc).mp fun t reaches => all t (reach.trans reaches)
      by_contra some_created
      have first := left ⟨0, by omega⟩
      rw [workers] at first
      have created : 0 < fails := by omega
      simp [createdPool, created] at first
    · rintro rfl t reach
      have none_created := unstarted_of_none reach
      constructor
      · intro w
        rw [none_created w]
        simp
      · intro _ w
        exact .inl (none_created w)

/-- The worker that was started sees that the pool is not active, and returns
before the queue is destroyed. -/
theorem failed_start_waited :
    ∃ s, (startLts 2 1 Unit Unit Unit).run (unstartedPool 2 Unit Unit Unit)
        [.main, .work 0, .work 0, .main, .main, .work 0, .work 0, .work 0, .work 0, .work 0, .work 0] = some s ∧
      s.creator = .destroyingQueue ∧
      ∀ t, (startLts 2 1 Unit Unit Unit).Reaches s t → LeavesNothing t := by
  refine ⟨_, rfl, rfl, ((failed_start_iff (show 1 < 2 by decide)).2.1 _ rfl).mpr fun w => ?_⟩
  match w with
  | 0 => exact .inr rfl
  | 1 => exact .inl rfl

/-- The worker that was started has not come to its first line when
`threadpool_create` returns. It then locks a mutex that is gone. -/
theorem worker_outlives_pool :
    ∃ s t, (startLts 2 1 Unit Unit Unit).run (unstartedPool 2 Unit Unit Unit)
        [.main, .main, .main, .main, .main, .main, .main, .main] = some s ∧
      s.creator = .returnedNull ∧ s.workers 0 = .locking ∧
      (startLts 2 1 Unit Unit Unit).step s (.work 0) = some t ∧ t.workers 0 = .lost ∧
      ¬LeavesNothing s ∧ ¬LeavesNothing t := by
  refine ⟨_, _, rfl, rfl, rfl, rfl, rfl, ?_, ?_⟩
  · intro nothing
    rcases nothing.ended rfl 0 with pc | pc <;> cases pc
  · intro nothing
    exact nothing.sound 0 rfl

end Starts

end NetCalc.Thread
