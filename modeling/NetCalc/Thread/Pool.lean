import Mathlib.Data.Fintype.Basic
import Mathlib.Data.Fintype.Card
import Mathlib.Logic.Function.Basic
import NetCalc.Lib.Lts
import NetCalc.Thread.QueueFifo

/-!
# The thread pool as a machine (`threadpool.c`)

`n` workers run `start_thread`, `m` callers run `threadpool_add_job`, any
thread may call `threadpool_shutdown`, and one thread calls
`threadpool_destroy`. A section between `pthread_mutex_lock` and
`pthread_mutex_unlock` is one action, because everything it touches is touched
under the mutex only; each read of the atomics `size` and `active` outside the
mutex is an action of its own. The mutex and condition-variable calls succeed; a
`pthread_mutex_destroy` that is refused is a `release` that does not happen.

`pthread_cond_wait` leaves a worker `blocked`; a signal makes some of the
blocked workers `woken`, at least one if there is one, a broadcast makes all of
them `woken`, and `spurious` wakes one for no reason. A woken worker still has
to take the mutex back before it looks at the queue again.

A task runs from its `invoke` to its `ret`; what it does in between is not the
pool's business. Once `threadpool_destroy` has freed the pool no action is
enabled: an access after that is not defined.

`log` is the history of what happened; no action reads it. `step` is the
program and `Step` lists, for each action, all it can do.
-/

namespace NetCalc.Thread

set_option autoImplicit false
open NetCalc.Lib

/-- `MAX_JOBS`. -/
def MAX_JOBS : Nat := 200

/-- `EMPTY`, the size of a queue with nothing in it. -/
def EMPTY : Int := 0

/-- `ACTIVE`. -/
def ACTIVE : Int := 1

/-- `INACTIVE`. -/
def INACTIVE : Int := 0

/-- Where a worker stands in `start_thread`; `locals` are `job_p`, `del_p` and
`args_p` of the current pass of the loop. -/
inductive WorkerPc (τ δ α : Type) where
  | atLock
  | blocked
  | woken
  | unlocked (locals : Job τ δ α)
  | running (locals : Job τ δ α)
  | returned (locals : Job τ δ α)
  | testSize
  | testActive
  | exited

/-- One call of `threadpool_add_job`: what it was asked, what it saw and what
it answered. `active` is the value its test read, `mem` the block `calloc`
gave for the node, `before` and `after` the queue around its locked section. -/
structure AddJobCall (τ δ α : Type) where
  job : Job τ δ α
  active : Int
  mem : Option Nat
  before : Queue τ δ α
  after : Queue τ δ α
  err : Int

/-- Where a caller stands in `threadpool_add_job`. -/
inductive CallerPc (τ δ α : Type) where
  | idle
  | entered (job : Job τ δ α)
  | tested (job : Job τ δ α) (active : Int)
  | unlocked (call : AddJobCall τ δ α)

/-- Where the thread that destroys the pool stands in `threadpool_destroy`. -/
inductive DestroyerPc where
  | idle
  | inactive
  | joining (k : Nat)
  | destroyed
  deriving DecidableEq, Repr

/-- What the history records. -/
inductive Event (n m : Nat) (τ δ α : Type) where
  | appended (p : Fin m) (job : Job τ δ α)
  | answered (p : Fin m) (call : AddJobCall τ δ α)
  | inactive
  | removed (w : Fin n) (job : Job τ δ α)
  | invoked (w : Fin n) (task : τ) (arg : Option α)
  | returned (w : Fin n) (task : τ) (arg : Option α)
  | deleted (w : Fin n) (delF : δ) (arg : Option α)
  | discarded (jobs : List (Job τ δ α))

/-- `threadpool_t` and the threads around it. -/
structure Pool (n m : Nat) (τ δ α : Type) where
  queue : Queue τ δ α
  active : Int
  workers : Fin n → WorkerPc τ δ α
  callers : Fin m → CallerPc τ δ α
  destroyer : DestroyerPc
  log : List (Event n m τ δ α)

/-- The actions. `mem` is the outcome of the node's `calloc`, `chosen` are the
workers a signal wakes. -/
inductive Act (n m : Nat) (τ δ α : Type) where
  | enter (p : Fin m) (job : Job τ δ α)
  | test (p : Fin m)
  | enqueue (p : Fin m) (mem : Option Nat)
  | signal (p : Fin m) (chosen : List (Fin n))
  | shutdown
  | destroy
  | broadcast
  | join
  | release
  | lock (w : Fin n)
  | spurious (w : Fin n)
  | invoke (w : Fin n)
  | ret (w : Fin n)
  | del (w : Fin n)
  | readSize (w : Fin n)
  | readActive (w : Fin n)

section Machine
variable {n m : Nat} {τ δ α : Type}

/-- Inside `pthread_cond_wait`, and nothing has woken it. -/
def WorkerPc.isBlocked : WorkerPc τ δ α → Bool
  | .blocked => true
  | _ => false

/-- Woken, and about to take the mutex back. -/
def WorkerPc.isWoken : WorkerPc τ δ α → Bool
  | .woken => true
  | _ => false

/-- Left the loop of `start_thread`. -/
def WorkerPc.isExited : WorkerPc τ δ α → Bool
  | .exited => true
  | _ => false

/-- The locked section made the queue longer by one. -/
def AddJobCall.stored (call : AddJobCall τ δ α) : Bool := call.after.size = call.before.size + 1

/-- Enqueued a job and has not signalled yet. -/
def CallerPc.owesSignal : CallerPc τ δ α → Bool
  | .unlocked call => call.stored
  | _ => false

/-- The workers after some of them were woken. -/
def wake (workers : Fin n → WorkerPc τ δ α) (chosen : Fin n → Bool) : Fin n → WorkerPc τ δ α :=
  fun w => if chosen w then .woken else workers w

/-- The choices of `pthread_cond_signal`: blocked workers only, and at least
one if there is one. -/
def SignalOk (s : Pool n m τ δ α) (chosen : List (Fin n)) : Prop :=
  (∀ w ∈ chosen, (s.workers w).isBlocked = true) ∧
    ((∃ w, (s.workers w).isBlocked = true) → chosen ≠ [])

instance (s : Pool n m τ δ α) (chosen : List (Fin n)) : Decidable (SignalOk s chosen) :=
  inferInstanceAs (Decidable (_ ∧ _))

/-- The locked section of a worker: wait while there is nothing to do, else
dequeue into locals that are `NULL`, and unlock. -/
def lockSection (s : Pool n m τ δ α) (w : Fin n) : Pool n m τ δ α :=
  if s.queue.size = EMPTY ∧ s.active = ACTIVE then
    { s with workers := Function.update s.workers w .blocked }
  else
    let d := queueDequeue s.queue Job.null
    { s with
      queue := d.queue
      workers := Function.update s.workers w (.unlocked d.out)
      log := s.log ++ d.freed.map fun node => .removed w node.job }

/-- The locked section of a caller: `queue_enqueue`, whose status is dropped. -/
def enqueueSection (s : Pool n m τ δ α) (p : Fin m) (mem : Option Nat) (job : Job τ δ α) (active : Int) :
    Pool n m τ δ α :=
  let after := (queueEnqueue s.queue mem job.task job.delF job.arg).2
  let call : AddJobCall τ δ α := ⟨job, active, mem, s.queue, after, SUCCESS⟩
  { s with
    queue := after
    callers := Function.update s.callers p (.unlocked call)
    log := s.log ++ if call.stored then [.appended p job] else [] }

/-- The locked section of `threadpool_shutdown`. -/
def shutdownSection (s : Pool n m τ δ α) : Pool n m τ δ α :=
  { s with active := INACTIVE, log := s.log ++ [.inactive] }

/-- One action. -/
def step (s : Pool n m τ δ α) (a : Act n m τ δ α) : Option (Pool n m τ δ α) :=
  if s.destroyer = .destroyed then none
  else match a with
    | .enter p job => match s.callers p with
      | .idle => some { s with callers := Function.update s.callers p (.entered job) }
      | _ => none
    | .test p => match s.callers p with
      | .entered job =>
        if job.task.isNone ∨ s.active = INACTIVE then
          some { s with
            callers := Function.update s.callers p .idle
            log := s.log ++ [.answered p ⟨job, s.active, none, s.queue, s.queue, ERROR⟩] }
        else some { s with callers := Function.update s.callers p (.tested job s.active) }
      | _ => none
    | .enqueue p mem => match s.callers p with
      | .tested job active => some (enqueueSection s p mem job active)
      | _ => none
    | .signal p chosen => match s.callers p with
      | .unlocked call =>
        if SignalOk s chosen then
          some { s with
            workers := wake s.workers fun w => decide (w ∈ chosen)
            callers := Function.update s.callers p .idle
            log := s.log ++ [.answered p call] }
        else none
      | _ => none
    | .shutdown => some (shutdownSection s)
    | .destroy => match s.destroyer with
      | .idle => some { shutdownSection s with destroyer := .inactive }
      | _ => none
    | .broadcast => match s.destroyer with
      | .inactive => some { s with
          workers := wake s.workers fun w => (s.workers w).isBlocked
          destroyer := .joining 0 }
      | _ => none
    | .join => match s.destroyer with
      | .joining k =>
        if h : k < n then
          if (s.workers ⟨k, h⟩).isExited then some { s with destroyer := .joining (k + 1) } else none
        else none
      | _ => none
    | .release => match s.destroyer with
      | .joining k =>
        if k = n then
          some { s with
            queue := (queueClear s.queue).2.1
            destroyer := .destroyed
            log := s.log ++ [.discarded (liveJobs s.queue)] }
        else none
      | _ => none
    | .lock w => match s.workers w with
      | .atLock => some (lockSection s w)
      | .woken => some (lockSection s w)
      | _ => none
    | .spurious w => match s.workers w with
      | .blocked => some { s with workers := Function.update s.workers w .woken }
      | _ => none
    | .invoke w => match s.workers w with
      | .unlocked locals => match locals.task with
        | none => some { s with workers := Function.update s.workers w .testSize }
        | some task => some { s with
            workers := Function.update s.workers w (.running locals)
            log := s.log ++ [.invoked w task locals.arg] }
      | _ => none
    | .ret w => match s.workers w with
      | .running locals => some { s with
          workers := Function.update s.workers w (.returned locals)
          log := s.log ++ locals.task.toList.map fun task => .returned w task locals.arg }
      | _ => none
    | .del w => match s.workers w with
      | .returned locals => some { s with
          workers := Function.update s.workers w .testSize
          log := s.log ++ locals.delF.toList.map fun delF => .deleted w delF locals.arg }
      | _ => none
    | .readSize w => match s.workers w with
      | .testSize => some { s with
          workers := Function.update s.workers w (if s.queue.size = EMPTY then .testActive else .atLock) }
      | _ => none
    | .readActive w => match s.workers w with
      | .testActive => some { s with
          workers := Function.update s.workers w (if s.active = INACTIVE then .exited else .atLock) }
      | _ => none

/-- The queue `queue_new(MAX_JOBS)` makes. -/
def emptyQueue : Queue τ δ α := ⟨MAX_JOBS, 0, 0, 0, List.replicate MAX_JOBS none⟩

/-- What `threadpool_create(n)` leaves when nothing fails: an active pool with
an empty queue and `n` threads at the top of `start_thread`. -/
def threadpoolCreate (n m : Nat) (τ δ α : Type) : Pool n m τ δ α where
  queue := emptyQueue
  active := ACTIVE
  workers _ := .atLock
  callers _ := .idle
  destroyer := .idle
  log := []

/-- The pool's machine. -/
def poolLts (n m : Nat) (τ δ α : Type) : Lts (Pool n m τ δ α) (Act n m τ δ α) where
  init := threadpoolCreate n m τ δ α
  step := step

theorem emptyQueue_made : queueNew true true MAX_JOBS = some (emptyQueue : Queue τ δ α) := by
  have stored : narrow 32 (MAX_JOBS : Int) = MAX_JOBS :=
    narrow_of_fits (by decide) (by decide) (by decide)
  simp [queueNew, stored, emptyQueue, show MAX_JOBS ≠ 0 by decide]

theorem emptyQueue_ok : QueueOk MAX_JOBS (emptyQueue : Queue τ δ α) := by
  obtain ⟨q, made, holds⟩ := queueNew_holds (τ := τ) (δ := δ) (α := α) (c := MAX_JOBS) (by decide) (by decide)
  rw [emptyQueue_made, Option.some.injEq] at made
  exact ⟨0, [], made ▸ holds⟩

theorem emptyQueue_jobs : liveJobs (emptyQueue : Queue τ δ α) = [] :=
  emptyQueue_ok.size_eq_zero.mp rfl

/-! ## What a step can do -/

/-- Every action's effects, one constructor for each way it can go. -/
inductive Step (s : Pool n m τ δ α) : Act n m τ δ α → Pool n m τ δ α → Prop where
  | enter (p : Fin m) (job : Job τ δ α) (pc : s.callers p = .idle) :
      Step s (.enter p job) { s with callers := Function.update s.callers p (.entered job) }
  | reject (p : Fin m) (job : Job τ δ α) (pc : s.callers p = .entered job)
      (refused : job.task = none ∨ s.active = INACTIVE) :
      Step s (.test p) { s with
        callers := Function.update s.callers p .idle
        log := s.log ++ [.answered p ⟨job, s.active, none, s.queue, s.queue, ERROR⟩] }
  | proceed (p : Fin m) (job : Job τ δ α) (pc : s.callers p = .entered job)
      (task : job.task ≠ none) (active : s.active ≠ INACTIVE) :
      Step s (.test p) { s with callers := Function.update s.callers p (.tested job s.active) }
  | enqueue (p : Fin m) (mem : Option Nat) (job : Job τ δ α) (active : Int)
      (pc : s.callers p = .tested job active) :
      Step s (.enqueue p mem) (enqueueSection s p mem job active)
  | signal (p : Fin m) (chosen : List (Fin n)) (call : AddJobCall τ δ α)
      (pc : s.callers p = .unlocked call) (ok : SignalOk s chosen) :
      Step s (.signal p chosen) { s with
        workers := wake s.workers fun w => decide (w ∈ chosen)
        callers := Function.update s.callers p .idle
        log := s.log ++ [.answered p call] }
  | shutdown : Step s .shutdown (shutdownSection s)
  | destroy (pc : s.destroyer = .idle) :
      Step s .destroy { shutdownSection s with destroyer := .inactive }
  | broadcast (pc : s.destroyer = .inactive) :
      Step s .broadcast { s with
        workers := wake s.workers fun w => (s.workers w).isBlocked
        destroyer := .joining 0 }
  | join (k : Nat) (h : k < n) (pc : s.destroyer = .joining k)
      (left : (s.workers ⟨k, h⟩).isExited = true) :
      Step s .join { s with destroyer := .joining (k + 1) }
  | release (pc : s.destroyer = .joining n) :
      Step s .release { s with
        queue := (queueClear s.queue).2.1
        destroyer := .destroyed
        log := s.log ++ [.discarded (liveJobs s.queue)] }
  | wait (w : Fin n) (pc : s.workers w = .atLock ∨ s.workers w = .woken)
      (nothing : s.queue.size = EMPTY) (active : s.active = ACTIVE) :
      Step s (.lock w) { s with workers := Function.update s.workers w .blocked }
  | take (w : Fin n) (pc : s.workers w = .atLock ∨ s.workers w = .woken)
      (go : ¬(s.queue.size = EMPTY ∧ s.active = ACTIVE)) :
      Step s (.lock w) { s with
        queue := (queueDequeue s.queue Job.null).queue
        workers := Function.update s.workers w (.unlocked (queueDequeue s.queue Job.null).out)
        log := s.log ++ (queueDequeue s.queue Job.null).freed.map fun node => .removed w node.job }
  | spurious (w : Fin n) (pc : s.workers w = .blocked) :
      Step s (.spurious w) { s with workers := Function.update s.workers w .woken }
  | skip (w : Fin n) (locals : Job τ δ α) (pc : s.workers w = .unlocked locals)
      (nothing : locals.task = none) :
      Step s (.invoke w) { s with workers := Function.update s.workers w .testSize }
  | invoke (w : Fin n) (locals : Job τ δ α) (task : τ) (pc : s.workers w = .unlocked locals)
      (given : locals.task = some task) :
      Step s (.invoke w) { s with
        workers := Function.update s.workers w (.running locals)
        log := s.log ++ [.invoked w task locals.arg] }
  | ret (w : Fin n) (locals : Job τ δ α) (pc : s.workers w = .running locals) :
      Step s (.ret w) { s with
        workers := Function.update s.workers w (.returned locals)
        log := s.log ++ locals.task.toList.map fun task => .returned w task locals.arg }
  | del (w : Fin n) (locals : Job τ δ α) (pc : s.workers w = .returned locals) :
      Step s (.del w) { s with
        workers := Function.update s.workers w .testSize
        log := s.log ++ locals.delF.toList.map fun delF => .deleted w delF locals.arg }
  | sizeEmpty (w : Fin n) (pc : s.workers w = .testSize) (nothing : s.queue.size = EMPTY) :
      Step s (.readSize w) { s with workers := Function.update s.workers w .testActive }
  | sizeMore (w : Fin n) (pc : s.workers w = .testSize) (more : s.queue.size ≠ EMPTY) :
      Step s (.readSize w) { s with workers := Function.update s.workers w .atLock }
  | leave (w : Fin n) (pc : s.workers w = .testActive) (inactive : s.active = INACTIVE) :
      Step s (.readActive w) { s with workers := Function.update s.workers w .exited }
  | again (w : Fin n) (pc : s.workers w = .testActive) (active : s.active ≠ INACTIVE) :
      Step s (.readActive w) { s with workers := Function.update s.workers w .atLock }

/-- A worker with the mutex waits or takes. -/
theorem lockSection_step (s : Pool n m τ δ α) (w : Fin n)
    (pc : s.workers w = .atLock ∨ s.workers w = .woken) : Step s (.lock w) (lockSection s w) := by
  unfold lockSection
  split
  · rename_i idle
    exact .wait w pc idle.1 idle.2
  · rename_i go
    exact .take w pc go

/-- **Inversion.** An enabled action did one of the things listed, on a pool
that is not freed. -/
theorem step_cases {s t : Pool n m τ δ α} {a : Act n m τ δ α} (h : step s a = some t) :
    s.destroyer ≠ .destroyed ∧ Step s a t := by
  unfold step at h
  split at h
  · cases h
  rename_i live
  refine ⟨live, ?_⟩
  cases a with
  | enter p job =>
    dsimp only at h
    split at h
    · cases h; exact .enter p job ‹_›
    · cases h
  | test p =>
    dsimp only at h
    split at h
    · split at h
      · rename_i refused
        cases h
        exact .reject p _ ‹_› (by simpa using refused)
      · rename_i admitted
        cases h
        have both := not_or.mp admitted
        exact .proceed p _ ‹_› (by simpa using both.1) both.2
    · cases h
  | enqueue p mem =>
    dsimp only at h
    split at h
    · cases h; exact .enqueue p mem _ _ ‹_›
    · cases h
  | signal p chosen =>
    dsimp only at h
    split at h
    · split at h
      · cases h; exact .signal p chosen _ ‹_› ‹_›
      · cases h
    · cases h
  | shutdown => cases h; exact .shutdown
  | destroy =>
    dsimp only at h
    split at h
    · cases h; exact .destroy ‹_›
    · cases h
  | broadcast =>
    dsimp only at h
    split at h
    · cases h; exact .broadcast ‹_›
    · cases h
  | join =>
    dsimp only at h
    split at h
    · split at h
      · split at h
        · cases h; exact .join _ ‹_› ‹_› ‹_›
        · cases h
      · cases h
    · cases h
  | release =>
    dsimp only at h
    split at h
    · split at h
      · rename_i all
        subst all
        cases h
        exact .release ‹_›
      · cases h
    · cases h
  | lock w =>
    dsimp only at h
    split at h
    · cases h; exact lockSection_step s w (.inl ‹_›)
    · cases h; exact lockSection_step s w (.inr ‹_›)
    · cases h
  | spurious w =>
    dsimp only at h
    split at h
    · cases h; exact .spurious w ‹_›
    · cases h
  | invoke w =>
    dsimp only at h
    split at h
    · split at h
      · cases h; exact .skip w _ ‹_› ‹_›
      · cases h; exact .invoke w _ _ ‹_› ‹_›
    · cases h
  | ret w =>
    dsimp only at h
    split at h
    · cases h; exact .ret w _ ‹_›
    · cases h
  | del w =>
    dsimp only at h
    split at h
    · cases h; exact .del w _ ‹_›
    · cases h
  | readSize w =>
    dsimp only at h
    split at h
    · cases h
      split
      · exact .sizeEmpty w ‹_› ‹_›
      · exact .sizeMore w ‹_› ‹_›
    · cases h
  | readActive w =>
    dsimp only at h
    split at h
    · cases h
      split
      · exact .leave w ‹_› ‹_›
      · exact .again w ‹_› ‹_›
    · cases h

end Machine

end NetCalc.Thread
