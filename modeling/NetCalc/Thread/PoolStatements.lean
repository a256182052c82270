import NetCalc.Thread.Pool

/-!
# The thread pool, statement by statement (`threadpool.c`, `queue.c`)

The same program as `Pool`, with every statement that touches the pool an
action of its own: taking the mutex and giving it back, the tests of the loop
in `start_thread`, and each read and each write that `queue_enqueue` and
`queue_dequeue` make in between. Other threads may run between any two of
them, and the reads of `size` and `active` that are made without the mutex see
whatever is there at that moment.

What remains one action is what nobody else can see the inside of: filling
the block that `calloc` has just returned, copying out of a node that has been
read, and what `threadpool_destroy` does after the last worker has left. As
in `Pool`, the mutex and condition-variable calls succeed, all but one:
`pthread_mutex_destroy` is refused (`EBUSY`) while a call has the mutex, and
`threadpool_destroy` then returns the error and leaves the pool as it is.

A party's program counter says which statement is next. `log` is the history,
and no action reads it.
-/

namespace NetCalc.Thread.Fine

set_option autoImplicit false
open NetCalc.Lib

/-- A thread that can hold the mutex. `outsider` is whoever calls
`threadpool_shutdown` from outside the pool. -/
inductive Party (n m : Nat) where
  | worker (w : Fin n)
  | caller (p : Fin m)
  | destroyer
  | outsider
  deriving DecidableEq

/-- The next statement of a worker in `start_thread`. -/
inductive WorkerPc (τ δ α : Type) where
  | atLock
  | blocked
  | woken
  | loopSize
  | loopActive
  | wait
  | peekSize
  | peekEnds
  | peekItem
  | copyOut (node : Node τ δ α)
  | clearSlot (node : Node τ δ α)
  | moveFront (node : Node τ δ α)
  | shrink (node : Node τ δ α)
  | sizeAgain (node : Node τ δ α)
  | resetFront (node : Node τ δ α)
  | resetRear (node : Node τ δ α)
  | free (node : Node τ δ α)
  | unlock (locals : Job τ δ α)
  | unlocked (locals : Job τ δ α)
  | running (locals : Job τ δ α)
  | returned (locals : Job τ δ α)
  | testSize
  | testActive
  | exited

/-- The next statement of a call of `threadpool_add_job`. -/
inductive CallerPc (τ δ α : Type) where
  | idle
  | entered (job : Job τ δ α)
  | atLock (job : Job τ δ α) (active : Int)
  | fullcheck (job : Job τ δ α) (active : Int)
  | argCheck (job : Job τ δ α) (active : Int)
  | alloc (job : Job τ δ α) (active : Int)
  | emptycheck (job : Job τ δ α) (active : Int) (node : Node τ δ α)
  | moveRear (job : Job τ δ α) (active : Int) (node : Node τ δ α)
  | store (job : Job τ δ α) (active : Int) (node : Node τ δ α)
  | grow (job : Job τ δ α) (active : Int) (node : Node τ δ α)
  | unlock (job : Job τ δ α)
  | signal (job : Job τ δ α)

/-- The next statement of `threadpool_destroy`, or how it returned: the pool is
`destroyed`, or was `refused` its end. -/
inductive DestroyerPc where
  | idle
  | atLock
  | setInactive
  | unlock
  | inactive
  | joining (k : Nat)
  | destroyed
  | refused
  deriving DecidableEq

/-- The next statement of `threadpool_shutdown`, for a thread that has the mutex. -/
inductive OutsiderPc where
  | idle
  | setInactive
  | unlock
  deriving DecidableEq

/-- What the history records. -/
inductive Event (n m : Nat) (τ δ α : Type) where
  | appended (p : Fin m) (job : Job τ δ α)
  | answered (p : Fin m) (job : Job τ δ α) (err : Int)
  | inactive
  | removed (w : Fin n) (job : Job τ δ α)
  | invoked (w : Fin n) (task : τ) (arg : Option α)
  | returned (w : Fin n) (task : τ) (arg : Option α)
  | deleted (w : Fin n) (delF : δ) (arg : Option α)
  | discarded (jobs : List (Job τ δ α))

/-- What the threads share. -/
structure Shared (n m : Nat) (τ δ α : Type) where
  queue : Queue τ δ α
  active : Int
  mutex : Option (Party n m)

/-- `threadpool_t` and the threads around it. -/
structure Pool (n m : Nat) (τ δ α : Type) where
  shared : Shared n m τ δ α
  workers : Fin n → WorkerPc τ δ α
  callers : Fin m → CallerPc τ δ α
  destroyer : DestroyerPc
  outsider : OutsiderPc
  log : List (Event n m τ δ α)

/-- The actions: a call, a wake-up for no reason, or the next statement of some
party. `mem` is the outcome of a `calloc`, `chosen` whom a signal wakes. -/
inductive Act (n m : Nat) (τ δ α : Type) where
  | enter (p : Fin m) (job : Job τ δ α)
  | caller (p : Fin m) (mem : Option Nat) (chosen : List (Fin n))
  | worker (w : Fin n)
  | spurious (w : Fin n)
  | destroy
  | destroyer
  | shutdown
  | outsider

section Machine
variable {n m : Nat} {τ δ α : Type}

/-- Inside `pthread_cond_wait`, and nothing has woken it. -/
def WorkerPc.isBlocked : WorkerPc τ δ α → Bool
  | .blocked => true
  | _ => false

/-- Left the loop of `start_thread`. -/
def WorkerPc.isExited : WorkerPc τ δ α → Bool
  | .exited => true
  | _ => false

/-- `threadpool_destroy` has returned. -/
def DestroyerPc.returned : DestroyerPc → Bool
  | .destroyed | .refused => true
  | _ => false

/-- What a party's statement leaves: the shared fields, the statement after it
and what goes into the history. -/
structure Effect (n m : Nat) (τ δ α P : Type) where
  shared : Shared n m τ δ α
  next : P
  log : List (Event n m τ δ α)

/-- The next statement of worker `w`. -/
def workerStatement (w : Fin n) (sh : Shared n m τ δ α) :
    WorkerPc τ δ α → Option (Effect n m τ δ α (WorkerPc τ δ α))
  | .atLock | .woken =>
    if sh.mutex = none then some ⟨{ sh with mutex := some (.worker w) }, .loopSize, []⟩ else none
  | .blocked => none
  -- `while ((EMPTY == size) && (ACTIVE == active))`
  | .loopSize => some ⟨sh, if sh.queue.size = EMPTY then .loopActive else .peekSize, []⟩
  | .loopActive => some ⟨sh, if sh.active = ACTIVE then .wait else .peekSize, []⟩
  | .wait => some ⟨{ sh with mutex := none }, .blocked, []⟩
  -- `queue_peek`: both branches of its last test read the slot at `front`
  | .peekSize => some ⟨sh, if queueEmptycheck sh.queue ≠ 0 then .unlock Job.null else .peekEnds, []⟩
  | .peekEnds => some ⟨sh, .peekItem, []⟩
  | .peekItem => some ⟨sh, (sh.queue.item sh.queue.front).elim (.unlock Job.null) .copyOut, []⟩
  -- `queue_dequeue`
  | .copyOut node => some ⟨sh, .clearSlot node, []⟩
  | .clearSlot node =>
    let q := sh.queue
    some ⟨{ sh with queue := { q with items := q.items.set q.front.toNat none } }, .moveFront node, []⟩
  | .moveFront node =>
    let q := sh.queue
    some ⟨{ sh with queue := { q with front := (q.front + 1).tmod q.capacity } }, .shrink node, []⟩
  | .shrink node =>
    let q := sh.queue
    some ⟨{ sh with queue := { q with size := q.size - 1 } }, .sizeAgain node, [.removed w node.job]⟩
  | .sizeAgain node =>
    some ⟨sh, if queueEmptycheck sh.queue ≠ 0 then .resetFront node else .free node, []⟩
  | .resetFront node => some ⟨{ sh with queue := { sh.queue with front := 0 } }, .resetRear node, []⟩
  | .resetRear node => some ⟨{ sh with queue := { sh.queue with rear := 0 } }, .free node, []⟩
  | .free node => some ⟨sh, .unlock node.job, []⟩
  | .unlock locals => some ⟨{ sh with mutex := none }, .unlocked locals, []⟩
  | .unlocked locals =>
    locals.task.elim (some ⟨sh, .testSize, []⟩) fun task =>
      some ⟨sh, .running locals, [.invoked w task locals.arg]⟩
  | .running locals =>
    some ⟨sh, .returned locals, locals.task.toList.map fun task => .returned w task locals.arg⟩
  | .returned locals =>
    some ⟨sh, .testSize, locals.delF.toList.map fun delF => .deleted w delF locals.arg⟩
  -- the two reads without the mutex
  | .testSize => some ⟨sh, if sh.queue.size = EMPTY then .testActive else .atLock, []⟩
  | .testActive => some ⟨sh, if sh.active = INACTIVE then .exited else .atLock, []⟩
  | .exited => none

/-- The next statement of caller `p`, but for its signal. -/
def callerStatement (p : Fin m) (mem : Option Nat) (sh : Shared n m τ δ α) :
    CallerPc τ δ α → Option (Effect n m τ δ α (CallerPc τ δ α))
  | .idle => none
  | .entered job =>
    if job.task.isNone ∨ sh.active = INACTIVE then some ⟨sh, .idle, [.answered p job ERROR]⟩
    else some ⟨sh, .atLock job sh.active, []⟩
  | .atLock job active =>
    if sh.mutex = none then some ⟨{ sh with mutex := some (.caller p) }, .fullcheck job active, []⟩ else none
  -- `queue_enqueue`, whose status is dropped
  | .fullcheck job active =>
    some ⟨sh, if queueFullcheck sh.queue ≠ 0 then .unlock job else .argCheck job active, []⟩
  | .argCheck job active => some ⟨sh, if job.arg.isNone then .unlock job else .alloc job active, []⟩
  | .alloc job active =>
    some ⟨sh, mem.elim (.unlock job) fun addr => .emptycheck job active ⟨addr, job⟩, []⟩
  | .emptycheck job active node =>
    some ⟨sh, if queueEmptycheck sh.queue ≠ 0 then .store job active node else .moveRear job active node, []⟩
  | .moveRear job active node =>
    let q := sh.queue
    some ⟨{ sh with queue := { q with rear := (q.rear + 1).tmod q.capacity } }, .store job active node, []⟩
  | .store job active node =>
    let q := sh.queue
    some ⟨{ sh with queue := { q with items := q.items.set q.rear.toNat (some node) } },
      .grow job active node, []⟩
  | .grow job _ _ =>
    let q := sh.queue
    some ⟨{ sh with queue := { q with size := q.size + 1 } }, .unlock job, [.appended p job]⟩
  | .unlock job => some ⟨{ sh with mutex := none }, .signal job, []⟩
  | .signal _ => none

/-- The workers after some of them were woken. -/
def wake (workers : Fin n → WorkerPc τ δ α) (chosen : Fin n → Bool) : Fin n → WorkerPc τ δ α :=
  fun w => if chosen w then .woken else workers w

/-- The choices of `pthread_cond_signal`: blocked workers only, and at least
one if there is one. -/
def SignalOk (f : Pool n m τ δ α) (chosen : List (Fin n)) : Prop :=
  (∀ w ∈ chosen, (f.workers w).isBlocked = true) ∧
    ((∃ w, (f.workers w).isBlocked = true) → chosen ≠ [])

instance (f : Pool n m τ δ α) (chosen : List (Fin n)) : Decidable (SignalOk f chosen) :=
  inferInstanceAs (Decidable (_ ∧ _))

/-- The next statement of `threadpool_destroy`. -/
def destroyerStatement (f : Pool n m τ δ α) : DestroyerPc → Option (Pool n m τ δ α)
  | .idle => none
  | .atLock =>
    if f.shared.mutex = none then
      some { f with shared := { f.shared with mutex := some .destroyer }, destroyer := .setInactive }
    else none
  | .setInactive =>
    some { f with
      shared := { f.shared with active := INACTIVE }
      destroyer := .unlock
      log := f.log ++ [.inactive] }
  | .unlock => some { f with shared := { f.shared with mutex := none }, destroyer := .inactive }
  | .inactive =>
    some { f with workers := wake f.workers fun w => (f.workers w).isBlocked, destroyer := .joining 0 }
  | .joining k =>
    if h : k < n then
      if (f.workers ⟨k, h⟩).isExited then some { f with destroyer := .joining (k + 1) } else none
    else if k = n then
      if f.shared.mutex = none then
        some { f with
          shared := { f.shared with queue := (queueClear f.shared.queue).2.1 }
          destroyer := .destroyed
          log := f.log ++ [.discarded (liveJobs f.shared.queue)] }
      -- `EBUSY`: `goto END`
      else some { f with destroyer := .refused }
    else none
  | .destroyed | .refused => none

/-- The next statement of `threadpool_shutdown`, called from outside. -/
def outsiderStatement (f : Pool n m τ δ α) : OutsiderPc → Option (Pool n m τ δ α)
  | .idle => none
  | .setInactive =>
    some { f with
      shared := { f.shared with active := INACTIVE }
      outsider := .unlock
      log := f.log ++ [.inactive] }
  | .unlock => some { f with shared := { f.shared with mutex := none }, outsider := .idle }

/-- A worker's statement carried out. -/
def Pool.worker (f : Pool n m τ δ α) (w : Fin n) (e : Effect n m τ δ α (WorkerPc τ δ α)) : Pool n m τ δ α :=
  { f with shared := e.shared, workers := Function.update f.workers w e.next, log := f.log ++ e.log }

/-- A caller's statement carried out. -/
def Pool.caller (f : Pool n m τ δ α) (p : Fin m) (e : Effect n m τ δ α (CallerPc τ δ α)) : Pool n m τ δ α :=
  { f with shared := e.shared, callers := Function.update f.callers p e.next, log := f.log ++ e.log }

/-- `pthread_cond_signal`, the last statement of a call, and its answer. -/
def Pool.signal (f : Pool n m τ δ α) (p : Fin m) (job : Job τ δ α) (chosen : List (Fin n)) : Pool n m τ δ α :=
  { f with
    workers := wake f.workers chosen.contains
    callers := Function.update f.callers p .idle
    log := f.log ++ [.answered p job SUCCESS] }

/-- One action. -/
def step (f : Pool n m τ δ α) (a : Act n m τ δ α) : Option (Pool n m τ δ α) :=
  if f.destroyer = .destroyed then none
  else match a with
    | .enter p job => match f.callers p with
      | .idle => some { f with callers := Function.update f.callers p (.entered job) }
      | _ => none
    | .caller p mem chosen => match f.callers p with
      | .signal job => if SignalOk f chosen then some (f.signal p job chosen) else none
      | pc => (callerStatement p mem f.shared pc).map (f.caller p)
    | .worker w => (workerStatement w f.shared (f.workers w)).map (f.worker w)
    | .spurious w => match f.workers w with
      | .blocked => some { f with workers := Function.update f.workers w .woken }
      | _ => none
    | .destroy => match f.destroyer with
      | .idle => some { f with destroyer := .atLock }
      | _ => none
    | .destroyer => destroyerStatement f f.destroyer
    | .shutdown => match f.outsider with
      | .idle =>
        if f.shared.mutex = none then
          some { f with shared := { f.shared with mutex := some .outsider }, outsider := .setInactive }
        else none
      | _ => none
    | .outsider => outsiderStatement f f.outsider

/-- What `threadpool_create(n)` leaves when nothing fails. -/
def threadpoolCreate (n m : Nat) (τ δ α : Type) : Pool n m τ δ α where
  shared := ⟨emptyQueue, ACTIVE, none⟩
  workers _ := .atLock
  callers _ := .idle
  destroyer := .idle
  outsider := .idle
  log := []

/-- The pool's machine. -/
def poolLts (n m : Nat) (τ δ α : Type) : Lts (Pool n m τ δ α) (Act n m τ δ α) where
  init := threadpoolCreate n m τ δ α
  step := step

end Machine

end NetCalc.Thread.Fine
