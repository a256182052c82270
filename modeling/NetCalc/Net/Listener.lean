import NetCalc.Thread.PoolHistory

/-!
# The listener and its workers (`net_handler.c`, `net_main.c`)

`main` makes a pool, runs `start_listener` until `signal_flag_g` is set, and
destroys the pool. The listener hands every connection to the pool as the task
`handle_new_connection` with one and the same argument: the `con_args_t` it
allocated before its loop, whose only field is the `int8_t` descriptor of the
latest connection. A worker copies the descriptor out of that cell when the
task starts, some time after the listener wrote it.

The pool is the machine of `threadpool.c`, with one caller: the listener.
Around it stand the cell, the loop of `start_listener`, and for each worker
the place it has reached in `handle_new_connection`. What a connection says is
not the business of this machine: `io` is any read from or write to the
descriptor.
-/

namespace NetCalc.Net

set_option autoImplicit false
open NetCalc.Lib NetCalc.Thread

/-- The only task the server queues. -/
inductive Task where
  | handleNewConnection
  deriving DecidableEq, Repr

/-- The only argument it passes: the pointer `c_args`. -/
inductive Arg where
  | cArgs
  deriving DecidableEq, Repr

/-- The server's pool. No job has a destructor. -/
abbrev ConPool (n : Nat) := Pool n 1 Task Empty Arg

/-- An action of the server's pool. -/
abbrev ConPoolAct (n : Nat) := Thread.Act n 1 Task Empty Arg

/-- `threadpool_add_job(pool_p, handle_new_connection, NULL, c_args)`. -/
def connectionJob : Job Task Empty Arg := ⟨some .handleNewConnection, none, some .cArgs⟩

/-- Where `start_listener` stands: in `accept`, with a descriptor from it, past
the `accept`, out of its loop, or returned. -/
inductive ListenerPc where
  | accepting
  | accepted (conSocket : Int)
  | looping
  | stopping
  | released
  deriving DecidableEq, Repr

/-- Where a worker stands in `handle_new_connection`. It is `lost` when it read
the cell after `start_listener` had freed it: what follows is undefined. -/
inductive HandlerPc where
  | idle
  | entered
  | holding (socket : Int)
  | serving (socket : Int)
  | finished
  | lost
  deriving DecidableEq, Repr

/-- What the history records. -/
inductive Note (n : Nat) where
  | accepted (fd : Int)
  | stored (fd : Int)
  | took (w : Fin n) (fd : Int)
  | used (w : Fin n) (fd : Int)
  | closed (w : Fin n) (fd : Int)
  | tookFreed (w : Fin n)
  deriving DecidableEq, Repr

/-- The server: the pool, `signal_flag_g`, the `socket` field of `*c_args`
(`none` once it is freed), and the descriptors open in the process. -/
structure Server (n : Nat) where
  pool : ConPool n
  flag : Bool
  args : Option Int
  listener : ListenerPc
  handlers : Fin n → HandlerPc
  openFds : List Int
  log : List (Note n)

/-- The actions. `accept fd` is an `accept` that returns `fd`. -/
inductive Act (n : Nat) where
  | raise
  | accept (fd : Int)
  | acceptFails
  | store
  | loop
  | free
  | pool (a : ConPoolAct n)
  | readArg (w : Fin n)
  | callocHeader (w : Fin n) (ok : Bool)
  | io (w : Fin n)
  | close (w : Fin n)

section Machine
variable {n : Nat}

/-- A dequeued job that has not been invoked. -/
def holdsJob : WorkerPc Task Empty Arg → Bool
  | .unlocked locals => locals.task.isSome
  | _ => false

/-- Inside a task. -/
def isRunning : WorkerPc Task Empty Arg → Bool
  | .running _ => true
  | _ => false

/-- Which of the pool's actions the program takes in this state. `enter` is part
of `store`; only `main` calls `threadpool_destroy`, after the listener; a task
returns when `handle_new_connection` does. -/
def poolGuard (s : Server n) : ConPoolAct n → Bool
  | .enter _ _ => false
  | .shutdown => false
  | .destroy | .broadcast | .join | .release => s.listener = .released
  | .ret w => s.handlers w = .finished
  | _ => true

/-- The handlers around a pool action: `invoke` calls `handle_new_connection`
and `ret` comes back from it. -/
def handlersAfter (s : Server n) : ConPoolAct n → Fin n → HandlerPc
  | .invoke w => if holdsJob (s.pool.workers w) then Function.update s.handlers w .entered else s.handlers
  | .ret w => Function.update s.handlers w .idle
  | _ => s.handlers

/-- One action. -/
def step (s : Server n) (a : Act n) : Option (Server n) :=
  match a with
  | .raise => some { s with flag := true }
  | .accept fd =>
    if s.listener = .accepting ∧ 0 ≤ fd ∧ fd ∉ s.openFds then
      some { s with listener := .accepted fd, openFds := fd :: s.openFds, log := s.log ++ [.accepted fd] }
    else none
  | .acceptFails =>
    if s.listener = .accepting then some { s with listener := .looping } else none
  | .store => match s.listener with
    | .accepted fd => (Thread.step s.pool (.enter 0 connectionJob)).map fun pool =>
        { s with pool := pool, args := some (narrow 8 fd), listener := .looping,
                 log := s.log ++ [.stored fd] }
    | _ => none
  | .loop => match s.pool.callers 0 with
    | .idle =>
      if s.listener = .looping then
        some { s with listener := if s.flag then .stopping else .accepting }
      else none
    | _ => none
  | .free => if s.listener = .stopping then some { s with listener := .released, args := none } else none
  | .pool a =>
    if poolGuard s a then
      (Thread.step s.pool a).map fun pool => { s with pool := pool, handlers := handlersAfter s a }
    else none
  | .readArg w => match s.handlers w, s.args with
    | .entered, some fd => some { s with
        handlers := Function.update s.handlers w (.holding fd)
        log := s.log ++ [.took w fd] }
    | .entered, none => some { s with
        handlers := Function.update s.handlers w .lost
        log := s.log ++ [.tookFreed w] }
    | _, _ => none
  | .callocHeader w ok => match s.handlers w with
    | .holding fd => some { s with
        handlers := Function.update s.handlers w (if ok then .serving fd else .finished) }
    | _ => none
  | .io w => match s.handlers w with
    | .serving fd => some { s with log := s.log ++ [.used w fd] }
    | _ => none
  | .close w => match s.handlers w with
    | .serving fd => some { s with
        handlers := Function.update s.handlers w .finished
        openFds := s.openFds.erase fd
        log := s.log ++ [.closed w fd] }
    | _ => none

/-- The server when `start_listener` reaches its loop, with the descriptors
`base` open. -/
def startListener (n : Nat) (base : List Int) : Server n where
  pool := threadpoolCreate n 1 Task Empty Arg
  flag := false
  args := some 0
  listener := .accepting
  handlers _ := .idle
  openFds := base
  log := []

/-- The server's machine. -/
def serverLts (n : Nat) (base : List Int) : Lts (Server n) (Act n) where
  init := startListener n base
  step := step

/-! ## What a step can do -/

/-- Every action's effects, one constructor for each way it can go. -/
inductive Step (s : Server n) : Act n → Server n → Prop where
  | raise : Step s .raise { s with flag := true }
  | accept (fd : Int) (pc : s.listener = .accepting) (nonneg : 0 ≤ fd) (fresh : fd ∉ s.openFds) :
      Step s (.accept fd) { s with
        listener := .accepted fd
        openFds := fd :: s.openFds
        log := s.log ++ [.accepted fd] }
  | acceptFails (pc : s.listener = .accepting) : Step s .acceptFails { s with listener := .looping }
  | store (fd : Int) (pool : ConPool n) (pc : s.listener = .accepted fd)
      (entered : Thread.step s.pool (.enter 0 connectionJob) = some pool) :
      Step s .store { s with
        pool := pool
        args := some (narrow 8 fd)
        listener := .looping
        log := s.log ++ [.stored fd] }
  | loop (pc : s.listener = .looping) (idle : s.pool.callers 0 = .idle) :
      Step s .loop { s with listener := if s.flag then .stopping else .accepting }
  | free (pc : s.listener = .stopping) : Step s .free { s with listener := .released, args := none }
  | pool (a : ConPoolAct n) (pool : ConPool n) (guard : poolGuard s a = true)
      (taken : Thread.step s.pool a = some pool) :
      Step s (.pool a) { s with pool := pool, handlers := handlersAfter s a }
  | readArg (w : Fin n) (fd : Int) (pc : s.handlers w = .entered) (cell : s.args = some fd) :
      Step s (.readArg w) { s with
        handlers := Function.update s.handlers w (.holding fd)
        log := s.log ++ [.took w fd] }
  | readFreed (w : Fin n) (pc : s.handlers w = .entered) (cell : s.args = none) :
      Step s (.readArg w) { s with
        handlers := Function.update s.handlers w .lost
        log := s.log ++ [.tookFreed w] }
  | callocHeader (w : Fin n) (ok : Bool) (fd : Int) (pc : s.handlers w = .holding fd) :
      Step s (.callocHeader w ok) { s with
        handlers := Function.update s.handlers w (if ok then .serving fd else .finished) }
  | io (w : Fin n) (fd : Int) (pc : s.handlers w = .serving fd) :
      Step s (.io w) { s with log := s.log ++ [.used w fd] }
  | close (w : Fin n) (fd : Int) (pc : s.handlers w = .serving fd) :
      Step s (.close w) { s with
        handlers := Function.update s.handlers w .finished
        openFds := s.openFds.erase fd
        log := s.log ++ [.closed w fd] }

/-- **Inversion.** An enabled action did one of the things listed. -/
theorem step_cases {s t : Server n} {a : Act n} (h : step s a = some t) : Step s a t := by
  cases a with
  | raise => cases h; exact .raise
  | accept fd =>
    simp only [step] at h
    split at h
    · rename_i ok
      cases h
      exact .accept fd ok.1 ok.2.1 ok.2.2
    · cases h
  | acceptFails =>
    simp only [step] at h
    split at h
    · cases h; exact .acceptFails ‹_›
    · cases h
  | store =>
    simp only [step] at h
    split at h
    · obtain ⟨pool, entered, rfl⟩ := Option.map_eq_some_iff.mp h
      exact .store _ pool ‹_› entered
    · cases h
  | loop =>
    simp only [step] at h
    split at h
    · split at h
      · cases h; exact .loop ‹_› ‹_›
      · cases h
    · cases h
  | free =>
    simp only [step] at h
    split at h
    · cases h; exact .free ‹_›
    · cases h
  | pool a =>
    simp only [step] at h
    split at h
    · obtain ⟨pool, taken, rfl⟩ := Option.map_eq_some_iff.mp h
      exact .pool a pool ‹_› taken
    · cases h
  | readArg w =>
    simp only [step] at h
    split at h
    · cases h; exact .readArg w _ ‹_› ‹_›
    · cases h; exact .readFreed w ‹_› ‹_›
    · cases h
  | callocHeader w ok =>
    simp only [step] at h
    split at h
    · cases h; exact .callocHeader w ok _ ‹_›
    · cases h
  | io w =>
    simp only [step] at h
    split at h
    · cases h; exact .io w _ ‹_›
    · cases h
  | close w =>
    simp only [step] at h
    split at h
    · cases h; exact .close w _ ‹_›
    · cases h

/-- The server's pool takes the pool's own steps, or none. -/
theorem Step.pool_step {s t : Server n} {a : Act n} (taken : Step s a t) :
    t.pool = s.pool ∨ ∃ b, Thread.step s.pool b = some t.pool := by
  cases taken with
  | store fd pool pc entered => exact .inr ⟨_, entered⟩
  | pool b pool guard moved => exact .inr ⟨b, moved⟩
  | _ => exact .inl rfl

end Machine

end NetCalc.Net
