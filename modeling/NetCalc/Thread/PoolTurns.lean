import NetCalc.Thread.PoolWorth
import NetCalc.Thread.PoolStatements

/-!
# Whose turn it is, and how far they are

`Related` connects the pool that runs statement by statement with the pool of
whole sections. The mutex says whose section is open; `between` says, for each
statement, how far the queue in memory is from the one the sections see, and
`stands` where the sections' pool has each party. The two pools never differ
in `size` and `active`: the reads without the mutex see nothing that a section
could not have shown them.

The second half says what it takes for `Related` to survive a step of one
party, in its section or outside it.
-/

namespace NetCalc.Thread.Fine

set_option autoImplicit false
open NetCalc.Lib

variable {n m : Nat} {τ δ α : Type}

/-! ## Whose turn it is -/

/-- Between taking the mutex and giving it back. -/
def WorkerPc.inside : WorkerPc τ δ α → Bool
  | .atLock | .blocked | .woken | .unlocked _ | .running _ | .returned _ | .testSize | .testActive
  | .exited => false
  | _ => true

def CallerPc.inside : CallerPc τ δ α → Bool
  | .idle | .entered _ | .atLock _ _ | .signal _ => false
  | _ => true

def DestroyerPc.inside : DestroyerPc → Bool
  | .setInactive | .unlock => true
  | _ => false

def OutsiderPc.inside : OutsiderPc → Bool
  | .idle => false
  | _ => true

/-- The party is in its section. -/
def Pool.inside (f : Pool n m τ δ α) : Party n m → Bool
  | .worker w => (f.workers w).inside
  | .caller p => (f.callers p).inside
  | .destroyer => f.destroyer.inside
  | .outsider => f.outsider.inside

/-! ## Where the sections' pool has the parties -/

/-- A worker before the statement at which its section takes effect is at the
lock; from there on it has left the section with its locals. -/
def WorkerPc.stands : WorkerPc τ δ α → Thread.WorkerPc τ δ α → Prop
  | .atLock, pc => pc = .atLock
  | .blocked, pc => pc = .blocked
  | .woken, pc => pc = .woken
  | .sizeAgain node, pc | .resetFront node, pc | .resetRear node, pc | .free node, pc => pc = .unlocked node.job
  | .unlock locals, pc | .unlocked locals, pc => pc = .unlocked locals
  | .running locals, pc => pc = .running locals
  | .returned locals, pc => pc = .returned locals
  | .testSize, pc => pc = .testSize
  | .testActive, pc => pc = .testActive
  | .exited, pc => pc = .exited
  | _, pc => pc = .atLock ∨ pc = .woken

/-- The same for a caller. -/
def CallerPc.stands : CallerPc τ δ α → Thread.CallerPc τ δ α → Prop
  | .idle, pc => pc = .idle
  | .entered job, pc => pc = .entered job
  | .unlock job, pc | .signal job, pc => ∃ call, pc = .unlocked call ∧ call.job = job ∧ call.err = SUCCESS
  | .atLock job active, pc | .fullcheck job active, pc | .argCheck job active, pc | .alloc job active, pc
  | .emptycheck job active _, pc | .moveRear job active _, pc | .store job active _, pc
  | .grow job active _, pc => pc = .tested job active

/-- The same for the destroyer. One that was refused is, for the sections, one
that has joined all workers and waits. -/
def DestroyerPc.section (n : Nat) : DestroyerPc → Thread.DestroyerPc
  | .idle | .atLock | .setInactive => .idle
  | .unlock | .inactive => .inactive
  | .joining k => .joining k
  | .refused => .joining n
  | .destroyed => .destroyed

/-- The party is where the sections' pool has it. -/
def Pool.stands (f : Pool n m τ δ α) (c : Thread.Pool n m τ δ α) : Party n m → Prop
  | .worker w => (f.workers w).stands (c.workers w)
  | .caller p => (f.callers p).stands (c.callers p)
  | .destroyer => f.destroyer.section n = c.destroyer
  | .outsider => True

/-! ## How far a section is -/

/-- The queue in memory, with a worker's section open, and the queue `q` of the
sections. -/
def WorkerPc.between (sh : Shared n m τ δ α) (q : Queue τ δ α) : WorkerPc τ δ α → Prop
  | .loopActive => sh.queue = q ∧ q.size = EMPTY
  | .wait => sh.queue = q ∧ q.size = EMPTY ∧ sh.active = ACTIVE
  | .peekSize => sh.queue = q ∧ ¬(q.size = EMPTY ∧ sh.active = ACTIVE)
  | .peekEnds | .peekItem => sh.queue = q ∧ q.size ≠ EMPTY
  | .copyOut node | .clearSlot node => sh.queue = q ∧ q.size ≠ EMPTY ∧ q.item q.front = some node
  | .moveFront node =>
    sh.queue = { q with items := q.items.set q.front.toNat none } ∧ q.size ≠ EMPTY ∧ q.item q.front = some node
  | .shrink node =>
    sh.queue =
      { q with items := q.items.set q.front.toNat none, front := (q.front + 1).tmod q.capacity } ∧
    q.size ≠ EMPTY ∧ q.item q.front = some node
  | .sizeAgain _ =>
    q = if queueEmptycheck sh.queue ≠ 0 then { sh.queue with front := 0, rear := 0 } else sh.queue
  | .resetFront _ => q = { sh.queue with front := 0, rear := 0 }
  | .resetRear _ => q = { sh.queue with rear := 0 } ∧ sh.queue.front = 0
  | _ => sh.queue = q

/-- The same with a caller's section open. -/
def CallerPc.between (sh : Shared n m τ δ α) (q : Queue τ δ α) : CallerPc τ δ α → Prop
  | .argCheck _ _ => sh.queue = q ∧ queueFullcheck q = 0
  | .alloc job _ => sh.queue = q ∧ queueFullcheck q = 0 ∧ job.arg.isNone = false
  | .emptycheck job _ node => sh.queue = q ∧ queueFullcheck q = 0 ∧ job.arg.isNone = false ∧ node.job = job
  | .moveRear job _ node =>
    sh.queue = q ∧ queueFullcheck q = 0 ∧ job.arg.isNone = false ∧ node.job = job ∧ queueEmptycheck q = 0
  | .store job _ node =>
    (queueEnqueue q (some node.addr) job.task job.delF job.arg).2 =
      { sh.queue with items := sh.queue.items.set sh.queue.rear.toNat (some node), size := sh.queue.size + 1 }
  | .grow job _ node =>
    (queueEnqueue q (some node.addr) job.task job.delF job.arg).2 = { sh.queue with size := sh.queue.size + 1 }
  | _ => sh.queue = q

/-- The same for whoever has the mutex. -/
def Pool.between (f : Pool n m τ δ α) (q : Queue τ δ α) : Party n m → Prop
  | .worker w => (f.workers w).between f.shared q
  | .caller p => (f.callers p).between f.shared q
  | .destroyer | .outsider => f.shared.queue = q

/-- What the statements' history says of the sections' one. -/
def see : Thread.Event n m τ δ α → Event n m τ δ α
  | .appended p job => .appended p job
  | .answered p call => .answered p call.job call.err
  | .inactive => .inactive
  | .removed w job => .removed w job
  | .invoked w task arg => .invoked w task arg
  | .returned w task arg => .returned w task arg
  | .deleted w delF arg => .deleted w delF arg
  | .discarded jobs => .discarded jobs

/-- The pool `f`, statement by statement, and the pool `c` of the sections. -/
structure Related (f : Pool n m τ δ α) (c : Thread.Pool n m τ δ α) : Prop where
  active : f.shared.active = c.active
  size : f.shared.queue.size = c.queue.size
  log : f.log = c.log.map see
  stands : ∀ x, f.stands c x
  turn : ∀ x, f.inside x = true ↔ f.shared.mutex = some x
  queue : f.shared.mutex.elim (f.shared.queue = c.queue) (f.between c.queue)

theorem related_init : Related (threadpoolCreate n m τ δ α) (Thread.threadpoolCreate n m τ δ α) where
  active := rfl
  size := rfl
  log := rfl
  stands := by
    intro x
    cases x with
    | outsider => trivial
    | _ => rfl
  turn := by
    intro x
    cases x <;> simp [Pool.inside, threadpoolCreate, WorkerPc.inside, CallerPc.inside, DestroyerPc.inside,
      OutsiderPc.inside]
  queue := rfl

/-! ## One party moves -/

section Moves
variable {f f' : Pool n m τ δ α} {c c' : Thread.Pool n m τ δ α} {x : Party n m}

/-- Nothing about the party `x` has changed. -/
structure Untouched (f f' : Pool n m τ δ α) (c c' : Thread.Pool n m τ δ α) (x : Party n m) : Prop where
  inside : f'.inside x = f.inside x
  stands : f.stands c x → f'.stands c' x

/-- A step inside the section of `x`, or into it or out of it. -/
theorem Related.section (h : Related f c) (turn : f.shared.mutex = none ∨ f.shared.mutex = some x)
    (others : ∀ y, y ≠ x → Untouched f f' c c' y) (active : f'.shared.active = c'.active)
    (size : f'.shared.queue.size = c'.queue.size) (log : f'.log = c'.log.map see) (mine : f'.stands c' x)
    (after : (f'.shared.mutex = none ∧ f'.inside x = false ∧ f'.shared.queue = c'.queue) ∨
      (f'.shared.mutex = some x ∧ f'.inside x = true ∧ f'.between c'.queue x)) : Related f' c' := by
  have alone : ∀ y, y ≠ x → f'.inside y = false := by
    intro y other
    rw [(others y other).inside, Bool.eq_false_iff]
    intro inside
    have holds := (h.turn y).mp inside
    rcases turn with free | mine
    · rw [free] at holds
      cases holds
    · rw [mine, Option.some.injEq] at holds
      exact other holds.symm
  exact
    { active := active
      size := size
      log := log
      stands := by
        intro y
        by_cases same : y = x
        · rw [same]
          exact mine
        · exact (others y same).stands (h.stands y)
      turn := by
        intro y
        by_cases same : y = x
        · rw [same]
          rcases after with ⟨free, out, _⟩ | ⟨held, inside, _⟩
          · simp [free, out]
          · simp [held, inside]
        · rw [alone y same]
          rcases after with ⟨free, _⟩ | ⟨held, _⟩
          · simp [free]
          · simp [held, Ne.symm same]
      queue := by
        rcases after with ⟨free, _, queue⟩ | ⟨held, _, queue⟩
        · rw [free]
          exact queue
        · rw [held]
          exact queue }

/-- A step that has nothing to do with anybody's section. -/
theorem Related.aside (h : Related f c) (shared : f'.shared = f.shared)
    (others : ∀ y, f'.inside y = f.inside y) (stands : ∀ y, f.stands c y → f'.stands c' y)
    (between : ∀ y, f.inside y = true → f.between c.queue y → f'.between c.queue y)
    (queue : c'.queue = c.queue) (active : c'.active = c.active)
    (log : f'.log = c'.log.map see) : Related f' c' where
  active := by rw [shared, active, h.active]
  size := by rw [shared, queue, h.size]
  log := log
  stands := fun y => stands y (h.stands y)
  turn := by
    intro y
    rw [others, shared]
    exact h.turn y
  queue := by
    have before := h.queue
    rw [shared, queue]
    cases held : f.shared.mutex with
    | none =>
      rw [held] at before
      exact before
    | some y =>
      rw [held] at before
      exact between y ((h.turn y).mpr held) before

/-- A worker's step in its section, with what the sections do meanwhile. -/
theorem Related.worker (h : Related f c) {w : Fin n} {e : Effect n m τ δ α (WorkerPc τ δ α)}
    (turn : f.shared.mutex = none ∨ f.shared.mutex = some (.worker w)) (callers : c'.callers = c.callers)
    (destroyer : c'.destroyer = c.destroyer) (workers : ∀ v, v ≠ w → c'.workers v = c.workers v)
    (active : e.shared.active = c'.active) (size : e.shared.queue.size = c'.queue.size)
    (log : f.log ++ e.log = c'.log.map see) (mine : e.next.stands (c'.workers w))
    (after : (e.shared.mutex = none ∧ e.next.inside = false ∧ e.shared.queue = c'.queue) ∨
      (e.shared.mutex = some (.worker w) ∧ e.next.inside = true ∧ e.next.between e.shared c'.queue)) :
    Related (f.worker w e) c' := by
  refine h.section turn ?_ active size log ?_ ?_
  · intro y other
    cases y with
    | worker v =>
      have different : v ≠ w := fun same => other (by rw [same])
      have kept : (f.worker w e).workers v = f.workers v := Function.update_of_ne different _ _
      refine ⟨by simp only [Pool.inside, kept], ?_⟩
      intro before
      simp only [Pool.stands, kept, workers v different]
      exact before
    | caller p =>
      refine ⟨rfl, ?_⟩
      intro before
      simp only [Pool.stands, callers]
      exact before
    | destroyer =>
      refine ⟨rfl, ?_⟩
      intro before
      simp only [Pool.stands, destroyer]
      exact before
    | outsider => exact ⟨rfl, fun _ => trivial⟩
  · have next : (f.worker w e).workers w = e.next := Function.update_self _ _ _
    simp only [Pool.stands, next]
    exact mine
  · have next : (f.worker w e).workers w = e.next := Function.update_self _ _ _
    simp only [Pool.inside, Pool.between, next]
    exact after

/-- A worker's step outside its section. -/
theorem Related.worker_aside (h : Related f c) {w : Fin n} {e : Effect n m τ δ α (WorkerPc τ δ α)}
    (shared : e.shared = f.shared) (before : (f.workers w).inside = false) (after : e.next.inside = false)
    (callers : c'.callers = c.callers) (destroyer : c'.destroyer = c.destroyer)
    (workers : ∀ v, v ≠ w → c'.workers v = c.workers v) (queue : c'.queue = c.queue)
    (active : c'.active = c.active) (log : f.log ++ e.log = c'.log.map see)
    (mine : e.next.stands (c'.workers w)) : Related (f.worker w e) c' := by
  have next : (f.worker w e).workers w = e.next := Function.update_self _ _ _
  have kept : ∀ v, v ≠ w → (f.worker w e).workers v = f.workers v := fun v different =>
    Function.update_of_ne different _ _
  refine h.aside shared ?_ ?_ ?_ queue active log
  · intro y
    cases y with
    | worker v =>
      by_cases same : v = w
      · simp only [Pool.inside, same, next, before, after]
      · simp only [Pool.inside, kept v same]
    | _ => rfl
  · intro y was
    cases y with
    | worker v =>
      by_cases same : v = w
      · simp only [Pool.stands, same, next]
        exact mine
      · simp only [Pool.stands, kept v same, workers v same]
        exact was
    | caller p =>
      simp only [Pool.stands, callers]
      exact was
    | destroyer =>
      simp only [Pool.stands, destroyer]
      exact was
    | outsider => trivial
  · intro y inside was
    cases y with
    | worker v =>
      by_cases same : v = w
      · simp only [Pool.inside, same, before] at inside
        cases inside
      · simp only [Pool.between, kept v same]
        rw [show (f.worker w e).shared = f.shared from shared]
        exact was
    | _ =>
      simp only [Pool.between]
      rw [show (f.worker w e).shared = f.shared from shared]
      exact was

/-- A caller's step in its section. -/
theorem Related.caller (h : Related f c) {p : Fin m} {e : Effect n m τ δ α (CallerPc τ δ α)}
    (turn : f.shared.mutex = none ∨ f.shared.mutex = some (.caller p)) (workers : c'.workers = c.workers)
    (destroyer : c'.destroyer = c.destroyer) (callers : ∀ q, q ≠ p → c'.callers q = c.callers q)
    (active : e.shared.active = c'.active) (size : e.shared.queue.size = c'.queue.size)
    (log : f.log ++ e.log = c'.log.map see) (mine : e.next.stands (c'.callers p))
    (after : (e.shared.mutex = none ∧ e.next.inside = false ∧ e.shared.queue = c'.queue) ∨
      (e.shared.mutex = some (.caller p) ∧ e.next.inside = true ∧ e.next.between e.shared c'.queue)) :
    Related (f.caller p e) c' := by
  refine h.section turn ?_ active size log ?_ ?_
  · intro y other
    cases y with
    | caller q =>
      have different : q ≠ p := fun same => other (by rw [same])
      have kept : (f.caller p e).callers q = f.callers q := Function.update_of_ne different _ _
      refine ⟨by simp only [Pool.inside, kept], ?_⟩
      intro before
      simp only [Pool.stands, kept, callers q different]
      exact before
    | worker w =>
      refine ⟨rfl, ?_⟩
      intro before
      simp only [Pool.stands, workers]
      exact before
    | destroyer =>
      refine ⟨rfl, ?_⟩
      intro before
      simp only [Pool.stands, destroyer]
      exact before
    | outsider => exact ⟨rfl, fun _ => trivial⟩
  · have next : (f.caller p e).callers p = e.next := Function.update_self _ _ _
    simp only [Pool.stands, next]
    exact mine
  · have next : (f.caller p e).callers p = e.next := Function.update_self _ _ _
    simp only [Pool.inside, Pool.between, next]
    exact after

/-- A caller's step outside its section; some sleepers may be woken with it. -/
theorem Related.caller_aside (h : Related f c) {p : Fin m} {pc : CallerPc τ δ α} (shared : f'.shared = f.shared)
    (next : f'.callers = Function.update f.callers p pc) (before : (f.callers p).inside = false)
    (after : pc.inside = false) (woken : ∀ v, f'.workers v = f.workers v ∧ c'.workers v = c.workers v ∨
      f.workers v = .blocked ∧ f'.workers v = .woken ∧ c'.workers v = .woken)
    (destroyer : f'.destroyer = f.destroyer ∧ c'.destroyer = c.destroyer) (outsider : f'.outsider = f.outsider)
    (callers : ∀ q, q ≠ p → c'.callers q = c.callers q) (queue : c'.queue = c.queue)
    (active : c'.active = c.active) (log : f'.log = c'.log.map see) (mine : pc.stands (c'.callers p)) :
    Related f' c' := by
  have own : f'.callers p = pc := by rw [next, Function.update_self]
  have kept : ∀ q, q ≠ p → f'.callers q = f.callers q := fun q different => by
    rw [next, Function.update_of_ne different]
  refine h.aside shared ?_ ?_ ?_ queue active log
  · intro y
    cases y with
    | worker v =>
      simp only [Pool.inside]
      rcases woken v with ⟨same, _⟩ | ⟨was, now, _⟩
      · rw [same]
      · rw [was, now]
        rfl
    | caller q =>
      by_cases same : q = p
      · simp only [Pool.inside, same, own, before, after]
      · simp only [Pool.inside, kept q same]
    | destroyer => simp only [Pool.inside, destroyer.1]
    | outsider => simp only [Pool.inside, outsider]
  · intro y was
    cases y with
    | worker v =>
      simp only [Pool.stands] at was ⊢
      rcases woken v with ⟨same, same'⟩ | ⟨_, now, now'⟩
      · rw [same, same']
        exact was
      · rw [now, now']
        rfl
    | caller q =>
      by_cases same : q = p
      · simp only [Pool.stands, same, own]
        exact mine
      · simp only [Pool.stands, kept q same, callers q same]
        exact was
    | destroyer =>
      simp only [Pool.stands, destroyer.1, destroyer.2]
      exact was
    | outsider => trivial
  · intro y inside was
    cases y with
    | worker v =>
      simp only [Pool.between, shared] at was ⊢
      rcases woken v with ⟨same, _⟩ | ⟨asleep, _⟩
      · rw [same]
        exact was
      · simp only [Pool.inside, asleep] at inside
        cases inside
    | caller q =>
      by_cases same : q = p
      · simp only [Pool.inside, same, before] at inside
        cases inside
      · simp only [Pool.between, kept q same, shared] at was ⊢
        exact was
    | _ =>
      simp only [Pool.between, shared] at was ⊢
      exact was

end Moves

/-! ## How many statements a section has left -/

/-- Statements a worker has before it until it is out of its section. -/
def WorkerPc.rank : WorkerPc τ δ α → Nat
  | .atLock | .woken => 20
  | .loopSize => 19
  | .loopActive => 18
  | .wait => 17
  | .peekSize => 16
  | .peekEnds => 15
  | .peekItem => 14
  | .copyOut _ => 13
  | .clearSlot _ => 12
  | .moveFront _ => 11
  | .shrink _ => 10
  | .sizeAgain _ => 9
  | .resetFront _ => 8
  | .resetRear _ => 7
  | .free _ => 6
  | .unlock _ => 5
  | _ => 0

/-- The same for a caller. -/
def CallerPc.rank : CallerPc τ δ α → Nat
  | .atLock _ _ => 10
  | .fullcheck _ _ => 9
  | .argCheck _ _ => 8
  | .alloc _ _ => 7
  | .emptycheck _ _ _ => 6
  | .moveRear _ _ _ => 5
  | .store _ _ _ => 4
  | .grow _ _ _ => 3
  | .unlock _ => 2
  | _ => 0

/-- The same for the destroyer. -/
def DestroyerPc.rank : DestroyerPc → Nat
  | .atLock => 3
  | .setInactive => 2
  | .unlock | .joining _ => 1
  | _ => 0

/-- What a section of the pool of `n` workers costs, with all it can wake. -/
def sectionCost (n : Nat) : Nat := 20 * n + 20

/-- A shutdown from outside pays for what it brings in. -/
def OutsiderPc.rank (n : Nat) : OutsiderPc → Nat
  | .idle => 0
  | .setInactive => (sectionCost n + 1) * (5 * n + 1) + 1
  | .unlock => 1

/-- Statements all parties have before them until they are out of their sections. -/
def Pool.rank (f : Pool n m τ δ α) : Nat :=
  total f.workers WorkerPc.rank + total f.callers CallerPc.rank + f.destroyer.rank + f.outsider.rank n

/-- A step to `f'` that brings in `p` is a step of the sections' pool `c`, or one
statement less of a section. -/
def Matched (f f' : Pool n m τ δ α) (c : Thread.Pool n m τ δ α) (p : Nat) : Prop :=
  ∃ c', Related f' c' ∧ (c' = c ∧ f'.rank + 1 ≤ f.rank + p ∨
    ∃ a, Thread.step c a = some c' ∧ f'.rank + (sectionCost n + 1) * a.price ≤ f.rank + sectionCost n + p)

theorem WorkerPc.rank_le (pc : WorkerPc τ δ α) : pc.rank ≤ 20 := by
  unfold WorkerPc.rank
  split <;> decide

theorem CallerPc.rank_le (pc : CallerPc τ δ α) : pc.rank ≤ 10 := by
  unfold CallerPc.rank
  split <;> decide

section Ranks
variable {f f' : Pool n m τ δ α} {c c' : Thread.Pool n m τ δ α}

/-- Where everybody else stays, a worker's statement counts for itself. -/
theorem rank_worker {w : Fin n} (e : Effect n m τ δ α (WorkerPc τ δ α)) :
    (f.worker w e).rank + (f.workers w).rank = f.rank + e.next.rank := by
  have exchanged := total_update f.workers WorkerPc.rank w e.next
  unfold Pool.rank Pool.worker
  dsimp only
  omega

theorem rank_caller {p : Fin m} (e : Effect n m τ δ α (CallerPc τ δ α)) :
    (f.caller p e).rank + (f.callers p).rank = f.rank + e.next.rank := by
  have exchanged := total_update f.callers CallerPc.rank p e.next
  unfold Pool.rank Pool.caller
  dsimp only
  omega

/-- Waking somebody brings it back to the lock. -/
theorem rank_wake (workers : Fin n → WorkerPc τ δ α) (chosen : Fin n → Bool) :
    total (wake workers chosen) WorkerPc.rank ≤ total workers WorkerPc.rank + 20 * n := by
  have each : ∀ w, (wake workers chosen w).rank ≤ (workers w).rank + 20 := by
    intro w
    have most := WorkerPc.rank_le (wake workers chosen w)
    omega
  have all := total_le 20 each
  rwa [Fintype.card_fin, Nat.mul_comm] at all

/-- A statement at which nothing takes effect. -/
theorem Related.silent {p : Nat} (related : Related f' c) (less : f'.rank + 1 ≤ f.rank + p) : Matched f f' c p :=
  ⟨c, related, .inl ⟨rfl, less⟩⟩

/-- A statement at which a section takes effect. -/
theorem Related.commits {p : Nat} {a : Thread.Act n m τ δ α} (related : Related f' c')
    (taken : Thread.step c a = some c') (free : a.price = 0) (more : f'.rank ≤ f.rank + sectionCost n + p) :
    Matched f f' c p := by
  refine ⟨c', related, .inr ⟨a, taken, ?_⟩⟩
  rw [free, Nat.mul_zero, Nat.add_zero]
  exact more

end Ranks

end NetCalc.Thread.Fine
