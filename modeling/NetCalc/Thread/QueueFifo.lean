import NetCalc.Thread.Queue

/-!
# The job queue is a bounded FIFO

What the queue is for is `fifoApply`: a list that grows at the end while it
has fewer than `c` entries and loses its head. `queueRun_fifo` is the
refinement, over every sequence of operations from `queue_new`; `Shape` is
what the four fields and the slots satisfy all along, and `FifoAt` what each
single operation does in the states in between.

The lemmas named `QueueOk.*` state the same facts without naming the front
slot or the nodes: they are what the thread pool uses.
-/

namespace NetCalc.Thread

set_option autoImplicit false
open NetCalc.Lib

variable {τ δ α : Type}

/-! ## Jobs only -/

section Jobs
variable {c : Nat} {q : Queue τ δ α}

theorem QueueOk.size_eq (h : QueueOk c q) : q.size = (liveJobs q).length := by
  obtain ⟨f, nodes, holds⟩ := h
  rw [holds.liveJobs_eq, List.length_map, holds.size]

theorem QueueOk.length_le (h : QueueOk c q) : (liveJobs q).length ≤ c := by
  obtain ⟨f, nodes, holds⟩ := h
  rw [holds.liveJobs_eq, List.length_map]
  exact holds.window.fits

theorem QueueOk.size_eq_zero (h : QueueOk c q) : q.size = 0 ↔ liveJobs q = [] := by
  rw [h.size_eq]
  simp

/-- The three ways an insertion is refused. -/
theorem QueueOk.enqueue_refused (h : QueueOk c q) (mem : Option Nat) (task : Option τ)
    (delF : Option δ) (arg : Option α)
    (refused : (liveJobs q).length = c ∨ arg = none ∨ mem = none) :
    queueEnqueue q mem task delF arg = (1, q) := by
  obtain ⟨f, nodes, holds⟩ := h
  rw [holds.liveJobs_eq, List.length_map] at refused
  exact holds.enqueue_refused mem task delF arg refused

/-- The only way it is not. -/
theorem QueueOk.enqueue_stored (h : QueueOk c q) (room : (liveJobs q).length < c) (addr : Nat)
    (task : Option τ) (delF : Option δ) (a : α) :
    QueueOk c (queueEnqueue q (some addr) task delF (some a)).2 ∧
    liveJobs (queueEnqueue q (some addr) task delF (some a)).2 = liveJobs q ++ [⟨task, delF, some a⟩] := by
  obtain ⟨f, nodes, holds⟩ := h
  rw [holds.liveJobs_eq, List.length_map] at room
  have after := holds.enqueue room addr task delF a
  refine ⟨⟨f, _, after⟩, ?_⟩
  rw [after.liveJobs_eq, holds.liveJobs_eq]
  simp

/-- Stored or refused, and nothing else. -/
theorem QueueOk.enqueue_cases (h : QueueOk c q) (mem : Option Nat) (job : Job τ δ α) :
    ((queueEnqueue q mem job.task job.delF job.arg).2 = q ∧
      ((liveJobs q).length = c ∨ job.arg = none ∨ mem = none)) ∨
    (QueueOk c (queueEnqueue q mem job.task job.delF job.arg).2 ∧
      liveJobs (queueEnqueue q mem job.task job.delF job.arg).2 = liveJobs q ++ [job] ∧
      (liveJobs q).length < c ∧ job.arg ≠ none ∧ mem ≠ none) := by
  obtain ⟨task, delF, arg⟩ := job
  by_cases refused : (liveJobs q).length = c ∨ arg = none ∨ mem = none
  · exact .inl ⟨by rw [h.enqueue_refused mem task delF arg refused], refused⟩
  · have le := h.length_le
    obtain ⟨room, given, allocated⟩ : (liveJobs q).length ≠ c ∧ arg ≠ none ∧ mem ≠ none := by
      simpa only [not_or] using refused
    obtain ⟨a, rfl⟩ := Option.ne_none_iff_exists'.mp given
    obtain ⟨addr, rfl⟩ := Option.ne_none_iff_exists'.mp allocated
    have stored := h.enqueue_stored (by omega) addr task delF a
    exact .inr ⟨stored.1, stored.2, by omega, given, allocated⟩

theorem QueueOk.enqueue (h : QueueOk c q) (mem : Option Nat) (job : Job τ δ α) :
    QueueOk c (queueEnqueue q mem job.task job.delF job.arg).2 := by
  rcases h.enqueue_cases mem job with ⟨same, _⟩ | ⟨ok, _⟩
  · rw [same]; exact h
  · exact ok

/-- A removal from an empty queue does nothing. -/
theorem QueueOk.dequeue_empty (h : QueueOk c q) (none_live : liveJobs q = []) (out : Job τ δ α) :
    queueDequeue q out = ⟨ERROR, out, q, []⟩ := by
  obtain ⟨f, nodes, holds⟩ := h
  have empty : nodes = [] := by simpa [holds.liveJobs_eq] using none_live
  subst empty
  exact holds.dequeue_empty out

/-- A removal from any other queue delivers the first job and frees its node. -/
theorem QueueOk.dequeue_cons (h : QueueOk c q) {job : Job τ δ α} {rest : List (Job τ δ α)}
    (first : liveJobs q = job :: rest) (out : Job τ δ α) :
    QueueOk c (queueDequeue q out).queue ∧ (queueDequeue q out).out = job ∧
    (queueDequeue q out).freed.map Node.job = [job] ∧ liveJobs (queueDequeue q out).queue = rest := by
  obtain ⟨f, nodes, holds⟩ := h
  rw [holds.liveJobs_eq] at first
  cases nodes with
  | nil => simp at first
  | cons node nodes =>
    rw [List.map_cons, List.cons.injEq] at first
    obtain ⟨_, delivered, freed, after⟩ := holds.dequeue out
    refine ⟨⟨_, _, after⟩, delivered.trans first.1, ?_, by rw [after.liveJobs_eq]; exact first.2⟩
    rw [freed, List.map_singleton, first.1]

theorem QueueOk.clear (h : QueueOk c q) :
    QueueOk c (queueClear q).2.1 ∧ liveJobs (queueClear q).2.1 = [] := by
  obtain ⟨f, nodes, holds⟩ := h
  exact ⟨⟨_, _, holds.clear⟩, by rw [holds.clear.liveJobs_eq]; rfl⟩

end Jobs

/-! ## Every sequence of operations -/

/-- A call on the queue. `addr` is the block a successful `calloc` returns;
`out` is what the three output variables hold before the call. -/
inductive QueueOp (τ δ α : Type) where
  | enqueue (addr : Nat) (job : Job τ δ α)
  | dequeue (out : Job τ δ α)
  | clear

/-- The queue after one call. -/
def queueApply (q : Queue τ δ α) : QueueOp τ δ α → Queue τ δ α
  | .enqueue addr job => (queueEnqueue q (some addr) job.task job.delF job.arg).2
  | .dequeue out => (queueDequeue q out).queue
  | .clear => (queueClear q).2.1

/-- The queue after a sequence of calls. -/
def queueRun (q : Queue τ δ α) (ops : List (QueueOp τ δ α)) : Queue τ δ α := ops.foldl queueApply q

/-- A bounded FIFO of `c` entries that does not take jobs without an argument. -/
def fifoApply (c : Nat) (jobs : List (Job τ δ α)) : QueueOp τ δ α → List (Job τ δ α)
  | .enqueue _ job => if jobs.length < c ∧ job.arg.isSome then jobs ++ [job] else jobs
  | .dequeue _ => jobs.tail
  | .clear => []

/-- The FIFO after a sequence of calls. -/
def fifoRun (c : Nat) (jobs : List (Job τ δ α)) (ops : List (QueueOp τ δ α)) : List (Job τ δ α) :=
  ops.foldl (fifoApply c) jobs

/-- The fields of a queue of `c` slots: what every state satisfies, and that
no index expression of the source leaves the range of `int`. -/
structure Shape (c : Nat) (q : Queue τ δ α) : Prop where
  size_nonneg : 0 ≤ q.size
  size_le : q.size ≤ c
  front_range : 0 ≤ q.front ∧ q.front < c
  rear_range : 0 ≤ q.rear ∧ q.rear < c
  home : q.size = 0 → q.front = 0 ∧ q.rear = 0
  rear_eq : 0 < q.size → q.rear = (q.front + q.size - 1) % c
  live : ∀ i : Nat, (i : Int) < q.size → ∃ node, q.items[((q.front + i) % c).toNat]? = some (some node)
  null : ∀ j : Nat, j < c → (∀ i : Nat, (i : Int) < q.size → ((q.front + i) % c).toNat ≠ j) →
    q.items[j]? = some none
  no_overflow : q.front + q.size ≤ intMax 32 ∧ q.rear + 1 ≤ intMax 32 ∧ q.size + 1 ≤ intMax 32

/-- What each call does to a queue of `c` slots, as a list of jobs. -/
structure FifoAt (c : Nat) (q : Queue τ δ α) : Prop where
  enqueue_appends : ∀ addr task delF a, q.size ≠ c →
    liveJobs (queueEnqueue q (some addr) task delF (some a)).2 = liveJobs q ++ [⟨task, delF, some a⟩]
  enqueue_refuses : ∀ addr task delF arg, q.size = c ∨ arg = none →
    (queueEnqueue q (some addr) task delF arg).2 = q
  dequeue_delivers : ∀ out job rest, liveJobs q = job :: rest →
    (queueDequeue q out).out = job ∧ liveJobs (queueDequeue q out).queue = rest
  dequeue_empty : ∀ out, q.size = 0 →
    (queueDequeue q out).out = out ∧ (queueDequeue q out).queue = q

section Refinement
variable {c : Nat} {q : Queue τ δ α}

/-- One call on the ring is one call on the list. -/
theorem queueApply_fifo (h : QueueOk c q) (op : QueueOp τ δ α) :
    QueueOk c (queueApply q op) ∧ liveJobs (queueApply q op) = fifoApply c (liveJobs q) op := by
  cases op with
  | enqueue addr job =>
    rcases h.enqueue_cases (some addr) job with ⟨same, refused⟩ | ⟨ok, stored, room, given, _⟩
    · have kept : ¬((liveJobs q).length < c ∧ job.arg.isSome) := by
        rcases refused with full | missing | failed
        · omega
        · simp [missing]
        · cases failed
      refine ⟨h.enqueue _ _, ?_⟩
      simp only [queueApply, fifoApply, same, if_neg kept]
    · refine ⟨ok, ?_⟩
      simp only [queueApply, fifoApply, stored, if_pos (And.intro room (Option.isSome_iff_ne_none.mpr given))]
  | dequeue out =>
    cases jobs : liveJobs q with
    | nil =>
      simp only [queueApply, fifoApply, h.dequeue_empty jobs out]
      exact ⟨h, jobs⟩
    | cons job rest =>
      obtain ⟨ok, _, _, left⟩ := h.dequeue_cons jobs out
      exact ⟨ok, left⟩
  | clear => exact h.clear

/-- A run of calls on the ring is the same run on the list. -/
theorem queueRun_fifo (ops : List (QueueOp τ δ α)) (h : QueueOk c q) :
    QueueOk c (queueRun q ops) ∧ liveJobs (queueRun q ops) = fifoRun c (liveJobs q) ops := by
  induction ops generalizing q with
  | nil => exact ⟨h, rfl⟩
  | cons op ops ih =>
    obtain ⟨ok, here⟩ := queueApply_fifo h op
    obtain ⟨after, rest⟩ := ih ok
    refine ⟨after, ?_⟩
    simp only [queueRun, fifoRun, List.foldl_cons] at rest ⊢
    rw [rest, here]

theorem slot_emod {f i : Nat} {q : Queue τ δ α} (front : q.front = f) :
    ((q.front + i) % c).toNat = slot c f i := by
  rw [front, ← Int.natCast_add, ← Int.natCast_emod, Int.toNat_natCast]
  rfl

/-- `rear` is a slot, also of an empty queue. -/
theorem Holds.rear_range {f : Nat} {nodes : List (Node τ δ α)} (h : Holds c f nodes q) :
    0 ≤ q.rear ∧ q.rear < c := by
  have pos := h.window.pos
  rw [h.rear]
  split
  · omega
  · have inside : slot c f (nodes.length - 1) < c := slot_lt pos
    omega

theorem Holds.shape {f : Nat} {nodes : List (Node τ δ α)} (h : Holds c f nodes q) (small : c ≤ 2 ^ 30) :
    Shape c q := by
  have front_lt := h.window.front_lt
  have fits := h.window.fits
  have rear_range := h.rear_range
  have bounds : q.front + q.size ≤ intMax 32 ∧ q.rear + 1 ≤ intMax 32 ∧ q.size + 1 ≤ intMax 32 := by
    rw [h.front, h.size]
    norm_num [intMax]
    omega
  exact
    { size_nonneg := by rw [h.size]; omega
      size_le := by rw [h.size]; omega
      front_range := by rw [h.front]; omega
      rear_range := rear_range
      home := by
        intro zero
        rw [h.size] at zero
        have empty : nodes = [] := List.length_eq_zero_iff.mp (by omega)
        rw [h.front, h.rear, if_pos empty, h.home empty]
        exact ⟨rfl, rfl⟩
      rear_eq := by
        intro some_live
        rw [h.size] at some_live
        have full : nodes ≠ [] := by
          intro empty
          simp [empty] at some_live
        rw [h.rear, if_neg full, h.front, h.size, slot, Int.natCast_emod]
        congr 1
        omega
      live := by
        intro i hi
        rw [h.size] at hi
        rw [slot_emod h.front, h.window.held i (by omega)]
        exact ⟨_, rfl⟩
      null := by
        intro j hj free
        apply h.window.empty j hj
        intro i hi
        rw [← slot_emod h.front]
        exact free i (by rw [h.size]; omega)
      no_overflow := bounds }

theorem QueueOk.fifoAt (h : QueueOk c q) : FifoAt c q where
  enqueue_appends := by
    intro addr task delF a room
    rw [h.size_eq] at room
    have le := h.length_le
    exact (h.enqueue_stored (by omega) addr task delF a).2
  enqueue_refuses := by
    intro addr task delF arg refused
    rw [h.size_eq] at refused
    have why : (liveJobs q).length = c ∨ arg = none ∨ some addr = none := by
      rcases refused with full | missing
      · exact .inl (by omega)
      · exact .inr (.inl missing)
    rw [h.enqueue_refused (some addr) task delF arg why]
  dequeue_delivers := by
    intro out job rest first
    obtain ⟨_, delivered, _, left⟩ := h.dequeue_cons first out
    exact ⟨delivered, left⟩
  dequeue_empty := by
    intro out zero
    rw [h.dequeue_empty (h.size_eq_zero.mp zero) out]
    exact ⟨rfl, rfl⟩

/-- **The queue is a bounded FIFO**, after any sequence of calls on a queue
that `queue_new` made. -/
theorem queue_bounded_fifo (c : Nat) (pos : 1 ≤ c) (small : c ≤ 2 ^ 30) (ops : List (QueueOp τ δ α)) :
    ∃ q₀ : Queue τ δ α, queueNew true true c = some q₀ ∧ Shape c (queueRun q₀ ops) ∧
      FifoAt c (queueRun q₀ ops) ∧ liveJobs (queueRun q₀ ops) = fifoRun c [] ops := by
  obtain ⟨q₀, made, holds⟩ := queueNew_holds (τ := τ) (δ := δ) (α := α) pos (by omega)
  obtain ⟨ok, jobs⟩ := queueRun_fifo ops ⟨0, [], holds⟩
  rw [holds.liveJobs_eq] at jobs
  refine ⟨q₀, made, ?_, ok.fifoAt, jobs⟩
  obtain ⟨f, nodes, after⟩ := ok
  exact after.shape small

/-- A queue of two slots, filled past its capacity, wrapped once and cleared. -/
theorem queue_bounded_fifo_two :
    ∃ q₀ : Queue Nat Nat Nat, queueNew true true 2 = some q₀ ∧
      (let ops : List (QueueOp Nat Nat Nat) :=
        [.enqueue 100 ⟨some 1, none, some 7⟩, .enqueue 101 ⟨some 2, some 3, some 8⟩,
          .enqueue 102 ⟨some 4, none, some 9⟩, .dequeue .null, .enqueue 103 ⟨some 5, none, none⟩,
          .enqueue 104 ⟨some 6, none, some 5⟩]
      Shape 2 (queueRun q₀ ops) ∧ FifoAt 2 (queueRun q₀ ops) ∧
        liveJobs (queueRun q₀ ops) = fifoRun 2 [] ops) :=
  queue_bounded_fifo 2 (by decide) (by decide) _

end Refinement

end NetCalc.Thread
