import NetCalc.Thread.QueueStatus
import NetCalc.Lib.Ledger
import NetCalc.Lib.Lts

/-!
# Where the queue's nodes go

`queue_enqueue` allocates a node for what it stores, and `queue_dequeue`,
`queue_clear` and `queue_destroy` free nodes. In every call the nodes that
were stored, and after them the one allocated, are the nodes freed, and after
them those that are stored then (`queueApply_conserves`). So over the life of
a queue the nodes are freed in the order they were allocated in, each once
(`queueRun_conserves`), and in memory no block is freed that is not allocated
(`queueRun_memory`), as long as `calloc` returns only blocks that are not.

`queue_clear` walks from `front` over the end of the array. Each of its visits
removes the head of what is left (`Window.drain_all`), so what it frees is
what was stored, and what it leaves is a new queue (`Holds.eq_new`).
-/

namespace NetCalc.Thread

set_option autoImplicit false
open NetCalc.Lib

variable {τ δ α : Type}

/-- The node a call allocates: in `queue_enqueue`, `calloc` is reached behind
the two checks. -/
def allocatedBy (q : Queue τ δ α) : QueueOp τ δ α → Option (Node τ δ α)
  | .enqueue addr job =>
    if queueFullcheck q ≠ 0 then none
    else if job.arg.isNone then none
    else some ⟨addr, job⟩
  | .dequeue _ => none
  | .clear => none

/-- The nodes a call passes to `free`. -/
def releasedBy (q : Queue τ δ α) : QueueOp τ δ α → List (Node τ δ α)
  | .enqueue _ _ => []
  | .dequeue out => (queueDequeue q out).freed
  | .clear => (queueClear q).2.2

/-- A queue as a machine, driven by the calls on it. -/
def queueCalls (q : Queue τ δ α) : Lts (Queue τ δ α) (QueueOp τ δ α) where
  init := q
  step q op := some (queueApply q op)

/-- The nodes that a sequence of calls allocates. -/
def allocated (q : Queue τ δ α) (ops : List (QueueOp τ δ α)) : List (Node τ δ α) :=
  (queueCalls q).history (fun q op => (allocatedBy q op).toList) q ops

/-- The nodes that a sequence of calls frees. -/
def released (q : Queue τ δ α) (ops : List (QueueOp τ δ α)) : List (Node τ δ α) :=
  (queueCalls q).history releasedBy q ops

/-- A node as an allocated block. -/
def Node.block (node : Node τ δ α) : Nat × Job τ δ α := (node.addr, node.job)

/-- What one call does with memory. -/
def callLedger (q : Queue τ δ α) (op : QueueOp τ δ α) : Ledger Nat (Job τ δ α) :=
  openings ((allocatedBy q op).toList.map Node.block) ++ closings ((releasedBy q op).map Node.block)

/-- What a sequence of calls that ends with `queue_destroy` does with memory. -/
def nodeLedger (q : Queue τ δ α) (ops : List (QueueOp τ δ α)) : Ledger Nat (Job τ δ α) :=
  (queueCalls q).history callLedger q ops ++
    closings ((queueDestroy (some (queueRun q ops))).2.map Node.block)

/-- What each call does with nodes, in a state of the queue. -/
structure NodesAt (q : Queue τ δ α) : Prop where
  enqueue_allocates : ∀ addr job, (allocatedBy q (.enqueue addr job)).isSome ↔
    Stored ⟨addr, job⟩ q (queueApply q (.enqueue addr job))
  enqueue_refuses : ∀ addr job, allocatedBy q (.enqueue addr job) = none →
    queueApply q (.enqueue addr job) = q
  dequeue_frees : ∀ out, (queueDequeue q out).freed = (liveNodes q).take 1
  dequeue_delivers : ∀ out, ∀ node ∈ (queueDequeue q out).freed,
    (queueDequeue q out).out = node.job ∧ liveNodes q = node :: liveNodes (queueDequeue q out).queue
  clear_frees : (queueClear q).2.2 = liveNodes q
  clear_visits : q.size = (liveNodes q).length ∧ q.front + q.size ≤ intMax 32
  destroy_frees : queueDestroy (some q) = (none, liveNodes q)

section Calls
variable {c f : Nat} {nodes : List (Node τ δ α)} {q q' : Queue τ δ α}

/-- **The clearing walk** frees the stored nodes, each once. -/
theorem Holds.clear_freed (h : Holds c f nodes q) : (queueClear q).2.2 = nodes := by
  unfold queueClear
  rw [h.emptycheck]
  by_cases empty : nodes = []
  · simp [empty]
  · have start : Window c (slot c f 0) nodes q.items := by
      rw [slot_zero h.window.front_lt]
      exact h.window
    have walk := start.drain_all []
    rw [if_neg empty]
    simp only [ne_eq, not_true_eq_false, if_false]
    rw [h.clear_slot, h.size, Int.toNat_natCast, List.range_eq_range', walk, List.nil_append]

/-- Two empty queues of one capacity are the same queue. -/
theorem Holds.eq_new (h : Holds c f [] q) (k : Holds c f [] q') : q = q' := by
  obtain ⟨capacity, size, front, rear, items⟩ := q
  obtain ⟨capacity', size', front', rear', items'⟩ := q'
  have cells := h.window.eq_replicate.trans k.window.eq_replicate.symm
  have rears := h.rear.trans k.rear.symm
  have fronts := h.front.trans k.front.symm
  have sizes := h.size.trans k.size.symm
  have capacities := h.capacity.trans k.capacity.symm
  simp only at cells rears fronts sizes capacities
  rw [cells, rears, fronts, sizes, capacities]

/-- What an insertion that is not refused allocates is what it stores. -/
theorem allocatedBy_enqueue (q : Queue τ δ α) (addr : Nat) (job : Job τ δ α) :
    allocatedBy q (.enqueue addr job) =
      if q.capacity = q.size ∨ job.arg = none then none else some ⟨addr, job⟩ := by
  unfold allocatedBy queueFullcheck
  by_cases full : q.capacity = q.size
  · simp [full]
  · by_cases missing : job.arg = none
    · simp [full, missing]
    · simp [full, missing]

/-- **Conservation, one call.** -/
theorem queueApply_conserves (h : QueueOk c q) (op : QueueOp τ δ α) :
    liveNodes q ++ (allocatedBy q op).toList = releasedBy q op ++ liveNodes (queueApply q op) := by
  obtain ⟨f, nodes, holds⟩ := h
  rw [holds.liveNodes_eq]
  cases op with
  | enqueue addr job =>
    obtain ⟨task, delF, arg⟩ := job
    rw [allocatedBy_enqueue, holds.capacity, holds.size]
    by_cases refused : (c : Int) = nodes.length ∨ arg = none
    · have why : nodes.length = c ∨ arg = none ∨ some addr = none := by
        rcases refused with full | missing
        · exact .inl (by omega)
        · exact .inr (.inl missing)
      have same : queueApply q (.enqueue addr ⟨task, delF, arg⟩) = q := by
        rw [queueApply, holds.enqueue_refused (some addr) task delF arg why]
      rw [if_pos refused, same, holds.liveNodes_eq]
      exact List.append_nil nodes
    · obtain ⟨room, given⟩ := not_or.mp refused
      obtain ⟨a, rfl⟩ := Option.ne_none_iff_exists'.mp given
      have fits := holds.window.fits
      have stored := holds.enqueue (by omega) addr task delF a
      rw [if_neg refused, queueApply, stored.liveNodes_eq]
      rfl
  | dequeue out =>
    cases nodes with
    | nil =>
      have nothing := holds.dequeue_empty out
      simp only [allocatedBy, releasedBy, queueApply, nothing, holds.liveNodes_eq]
      rfl
    | cons node nodes =>
      obtain ⟨_, _, freed, after⟩ := holds.dequeue out
      simp only [allocatedBy, releasedBy, queueApply, freed, after.liveNodes_eq]
      exact List.append_nil _
  | clear =>
    simp only [allocatedBy, releasedBy, queueApply, holds.clear_freed, holds.clear.liveNodes_eq]
    rfl

/-- An insertion that allocates nothing does nothing. -/
theorem queueApply_refused {addr : Nat} {job : Job τ δ α} (nothing : allocatedBy q (.enqueue addr job) = none) :
    queueApply q (.enqueue addr job) = q := by
  have refused : q.capacity = q.size ∨ job.arg = none := by
    by_contra stored
    rw [allocatedBy_enqueue, if_neg stored] at nothing
    cases nothing
  rw [queueApply]
  rcases queueEnqueue_cases q addr job with ⟨same, _⟩ | ⟨_, empty, nonzero, given⟩ | ⟨_, _, room, given⟩
  · rw [same]
  · exact absurd refused (not_or.mpr ⟨fun full => nonzero (full.trans empty), given⟩)
  · exact absurd refused (not_or.mpr ⟨room, given⟩)

/-- An insertion allocates a node exactly if it stores one. -/
theorem Holds.allocates_iff (h : Holds c f nodes q) (addr : Nat) (job : Job τ δ α) :
    (allocatedBy q (.enqueue addr job)).isSome ↔ Stored ⟨addr, job⟩ q (queueApply q (.enqueue addr job)) := by
  have pos := h.window.pos
  have slots : q.items.length = c := h.window.length
  have rear := h.rear_range
  rw [allocatedBy_enqueue, queueApply]
  rcases queueEnqueue_cases q addr job with ⟨same, refused⟩ | ⟨same, empty, nonzero, given⟩ |
    ⟨same, some_left, room, given⟩
  · rw [same, if_pos refused]
    refine iff_of_false (by simp) fun stored => ?_
    have counted : q.size = q.size + 1 := stored.1
    omega
  · rw [same, if_neg (not_or.mpr ⟨fun full => nonzero (full.trans empty), given⟩)]
    exact iff_of_true rfl ⟨rfl, slot_written rear.1 (by omega) _⟩
  · have low : 0 ≤ (q.rear + 1).tmod q.capacity := Int.tmod_nonneg _ (by omega)
    have high : (q.rear + 1).tmod q.capacity < q.items.length := by
      rw [slots, h.capacity]
      exact Int.tmod_lt_of_pos _ (by omega)
    rw [same, if_neg (not_or.mpr ⟨room, given⟩)]
    exact iff_of_true rfl ⟨rfl, slot_written low high _⟩

/-- **The nodes in a state of the queue.** -/
theorem QueueOk.nodesAt (h : QueueOk c q) (small : c ≤ 2 ^ 30) : NodesAt q := by
  obtain ⟨f, nodes, holds⟩ := h
  exact
    { enqueue_allocates := holds.allocates_iff
      enqueue_refuses := fun addr job => queueApply_refused
      dequeue_frees := by
        intro out
        rw [holds.liveNodes_eq]
        cases nodes with
        | nil => rw [holds.dequeue_empty out]; rfl
        | cons node nodes => exact (holds.dequeue out).2.2.1
      dequeue_delivers := by
        intro out node freed
        rw [holds.liveNodes_eq]
        cases nodes with
        | nil =>
          rw [holds.dequeue_empty out] at freed
          exact absurd freed List.not_mem_nil
        | cons first nodes =>
          obtain ⟨_, delivered, only, after⟩ := holds.dequeue out
          rw [only, List.mem_singleton] at freed
          rw [freed, after.liveNodes_eq]
          exact ⟨delivered, rfl⟩
      clear_frees := by rw [holds.clear_freed, holds.liveNodes_eq]
      clear_visits := by
        rw [holds.liveNodes_eq]
        exact ⟨holds.size, (holds.shape small).no_overflow.1⟩
      destroy_frees := by rw [queueDestroy, holds.clear_freed, holds.liveNodes_eq] }

end Calls

/-! ## A queue's life -/

section Lives
variable {c : Nat} {q₀ q : Queue τ δ α} {held : Nat → Option (Job τ δ α)}

/-- **Conservation, every sequence of calls.** -/
theorem queueRun_conserves (h : QueueOk c q) (ops : List (QueueOp τ δ α)) :
    liveNodes q ++ (queueCalls q₀).history (fun q op => (allocatedBy q op).toList) q ops =
      (queueCalls q₀).history releasedBy q ops ++ liveNodes (queueRun q ops) := by
  induction ops generalizing q with
  | nil => exact List.append_nil _
  | cons op ops ih =>
    have taken : (queueCalls q₀).step q op = some (queueApply q op) := rfl
    have rest := ih (queueApply_fifo h op).1
    rw [Lts.history_cons taken, Lts.history_cons taken, ← List.append_assoc, queueApply_conserves h op,
      List.append_assoc, rest, List.append_assoc]
    rfl

/-- **Memory, every sequence of calls.** Only allocated blocks are freed, and
the stored nodes are the allocated ones. -/
theorem queueRun_memory (h : QueueOk c q) (tracks : Tracks held ((liveNodes q).map Node.block))
    (ops : List (QueueOp τ δ α)) (fresh : FreshlyOpened held ((queueCalls q₀).history callLedger q ops)) :
    Proper held ((queueCalls q₀).history callLedger q ops) ∧
      Tracks (holders held ((queueCalls q₀).history callLedger q ops))
        ((liveNodes (queueRun q ops)).map Node.block) := by
  induction ops generalizing q held with
  | nil => exact ⟨trivial, tracks⟩
  | cons op ops ih =>
    have taken : (queueCalls q₀).step q op = some (queueApply q op) := rfl
    rw [Lts.history_cons taken] at fresh ⊢
    obtain ⟨here, later⟩ := freshlyOpened_append.mp fresh
    have conserved := congrArg (List.map Node.block) (queueApply_conserves h op)
    rw [List.map_append, List.map_append] at conserved
    obtain ⟨proper, after⟩ := tracks.step conserved here
    obtain ⟨rest, final⟩ := ih (queueApply_fifo h op).1 after later
    rw [holders_append]
    exact ⟨proper_append.mpr ⟨proper, rest⟩, final⟩

/-- **What `queue_destroy` finds stored it frees**, and then nothing is left. -/
theorem nodeLedger_balanced (h : QueueOk c q) (none_live : liveNodes q = []) (small : c ≤ 2 ^ 30)
    (ops : List (QueueOp τ δ α)) (fresh : FreshlyOpened nobody (nodeLedger q ops)) :
    Proper nobody (nodeLedger q ops) ∧ Balanced (nodeLedger q ops) := by
  have start : Tracks (nobody : Nat → Option (Job τ δ α)) ((liveNodes q).map Node.block) := by
    rw [none_live]
    exact tracks_nobody
  have final := ((queueRun_fifo ops h).1.nodesAt small).destroy_frees
  unfold nodeLedger at fresh ⊢
  obtain ⟨proper, stored⟩ := queueRun_memory h start ops (freshlyOpened_append.mp fresh).1
  rw [← List.append_nil (List.map _ _)] at stored
  obtain ⟨closes, nothing⟩ := stored.close_all
  rw [final]
  have whole := proper_append.mpr ⟨proper, closes⟩
  refine ⟨whole, (balanced_iff whole).mpr fun addr => ?_⟩
  rw [holders_append]
  exact nothing.none_held addr

/-- **Queue nodes are conserved.** For every capacity up to `2 ^ 30` and every
sequence of calls that `queue_destroy` ends: the nodes freed are the nodes
allocated, in their order, so each is freed once; each call frees what it
delivers or finds stored; no block is freed that is not allocated, and each
allocated block is freed exactly once, if `calloc` returns only blocks that
are not in use; and `queue_clear` leaves the queue that `queue_new` made. -/
theorem nodes_conserved (c : Nat) (pos : 1 ≤ c) (small : c ≤ 2 ^ 30) (ops : List (QueueOp τ δ α)) :
    ∃ q₀ : Queue τ δ α, queueNew true true c = some q₀ ∧
      released q₀ ops ++ (queueDestroy (some (queueRun q₀ ops))).2 = allocated q₀ ops ∧
      NodesAt (queueRun q₀ ops) ∧
      (FreshlyOpened nobody (nodeLedger q₀ ops) →
        Proper nobody (nodeLedger q₀ ops) ∧ Balanced (nodeLedger q₀ ops)) ∧
      (queueClear (queueRun q₀ ops)).2.1 = q₀ ∧ q₀.items = List.replicate c none := by
  obtain ⟨q₀, made, new⟩ := queueNew_holds (τ := τ) (δ := δ) (α := α) pos (by omega)
  have ok : QueueOk c q₀ := ⟨0, [], new⟩
  have reached := (queueRun_fifo ops ok).1
  have nodes := reached.nodesAt small
  refine ⟨q₀, made, ?_, nodes, nodeLedger_balanced ok new.liveNodes_eq small ops, ?_, new.window.eq_replicate⟩
  · have conserved : liveNodes q₀ ++ allocated q₀ ops = released q₀ ops ++ liveNodes (queueRun q₀ ops) :=
      queueRun_conserves ok ops
    rw [new.liveNodes_eq, List.nil_append] at conserved
    rw [nodes.destroy_frees]
    exact conserved.symm
  · obtain ⟨f, live, holds⟩ := reached
    exact holds.clear.eq_new new

/-- A queue of two slots that wraps, is cleared, and is destroyed with one node
stored; the allocator gives the first block out again. -/
theorem nodes_conserved_two :
    ∃ q₀ : Queue Nat Nat Nat, queueNew true true 2 = some q₀ ∧
      (let ops : List (QueueOp Nat Nat Nat) :=
        [.enqueue 100 ⟨some 1, none, some 7⟩, .enqueue 101 ⟨some 2, some 3, some 8⟩,
          .enqueue 102 ⟨some 4, none, some 9⟩, .dequeue .null, .enqueue 100 ⟨some 5, none, some 4⟩, .clear,
          .enqueue 101 ⟨some 6, none, none⟩, .enqueue 103 ⟨some 6, none, some 5⟩]
      released q₀ ops ++ (queueDestroy (some (queueRun q₀ ops))).2 = allocated q₀ ops ∧
        (allocated q₀ ops).map Node.addr = [100, 101, 100, 103] ∧
        Proper nobody (nodeLedger q₀ ops) ∧ Balanced (nodeLedger q₀ ops)) := by
  obtain ⟨q₀, made, conserved, _, memory, _⟩ := nodes_conserved 2 (by decide) (by decide)
    ([.enqueue 100 ⟨some 1, none, some 7⟩, .enqueue 101 ⟨some 2, some 3, some 8⟩,
      .enqueue 102 ⟨some 4, none, some 9⟩, .dequeue .null, .enqueue 100 ⟨some 5, none, some 4⟩, .clear,
      .enqueue 101 ⟨some 6, none, none⟩, .enqueue 103 ⟨some 6, none, some 5⟩] : List (QueueOp Nat Nat Nat))
  obtain rfl : (⟨2, 0, 0, 0, [none, none]⟩ : Queue Nat Nat Nat) = q₀ := Option.some.inj made
  exact ⟨_, made, conserved, rfl, memory ⟨rfl, rfl, trivial, rfl, trivial, trivial, rfl, trivial, trivial⟩⟩

end Lives

end NetCalc.Thread
