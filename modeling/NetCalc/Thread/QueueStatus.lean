import NetCalc.Thread.QueueFifo

/-!
# Do the queue's status codes tell the truth?

An insertion into an empty queue leaves through an exit of its own with the
initial `1`, and a removal never sets its status. What each call does is read
off the queue before and after it (`Stored`, `Removed`), in every state that
calls on a new queue lead to, also where the capacity does not fit the `int`
that holds it (`Slots`).
-/

namespace NetCalc.Thread

set_option autoImplicit false
open NetCalc.Lib

variable {τ δ α : Type}

/-- A node is in the queue that was not: in the slot `rear`, and counted. -/
def Stored (node : Node τ δ α) (q q' : Queue τ δ α) : Prop :=
  q'.size = q.size + 1 ∧ q'.item q'.rear = some node

/-- A node is not in the queue that was: it was in the slot `front`, is not
counted any more, and its three fields are in the output variables. -/
def Removed (q : Queue τ δ α) (d : Dequeued τ δ α) : Prop :=
  ∃ node, q.item q.front = some node ∧ d.queue.item q.front = none ∧ d.queue.size = q.size - 1 ∧
    d.out = node.job

/-- `queue_enqueue` returns `0` exactly if it stored its item. -/
def EnqueueTruthful (q : Queue τ δ α) (addr : Nat) (job : Job τ δ α) : Prop :=
  (queueEnqueue q (some addr) job.task job.delF job.arg).1 = 0 ↔
    Stored ⟨addr, job⟩ q (queueEnqueue q (some addr) job.task job.delF job.arg).2

/-- `queue_dequeue` returns `0` exactly if it removed an item and delivered it. -/
def DequeueTruthful (q : Queue τ δ α) (out : Job τ δ α) : Prop :=
  (queueDequeue q out).err = 0 ↔ Removed q (queueDequeue q out)

/-- What every call leaves of the fields, whatever the capacity: `rear` is a
slot, and a capacity of `0`, in the `int` that holds it, takes nothing. -/
structure Slots (c : Nat) (q : Queue τ δ α) : Prop where
  capacity : q.capacity = narrow 32 c
  items : q.items.length = c
  rear_low : 0 ≤ q.rear
  rear_high : q.rear < c
  none_taken : q.capacity = 0 → q.size = 0

section Reachable
variable {c : Nat} {q : Queue τ δ α}

/-- A number is not made larger by narrowing it. -/
theorem natAbs_narrow_le (c : Nat) : (narrow 32 (c : Int)).natAbs ≤ c := by
  unfold narrow Int.bmod
  dsimp only
  split <;> omega

/-- A slot number counts modulo the capacity, also where that is negative. -/
theorem Slots.next (h : Slots c q) (nonzero : q.capacity ≠ 0) {i : Int} (nonneg : 0 ≤ i) :
    0 ≤ i.tmod q.capacity ∧ i.tmod q.capacity < c := by
  have bound : (i.tmod q.capacity).natAbs < q.capacity.natAbs := by
    rw [Int.natAbs_tmod]
    exact Nat.mod_lt _ (Int.natAbs_pos.mpr nonzero)
  have narrowed := natAbs_narrow_le c
  have low := Int.tmod_nonneg q.capacity nonneg
  rw [← h.capacity] at narrowed
  omega

theorem slots_new {q₀ : Queue τ δ α} (made : queueNew true true c = some q₀) : Slots c q₀ := by
  unfold queueNew at made
  by_cases zero : c = 0
  · rw [if_pos zero] at made
    cases made
  rw [if_neg zero, if_neg (by decide), if_neg (by decide)] at made
  rw [← Option.some.inj made]
  exact
    { capacity := by dsimp only
      items := List.length_replicate
      rear_low := Int.le_refl 0
      rear_high := Int.natCast_pos.mpr (Nat.pos_of_ne_zero zero)
      none_taken := fun _ => rfl }

/-- **The three exits of an insertion**: it is refused, it is the first, or it
goes behind the last. -/
theorem queueEnqueue_cases (q : Queue τ δ α) (addr : Nat) (job : Job τ δ α) :
    (queueEnqueue q (some addr) job.task job.delF job.arg = (1, q) ∧ (q.capacity = q.size ∨ job.arg = none)) ∨
    (queueEnqueue q (some addr) job.task job.delF job.arg =
        (1, { q with items := q.items.set q.rear.toNat (some ⟨addr, job⟩), size := q.size + 1 }) ∧
      q.size = 0 ∧ q.capacity ≠ 0 ∧ job.arg ≠ none) ∨
    (queueEnqueue q (some addr) job.task job.delF job.arg =
        (0, { q with
          rear := (q.rear + 1).tmod q.capacity
          items := q.items.set ((q.rear + 1).tmod q.capacity).toNat (some ⟨addr, job⟩)
          size := q.size + 1 }) ∧
      q.size ≠ 0 ∧ q.capacity ≠ q.size ∧ job.arg ≠ none) := by
  unfold queueEnqueue queueFullcheck queueEmptycheck
  by_cases full : q.capacity = q.size
  · refine .inl ⟨?_, .inl full⟩
    rw [if_pos full, if_pos (by decide)]
  by_cases missing : job.arg = none
  · refine .inl ⟨?_, .inr missing⟩
    rw [if_neg full, if_neg (by decide), missing]
    rfl
  have given : ¬(job.arg.isNone = true) := by simpa using missing
  rw [if_neg full, if_neg (by decide), if_neg given]
  dsimp only
  by_cases empty : q.size = 0
  · refine .inr (.inl ⟨?_, empty, fun zero => full (zero.trans empty.symm), missing⟩)
    rw [if_pos empty, if_pos (by decide)]
  · refine .inr (.inr ⟨?_, empty, full, missing⟩)
    rw [if_neg empty, if_neg (by decide)]

/-- **The two exits of a removal.** -/
theorem queueDequeue_cases (q : Queue τ δ α) (out : Job τ δ α) :
    (queuePeek q = none ∧ queueDequeue q out = ⟨ERROR, out, q, []⟩) ∨
    ∃ node front rear, queuePeek q = some node ∧ q.size ≠ 0 ∧ q.item q.front = some node ∧
      (rear = q.rear ∨ rear = 0) ∧
      queueDequeue q out = ⟨ERROR, node.job,
        ⟨q.capacity, q.size - 1, front, rear, q.items.set q.front.toNat none⟩, [node]⟩ := by
  cases found : queuePeek q with
  | none =>
    refine .inl ⟨rfl, ?_⟩
    unfold queueDequeue
    rw [found]
  | some node =>
    have there : q.size ≠ 0 ∧ q.item q.front = some node := by
      unfold queuePeek queueEmptycheck at found
      by_cases empty : q.size = 0
      · rw [if_pos empty, if_pos (by decide)] at found
        cases found
      · rw [if_neg empty, if_neg (by decide), ite_self] at found
        exact ⟨empty, found⟩
    unfold queueDequeue
    rw [found]
    dsimp only
    split
    · exact .inr ⟨node, 0, 0, rfl, there.1, there.2, .inr rfl, rfl⟩
    · exact .inr ⟨node, _, q.rear, rfl, there.1, there.2, .inl rfl, rfl⟩

/-- Clearing keeps the number of slots. -/
theorem queueClear_items (q : Queue τ δ α) : (queueClear q).2.1.items.length = q.items.length := by
  have kept : ∀ (is : List Nat) (s : List (Option (Node τ δ α)) × List (Node τ δ α)),
      (is.foldl (queueClearSlot q) s).1.length = s.1.length := by
    intro is
    induction is with
    | nil => exact fun s => rfl
    | cons i is ih =>
      intro s
      rw [List.foldl_cons, ih]
      exact List.length_set
  unfold queueClear
  split
  · rfl
  · exact kept _ _

/-- **Every call keeps them.** -/
theorem Slots.apply (h : Slots c q) (op : QueueOp τ δ α) : Slots c (queueApply q op) := by
  cases op with
  | enqueue addr job =>
    show Slots c (queueEnqueue q (some addr) job.task job.delF job.arg).2
    rcases queueEnqueue_cases q addr job with ⟨same, _⟩ | ⟨same, empty, nonzero, _⟩ | ⟨same, some_left, room, _⟩
    · rw [same]
      exact h
    · rw [same]
      exact
        { capacity := h.capacity
          items := List.length_set.trans h.items
          rear_low := h.rear_low
          rear_high := h.rear_high
          none_taken := fun zero => absurd zero nonzero }
    · rw [same]
      have nonzero : q.capacity ≠ 0 := fun zero => some_left (h.none_taken zero)
      obtain ⟨low, high⟩ := h.next nonzero (i := q.rear + 1) (Int.le_add_one h.rear_low)
      exact
        { capacity := h.capacity
          items := List.length_set.trans h.items
          rear_low := low
          rear_high := high
          none_taken := fun zero => absurd zero nonzero }
  | dequeue out =>
    show Slots c (queueDequeue q out).queue
    rcases queueDequeue_cases q out with ⟨_, same⟩ | ⟨node, front, rear, _, some_left, _, kept, same⟩
    · rw [same]
      exact h
    · rw [same]
      have range : 0 ≤ rear ∧ rear < c := by
        rcases kept with rfl | rfl
        · exact ⟨h.rear_low, h.rear_high⟩
        · exact ⟨Int.le_refl 0, Int.lt_of_le_of_lt h.rear_low h.rear_high⟩
      exact
        { capacity := h.capacity
          items := List.length_set.trans h.items
          rear_low := range.1
          rear_high := range.2
          none_taken := fun zero => absurd (h.none_taken zero) some_left }
  | clear =>
    have items := (queueClear_items q).trans h.items
    show Slots c (queueClear q).2.1
    unfold queueClear at items ⊢
    split
    · exact h
    · rename_i some_left
      rw [if_neg some_left] at items
      exact
        { capacity := h.capacity
          items := items
          rear_low := Int.le_refl 0
          rear_high := Int.lt_of_le_of_lt h.rear_low h.rear_high
          none_taken := fun _ => rfl }

theorem Slots.run (h : Slots c q) (ops : List (QueueOp τ δ α)) : Slots c (queueRun q ops) := by
  induction ops generalizing q with
  | nil => exact h
  | cons op ops ih => exact ih (h.apply op)

/-- What was written to a slot is read from it. -/
theorem slot_written {items : List (Option (Node τ δ α))} {i : Int} (low : 0 ≤ i) (high : i < items.length)
    (slot : Option (Node τ δ α)) : ((items.set i.toNat slot)[i.toNat]?).join = slot := by
  have inside : i.toNat < items.length := by omega
  rw [List.getElem?_set_self inside]
  rfl

/-- A slot is `NULL` once it was set to it, and none beyond the array is anything else. -/
theorem slot_cleared (items : List (Option (Node τ δ α))) (i : Nat) :
    ((items.set i none)[i]?).join = none := by
  by_cases inside : i < items.length
  · rw [List.getElem?_set_self inside]
    rfl
  · rw [List.getElem?_eq_none (by rw [List.length_set]; omega)]
    rfl

/-- An insertion tells the truth unless it is the first. -/
theorem Slots.enqueueTruthful_iff (h : Slots c q) (addr : Nat) (job : Job τ δ α) :
    EnqueueTruthful q addr job ↔ q.size ≠ 0 ∨ q.capacity = 0 ∨ job.arg = none := by
  unfold EnqueueTruthful
  rcases queueEnqueue_cases q addr job with ⟨same, refused⟩ | ⟨same, empty, nonzero, given⟩ |
    ⟨same, some_left, room, given⟩
  · have kept : ¬Stored ⟨addr, job⟩ q q := fun stored => by
      have counted := stored.1
      omega
    rw [same]
    refine iff_of_true (iff_of_false Int.one_ne_zero kept) ?_
    rcases refused with full | missing
    · by_cases empty : q.size = 0
      · exact .inr (.inl (full.trans empty))
      · exact .inl empty
    · exact .inr (.inr missing)
  · have high : q.rear < q.items.length := by
      rw [h.items]
      exact h.rear_high
    rw [same]
    refine iff_of_false (fun truthful => ?_) (not_or.mpr ⟨not_not.mpr empty, not_or.mpr ⟨nonzero, given⟩⟩)
    exact Int.one_ne_zero (truthful.mpr ⟨rfl, slot_written h.rear_low high _⟩)
  · have nonzero : q.capacity ≠ 0 := fun zero => some_left (h.none_taken zero)
    obtain ⟨low, high⟩ := h.next nonzero (Int.le_add_one h.rear_low)
    rw [← h.items] at high
    rw [same]
    exact iff_of_true (iff_of_true rfl ⟨rfl, slot_written low high _⟩) (.inl some_left)

end Reachable

theorem error_ne_zero : ERROR ≠ 0 := by decide

/-- A removal tells the truth where there is nothing to remove. -/
theorem dequeueTruthful_iff (q : Queue τ δ α) (out : Job τ δ α) :
    DequeueTruthful q out ↔ queuePeek q = none := by
  unfold DequeueTruthful
  rcases queueDequeue_cases q out with ⟨nothing, same⟩ | ⟨node, front, rear, found, _, there, _, same⟩
  · have kept : ¬Removed q ⟨ERROR, out, q, []⟩ := by
      rintro ⟨node, _, _, counted, _⟩
      have fewer : q.size = q.size - 1 := counted
      omega
    rw [same]
    exact iff_of_true (iff_of_false error_ne_zero kept) nothing
  · rw [same, found]
    refine iff_of_false (fun truthful => ?_) (by simp)
    exact error_ne_zero (truthful.mpr ⟨node, there, slot_cleared _ _, rfl, rfl⟩)

/-- With a capacity that an `int` holds there is nothing to remove exactly from an empty queue. -/
theorem QueueOk.peek_eq_none {c : Nat} {q : Queue τ δ α} (h : QueueOk c q) :
    queuePeek q = none ↔ q.size = 0 := by
  obtain ⟨f, nodes, holds⟩ := h
  rw [holds.peek, holds.size, List.head?_eq_none_iff]
  simp

/-- **The status codes tell the truth about what was not done.** For every
capacity, every sequence of calls on a new queue and one more call:
`queue_enqueue` returns `0` exactly if it stored its item, if and only if the
queue was not empty (or takes nothing, or there is no item); and
`queue_dequeue` returns `0` exactly if it removed and delivered an item, if and
only if there was none, that is, for a capacity that an `int` holds, if the
queue was empty. -/
theorem statuses_iff (c : Nat) (q₀ : Queue τ δ α) (made : queueNew true true c = some q₀)
    (ops : List (QueueOp τ δ α)) :
    (∀ addr job, EnqueueTruthful (queueRun q₀ ops) addr job ↔
      (queueRun q₀ ops).size ≠ 0 ∨ (queueRun q₀ ops).capacity = 0 ∨ job.arg = none) ∧
    (∀ out, DequeueTruthful (queueRun q₀ ops) out ↔ queuePeek (queueRun q₀ ops) = none) ∧
    (c < 2 ^ 31 → (queuePeek (queueRun q₀ ops) = none ↔ (queueRun q₀ ops).size = 0)) := by
  refine ⟨((slots_new made).run ops).enqueueTruthful_iff, dequeueTruthful_iff _, ?_⟩
  intro small
  have pos : 1 ≤ c := by
    refine Nat.pos_of_ne_zero fun zero => ?_
    rw [zero] at made
    cases made
  obtain ⟨q₁, made₁, holds⟩ := queueNew_holds (τ := τ) (δ := δ) (α := α) pos small
  rw [made] at made₁
  cases made₁
  exact (queueRun_fifo ops ⟨0, [], holds⟩).1.peek_eq_none

/-- A queue of two slots: the status of the second insertion is true, that of the
first is not, nor that of the removal in between. -/
theorem statuses_two :
    ∃ q₀ : Queue Nat Nat Nat, queueNew true true 2 = some q₀ ∧
      EnqueueTruthful (queueRun q₀ [.enqueue 100 ⟨some 1, none, some 7⟩]) 101 ⟨some 2, none, some 8⟩ ∧
      ¬EnqueueTruthful q₀ 100 ⟨some 1, none, some 7⟩ ∧
      ¬DequeueTruthful (queueRun q₀ [.enqueue 100 ⟨some 1, none, some 7⟩]) .null ∧
      DequeueTruthful q₀ .null := by
  obtain ⟨fresh, removal, _⟩ := statuses_iff (τ := Nat) (δ := Nat) (α := Nat) 2 ⟨2, 0, 0, 0, [none, none]⟩ rfl []
  obtain ⟨later, removal', _⟩ := statuses_iff 2 ⟨2, 0, 0, 0, [none, none]⟩ rfl
    [.enqueue 100 ⟨(some 1 : Option Nat), (none : Option Nat), some 7⟩]
  refine ⟨⟨2, 0, 0, 0, [none, none]⟩, rfl, (later 101 ⟨some 2, none, some 8⟩).mpr (.inl (by decide)), ?_, ?_,
    (removal .null).mpr rfl⟩
  · intro truthful
    exact absurd ((fresh 100 ⟨some 1, none, some 7⟩).mp truthful) (by decide)
  · intro truthful
    exact absurd ((removal' .null).mp truthful) (by decide)

/-- The first job is stored and `1` returned, and its removal returns `-1`. -/
theorem first_job_untold :
    ∃ q₀ : Queue Nat Nat Nat, queueNew true true 2 = some q₀ ∧
      ¬EnqueueTruthful q₀ 100 ⟨some 1, none, some 7⟩ ∧
      ¬DequeueTruthful (queueRun q₀ [.enqueue 100 ⟨some 1, none, some 7⟩]) .null := by
  refine ⟨⟨2, 0, 0, 0, [none, none]⟩, rfl, ?_, ?_⟩
  · intro truthful
    exact absurd (truthful.mpr ⟨rfl, rfl⟩) (by decide)
  · intro truthful
    exact absurd (truthful.mpr ⟨_, rfl, rfl, rfl, rfl⟩) (by decide)

end NetCalc.Thread
