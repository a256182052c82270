import Mathlib.Tactic.NormNum
import NetCalc.Lib.CInt
import NetCalc.Lib.Ring
import NetCalc.Common.Utils

/-!
# The job queue (`queue.c`)

`queue_t` is an array of node pointers with four `atomic_int` fields. The
functions below compute what the C functions compute for a queue pointer that
is not `NULL` (`threadpool_create` gives up when `queue_new` returns `NULL`,
and no caller passes another). The outcome of each `calloc` is an argument:
`none` is `NULL`, `some addr` a fresh block at `addr`. Statuses are returned
as the C code returns them, including the `1` of a successful first insertion
and the `ERROR` of a successful removal.

The second half proves what the fields mean. `Holds c f nodes q` says that `q`
is a ring of `c` slots whose live nodes are `nodes`, read from slot `f`; each
operation has one lemma that says which list it leaves.
-/

namespace NetCalc.Thread

set_option autoImplicit false
open NetCalc.Lib

variable {τ δ α : Type}

/-- `node_t`, with the address `calloc` gave it. -/
structure Node (τ δ α : Type) where
  addr : Nat
  job : Job τ δ α
  deriving DecidableEq, Repr

/-- `queue_t`. A slot of `items` is a node pointer or `NULL`. -/
structure Queue (τ δ α : Type) where
  capacity : Int
  size : Int
  front : Int
  rear : Int
  items : List (Option (Node τ δ α))
  deriving DecidableEq, Repr

/-- `queue->items[i]`. -/
def Queue.item (q : Queue τ δ α) (i : Int) : Option (Node τ δ α) := (q.items[i.toNat]?).join

/-- `queue_new`: `queueMem` and `itemsMem` are the outcomes of its two
allocations. The capacity is stored in an `int`. -/
def queueNew (queueMem itemsMem : Bool) (capacity : Nat) : Option (Queue τ δ α) :=
  if capacity = 0 then none
  else if !queueMem then none
  else if !itemsMem then none
  else some
    { capacity := narrow 32 capacity
      size := 0
      front := 0
      rear := 0
      items := List.replicate capacity none }

/-- `queue_fullcheck`. -/
def queueFullcheck (q : Queue τ δ α) : Int := if q.capacity = q.size then 1 else 0

/-- `queue_emptycheck`. -/
def queueEmptycheck (q : Queue τ δ α) : Int := if q.size = 0 then 1 else 0

/-- `queue_enqueue`; `mem` is what `calloc` returned for the node. The branch
for an empty queue leaves `err` at its initial `1`. -/
def queueEnqueue (q : Queue τ δ α) (mem : Option Nat) (task : Option τ) (delF : Option δ)
    (arg : Option α) : Int × Queue τ δ α :=
  if queueFullcheck q ≠ 0 then (1, q)
  else if arg.isNone then (1, q)
  else match mem with
    | none => (1, q)
    | some addr =>
      let node : Node τ δ α := ⟨addr, task, delF, arg⟩
      if queueEmptycheck q ≠ 0 then
        (1, { q with items := q.items.set q.rear.toNat (some node), size := q.size + 1 })
      else
        let rear := (q.rear + 1).tmod q.capacity
        (0, { q with rear := rear, items := q.items.set rear.toNat (some node), size := q.size + 1 })

/-- `queue_peek`: both branches of the source read the slot at `front`. -/
def queuePeek (q : Queue τ δ α) : Option (Node τ δ α) :=
  if queueEmptycheck q ≠ 0 then none
  else if q.front = q.rear then q.item q.front
  else q.item q.front

/-- What `queue_dequeue` leaves: its status, the three output variables, the
queue, and the node it passed to `free`. -/
structure Dequeued (τ δ α : Type) where
  err : Int
  out : Job τ δ α
  queue : Queue τ δ α
  freed : List (Node τ δ α)

/-- `queue_dequeue`; `out` holds what `*task`, `*del_f` and `*arg` held before
the call. `err` is never set. -/
def queueDequeue (q : Queue τ δ α) (out : Job τ δ α) : Dequeued τ δ α :=
  match queuePeek q with
  | none => ⟨ERROR, out, q, []⟩
  | some node =>
    let q' : Queue τ δ α :=
      { q with
        items := q.items.set q.front.toNat none
        front := (q.front + 1).tmod q.capacity
        size := q.size - 1 }
    if queueEmptycheck q' ≠ 0 then ⟨ERROR, node.job, { q' with front := 0, rear := 0 }, [node]⟩
    else ⟨ERROR, node.job, q', [node]⟩

/-- One pass of the loop of `queue_clear`: free the slot's node, then null it. -/
def queueClearSlot (q : Queue τ δ α) (s : List (Option (Node τ δ α)) × List (Node τ δ α)) (iter : Nat) :
    List (Option (Node τ δ α)) × List (Node τ δ α) :=
  let i := ((q.front + iter).tmod q.capacity).toNat
  (s.1.set i none, s.2 ++ (s.1[i]?).join.toList)

/-- `queue_clear`: its status, the queue it leaves and the nodes it freed. -/
def queueClear (q : Queue τ δ α) : Int × Queue τ δ α × List (Node τ δ α) :=
  if queueEmptycheck q ≠ 0 then (1, q, [])
  else
    let s := (List.range q.size.toNat).foldl (queueClearSlot q) (q.items, [])
    (0, { q with items := s.1, front := 0, rear := 0, size := 0 }, s.2)

/-- `queue_destroy`: the pointer afterwards and the nodes freed on the way. -/
def queueDestroy : Option (Queue τ δ α) → Option (Queue τ δ α) × List (Node τ δ α)
  | none => (none, [])
  | some q => (none, (queueClear q).2.2)

/-- The nodes in the slots `front`, `front + 1`, ... of a queue, `size` of them. -/
def liveNodes (q : Queue τ δ α) : List (Node τ δ α) :=
  (List.range q.size.toNat).filterMap fun (i : Nat) => q.item ((q.front + i).tmod q.capacity)

/-- The jobs a queue holds, in the order they will be removed. -/
def liveJobs (q : Queue τ δ α) : List (Job τ δ α) := (liveNodes q).map Node.job

/-! ## The ring behind the fields -/

/-- `q` has `c` slots and holds `nodes` from slot `f` on. `rear` is the last
slot written; an empty queue stands at the origin, which is what the first
insertion relies on. -/
structure Holds (c f : Nat) (nodes : List (Node τ δ α)) (q : Queue τ δ α) : Prop where
  capacity : q.capacity = c
  size : q.size = nodes.length
  front : q.front = f
  rear : q.rear = if nodes = [] then 0 else (slot c f (nodes.length - 1) : Int)
  home : nodes = [] → f = 0
  window : Window c f nodes q.items

/-- A queue of `c` slots in a state the operations can leave it in. -/
def QueueOk (c : Nat) (q : Queue τ δ α) : Prop := ∃ f nodes, Holds c f nodes q

section Fields
variable {c f : Nat} {nodes : List (Node τ δ α)} {q : Queue τ δ α}

theorem tmod_slot (c f i : Nat) : (((f : Int) + (i : Int)).tmod (c : Int)) = (slot c f i : Int) := by
  rw [← Int.natCast_add, ← Int.ofNat_tmod]
  rfl

/-- A queue without nodes, as an operation leaves it. -/
theorem holds_empty {capacity : Int} {items : List (Option (Node τ δ α))} (slots : capacity = c)
    (window : Window c 0 ([] : List (Node τ δ α)) items) :
    Holds c 0 [] (⟨capacity, 0, 0, 0, items⟩ : Queue τ δ α) where
  capacity := slots
  size := rfl
  front := rfl
  rear := rfl
  home := fun _ => rfl
  window := window

theorem Holds.emptycheck (h : Holds c f nodes q) :
    queueEmptycheck q = if nodes = [] then 1 else 0 := by
  unfold queueEmptycheck
  rw [h.size]
  cases nodes with
  | nil => simp
  | cons node rest => simp; omega

theorem Holds.fullcheck (h : Holds c f nodes q) :
    queueFullcheck q = if nodes.length = c then 1 else 0 := by
  unfold queueFullcheck
  rw [h.size, h.capacity]
  by_cases full : nodes.length = c
  · rw [if_pos full, full]; simp
  · rw [if_neg full, if_neg (by omega)]

/-- The slots read from `front` on hold exactly the list. -/
theorem Holds.liveNodes_eq (h : Holds c f nodes q) : liveNodes q = nodes := by
  unfold liveNodes
  simp only [h.size, h.front, h.capacity, Int.toNat_natCast, tmod_slot, Queue.item]
  exact h.window.read

theorem Holds.liveJobs_eq (h : Holds c f nodes q) : liveJobs q = nodes.map Node.job := by
  rw [liveJobs, h.liveNodes_eq]

theorem Holds.peek (h : Holds c f nodes q) : queuePeek q = nodes.head? := by
  unfold queuePeek
  rw [h.emptycheck]
  cases nodes with
  | nil => simp
  | cons node rest =>
    have head : q.item q.front = some node := by
      rw [h.front, Queue.item, Int.toNat_natCast, h.window.head]
      rfl
    simp [head]

end Fields

/-! ## One lemma for each operation -/

section Operations
variable {c f : Nat} {nodes : List (Node τ δ α)} {q : Queue τ δ α}

/-- `queue_new` gives an empty ring, for a capacity that an `int` holds. -/
theorem queueNew_holds {c : Nat} (pos : 1 ≤ c) (small : c < 2 ^ 31) :
    ∃ q : Queue τ δ α, queueNew true true c = some q ∧ Holds c 0 [] q := by
  have stored : narrow 32 (c : Int) = c := narrow_of_fits (by decide) (by norm_num) (by norm_num; omega)
  refine ⟨⟨c, 0, 0, 0, List.replicate c none⟩, ?_, holds_empty rfl (window_replicate (by omega))⟩
  simp [queueNew, stored, show c ≠ 0 by omega]

/-- The last slot of a window one longer is the slot after its last. -/
theorem slot_last {c f n : Nat} (pos : n ≠ 0) : slot c (slot c f (n - 1)) 1 = slot c f n := by
  rw [slot_succ]
  congr 1
  omega

/-- An insertion that is not refused appends its node. -/
theorem Holds.enqueue (h : Holds c f nodes q) (room : nodes.length < c) (addr : Nat)
    (task : Option τ) (delF : Option δ) (a : α) :
    Holds c f (nodes ++ [⟨addr, task, delF, some a⟩]) (queueEnqueue q (some addr) task delF (some a)).2 := by
  have push := h.window.push room ⟨addr, task, delF, some a⟩
  unfold queueEnqueue
  rw [h.fullcheck, h.emptycheck, if_neg (show nodes.length ≠ c by omega)]
  by_cases empty : nodes = []
  · -- `rear` is still at the origin, where the first node belongs
    have origin := h.home empty
    subst empty origin
    have first : slot c 0 0 = 0 := slot_zero h.window.front_lt
    simp only [ne_eq, not_true_eq_false, if_false, Option.isNone_some, Bool.false_eq_true, if_true,
      Int.one_ne_zero, not_false_eq_true]
    have rear := h.rear
    rw [if_pos rfl] at rear
    exact
      { capacity := h.capacity
        size := by simp [h.size]
        front := h.front
        rear := by simp [rear, first]
        home := by simp
        window := by
          rw [rear]
          simpa [first] using push }
  · have count : nodes.length ≠ 0 := by simpa using empty
    have rear : (q.rear + 1).tmod q.capacity = (slot c f nodes.length : Int) := by
      have old := h.rear
      rw [if_neg empty] at old
      rw [old, h.capacity, ← slot_last count]
      exact tmod_slot c _ 1
    simp only [ne_eq, not_true_eq_false, if_false, Option.isNone_some, Bool.false_eq_true, if_neg empty]
    exact
      { capacity := h.capacity
        size := by simp [h.size]
        front := h.front
        rear := by simp [rear]
        home := by simp
        window := by
          rw [rear, Int.toNat_natCast]
          exact push }

/-- A full queue, a `NULL` argument or a failed allocation leaves the queue. -/
theorem Holds.enqueue_refused (h : Holds c f nodes q) (mem : Option Nat) (task : Option τ)
    (delF : Option δ) (arg : Option α) (refused : nodes.length = c ∨ arg = none ∨ mem = none) :
    queueEnqueue q mem task delF arg = (1, q) := by
  unfold queueEnqueue
  rw [h.fullcheck]
  by_cases full : nodes.length = c
  · simp [full]
  · rcases refused with hc | rfl | rfl
    · exact absurd hc full
    · simp
    · simp

/-- A removal from an empty queue changes neither the queue nor its outputs. -/
theorem Holds.dequeue_empty (h : Holds c f [] q) (out : Job τ δ α) :
    queueDequeue q out = ⟨ERROR, out, q, []⟩ := by
  unfold queueDequeue
  rw [h.peek]
  rfl

/-- A removal delivers the head and leaves the rest, back at the origin when
nothing is left. -/
theorem Holds.dequeue {node : Node τ δ α} (h : Holds c f (node :: nodes) q) (out : Job τ δ α) :
    (queueDequeue q out).err = ERROR ∧ (queueDequeue q out).out = node.job ∧
    (queueDequeue q out).freed = [node] ∧
    Holds c (if nodes = [] then 0 else slot c f 1) nodes (queueDequeue q out).queue := by
  have pop := h.window.pop
  have size : q.size - 1 = (nodes.length : Int) := by rw [h.size]; simp
  have front : (q.front + 1).tmod q.capacity = (slot c f 1 : Int) := by
    rw [h.front, h.capacity]; exact tmod_slot c f 1
  unfold queueDequeue
  rw [h.peek]
  simp only [List.head?_cons, queueEmptycheck, size, front]
  by_cases last : nodes = []
  · subst last
    simp only [List.length_nil, Int.ofNat_zero, if_true, ne_eq, Int.one_ne_zero, not_false_eq_true]
    refine ⟨trivial, trivial, trivial, holds_empty h.capacity ?_⟩
    rw [h.front, Int.toNat_natCast]
    exact pop.move h.window.pos
  · have count : (nodes.length : Int) ≠ 0 := by simpa using last
    simp only [if_neg count, ne_eq, not_true_eq_false, if_false, if_neg last]
    refine ⟨trivial, trivial, trivial, ?_⟩
    exact
      { capacity := h.capacity
        size := rfl
        front := rfl
        rear := by
          have old := h.rear
          rw [if_neg (by simp)] at old
          rw [if_neg last, old, slot_next, List.length_cons]
          congr 2
          have : nodes.length ≠ 0 := by simpa using last
          omega
        home := fun empty => absurd empty last
        window := by
          rw [h.front, Int.toNat_natCast]
          exact pop }

/-- A visit of the clearing loop empties the next place of the ring. -/
theorem Holds.clear_slot (h : Holds c f nodes q) : queueClearSlot q = drain c f := by
  funext s i
  simp only [queueClearSlot, drain, h.front, h.capacity, tmod_slot, Int.toNat_natCast]

/-- `queue_clear` leaves the ring `queue_new` made. -/
theorem Holds.clear (h : Holds c f nodes q) : Holds c 0 [] (queueClear q).2.1 := by
  unfold queueClear
  rw [h.emptycheck]
  by_cases empty : nodes = []
  · have origin := h.home empty
    subst empty origin
    simpa using h
  · have wiped := h.window.wipe_all
    rw [if_neg empty]
    simp only [ne_eq, not_true_eq_false, if_false]
    refine holds_empty h.capacity ?_
    rw [h.clear_slot, drain_cells, h.size, Int.toNat_natCast, wiped]
    exact window_replicate h.window.pos

end Operations

end NetCalc.Thread
