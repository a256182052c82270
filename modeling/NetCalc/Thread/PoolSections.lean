import NetCalc.Thread.PoolTurns

/-!
# The statements of a section

Each statement of a worker and of a caller is matched by the section it belongs
to, or by nothing: the section as a whole is taken where `size` is written, or
at the last test of a section that changes nothing.
-/

namespace NetCalc.Thread.Fine

set_option autoImplicit false
open NetCalc.Lib

variable {n m : Nat} {τ δ α : Type}

/-! ## The worker's section -/

/-- `queue_peek` finds what stands at the front. -/
theorem peek_of_size {q : Queue τ δ α} (some_job : q.size ≠ EMPTY) : queuePeek q = q.item q.front := by
  have occupied : queueEmptycheck q = 0 := if_neg some_job
  unfold queuePeek
  rw [occupied, if_neg (by decide)]
  split <;> rfl

/-- What the statements of `queue_dequeue` come to. -/
theorem dequeue_of_item {q : Queue τ δ α} {node : Node τ δ α} (some_job : q.size ≠ EMPTY)
    (item : q.item q.front = some node) (out : Job τ δ α) :
    let rest : Queue τ δ α :=
      { q with
        items := q.items.set q.front.toNat none
        front := (q.front + 1).tmod q.capacity
        size := q.size - 1 }
    queueDequeue q out =
      ⟨ERROR, node.job, if queueEmptycheck rest ≠ 0 then { rest with front := 0, rear := 0 } else rest,
        [node]⟩ := by
  intro rest
  unfold queueDequeue
  rw [peek_of_size some_job, item]
  dsimp only
  split <;> rfl

section Worker
variable {f : Pool n m τ δ α} {c : Thread.Pool n m τ δ α} {w : Fin n}

/-- What is known of a worker in its section. -/
theorem Related.worker_inside (h : Related f c) (inside : (f.workers w).inside = true) :
    f.shared.mutex = some (.worker w) ∧ (f.workers w).between f.shared c.queue := by
  have held := (h.turn (.worker w)).mp inside
  have queue := h.queue
  rw [held] at queue
  exact ⟨held, queue⟩

/-- A statement leaves a worker no further from the end of a section than the lock is. -/
theorem rank_worker_le (e : Effect n m τ δ α (WorkerPc τ δ α)) :
    (f.worker w e).rank ≤ f.rank + sectionCost n + 0 := by
  have counted := rank_worker (f := f) (w := w) e
  have most := WorkerPc.rank_le e.next
  unfold sectionCost
  omega

/-- A pool that is not freed is not freed in the sections either. -/
theorem Related.live (h : Related f c) (live : f.destroyer ≠ .destroyed) : c.destroyer ≠ .destroyed := by
  have stands : f.destroyer.section n = c.destroyer := h.stands .destroyer
  rw [← stands]
  cases pc : f.destroyer <;> simp [DestroyerPc.section]
  exact live pc

/-- A statement at which nothing takes effect. -/
theorem Related.worker_silent (h : Related f c) {e : Effect n m τ δ α (WorkerPc τ δ α)}
    (less : e.next.rank + 1 ≤ (f.workers w).rank)
    (turn : f.shared.mutex = none ∨ f.shared.mutex = some (.worker w))
    (active : e.shared.active = f.shared.active)
    (size : e.shared.queue.size = f.shared.queue.size) (log : e.log = []) (mine : e.next.stands (c.workers w))
    (after : (e.shared.mutex = none ∧ e.next.inside = false ∧ e.shared.queue = c.queue) ∨
      (e.shared.mutex = some (.worker w) ∧ e.next.inside = true ∧ e.next.between e.shared c.queue)) :
    Matched f (f.worker w e) c 0 := by
  have counted := rank_worker (f := f) (w := w) e
  refine Related.silent (h.worker turn rfl rfl (fun _ _ => rfl) ?_ ?_ ?_ mine after) (by omega)
  · rw [active, h.active]
  · rw [size, h.size]
  · rw [log, List.append_nil, h.log]

/-- The statement at which a worker's section takes effect. -/
theorem Related.worker_commits (h : Related f c) (live : c.destroyer ≠ .destroyed)
    {e : Effect n m τ δ α (WorkerPc τ δ α)} (held : f.shared.mutex = some (.worker w))
    (pc : c.workers w = .atLock ∨ c.workers w = .woken) (active : e.shared.active = c.active)
    (size : e.shared.queue.size = (lockSection c w).queue.size)
    (log : f.log ++ e.log = (lockSection c w).log.map see) (mine : e.next.stands ((lockSection c w).workers w))
    (after : (e.shared.mutex = none ∧ e.next.inside = false ∧ e.shared.queue = (lockSection c w).queue) ∨
      (e.shared.mutex = some (.worker w) ∧ e.next.inside = true ∧
        e.next.between e.shared (lockSection c w).queue)) :
    Matched f (f.worker w e) c 0 := by
  have taken : Thread.step c (.lock w) = some (lockSection c w) := by
    rcases pc with pc | pc <;> simp only [Thread.step, if_neg live, pc]
  have others : ∀ v, v ≠ w → (lockSection c w).workers v = c.workers v := by
    intro v different
    unfold lockSection
    split <;> exact Function.update_of_ne different _ _
  have frame : (lockSection c w).callers = c.callers ∧ (lockSection c w).destroyer = c.destroyer ∧
      (lockSection c w).active = c.active := by
    unfold lockSection
    split <;> exact ⟨rfl, rfl, rfl⟩
  obtain ⟨callers, destroyer, same⟩ := frame
  have moved : Related (f.worker w e) (lockSection c w) := by
    refine h.worker (.inr held) callers destroyer others ?_ size log mine after
    rw [same, active]
  exact moved.commits taken rfl (rank_worker_le e)

/-- The section of a worker that has nothing to do. -/
theorem lockSection_wait (empty : c.queue.size = EMPTY) (active : c.active = ACTIVE) :
    lockSection c w = { c with workers := Function.update c.workers w .blocked } := if_pos ⟨empty, active⟩

/-- The section of a worker that looks for a job. -/
theorem lockSection_take (go : ¬(c.queue.size = EMPTY ∧ c.active = ACTIVE)) {d : Dequeued τ δ α}
    (dequeued : queueDequeue c.queue Job.null = d) :
    lockSection c w =
      { c with
        queue := d.queue
        workers := Function.update c.workers w (.unlocked d.out)
        log := c.log ++ d.freed.map fun node => .removed w node.job } := by
  unfold lockSection
  rw [if_neg go, dequeued]

/-- A section that finds no job leaves the queue and takes `NULL`. -/
theorem Related.worker_finds_nothing (h : Related f c) (live : c.destroyer ≠ .destroyed)
    (held : f.shared.mutex = some (.worker w)) (pc : c.workers w = .atLock ∨ c.workers w = .woken)
    (go : ¬(c.queue.size = EMPTY ∧ c.active = ACTIVE)) (nothing : queuePeek c.queue = none)
    (queue : f.shared.queue = c.queue) :
    Matched f (f.worker w ⟨f.shared, .unlock Job.null, []⟩) c 0 := by
  have dequeued : queueDequeue c.queue Job.null = ⟨ERROR, Job.null, c.queue, []⟩ := by
    unfold queueDequeue
    rw [nothing]
  have whole := lockSection_take (w := w) go dequeued
  refine h.worker_commits live held pc h.active ?_ ?_ ?_ (.inr ⟨held, rfl, ?_⟩)
  · rw [whole, queue]
  · rw [whole]
    simp [h.log]
  · rw [whole]
    exact Function.update_self _ _ _
  · rw [whole]
    exact queue

/-- A step of a worker outside its section is the sections' step. -/
theorem Related.worker_outside (h : Related f c) {a : Thread.Act n m τ δ α} {pc : Thread.WorkerPc τ δ α}
    {more : List (Thread.Event n m τ δ α)}
    (taken : Thread.step c a = some { c with workers := Function.update c.workers w pc, log := c.log ++ more })
    (free : a.price = 0) {e : Effect n m τ δ α (WorkerPc τ δ α)} (shared : e.shared = f.shared)
    (before : (f.workers w).inside = false) (after : e.next.inside = false) (log : e.log = more.map see)
    (mine : e.next.stands pc) : Matched f (f.worker w e) c 0 := by
  have moved : Related (f.worker w e)
      { c with workers := Function.update c.workers w pc, log := c.log ++ more } := by
    refine h.worker_aside shared before after rfl rfl ?_ rfl rfl ?_ ?_
    · exact fun v different => Function.update_of_ne different _ _
    · rw [log, List.map_append, h.log]
    · dsimp only
      rw [Function.update_self]
      exact mine
  exact moved.commits taken free (rank_worker_le e)

/-- **Each statement of a worker** is a step of the sections or none. -/
theorem worker_simulated (h : Related f c) (live : c.destroyer ≠ .destroyed)
    {e : Effect n m τ δ α (WorkerPc τ δ α)} (taken : workerStatement w f.shared (f.workers w) = some e) :
    Matched f (f.worker w e) c 0 := by
  have stands : (f.workers w).stands (c.workers w) := h.stands (.worker w)
  cases pc : f.workers w with
  | blocked | exited =>
    rw [pc] at taken
    cases taken
  | atLock | woken =>
    rw [pc] at taken stands
    simp only [workerStatement, Option.ite_none_right_eq_some, Option.some.injEq] at taken
    obtain ⟨free, rfl⟩ := taken
    have queue := h.queue
    rw [free] at queue
    exact h.worker_silent (by simp [pc, WorkerPc.rank]) (.inl free) rfl rfl rfl
      (by simp [WorkerPc.stands, show c.workers w = _ from stands])
      (.inr ⟨rfl, rfl, queue⟩)
  | loopSize =>
    obtain ⟨held, queue⟩ := h.worker_inside (w := w) (by rw [pc]; rfl)
    rw [pc] at taken stands queue
    cases taken
    have same : f.shared.queue = c.queue := queue
    by_cases empty : f.shared.queue.size = EMPTY
    · rw [if_pos empty]
      exact h.worker_silent (by simp [pc, WorkerPc.rank]) (.inr held) rfl rfl rfl stands
        (.inr ⟨held, rfl, same, by rw [← same]; exact empty⟩)
    · rw [if_neg empty]
      refine h.worker_silent (by simp [pc, WorkerPc.rank]) (.inr held) rfl rfl rfl stands
        (.inr ⟨held, rfl, same, ?_⟩)
      rw [← same]
      exact fun both => empty both.1
  | loopActive =>
    obtain ⟨held, queue⟩ := h.worker_inside (w := w) (by rw [pc]; rfl)
    rw [pc] at taken stands queue
    cases taken
    obtain ⟨same, empty⟩ := queue
    by_cases active : f.shared.active = ACTIVE
    · rw [if_pos active]
      exact h.worker_silent (by simp [pc, WorkerPc.rank]) (.inr held) rfl rfl rfl stands
        (.inr ⟨held, rfl, same, empty, active⟩)
    · rw [if_neg active]
      exact h.worker_silent (by simp [pc, WorkerPc.rank]) (.inr held) rfl rfl rfl stands
        (.inr ⟨held, rfl, same, fun both => active both.2⟩)
  | wait =>
    obtain ⟨held, queue⟩ := h.worker_inside (w := w) (by rw [pc]; rfl)
    rw [pc] at taken stands queue
    cases taken
    obtain ⟨same, empty, active⟩ := queue
    have whole := lockSection_wait (w := w) empty (h.active.symm.trans active)
    refine h.worker_commits live held stands h.active ?_ ?_ ?_ (.inl ⟨rfl, rfl, ?_⟩)
    · rw [whole, same]
    · rw [whole]
      simp [h.log]
    · rw [whole]
      exact Function.update_self _ _ _
    · rw [whole]
      exact same
  | peekSize =>
    obtain ⟨held, queue⟩ := h.worker_inside (w := w) (by rw [pc]; rfl)
    rw [pc] at taken stands queue
    cases taken
    obtain ⟨same, go⟩ := queue
    by_cases empty : queueEmptycheck f.shared.queue ≠ 0
    · rw [if_pos empty]
      rw [h.active] at go
      refine h.worker_finds_nothing live held stands go ?_ same
      rw [← same]
      exact if_pos empty
    · rw [if_neg empty]
      refine h.worker_silent (by simp [pc, WorkerPc.rank]) (.inr held) rfl rfl rfl stands
        (.inr ⟨held, rfl, same, ?_⟩)
      rw [← same]
      intro none_left
      exact empty (by simp [queueEmptycheck, show f.shared.queue.size = 0 from none_left])
  | peekEnds =>
    obtain ⟨held, queue⟩ := h.worker_inside (w := w) (by rw [pc]; rfl)
    rw [pc] at taken stands queue
    cases taken
    exact h.worker_silent (by simp [pc, WorkerPc.rank]) (.inr held) rfl rfl rfl stands (.inr ⟨held, rfl, queue⟩)
  | peekItem =>
    obtain ⟨held, queue⟩ := h.worker_inside (w := w) (by rw [pc]; rfl)
    rw [pc] at taken stands queue
    cases taken
    obtain ⟨same, some_job⟩ := queue
    cases item : f.shared.queue.item f.shared.queue.front with
    | none =>
      refine h.worker_finds_nothing live held stands (fun both => some_job both.1) ?_ same
      rw [peek_of_size some_job, ← same]
      exact item
    | some node =>
      refine h.worker_silent (by simp [pc, WorkerPc.rank]) (.inr held) rfl rfl rfl stands
        (.inr ⟨held, rfl, same, some_job, ?_⟩)
      rw [← same]
      exact item
  | copyOut node =>
    obtain ⟨held, queue⟩ := h.worker_inside (w := w) (by rw [pc]; rfl)
    rw [pc] at taken stands queue
    cases taken
    exact h.worker_silent (by simp [pc, WorkerPc.rank]) (.inr held) rfl rfl rfl stands (.inr ⟨held, rfl, queue⟩)
  | clearSlot node =>
    obtain ⟨held, queue⟩ := h.worker_inside (w := w) (by rw [pc]; rfl)
    rw [pc] at taken stands queue
    cases taken
    obtain ⟨same, found⟩ := queue
    exact h.worker_silent (by simp [pc, WorkerPc.rank]) (.inr held) rfl rfl rfl stands
      (.inr ⟨held, rfl, by rw [same], found⟩)
  | moveFront node =>
    obtain ⟨held, queue⟩ := h.worker_inside (w := w) (by rw [pc]; rfl)
    rw [pc] at taken stands queue
    cases taken
    obtain ⟨same, found⟩ := queue
    exact h.worker_silent (by simp [pc, WorkerPc.rank]) (.inr held) rfl rfl rfl stands
      (.inr ⟨held, rfl, by rw [same], found⟩)
  | shrink node =>
    obtain ⟨held, queue⟩ := h.worker_inside (w := w) (by rw [pc]; rfl)
    rw [pc] at taken stands queue
    cases taken
    obtain ⟨same, some_job, item⟩ := queue
    have whole := lockSection_take (w := w) (fun both => some_job both.1) (dequeue_of_item some_job item Job.null)
    refine h.worker_commits live held stands h.active ?_ ?_ ?_ (.inr ⟨held, rfl, ?_⟩)
    · rw [whole, same]
      dsimp only
      split <;> rfl
    · rw [whole]
      simp [h.log, see]
    · rw [whole]
      exact Function.update_self _ _ _
    · rw [whole]
      show _ = _
      rw [same]
  | sizeAgain node =>
    obtain ⟨held, queue⟩ := h.worker_inside (w := w) (by rw [pc]; rfl)
    rw [pc] at taken stands queue
    cases taken
    have settles : c.queue = _ := queue
    by_cases empty : queueEmptycheck f.shared.queue ≠ 0
    · rw [if_pos empty] at settles ⊢
      exact h.worker_silent (by simp [pc, WorkerPc.rank]) (.inr held) rfl rfl rfl stands
        (.inr ⟨held, rfl, settles⟩)
    · rw [if_neg empty] at settles ⊢
      exact h.worker_silent (by simp [pc, WorkerPc.rank]) (.inr held) rfl rfl rfl stands
        (.inr ⟨held, rfl, settles.symm⟩)
  | resetFront node =>
    obtain ⟨held, queue⟩ := h.worker_inside (w := w) (by rw [pc]; rfl)
    rw [pc] at taken stands queue
    cases taken
    exact h.worker_silent (by simp [pc, WorkerPc.rank]) (.inr held) rfl rfl rfl stands
      (.inr ⟨held, rfl, queue, rfl⟩)
  | resetRear node =>
    obtain ⟨held, queue⟩ := h.worker_inside (w := w) (by rw [pc]; rfl)
    rw [pc] at taken stands queue
    cases taken
    exact h.worker_silent (by simp [pc, WorkerPc.rank]) (.inr held) rfl rfl rfl stands
      (.inr ⟨held, rfl, queue.1.symm⟩)
  | free node =>
    obtain ⟨held, queue⟩ := h.worker_inside (w := w) (by rw [pc]; rfl)
    rw [pc] at taken stands queue
    cases taken
    exact h.worker_silent (by simp [pc, WorkerPc.rank]) (.inr held) rfl rfl rfl stands (.inr ⟨held, rfl, queue⟩)
  | unlock locals =>
    obtain ⟨held, queue⟩ := h.worker_inside (w := w) (by rw [pc]; rfl)
    rw [pc] at taken stands queue
    cases taken
    exact h.worker_silent (by simp [pc, WorkerPc.rank]) (.inr held) rfl rfl rfl stands (.inl ⟨rfl, rfl, queue⟩)
  | unlocked locals =>
    rw [pc] at taken stands
    have at_section : c.workers w = .unlocked locals := stands
    cases task : locals.task with
    | none =>
      simp only [workerStatement, task, Option.elim] at taken
      cases taken
      have went : Thread.step c (.invoke w) =
          some { c with workers := Function.update c.workers w .testSize, log := c.log ++ [] } := by
        simp only [Thread.step, if_neg live, at_section, task, List.append_nil]
      exact h.worker_outside went rfl rfl (by rw [pc]; rfl) rfl rfl rfl
    | some g =>
      simp only [workerStatement, task, Option.elim] at taken
      cases taken
      have went : Thread.step c (.invoke w) = some { c with
          workers := Function.update c.workers w (.running locals)
          log := c.log ++ [.invoked w g locals.arg] } := by
        simp only [Thread.step, if_neg live, at_section, task]
      exact h.worker_outside went rfl rfl (by rw [pc]; rfl) rfl rfl rfl
  | running locals =>
    rw [pc] at taken stands
    have at_section : c.workers w = .running locals := stands
    cases taken
    have went : Thread.step c (.ret w) = some { c with
        workers := Function.update c.workers w (.returned locals)
        log := c.log ++ locals.task.toList.map fun task => .returned w task locals.arg } := by
      simp only [Thread.step, if_neg live, at_section]
    refine h.worker_outside went rfl rfl (by rw [pc]; rfl) rfl ?_ rfl
    rw [List.map_map]
    rfl
  | returned locals =>
    rw [pc] at taken stands
    have at_section : c.workers w = .returned locals := stands
    cases taken
    have went : Thread.step c (.del w) = some { c with
        workers := Function.update c.workers w .testSize
        log := c.log ++ locals.delF.toList.map fun delF => .deleted w delF locals.arg } := by
      simp only [Thread.step, if_neg live, at_section]
    refine h.worker_outside went rfl rfl (by rw [pc]; rfl) rfl ?_ rfl
    rw [List.map_map]
    rfl
  | testSize =>
    rw [pc] at taken stands
    have at_section : c.workers w = .testSize := stands
    cases taken
    have went : Thread.step c (.readSize w) = some { c with
        workers := Function.update c.workers w (if c.queue.size = EMPTY then .testActive else .atLock)
        log := c.log ++ [] } := by
      simp only [Thread.step, if_neg live, at_section, List.append_nil]
    -- the section that is open may be changing the queue, but not its size
    refine h.worker_outside went rfl rfl (by rw [pc]; rfl) (by split <;> rfl) rfl ?_
    rw [h.size]
    split <;> rfl
  | testActive =>
    rw [pc] at taken stands
    have at_section : c.workers w = .testActive := stands
    cases taken
    have went : Thread.step c (.readActive w) = some { c with
        workers := Function.update c.workers w (if c.active = INACTIVE then .exited else .atLock)
        log := c.log ++ [] } := by
      simp only [Thread.step, if_neg live, at_section, List.append_nil]
    refine h.worker_outside went rfl rfl (by rw [pc]; rfl) (by split <;> rfl) rfl ?_
    rw [h.active]
    split <;> rfl

end Worker

/-! ## The caller's section -/

/-- The three ways out of `queue_enqueue` that change nothing. -/
theorem enqueue_unchanged {q : Queue τ δ α} {mem : Option Nat} {job : Job τ δ α}
    (refused : queueFullcheck q ≠ 0 ∨ job.arg.isNone = true ∨ mem = none) :
    queueEnqueue q mem job.task job.delF job.arg = (1, q) := by
  unfold queueEnqueue
  by_cases full : queueFullcheck q ≠ 0
  · rw [if_pos full]
  · rw [if_neg full]
    by_cases absent : job.arg.isNone = true
    · rw [if_pos absent]
    · obtain rfl : mem = none := (refused.resolve_left full).resolve_left absent
      rw [if_neg absent]

/-- What is left of `queue_enqueue` once the node is allocated. -/
theorem enqueue_stores {q : Queue τ δ α} {job : Job τ δ α} {node : Node τ δ α} (room : queueFullcheck q = 0)
    (given : job.arg.isNone = false) (filled : node.job = job) :
    (queueEnqueue q (some node.addr) job.task job.delF job.arg).2 =
      if queueEmptycheck q ≠ 0 then
        { q with items := q.items.set q.rear.toNat (some node), size := q.size + 1 }
      else
        { q with
          rear := (q.rear + 1).tmod q.capacity
          items := q.items.set ((q.rear + 1).tmod q.capacity).toNat (some node)
          size := q.size + 1 } := by
  subst filled
  unfold queueEnqueue
  rw [room, given, if_neg (by decide), if_neg (by decide)]
  dsimp only
  split <;> rfl

section Caller
variable {f : Pool n m τ δ α} {c : Thread.Pool n m τ δ α} {p : Fin m}

/-- What is known of a caller in its section. -/
theorem Related.caller_inside (h : Related f c) (inside : (f.callers p).inside = true) :
    f.shared.mutex = some (.caller p) ∧ (f.callers p).between f.shared c.queue := by
  have held := (h.turn (.caller p)).mp inside
  have queue := h.queue
  rw [held] at queue
  exact ⟨held, queue⟩

/-- A statement at which nothing takes effect. -/
theorem Related.caller_silent (h : Related f c) {e : Effect n m τ δ α (CallerPc τ δ α)}
    (less : e.next.rank + 1 ≤ (f.callers p).rank)
    (turn : f.shared.mutex = none ∨ f.shared.mutex = some (.caller p))
    (active : e.shared.active = f.shared.active)
    (size : e.shared.queue.size = f.shared.queue.size) (log : e.log = []) (mine : e.next.stands (c.callers p))
    (after : (e.shared.mutex = none ∧ e.next.inside = false ∧ e.shared.queue = c.queue) ∨
      (e.shared.mutex = some (.caller p) ∧ e.next.inside = true ∧ e.next.between e.shared c.queue)) :
    Matched f (f.caller p e) c 0 := by
  have counted := rank_caller (f := f) (p := p) e
  refine Related.silent (h.caller turn rfl rfl (fun _ _ => rfl) ?_ ?_ ?_ mine after) (by omega)
  · rw [active, h.active]
  · rw [size, h.size]
  · rw [log, List.append_nil, h.log]

theorem rank_caller_le (e : Effect n m τ δ α (CallerPc τ δ α)) :
    (f.caller p e).rank ≤ f.rank + sectionCost n + 0 := by
  have counted := rank_caller (f := f) (p := p) e
  have most := CallerPc.rank_le e.next
  unfold sectionCost
  omega

/-- The statement at which a caller's section takes effect. -/
theorem Related.caller_commits (h : Related f c) (live : c.destroyer ≠ .destroyed)
    (held : f.shared.mutex = some (.caller p)) {job : Job τ δ α} {active : Int}
    (pc : c.callers p = .tested job active) (mem : Option Nat) {queue : Queue τ δ α}
    {log : List (Event n m τ δ α)}
    (stored : queue = (queueEnqueue c.queue mem job.task job.delF job.arg).2)
    (logged : log = if queue.size = c.queue.size + 1 then [.appended p job] else []) :
    Matched f (f.caller p ⟨{ f.shared with queue := queue }, .unlock job, log⟩) c 0 := by
  have taken : Thread.step c (.enqueue p mem) = some (enqueueSection c p mem job active) := by
    simp only [Thread.step, if_neg live, pc]
  have moved : Related (f.caller p ⟨{ f.shared with queue := queue }, .unlock job, log⟩)
      (enqueueSection c p mem job active) := by
    refine h.caller (.inr held) rfl rfl ?_ h.active ?_ ?_ ?_ (.inr ⟨held, rfl, stored⟩)
    · exact fun q different => Function.update_of_ne different _ _
    · exact congrArg Queue.size stored
    · rw [logged, stored]
      simp only [enqueueSection, AddJobCall.stored, List.map_append, h.log]
      split <;> simp_all [see]
    · exact ⟨_, Function.update_self _ _ _, rfl, rfl⟩
  exact moved.commits taken rfl (rank_caller_le _)

/-- A section that changes nothing. -/
theorem Related.caller_refused (h : Related f c) (live : c.destroyer ≠ .destroyed)
    (held : f.shared.mutex = some (.caller p)) {job : Job τ δ α} {active : Int}
    (pc : c.callers p = .tested job active) (mem : Option Nat) (same : f.shared.queue = c.queue)
    (refused : queueFullcheck c.queue ≠ 0 ∨ job.arg.isNone = true ∨ mem = none) :
    Matched f (f.caller p ⟨f.shared, .unlock job, []⟩) c 0 := by
  refine h.caller_commits live held pc mem ?_ ?_
  · rw [enqueue_unchanged refused, same]
  · rw [same, if_neg (by omega)]

/-- **Each statement of a caller**, up to its signal, is a step of the sections
or none. -/
theorem caller_simulated (h : Related f c) (live : c.destroyer ≠ .destroyed) {mem : Option Nat}
    {e : Effect n m τ δ α (CallerPc τ δ α)} (taken : callerStatement p mem f.shared (f.callers p) = some e) :
    Matched f (f.caller p e) c 0 := by
  have stands : (f.callers p).stands (c.callers p) := h.stands (.caller p)
  cases pc : f.callers p with
  | idle | signal =>
    rw [pc] at taken
    cases taken
  | entered job =>
    rw [pc] at taken stands
    have at_section : c.callers p = .entered job := stands
    by_cases refused : job.task.isNone ∨ f.shared.active = INACTIVE
    · simp only [callerStatement, if_pos refused, Option.some.injEq] at taken
      subst taken
      rw [h.active] at refused
      have rejected : Thread.step c (.test p) = some { c with
          callers := Function.update c.callers p .idle
          log := c.log ++ [.answered p ⟨job, c.active, none, c.queue, c.queue, ERROR⟩] } := by
        simp only [Thread.step, if_neg live, at_section, if_pos refused]
      refine Related.commits ?_ rejected rfl (rank_caller_le _)
      · refine h.caller_aside (p := p) rfl rfl (by rw [pc]; rfl) rfl (fun _ => .inl ⟨rfl, rfl⟩) ⟨rfl, rfl⟩ rfl
          (fun q different => Function.update_of_ne different _ _) rfl rfl ?_ (Function.update_self _ _ _)
        show f.log ++ _ = (c.log ++ _).map see
        rw [List.map_append, h.log]
        rfl
    · simp only [callerStatement, if_neg refused, Option.some.injEq] at taken
      subst taken
      rw [h.active] at refused
      have admitted : Thread.step c (.test p) =
          some { c with callers := Function.update c.callers p (.tested job c.active) } := by
        simp only [Thread.step, if_neg live, at_section, if_neg refused]
      refine Related.commits ?_ admitted rfl (rank_caller_le _)
      · refine h.caller_aside (p := p) rfl rfl (by rw [pc]; rfl) rfl (fun _ => .inl ⟨rfl, rfl⟩) ⟨rfl, rfl⟩ rfl
          (fun q different => Function.update_of_ne different _ _) rfl rfl ?_ ?_
        · show f.log ++ [] = c.log.map see
          rw [List.append_nil, h.log]
        · rw [h.active]
          exact Function.update_self _ _ _
  | atLock job active =>
    rw [pc] at taken stands
    simp only [callerStatement, Option.ite_none_right_eq_some, Option.some.injEq] at taken
    obtain ⟨free, rfl⟩ := taken
    have queue := h.queue
    rw [free] at queue
    exact h.caller_silent (by simp [pc, CallerPc.rank]) (.inl free) rfl rfl rfl stands (.inr ⟨rfl, rfl, queue⟩)
  | fullcheck job active =>
    obtain ⟨held, queue⟩ := h.caller_inside (p := p) (by rw [pc]; rfl)
    rw [pc] at taken stands queue
    cases taken
    have same : f.shared.queue = c.queue := queue
    by_cases full : queueFullcheck f.shared.queue ≠ 0
    · rw [if_pos full]
      exact h.caller_refused live held stands none same (.inl (by rw [← same]; exact full))
    · rw [if_neg full]
      refine h.caller_silent (by simp [pc, CallerPc.rank]) (.inr held) rfl rfl rfl stands
        (.inr ⟨held, rfl, same, ?_⟩)
      rw [← same]
      exact not_not.mp full
  | argCheck job active =>
    obtain ⟨held, queue⟩ := h.caller_inside (p := p) (by rw [pc]; rfl)
    rw [pc] at taken stands queue
    cases taken
    obtain ⟨same, room⟩ := queue
    by_cases absent : job.arg.isNone = true
    · rw [if_pos absent]
      exact h.caller_refused live held stands none same (.inr (.inl absent))
    · rw [if_neg absent]
      exact h.caller_silent (by simp [pc, CallerPc.rank]) (.inr held) rfl rfl rfl stands
        (.inr ⟨held, rfl, same, room, Bool.eq_false_iff.mpr absent⟩)
  | alloc job active =>
    obtain ⟨held, queue⟩ := h.caller_inside (p := p) (by rw [pc]; rfl)
    rw [pc] at taken stands queue
    cases taken
    obtain ⟨same, room, given⟩ := queue
    cases mem with
    | none => exact h.caller_refused live held stands none same (.inr (.inr rfl))
    | some addr =>
      exact h.caller_silent (by simp [pc, CallerPc.rank]) (.inr held) rfl rfl rfl stands
        (.inr ⟨held, rfl, same, room, given, rfl⟩)
  | emptycheck job active node =>
    obtain ⟨held, queue⟩ := h.caller_inside (p := p) (by rw [pc]; rfl)
    rw [pc] at taken stands queue
    cases taken
    obtain ⟨same, room, given, filled⟩ := queue
    by_cases empty : queueEmptycheck f.shared.queue ≠ 0
    · rw [if_pos empty]
      refine h.caller_silent (by simp [pc, CallerPc.rank]) (.inr held) rfl rfl rfl stands (.inr ⟨held, rfl, ?_⟩)
      show _ = _
      rw [enqueue_stores room given filled, ← same, if_pos empty]
    · rw [if_neg empty]
      refine h.caller_silent (by simp [pc, CallerPc.rank]) (.inr held) rfl rfl rfl stands
        (.inr ⟨held, rfl, same, room, given, filled, ?_⟩)
      rw [← same]
      exact not_not.mp empty
  | moveRear job active node =>
    obtain ⟨held, queue⟩ := h.caller_inside (p := p) (by rw [pc]; rfl)
    rw [pc] at taken stands queue
    cases taken
    obtain ⟨same, room, given, filled, occupied⟩ := queue
    refine h.caller_silent (by simp [pc, CallerPc.rank]) (.inr held) rfl rfl rfl stands (.inr ⟨held, rfl, ?_⟩)
    show _ = _
    rw [enqueue_stores room given filled, occupied, if_neg (by decide), same]
  | store job active node =>
    obtain ⟨held, queue⟩ := h.caller_inside (p := p) (by rw [pc]; rfl)
    rw [pc] at taken stands queue
    cases taken
    exact h.caller_silent (by simp [pc, CallerPc.rank]) (.inr held) rfl rfl rfl stands (.inr ⟨held, rfl, queue⟩)
  | grow job active node =>
    obtain ⟨held, queue⟩ := h.caller_inside (p := p) (by rw [pc]; rfl)
    rw [pc] at taken stands queue
    cases taken
    have stored : (queueEnqueue c.queue (some node.addr) job.task job.delF job.arg).2 = _ := queue
    refine h.caller_commits live held stands (some node.addr) stored.symm ?_
    rw [h.size, if_pos rfl]
  | unlock job =>
    obtain ⟨held, queue⟩ := h.caller_inside (p := p) (by rw [pc]; rfl)
    rw [pc] at taken stands queue
    cases taken
    exact h.caller_silent (by simp [pc, CallerPc.rank]) (.inr held) rfl rfl rfl stands (.inl ⟨rfl, rfl, queue⟩)

end Caller

end NetCalc.Thread.Fine
