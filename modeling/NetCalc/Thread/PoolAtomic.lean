import NetCalc.Lib.Simulation
import NetCalc.Thread.PoolSections

/-!
# The locked sections are atomic

`Pool` takes a whole section between `pthread_mutex_lock` and
`pthread_mutex_unlock` as one action. Here that is a theorem about the pool
that runs statement by statement: a section takes effect at one of its
statements, the write of `size` in a section that stores or removes a job, the
write of `active` in a shutdown, the last test in a section that changes
nothing. Up to that statement the sections' pool stands where the lock was
taken, from it on where the lock will be given back.

`Related` is the simulation. The mutex says whose section is open; `between`
says, statement by statement, how far the queue in memory is from the one the
sections see. The two never differ in `size` and `active`, which is why the
reads without the mutex see nothing that a section could not have shown them.
-/

namespace NetCalc.Thread.Fine

set_option autoImplicit false
open NetCalc.Lib

variable {n m : Nat} {τ δ α : Type}

/-! ## Shutdown, destruction and wake-ups -/

section Others
variable {f f' : Pool n m τ δ α} {c c' : Thread.Pool n m τ δ α}

theorem blocked_alike (h : Related f c) (w : Fin n) : (f.workers w).isBlocked = (c.workers w).isBlocked := by
  have stands : (f.workers w).stands (c.workers w) := h.stands (.worker w)
  cases pc : f.workers w <;> rw [pc] at stands <;> simp only [WorkerPc.stands] at stands <;>
    first
    | (rw [stands]; rfl)
    | (rcases stands with same | same <;> rw [same] <;> rfl)

theorem exited_alike (h : Related f c) (w : Fin n) : (f.workers w).isExited = (c.workers w).isExited := by
  have stands : (f.workers w).stands (c.workers w) := h.stands (.worker w)
  cases pc : f.workers w <;> rw [pc] at stands <;> simp only [WorkerPc.stands] at stands <;>
    first
    | (rw [stands]; rfl)
    | (rcases stands with same | same <;> rw [same] <;> rfl)

/-- Sleepers that are woken are woken in both. -/
theorem woken_alike {chosen : Fin n → Bool}
    (blocked : ∀ w, chosen w = true → (f.workers w).isBlocked = true) (v : Fin n) :
    wake f.workers chosen v = f.workers v ∧ Thread.wake c.workers chosen v = c.workers v ∨
      f.workers v = .blocked ∧ wake f.workers chosen v = .woken ∧ Thread.wake c.workers chosen v = .woken := by
  by_cases picked : chosen v = true
  · right
    refine ⟨?_, if_pos picked, if_pos picked⟩
    have asleep := blocked v picked
    cases pc : f.workers v <;> simp [WorkerPc.isBlocked, pc] at asleep
    rfl
  · exact .inl ⟨if_neg picked, if_neg picked⟩

/-- Workers and callers are where they were. -/
theorem untouched (workers : f'.workers = f.workers) (workers' : c'.workers = c.workers)
    (callers : f'.callers = f.callers) (callers' : c'.callers = c.callers) (y : Party n m)
    (destroyer : y = .destroyer → f'.destroyer = f.destroyer ∧ c'.destroyer = c.destroyer)
    (outsider : y = .outsider → f'.outsider = f.outsider) : Untouched f f' c c' y := by
  cases y with
  | worker w =>
    refine ⟨by simp only [Pool.inside, workers], ?_⟩
    intro before
    simp only [Pool.stands, workers, workers']
    exact before
  | caller p =>
    refine ⟨by simp only [Pool.inside, callers], ?_⟩
    intro before
    simp only [Pool.stands, callers, callers']
    exact before
  | destroyer =>
    obtain ⟨same, same'⟩ := destroyer rfl
    refine ⟨by simp only [Pool.inside, same], ?_⟩
    intro before
    simp only [Pool.stands, same, same']
    exact before
  | outsider =>
    refine ⟨by simp only [Pool.inside, outsider rfl], fun _ => trivial⟩

/-- A step of the destroyer in its section, or into it or out of it. -/
theorem Related.destroyer (h : Related f c) (turn : f.shared.mutex = none ∨ f.shared.mutex = some .destroyer)
    (workers : f'.workers = f.workers) (workers' : c'.workers = c.workers) (callers : f'.callers = f.callers)
    (callers' : c'.callers = c.callers) (outsider : f'.outsider = f.outsider)
    (active : f'.shared.active = c'.active) (queue : f'.shared.queue = c'.queue)
    (log : f'.log = c'.log.map see) (mine : f'.destroyer.section n = c'.destroyer)
    (after : (f'.shared.mutex = none ∧ f'.destroyer.inside = false) ∨
      (f'.shared.mutex = some .destroyer ∧ f'.destroyer.inside = true)) : Related f' c' := by
  refine h.section turn ?_ active (by rw [queue]) log mine ?_
  · exact fun y other => untouched workers workers' callers callers' y (fun same => absurd same other)
      fun _ => outsider
  · rcases after with ⟨free, out⟩ | ⟨held, inside⟩
    · exact .inl ⟨free, out, queue⟩
    · exact .inr ⟨held, inside, queue⟩

/-- A step of a shutdown from outside, in its section, or into it or out of it. -/
theorem Related.outsider (h : Related f c) (turn : f.shared.mutex = none ∨ f.shared.mutex = some .outsider)
    (workers : f'.workers = f.workers) (workers' : c'.workers = c.workers) (callers : f'.callers = f.callers)
    (callers' : c'.callers = c.callers) (destroyer : f'.destroyer = f.destroyer ∧ c'.destroyer = c.destroyer)
    (active : f'.shared.active = c'.active) (queue : f'.shared.queue = c'.queue)
    (log : f'.log = c'.log.map see)
    (after : (f'.shared.mutex = none ∧ f'.outsider.inside = false) ∨
      (f'.shared.mutex = some .outsider ∧ f'.outsider.inside = true)) : Related f' c' := by
  refine h.section turn ?_ active (by rw [queue]) log trivial ?_
  · exact fun y other => untouched workers workers' callers callers' y (fun _ => destroyer)
      fun same => absurd same other
  · rcases after with ⟨free, out⟩ | ⟨held, inside⟩
    · exact .inl ⟨free, out, queue⟩
    · exact .inr ⟨held, inside, queue⟩

/-- A step of the destroyer that has nothing to do with a section; all sleepers
may be woken with it. -/
theorem Related.destroyer_aside (h : Related f c) (shared : f'.shared = f.shared)
    (before : f.destroyer.inside = false) (after : f'.destroyer.inside = false)
    (woken : ∀ v, f'.workers v = f.workers v ∧ c'.workers v = c.workers v ∨
      f.workers v = .blocked ∧ f'.workers v = .woken ∧ c'.workers v = .woken)
    (callers : f'.callers = f.callers) (callers' : c'.callers = c.callers) (outsider : f'.outsider = f.outsider)
    (queue : c'.queue = c.queue) (active : c'.active = c.active) (log : f'.log = c'.log.map see)
    (mine : f'.destroyer.section n = c'.destroyer) : Related f' c' := by
  refine h.aside shared ?_ ?_ ?_ queue active log
  · intro y
    cases y with
    | worker v =>
      simp only [Pool.inside]
      rcases woken v with ⟨same, _⟩ | ⟨was, now, _⟩
      · rw [same]
      · rw [was, now]
        rfl
    | caller p => simp only [Pool.inside, callers]
    | destroyer => simp only [Pool.inside, before, after]
    | outsider => simp only [Pool.inside, outsider]
  · intro y was
    cases y with
    | worker v =>
      simp only [Pool.stands] at was ⊢
      rcases woken v with ⟨same, same'⟩ | ⟨_, now, now'⟩
      · rw [same, same']
        exact was
      · rw [now, now']
        rfl
    | caller p =>
      simp only [Pool.stands, callers, callers']
      exact was
    | destroyer => exact mine
    | outsider => trivial
  · intro y inside was
    cases y with
    | worker v =>
      simp only [Pool.between, shared] at was ⊢
      rcases woken v with ⟨same, _⟩ | ⟨asleep, _⟩
      · rw [same]
        exact was
      · simp only [Pool.inside, asleep] at inside
        cases inside
    | caller p =>
      simp only [Pool.between, callers, shared] at was ⊢
      exact was
    | _ =>
      simp only [Pool.between, shared] at was ⊢
      exact was

/-- **Each statement of `threadpool_destroy`.** -/
theorem destroyer_simulated (h : Related f c) (taken : destroyerStatement f f.destroyer = some f') :
    Matched f f' c 0 := by
  have stands : f.destroyer.section n = c.destroyer := h.stands .destroyer
  have inside : f.destroyer.inside = true → f.shared.mutex = some .destroyer ∧ f.shared.queue = c.queue := by
    intro inside
    have held := (h.turn .destroyer).mp inside
    have queue := h.queue
    rw [held] at queue
    exact ⟨held, queue⟩
  have counts : f.rank = total f.workers WorkerPc.rank + total f.callers CallerPc.rank + f.destroyer.rank +
    f.outsider.rank n := rfl
  cases pc : f.destroyer with
  | idle | destroyed | refused =>
    rw [pc] at taken
    cases taken
  | atLock =>
    rw [pc] at taken stands counts
    simp only [destroyerStatement, Option.ite_none_right_eq_some, Option.some.injEq] at taken
    obtain ⟨free, rfl⟩ := taken
    have queue := h.queue
    rw [free] at queue
    refine Related.silent ?_ ?_
    · exact h.destroyer (.inl free) rfl rfl rfl rfl rfl h.active queue h.log stands (.inr ⟨rfl, rfl⟩)
    · rw [counts]
      simp only [Pool.rank, DestroyerPc.rank]
      omega
  | setInactive =>
    obtain ⟨held, queue⟩ := inside (by rw [pc]; rfl)
    rw [pc] at taken stands counts
    cases taken
    have at_section : c.destroyer = .idle := stands.symm
    have went : Thread.step c .destroy = some { shutdownSection c with destroyer := .inactive } := by
      simp only [Thread.step, at_section, reduceCtorEq, if_false]
    refine Related.commits ?_ went rfl ?_
    · refine h.destroyer (.inr held) rfl rfl rfl rfl rfl rfl queue ?_ rfl (.inr ⟨held, rfl⟩)
      simp [shutdownSection, h.log, see]
    · rw [counts]
      simp only [Pool.rank, DestroyerPc.rank]
      omega
  | unlock =>
    obtain ⟨held, queue⟩ := inside (by rw [pc]; rfl)
    rw [pc] at taken stands counts
    cases taken
    refine Related.silent ?_ ?_
    · exact h.destroyer (.inr held) rfl rfl rfl rfl rfl h.active queue h.log stands (.inl ⟨rfl, rfl⟩)
    · rw [counts]
      simp only [Pool.rank, DestroyerPc.rank]
      omega
  | inactive =>
    rw [pc] at taken stands counts
    cases taken
    have at_section : c.destroyer = .inactive := stands.symm
    have alike : (fun w => (f.workers w).isBlocked) = fun w => (c.workers w).isBlocked :=
      funext fun w => blocked_alike h w
    have went : Thread.step c .broadcast = some { c with
        workers := Thread.wake c.workers fun w => (c.workers w).isBlocked
        destroyer := .joining 0 } := by
      simp only [Thread.step, at_section, reduceCtorEq, if_false]
    refine Related.commits ?_ went rfl ?_
    · refine h.destroyer_aside rfl (by rw [pc]; rfl) rfl ?_ rfl rfl rfl rfl rfl h.log rfl
      intro v
      dsimp only
      rw [← alike]
      exact woken_alike (fun _ asleep => asleep) v
    · have woken := rank_wake f.workers fun w => (f.workers w).isBlocked
      rw [counts]
      simp only [Pool.rank, DestroyerPc.rank, sectionCost]
      omega
  | joining k =>
    rw [pc] at taken stands counts
    have at_section : c.destroyer = .joining k := stands.symm
    by_cases less : k < n
    · simp only [destroyerStatement, dif_pos less, Option.ite_none_right_eq_some, Option.some.injEq] at taken
      obtain ⟨left, rfl⟩ := taken
      rw [exited_alike h] at left
      have went : Thread.step c .join = some { c with destroyer := .joining (k + 1) } := by
        simp only [Thread.step, at_section, reduceCtorEq, if_false, dif_pos less, if_pos left]
      refine Related.commits ?_ went rfl ?_
      · exact h.destroyer_aside rfl (by rw [pc]; rfl) rfl (fun _ => .inl ⟨rfl, rfl⟩) rfl rfl rfl rfl rfl h.log rfl
      · rw [counts]
        simp only [Pool.rank, DestroyerPc.rank]
        omega
    · simp only [destroyerStatement, dif_neg less, Option.ite_none_right_eq_some] at taken
      obtain ⟨all, taken⟩ := taken
      by_cases free : f.shared.mutex = none
      · rw [if_pos free] at taken
        cases taken
        have queue : f.shared.queue = c.queue := by
          have queue := h.queue
          rw [free] at queue
          exact queue
        have went : Thread.step c .release = some { c with
            queue := (queueClear c.queue).2.1
            destroyer := .destroyed
            log := c.log ++ [.discarded (liveJobs c.queue)] } := by
          simp only [Thread.step, at_section, reduceCtorEq, if_false, if_pos all]
        refine Related.commits ?_ went rfl ?_
        · refine h.destroyer (.inl free) rfl rfl rfl rfl rfl h.active ?_ ?_ rfl (.inl ⟨free, rfl⟩)
          · dsimp only
            rw [queue]
          · simp [h.log, see, queue]
        · rw [counts]
          simp only [Pool.rank, DestroyerPc.rank]
          omega
      · -- for the sections it goes on waiting
        rw [if_neg free] at taken
        cases taken
        refine Related.silent ?_ ?_
        · refine h.destroyer_aside rfl (by rw [pc]; rfl) rfl (fun _ => .inl ⟨rfl, rfl⟩) rfl rfl rfl rfl rfl h.log ?_
          rw [at_section, all]
          rfl
        · rw [counts]
          simp only [Pool.rank, DestroyerPc.rank]
          omega

/-- **Each statement of a shutdown from outside.** -/
theorem outsider_simulated (h : Related f c) (live : c.destroyer ≠ .destroyed)
    (taken : outsiderStatement f f.outsider = some f') : Matched f f' c 0 := by
  have inside : f.outsider.inside = true → f.shared.mutex = some .outsider ∧ f.shared.queue = c.queue := by
    intro inside
    have held := (h.turn .outsider).mp inside
    have queue := h.queue
    rw [held] at queue
    exact ⟨held, queue⟩
  have counts : f.rank = total f.workers WorkerPc.rank + total f.callers CallerPc.rank + f.destroyer.rank +
    f.outsider.rank n := rfl
  cases pc : f.outsider with
  | idle =>
    rw [pc] at taken
    cases taken
  | setInactive =>
    obtain ⟨held, queue⟩ := inside (by rw [pc]; rfl)
    rw [pc] at taken counts
    cases taken
    have went : Thread.step c .shutdown = some (shutdownSection c) := by
      simp only [Thread.step, if_neg live]
    refine ⟨shutdownSection c,
      h.outsider (.inr held) rfl rfl rfl rfl ⟨rfl, rfl⟩ rfl queue ?_ (.inr ⟨held, rfl⟩),
      .inr ⟨.shutdown, went, ?_⟩⟩
    · simp [shutdownSection, h.log, see]
    · rw [counts]
      simp only [Pool.rank, OutsiderPc.rank, Thread.Act.price]
      omega
  | unlock =>
    obtain ⟨held, queue⟩ := inside (by rw [pc]; rfl)
    rw [pc] at taken counts
    cases taken
    refine Related.silent ?_ ?_
    · exact h.outsider (.inr held) rfl rfl rfl rfl ⟨rfl, rfl⟩ h.active queue h.log (.inl ⟨rfl, rfl⟩)
    · rw [counts]
      simp only [Pool.rank, OutsiderPc.rank]
      omega

/-- **The signal of a call.** -/
theorem signal_simulated (h : Related f c) (live : c.destroyer ≠ .destroyed) {p : Fin m} {job : Job τ δ α}
    {chosen : List (Fin n)} (pc : f.callers p = .signal job) (ok : SignalOk f chosen) :
    Matched f (f.signal p job chosen) c 0 := by
  have stands : (f.callers p).stands (c.callers p) := h.stands (.caller p)
  rw [pc] at stands
  obtain ⟨call, at_section, asked, err⟩ := stands
  have ok' : Thread.SignalOk c chosen := by
    refine ⟨fun w picked => by rw [← blocked_alike h]; exact ok.1 w picked, ?_⟩
    rintro ⟨w, asleep⟩
    exact ok.2 ⟨w, by rw [blocked_alike h]; exact asleep⟩
  have went : Thread.step c (.signal p chosen) = some { c with
      workers := Thread.wake c.workers fun w => decide (w ∈ chosen)
      callers := Function.update c.callers p .idle
      log := c.log ++ [.answered p call] } := by
    simp only [Thread.step, if_neg live, at_section, if_pos ok']
  have alike : chosen.contains = fun w => decide (w ∈ chosen) := funext fun w => List.contains_eq_mem w chosen
  refine Related.commits ?_ went rfl ?_
  · refine h.caller_aside (p := p) rfl rfl (by rw [pc]; rfl) rfl ?_ ⟨rfl, rfl⟩ rfl
      (fun q different => Function.update_of_ne different _ _) rfl rfl ?_ (Function.update_self _ _ _)
    · intro v
      dsimp only
      rw [← alike]
      exact woken_alike (fun w picked => ok.1 w (List.contains_iff_mem.mp picked)) v
    · simp [Pool.signal, h.log, see, asked, err]
  · have woken := rank_wake f.workers chosen.contains
    have returned := total_update f.callers CallerPc.rank p .idle
    rw [pc] at returned
    simp only [CallerPc.rank] at returned
    simp only [Pool.rank, Pool.signal, sectionCost]
    omega

end Others

/-! ## The simulation -/

/-- What an action brings in from outside the pool. -/
def Act.price : Act n m τ δ α → Nat
  | .enter _ _ => (sectionCost n + 1) * (4 * n + 10)
  | .spurious _ => (sectionCost n + 1) * 2
  | .destroy => 4
  | .shutdown => (sectionCost n + 1) * (5 * n + 1) + 3
  | _ => 0

section Simulation
variable {f f' : Pool n m τ δ α} {c : Thread.Pool n m τ δ α} {a : Act n m τ δ α}

/-- A call begins. -/
theorem enter_simulated (h : Related f c) (live : c.destroyer ≠ .destroyed) {p : Fin m} (job : Job τ δ α)
    (pc : f.callers p = .idle) :
    Matched f { f with callers := Function.update f.callers p (.entered job) } c
      (Act.price (.enter p job : Act n m τ δ α)) := by
  have at_section : c.callers p = .idle := by
    have stands := h.stands (.caller p)
    simp only [Pool.stands, pc] at stands
    exact stands
  have went : Thread.step c (.enter p job) =
      some { c with callers := Function.update c.callers p (.entered job) } := by
    simp only [Thread.step, if_neg live, at_section]
  refine ⟨_, ?_, .inr ⟨_, went, ?_⟩⟩
  · exact h.caller_aside (p := p) rfl rfl (by rw [pc]; rfl) rfl (fun _ => .inl ⟨rfl, rfl⟩) ⟨rfl, rfl⟩ rfl
      (fun q different => Function.update_of_ne different _ _) rfl rfl h.log (Function.update_self _ _ _)
  · have entered := total_update f.callers CallerPc.rank p (.entered job)
    rw [pc] at entered
    simp only [CallerPc.rank] at entered
    simp only [Pool.rank, Act.price, Thread.Act.price]
    omega

/-- A worker wakes for no reason. -/
theorem spurious_simulated (h : Related f c) (live : c.destroyer ≠ .destroyed) {w : Fin n}
    (pc : f.workers w = .blocked) :
    Matched f { f with workers := Function.update f.workers w .woken } c
      (Act.price (.spurious w : Act n m τ δ α)) := by
  have at_section : c.workers w = .blocked := by
    have stands := h.stands (.worker w)
    simp only [Pool.stands, pc] at stands
    exact stands
  have woken : ({ f with workers := Function.update f.workers w .woken } : Pool n m τ δ α) =
      f.worker w ⟨f.shared, .woken, []⟩ := by
    simp [Pool.worker]
  have went : Thread.step c (.spurious w) = some { c with workers := Function.update c.workers w .woken } := by
    simp only [Thread.step, if_neg live, at_section]
  rw [woken]
  refine ⟨_, ?_, .inr ⟨_, went, ?_⟩⟩
  · refine h.worker_aside rfl (by rw [pc]; rfl) rfl rfl rfl
      (fun v different => Function.update_of_ne different _ _) rfl rfl ?_ (Function.update_self _ _ _)
    rw [List.append_nil, h.log]
  · have counted := rank_worker_le (f := f) (w := w) ⟨f.shared, .woken, []⟩
    simp only [Act.price, Thread.Act.price]
    omega

/-- **Each statement is a step of the sections or none.** -/
theorem step_simulated (h : Related f c) (taken : step f a = some f') : Matched f f' c a.price := by
  unfold step at taken
  split at taken
  · cases taken
  rename_i alive
  have live := h.live alive
  cases a with
  | enter p job =>
    dsimp only at taken
    split at taken
    · rename_i pc
      cases taken
      exact enter_simulated h live job pc
    · cases taken
  | caller p mem chosen =>
    dsimp only at taken
    split at taken
    · rename_i pc
      split at taken
      · rename_i ok
        cases taken
        exact signal_simulated h live pc ok
      · cases taken
    · obtain ⟨e, stated, rfl⟩ := Option.map_eq_some_iff.mp taken
      exact caller_simulated h live stated
  | worker w =>
    obtain ⟨e, stated, rfl⟩ := Option.map_eq_some_iff.mp taken
    exact worker_simulated h live stated
  | spurious w =>
    dsimp only at taken
    split at taken
    · rename_i pc
      cases taken
      exact spurious_simulated h live pc
    · cases taken
  | destroy =>
    dsimp only at taken
    split at taken
    · rename_i pc
      cases taken
      have stands := h.stands .destroyer
      simp only [Pool.stands, pc] at stands
      refine Related.silent ?_ ?_
      · exact h.destroyer_aside rfl (by rw [pc]; rfl) rfl (fun _ => .inl ⟨rfl, rfl⟩) rfl rfl rfl rfl rfl h.log
          stands
      · simp only [Pool.rank, pc, DestroyerPc.rank, Act.price]
        omega
    · cases taken
  | destroyer => exact destroyer_simulated h taken
  | shutdown =>
    dsimp only at taken
    split at taken
    · rename_i pc
      simp only [Option.ite_none_right_eq_some, Option.some.injEq] at taken
      obtain ⟨free, rfl⟩ := taken
      have queue := h.queue
      rw [free] at queue
      refine Related.silent ?_ ?_
      · exact h.outsider (.inl free) rfl rfl rfl rfl ⟨rfl, rfl⟩ h.active queue h.log (.inr ⟨rfl, rfl⟩)
      · simp only [Pool.rank, pc, OutsiderPc.rank, Act.price]
        omega
    · cases taken
  | outsider => exact outsider_simulated h live taken

theorem simulates : Simulates (poolLts n m τ δ α) (Thread.poolLts n m τ δ α) Related where
  init := related_init
  step := by
    intro f a f' c related taken
    obtain ⟨c', after, ⟨rfl, _⟩ | ⟨b, went, _⟩⟩ := step_simulated related taken
    · exact ⟨[], c', rfl, after⟩
    · exact ⟨[b], c', Lts.run_one (show (Thread.poolLts n m τ δ α).step c b = some c' from went), after⟩

end Simulation

end NetCalc.Thread.Fine
