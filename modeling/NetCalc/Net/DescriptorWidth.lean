import NetCalc.Lib.CArith
import NetCalc.Net.ArgumentLifetime

/-!
# Is a descriptor carried unchanged?

`accept_connection` writes the descriptor into `con_args_t`, whose only field is
an `int8_t`, and `handle_new_connection` reads it back as one. Nobody else
writes the cell, so what is read there before the next connection is what the
write left of the descriptor: the descriptor itself, up to 127
(`descriptor_carried_iff`). The queue alone may hold more connections.
-/

namespace NetCalc.Net

set_option autoImplicit false
open NetCalc.Lib NetCalc.Thread

section Width
variable {n : Nat} {base : List Int} {s t u v : Server n} {a : Act n}

/-- `accept` does not return a negative descriptor. -/
theorem accepted_nonneg (reach : (serverLts n base).Reachable s) :
    ∀ fd, s.listener = .accepted fd → 0 ≤ fd := by
  apply Lts.reachable_induction (P := fun s => ∀ fd, s.listener = .accepted fd → 0 ≤ fd) _ _ reach
  · intro fd pc
    cases pc
  · intro s a t low taken fd after
    cases step_cases taken with
    | accept fd' pc nonneg fresh =>
      cases after
      exact nonneg
    | acceptFails | store | free => cases after
    | loop pc idle =>
      dsimp only at after
      split at after <;> cases after
    | _ => exact low fd after

/-- Only `accept_connection` writes the cell. -/
theorem Step.keeps_cell (taken : Step s a t) (other : a ≠ .store) : t.args = s.args ∨ t.args = none := by
  cases taken with
  | store => exact absurd rfl other
  | free => exact .inr rfl
  | _ => exact .inl rfl

/-- Until the next write the cell holds what was written, or is freed. -/
theorem run_keeps_cell {ms : List (Act n)} {c : Int} (run : (serverLts n base).run t ms = some u)
    (unwritten : .store ∉ ms) (cell : t.args = some c ∨ t.args = none) :
    u.args = some c ∨ u.args = none := by
  induction ms generalizing t with
  | nil =>
    cases run
    exact cell
  | cons m ms ih =>
    obtain ⟨t', moved, rest⟩ := Lts.run_cons_inv run
    obtain ⟨other, later⟩ := not_or.mp (fun here => unwritten (List.mem_cons.mpr here))
    apply ih rest later
    rcases (step_cases moved).keeps_cell (Ne.symm other) with same | freed
    · rw [same]
      exact cell
    · exact .inr freed

/-- **A descriptor is carried unchanged exactly up to 127.** In every state of
the server that is reached with a descriptor from `accept`: what a worker gets
from the cell after `accept_connection` has written it, and before it writes it
again. -/
theorem descriptor_carried_iff {fd socket : Int} {ms : List (Act n)} {w : Fin n}
    (reach : (serverLts n base).Reachable s) (accepted : s.listener = .accepted fd)
    (stored : (serverLts n base).step s .store = some t) (run : (serverLts n base).run t ms = some u)
    (unwritten : .store ∉ ms) (read : (serverLts n base).step u (.readArg w) = some v)
    (holds : v.handlers w = .holding socket) : socket = fd ↔ fd ≤ 127 := by
  have nonneg := accepted_nonneg reach fd accepted
  have cell : t.args = some (narrow 8 fd) := by
    have taken : Step s .store t := step_cases stored
    cases taken with
    | store fd' pool pc entered =>
      rw [accepted] at pc
      cases pc
      rfl
  have extracted : socket = narrow 8 fd := by
    have taken : Step u (.readArg w) v := step_cases read
    cases taken with
    | readArg _ c pc here =>
      dsimp only at holds
      rw [Function.update_self] at holds
      cases holds
      rcases run_keeps_cell run unwritten (.inl cell) with same | freed
      · rw [here] at same
        exact Option.some.inj same
      · rw [here] at freed
        cases freed
    | readFreed _ pc here =>
      dsimp only at holds
      rw [Function.update_self] at holds
      cases holds
  rw [extracted, narrow_eq_iff (by decide)]
  unfold Fits intMin intMax
  omega

/-- The steps of a run that accepts a connection, stores its descriptor and ends
with a read of the cell. -/
theorem run_accept_read {fd : Int} {ms : List (Act n)} {w : Fin n}
    (run : (serverLts n base).run s (.accept fd :: .store :: (ms ++ [.readArg w])) = some v) :
    ∃ s' t u, (serverLts n base).step s (.accept fd) = some s' ∧ (serverLts n base).step s' .store = some t ∧
      (serverLts n base).run t ms = some u ∧ (serverLts n base).step u (.readArg w) = some v := by
  obtain ⟨s', accepts, run⟩ := Lts.run_cons_inv run
  obtain ⟨t, stores, run⟩ := Lts.run_cons_inv run
  rw [Lts.run_append] at run
  obtain ⟨u, goes_on, run⟩ := Option.bind_eq_some_iff.mp run
  obtain ⟨v', reads, last⟩ := Lts.run_cons_inv run
  cases last
  exact ⟨s', t, u, accepts, stores, goes_on, reads⟩

/-- The first connection is given descriptor 4. -/
theorem descriptor_carried_first :
    ∃ v : Server 1, (serverLts 1 [0, 1, 2, 3]).run (startListener 1 [0, 1, 2, 3])
        (.accept 4 :: .store :: ([.pool (.test 0), .pool (.enqueue 0 (some 100)), .pool (.signal 0 []),
          .pool (.lock 0), .pool (.invoke 0)] ++ [.readArg 0])) = some v ∧
      ∃ socket, v.handlers 0 = .holding socket ∧ socket = 4 := by
  have evaluated : ((serverLts 1 [0, 1, 2, 3]).run (startListener 1 [0, 1, 2, 3])
      (.accept 4 :: .store :: ([.pool (.test 0), .pool (.enqueue 0 (some 100)), .pool (.signal 0 []),
        .pool (.lock 0), .pool (.invoke 0)] ++ [.readArg 0]))).map (fun v => v.handlers 0) =
      some (.holding 4) := rfl
  obtain ⟨v, run, holds⟩ := Option.map_eq_some_iff.mp evaluated
  obtain ⟨s, t, u, accepts, stores, goes_on, reads⟩ := run_accept_read run
  have pc : s.listener = .accepted 4 := by
    have taken : Step (startListener 1 [0, 1, 2, 3]) (.accept 4) s := step_cases accepts
    cases taken
    rfl
  have reach : (serverLts 1 [0, 1, 2, 3]).Reachable s := Lts.Reaches.of_step accepts
  exact ⟨v, run, 4, holds,
    (descriptor_carried_iff reach pc stores goes_on (by simp) reads holds).mpr (by decide)⟩

/-- The listener is the only caller of `threadpool_add_job`. -/
def listenerThread : Fin 1 := Fin.last 0

/-- `k` connections come while the only worker does nothing. Each is given the
lowest descriptor that is free, and is queued. -/
def pending (k : Nat) : List (Act 1) :=
  (List.range k).flatMap fun i : Nat => [.accept (4 + (i : Int)), .store, .pool (.test listenerThread),
    .pool (.enqueue listenerThread (some (100 + i))), .pool (.signal listenerThread []), .loop]

/-- With 124 connections queued the next one is given the lowest free descriptor,
128, and `-128` is read for it. -/
theorem descriptor_read_as_negative :
    ∃ r s t u v : Server 1,
      (serverLts 1 [0, 1, 2, 3]).run (startListener 1 [0, 1, 2, 3]) (pending 124) = some r ∧
      (∀ d < 128, ((d : Nat) : Int) ∈ r.openFds) ∧
      (serverLts 1 [0, 1, 2, 3]).step r (.accept 128) = some s ∧
      (serverLts 1 [0, 1, 2, 3]).step s .store = some t ∧
      (serverLts 1 [0, 1, 2, 3]).run t [.pool (.lock 0), .pool (.invoke 0)] = some u ∧
      (serverLts 1 [0, 1, 2, 3]).step u (.readArg 0) = some v ∧
      v.handlers 0 = .holding (-128) := by
  have evaluated : (((serverLts 1 [0, 1, 2, 3]).run (startListener 1 [0, 1, 2, 3]) (pending 124)).bind fun r =>
      if ∀ d ∈ List.range 128, (d : Int) ∈ r.openFds then
        ((serverLts 1 [0, 1, 2, 3]).run r (.accept 128 :: .store ::
          ([.pool (.lock 0), .pool (.invoke 0)] ++ [.readArg 0]))).map fun v => v.handlers 0
      else none) = some (.holding (-128)) := by
    decide +kernel
  obtain ⟨r, queued, rest⟩ := Option.bind_eq_some_iff.mp evaluated
  split at rest
  · rename_i lowest
    obtain ⟨v, run, holds⟩ := Option.map_eq_some_iff.mp rest
    obtain ⟨s, t, u, accepts, stores, takes, reads⟩ := run_accept_read run
    exact ⟨r, s, t, u, v, queued, fun d below => lowest d (List.mem_range.mpr below), accepts, stores, takes,
      reads, holds⟩
  · cases rest

end Width

end NetCalc.Net
