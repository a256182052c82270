import NetCalc.File.SameFile
import NetCalc.Net.StreamLoop

/-!
# Does the status tell whether the work was done?

`parse_stream` and `process_equations` promise `0` on success. `parse_stream`
returns what the latest `set_calc_file` or `solve_func` did: when the stream
ends early, when a block is missing or a `write` fails, it is `SUCCESS` all the
same. `process_equations` returns what `safe_close` did. So the one tells
whether the work was done only if it was, or if an equation could not be solved,
and the other only if it was (`status_tells_iff`).
-/

namespace NetCalc.File

set_option autoImplicit false
open NetCalc.Lib NetCalc.Net

/-- The work of `process_equations` is done: there is a block for the equations,
and `n` passes do theirs, which are passes of `parse_stream` (`processPass_eq`). -/
def EquationsDone (env : Env) (n : Nat) (w : World) : Prop :=
  (calloc env.toInputs .equation w.input).1 = true ∧
    AllDone env n ⟨(calloc env.toInputs .equation w.input).2, w.output⟩ (zeroed EQUATION_SIZE)

/-- Where nothing is missing every equation is solved. -/
theorem not_endsUnsolved {env : Env} {n : Nat} {w : World} (nothing : NothingMissing env n w) :
    ¬EndsUnsolved env.toInputs w.input n := by
  rintro ⟨j, before, _, _, unsolvable⟩
  exact unsolvable (nothing.1 j before).1.2

/-- The status of `process_equations` is that of its `safe_close`. -/
theorem processEquations_status (env : Env) (w : World) {outFileDes : Int} (closes : 2 < outFileDes)
    (numEquations : Int) : (processEquations env w outFileDes numEquations).1 = SUCCESS := by
  unfold processEquations safeClose
  dsimp only
  split <;> rfl

/-- **The status tells whether the work was done, exactly where it was done or
an equation could not be solved.** For `parse_stream` after its headers, which
announce at most `2 ^ 31 - 1` equations; for `process_equations`, whose output
file can be closed, exactly where the work was done. -/
theorem status_tells_iff (env : Env) (n : Nat) (small : n ≤ 2 ^ 31 - 1) :
    (∀ (w w' : World) (header : NetHeader), parseHeaders env w header = some (w', (n : Int)) →
      (((parseStream env w header).1 = SUCCESS ↔ AllDone env n w' (zeroed EQUATION_SIZE)) ↔
        EndsUnsolved env.toInputs w'.input n ∨ NothingMissing env n w')) ∧
    (∀ (w : World) (outFileDes : Int), 2 < outFileDes →
      (((processEquations env w outFileDes n).1 = SUCCESS ↔ EquationsDone env n w) ↔
        (calloc env.toInputs .equation w.input).1 = true ∧
          NothingMissing env n ⟨(calloc env.toInputs .equation w.input).2, w.output⟩)) := by
  have room : (zeroed EQUATION_SIZE).length = EQUATION_SIZE := by simp [zeroed]
  constructor
  · intro w w' header headers
    rw [(parseHeaders_some headers).1, parseLoop_status room (Int.le_refl 0) (Int.zero_add _) (by omega),
      allDone_iff room]
    constructor
    · intro tells
      by_cases unsolved : EndsUnsolved env.toInputs w'.input n
      · exact .inl unsolved
      · exact .inr (tells.mp unsolved)
    · rintro (unsolved | nothing)
      · exact iff_of_false (not_not.mpr unsolved) fun nothing => not_endsUnsolved nothing unsolved
      · exact iff_of_true (not_endsUnsolved nothing) nothing
  · intro w outFileDes closes
    rw [EquationsDone, allDone_iff room]
    constructor
    · intro tells
      exact tells.mp (processEquations_status env w closes n)
    · intro nothing
      exact iff_of_true (processEquations_status env w closes n) nothing

/-- `10 + 20` and `9 * 3`. -/
def sumAndProduct : List Byte := equationRecords [⟨7, 0, 10, 1, 20⟩, ⟨8, 0, 9, 3, 3⟩]

/-- A sum and a product, and both are solved: both functions say so. -/
theorem status_tells_two :
    (∃ w', parseHeaders Env.calm (World.start (unsolvedHeader 2 ++ sumAndProduct)) ⟨0, 0, 0, []⟩ = some (w', 2) ∧
      (parseStream Env.calm (World.start (unsolvedHeader 2 ++ sumAndProduct)) ⟨0, 0, 0, []⟩).1 = SUCCESS ∧
      AllDone Env.calm 2 w' (zeroed EQUATION_SIZE)) ∧
    (processEquations Env.calm (World.start sumAndProduct) 5 2).1 = SUCCESS ∧
      EquationsDone Env.calm 2 (World.start sumAndProduct) := by
  have first : Solvable Env.calm.target (block EQUATION_SIZE 0 sumAndProduct) :=
    ⟨.ADD64, by decide +kernel, by decide +kernel⟩
  have second : Solvable Env.calm.target (block EQUATION_SIZE 1 sumAndProduct) :=
    ⟨.MULT64, by decide +kernel, by decide +kernel⟩
  have solvable : ∀ k < 2, Solvable Env.calm.target (block EQUATION_SIZE k sumAndProduct) := by
    rintro (_ | _ | k) small
    · exact first
    · exact second
    · omega
  have length : sumAndProduct.length = EQUATION_SIZE * 2 := by decide +kernel
  have once : ∀ call, callsFor Env.calm.writes SOLUTION_SIZE call = some (call + 1) := fun call => by
    rw [callsFor_some (k := 14) (by decide) rfl]
    exact callsFor_zero _ _
  have nothing : ∀ w : World, w.input.rx = sumAndProduct → NothingMissing Env.calm 2 w := by
    rintro ⟨⟨rx, nread, nalloc⟩, o⟩ rfl
    constructor
    · intro k small
      refine ⟨⟨⟨rfl, ?_, rfl⟩, solvable k small⟩, rfl⟩
      rw [length]
      exact Nat.mul_le_mul_left _ small
    · simp [recordCalls, once]
  have room : (zeroed EQUATION_SIZE).length = EQUATION_SIZE := by simp [zeroed]
  have headers : (parseHeaders Env.calm (World.start (unsolvedHeader 2 ++ sumAndProduct)) ⟨0, 0, 0, []⟩).map
      (fun r => (r.1.input.rx, r.2)) = some (sumAndProduct, 2) := by
    decide +kernel
  obtain ⟨⟨w', n⟩, found, same⟩ := Option.map_eq_some_iff.mp headers
  obtain ⟨rest, rfl⟩ := Prod.mk.inj same
  obtain ⟨stream, file⟩ := status_tells_iff Env.calm 2 (by decide)
  have answered := (allDone_iff room).mpr (nothing w' rest)
  have written : EquationsDone Env.calm 2 (World.start sumAndProduct) := ⟨rfl, (allDone_iff room).mpr (nothing _ rfl)⟩
  exact ⟨⟨w', found, ((stream _ w' _ found).mpr (.inr (nothing w' rest))).mpr answered, answered⟩,
    ((file _ 5 (by decide)).mpr ⟨rfl, nothing _ rfl⟩).mpr written, written⟩

/-- One equation is announced and none is there: both return `SUCCESS`. -/
theorem nothing_done_and_success :
    (∃ w', parseHeaders Env.calm (World.start (unsolvedHeader 1)) ⟨0, 0, 0, []⟩ = some (w', 1) ∧
      (parseStream Env.calm (World.start (unsolvedHeader 1)) ⟨0, 0, 0, []⟩).1 = SUCCESS ∧
      ¬AllDone Env.calm 1 w' (zeroed EQUATION_SIZE)) ∧
    (processEquations Env.calm (World.start []) 5 1).1 = SUCCESS ∧
    ¬EquationsDone Env.calm 1 (World.start []) := by
  have missing : ∀ w : World, w.input.rx = [] → ¬AllDone Env.calm 1 w (zeroed EQUATION_SIZE) := by
    intro w ended done
    have present := (((passDone_iff (by simp [zeroed])).mp done.1).1).1.present
    rw [ended] at present
    cases present
  have headers : (parseHeaders Env.calm (World.start (unsolvedHeader 1)) ⟨0, 0, 0, []⟩).map
      (fun r => (r.1.input.rx, r.2)) = some ([], 1) := by
    decide +kernel
  obtain ⟨⟨w', n⟩, found, same⟩ := Option.map_eq_some_iff.mp headers
  obtain ⟨ended, rfl⟩ := Prod.mk.inj same
  refine ⟨⟨w', found, by decide +kernel, missing w' ended⟩, by decide +kernel, ?_⟩
  rintro ⟨_, done⟩
  exact missing _ rfl done

end NetCalc.File
