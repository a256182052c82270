import NetCalc.Common.ReadChunks
import NetCalc.Common.WriteCalls
import NetCalc.Net.Answers

/-!
# The loop of `parse_stream`, by what its calls do

A pass makes one call of `read` that matters and allocates two blocks. So what
the `k`-th pass finds is the `k`-th block of the stream, with the calls at the
`k`-th places (`ReadsEquation`), as long as each pass before it has gone on.

The status of the loop is what the latest `solve_func` returned. It is not
`SUCCESS` exactly when an equation was read that cannot be solved
(`parseLoop_status`). That every equation was answered is more than that
(`allDone_iff`).
-/

namespace NetCalc.Net

set_option autoImplicit false
open NetCalc.Lib

/-- `parse_stream` up to its loop: the connection and the announced number of
equations, when the headers have been dealt with. -/
def parseHeaders (env : Env) (w : World) (header : NetHeader) : Option (World × Int) :=
  let equation := calloc env.toInputs .equation w.input
  let fileHeader := calloc env.toInputs .fileHeader equation.2
  if equation.1 = false ∨ fileHeader.1 = false then none
  else
    let check := checkHeader env.toInputs fileHeader.2
    let w : World := { w with input := check.input }
    if check.err ≠ SUCCESS then none
    else
      let net := writeNetHeader env w header check.numEquations
      if net.1 ≠ SUCCESS then none
      else
        let file := writeFileHeader env net.2 check.header
        if file.1 ≠ SUCCESS then none else some (file.2, check.numEquations)

/-- What is left of `parse_stream` is its loop, which counts to the announced
number. -/
theorem parseHeaders_some {env : Env} {w w' : World} {header : NetHeader} {n : Int}
    (headers : parseHeaders env w header = some (w', n)) :
    parseStream env w header = parseLoop env w' (zeroed EQUATION_SIZE) 0 n SUCCESS ∧
      n = (checkHeader env.toInputs
        (calloc env.toInputs .fileHeader (calloc env.toInputs .equation w.input).2).2).numEquations := by
  unfold parseHeaders at headers
  dsimp only at headers
  unfold parseStream
  dsimp only
  split at headers
  · cases headers
  rename_i allocated
  split at headers
  · cases headers
  rename_i accepted
  split at headers
  · cases headers
  rename_i net
  split at headers
  · cases headers
  rename_i file
  cases headers
  rw [if_neg allocated, if_neg accepted, if_neg net, if_neg file, not_not.mp file]
  exact ⟨rfl, rfl⟩

/-- The `k`-th pass from here reads an equation completely: `calc_init` returns
a block, the stream goes so far, and the `read` delivers all it is asked for. -/
structure ReadsEquation (e : Inputs) (i : Input) (k : Nat) : Prop where
  allocated : e.calloc .calcVar (i.nalloc + 2 * k) = true
  present : EQUATION_SIZE * (k + 1) ≤ i.rx.length
  delivered : (e.reads (i.nread + k)).upTo EQUATION_SIZE = EQUATION_SIZE

/-- The `k`-th pass solves its equation. -/
def SolvesEquation (e : Inputs) (i : Input) (k : Nat) : Prop :=
  ReadsEquation e i k ∧ Solvable e.target (block EQUATION_SIZE k i.rx)

/-- One of the first `n` equations is read that cannot be solved, and all before
it are solved. -/
def EndsUnsolved (e : Inputs) (i : Input) (n : Nat) : Prop :=
  ∃ j < n, (∀ k < j, SolvesEquation e i k) ∧ ReadsEquation e i j ∧
    ¬Solvable e.target (block EQUATION_SIZE j i.rx)

/-- Nothing stands in the way of the first `n` equations: each is solved, has a
block for its record, and no `write` of the records fails. -/
def NothingMissing (env : Env) (n : Nat) (w : World) : Prop :=
  (∀ k < n, SolvesEquation env.toInputs w.input k ∧
      env.calloc .solution (w.input.nalloc + 2 * k + 1) = true) ∧
    (recordCalls env.writes SOLUTION_SIZE n w.output.nwrite).isSome

/-- A pass reads an equation completely, solves it, and sends its whole record. -/
structure PassDone (env : Env) (w : World) (buf : List Byte) : Prop where
  allocated : (calloc env.toInputs .calcVar w.input).1 = true
  read : (safeRead env.toInputs (calloc env.toInputs .calcVar w.input).2 buf EQUATION_SIZE).1 = EQUATION_SIZE
  solved : ∃ record, answer env.target
      (safeRead env.toInputs (calloc env.toInputs .calcVar w.input).2 buf EQUATION_SIZE).2.1 = some record ∧
    sent (parsePass env w buf SUCCESS).world.output.log = sent w.output.log ++ record

/-- `n` passes do. -/
def AllDone (env : Env) : Nat → World → List Byte → Prop
  | 0, _, _ => True
  | n + 1, w, buf =>
    PassDone env w buf ∧ AllDone env n (parsePass env w buf SUCCESS).world (parsePass env w buf SUCCESS).buf

/-! ## One pass -/

section Pass
variable {env : Env} {e : Inputs} {i : Input} {w : World} {buf : List Byte} {k n : Nat}

/-- A whole chunk is what makes `safe_read` return `EQUATION_SIZE`. -/
theorem safeRead_equation_iff (e : Inputs) (i : Input) (buf : List Byte) :
    (safeRead e i buf EQUATION_SIZE).1 = EQUATION_SIZE ↔
      EQUATION_SIZE ≤ i.rx.length ∧ (e.reads i.nread).upTo EQUATION_SIZE = EQUATION_SIZE := by
  rw [safeRead_first (by decide) (by decide)]
  unfold sysRead
  dsimp only
  cases act : e.reads i.nread with
  | fail errno => simp [ReadAct.upTo, EQUATION_SIZE]
  | _ =>
    simp only [ReadAct.upTo, Except.ok.injEq, exists_eq_left', List.length_take, EQUATION_SIZE, and_true]
    omega

theorem readsEquation_iff (buf : List Byte) : ReadsEquation e i 0 ↔ ReadsWhole e i buf := by
  rw [ReadsWhole, safeRead_equation_iff]
  constructor
  · intro reads
    exact ⟨reads.allocated, reads.present, reads.delivered⟩
  · rintro ⟨block, present, delivered⟩
    exact ⟨block, present, delivered⟩

/-- What is read then: the block at the front of the stream. -/
theorem ReadsEquation.read (reads : ReadsEquation e i 0) (room : buf.length = EQUATION_SIZE) :
    safeRead e (calloc e .calcVar i).2 buf EQUATION_SIZE =
      (EQUATION_SIZE, block EQUATION_SIZE 0 i.rx, ⟨i.rx.drop EQUATION_SIZE, i.nread + 1, i.nalloc + 1⟩) := by
  obtain ⟨enough, read⟩ := safeRead_full (by decide) (by decide) ((readsEquation_iff buf).mp reads).2
  have width : (i.rx.take EQUATION_SIZE).length = EQUATION_SIZE := by
    rw [calloc_rx] at enough
    rw [List.length_take]
    omega
  rw [read, calloc_rx, patch_all (room.trans width.symm)]
  rfl

/-- What `write_stream` leaves: the record, if there was a block for it. -/
theorem writeStream_world (env : Env) (w : World) (calcResult : Calc) (equation : Equation) :
    (writeStream env w calcResult equation).2 = ⟨(calloc env.toInputs .solution w.input).2,
      if (calloc env.toInputs .solution w.input).1 then
        (safeWrite env.writes w.output (solvedEquation calcResult equation).toBytes).2
      else w.output⟩ := by
  have all : (solvedEquation calcResult equation).toBytes.take SOLUTION_SIZE =
      (solvedEquation calcResult equation).toBytes :=
    List.take_of_length_le (by rw [SolvedEquation.toBytes_length])
  unfold writeStream
  dsimp only
  rw [all]
  cases (calloc env.toInputs Block.solution w.input).1 <;> rfl

/-- The input after a pass that has solved its equation. -/
def afterPass (i : Input) : Input := ⟨i.rx.drop EQUATION_SIZE, i.nread + 1, i.nalloc + 2⟩

/-- A pass that reads no equation leaves `err` as it was. -/
theorem parsePass_unread (buf : List Byte) (err : Int) (unread : ¬ReadsEquation env.toInputs w.input 0) :
    (parsePass env w buf err).goEnd = true ∧ (parsePass env w buf err).err = err := by
  rw [readsEquation_iff buf] at unread
  cases parsePass_cases env w buf err with
  | unread short ends status => exact ⟨ends, status⟩
  | unsolved whole | solved whole => exact absurd whole unread

/-- A pass whose equation cannot be solved says so. -/
theorem parsePass_unsolved (err : Int) (room : buf.length = EQUATION_SIZE)
    (reads : ReadsEquation env.toInputs w.input 0)
    (unsolvable : ¬Solvable env.target (block EQUATION_SIZE 0 w.input.rx)) :
    (parsePass env w buf err).goEnd = true ∧ (parsePass env w buf err).err ≠ SUCCESS := by
  cases parsePass_cases env w buf err with
  | unread short => exact absurd ((readsEquation_iff buf).mp reads) short
  | unsolved whole nothing ends status => exact ⟨ends, status⟩
  | solved whole calcResult equation found =>
    rw [reads.read room] at found
    have solvable := answer_isSome_iff.mp (Option.isSome_of_eq_some found)
    exact absurd solvable unsolvable

/-- A pass that solves its equation goes on; it sends the record if there is a
block for it. -/
theorem parsePass_solved (err : Int) (room : buf.length = EQUATION_SIZE)
    (solves : SolvesEquation env.toInputs w.input 0) :
    ∃ record, answer env.target (block EQUATION_SIZE 0 w.input.rx) = some record ∧
      parsePass env w buf err = ⟨false, SUCCESS, block EQUATION_SIZE 0 w.input.rx, ⟨afterPass w.input,
        if env.calloc .solution (w.input.nalloc + 1) then (safeWrite env.writes w.output record).2
          else w.output⟩⟩ := by
  obtain ⟨reads, solvable⟩ := solves
  cases parsePass_cases env w buf err with
  | unread short => exact absurd ((readsEquation_iff buf).mp reads) short
  | unsolved whole nothing =>
    rw [reads.read room] at nothing
    exact absurd solvable (answer_eq_none_iff.mp nothing)
  | solved whole calcResult equation found same =>
    rw [reads.read room] at found same
    refine ⟨_, found, ?_⟩
    rw [same, writeStream_world]
    rfl

/-- A pass does its work exactly when nothing stands in its way. -/
theorem passDone_iff (room : buf.length = EQUATION_SIZE) : PassDone env w buf ↔
    SolvesEquation env.toInputs w.input 0 ∧ env.calloc .solution (w.input.nalloc + 1) = true ∧
      (callsFor env.writes SOLUTION_SIZE w.output.nwrite).isSome := by
  constructor
  · rintro ⟨allocated, whole, record, found, written⟩
    have reads : ReadsEquation env.toInputs w.input 0 := (readsEquation_iff buf).mpr ⟨allocated, whole⟩
    rw [reads.read room] at found
    have solvable : Solvable env.target (block EQUATION_SIZE 0 w.input.rx) := by
      rw [← answer_isSome_iff, found]
      rfl
    obtain ⟨record', found', pass⟩ := parsePass_solved SUCCESS room ⟨reads, solvable⟩
    obtain rfl : record' = record := Option.some.inj (found'.symm.trans found)
    have width := answer_length found
    rw [pass] at written
    refine ⟨⟨reads, solvable⟩, ?_⟩
    cases there : env.calloc .solution (w.input.nalloc + 1) with
    | false =>
      rw [there] at written
      have short := congrArg List.length written
      simp [width, SOLUTION_SIZE] at short
    | true =>
      rw [there, if_pos rfl, safeWrite_whole_iff, width] at written
      exact ⟨rfl, written⟩
  · rintro ⟨solves, there, goes⟩
    obtain ⟨record, found, pass⟩ := parsePass_solved SUCCESS room solves
    obtain ⟨allocated, whole⟩ := (readsEquation_iff buf).mp solves.1
    refine ⟨allocated, whole, record, ?_, ?_⟩
    · rw [solves.1.read room]
      exact found
    · rw [pass, if_pos there, safeWrite_whole_iff, answer_length found]
      exact goes

end Pass

/-! ## The loop -/

section Loop
variable {env : Env} {e : Inputs} {i : Input} {w : World} {buf : List Byte} {k n : Nat}

/-- The pass after this one. -/
theorem readsEquation_afterPass : ReadsEquation e (afterPass i) k ↔ ReadsEquation e i (k + 1) := by
  have alloc : i.nalloc + 2 + 2 * k = i.nalloc + 2 * (k + 1) := by omega
  have read : i.nread + 1 + k = i.nread + (k + 1) := by omega
  have room : EQUATION_SIZE * (k + 1) ≤ i.rx.length - EQUATION_SIZE ↔
      EQUATION_SIZE * (k + 1 + 1) ≤ i.rx.length := by
    unfold EQUATION_SIZE
    omega
  constructor
  · rintro ⟨allocated, present, delivered⟩
    simp only [afterPass, List.length_drop, alloc, read, room] at allocated present delivered
    exact ⟨allocated, present, delivered⟩
  · rintro ⟨allocated, present, delivered⟩
    refine ⟨?_, ?_, ?_⟩
    · rwa [afterPass, alloc]
    · rwa [afterPass, List.length_drop, room]
    · rwa [afterPass, read]

theorem solvesEquation_afterPass : SolvesEquation e (afterPass i) k ↔ SolvesEquation e i (k + 1) := by
  unfold SolvesEquation
  rw [readsEquation_afterPass, block_succ]
  rfl

/-- An equation that cannot be solved is the first, or one of the others. -/
theorem endsUnsolved_succ : EndsUnsolved e i (n + 1) ↔
    (ReadsEquation e i 0 ∧ ¬Solvable e.target (block EQUATION_SIZE 0 i.rx)) ∨
      (SolvesEquation e i 0 ∧ EndsUnsolved e (afterPass i) n) := by
  constructor
  · rintro ⟨j, before, solved, reads, unsolvable⟩
    cases j with
    | zero => exact .inl ⟨reads, unsolvable⟩
    | succ j =>
      refine .inr ⟨solved 0 (by omega), j, by omega, fun k earlier => ?_, ?_, ?_⟩
      · exact solvesEquation_afterPass.mpr (solved (k + 1) (by omega))
      · exact readsEquation_afterPass.mpr reads
      · rwa [block_succ] at unsolvable
  · rintro (⟨reads, unsolvable⟩ | ⟨first, j, before, solved, reads, unsolvable⟩)
    · exact ⟨0, by omega, fun k none_before => absurd none_before (Nat.not_lt_zero k), reads, unsolvable⟩
    · refine ⟨j + 1, by omega, fun k earlier => ?_, readsEquation_afterPass.mp reads, ?_⟩
      · cases k with
        | zero => exact first
        | succ k => exact solvesEquation_afterPass.mp (solved k (by omega))
      · rwa [block_succ]

/-- **The status of the loop** is `SUCCESS`, unless an equation was read that
cannot be solved. -/
theorem parseLoop_status (room : buf.length = EQUATION_SIZE) {equationsRead numEquations : Int}
    (low : 0 ≤ equationsRead) (left : equationsRead + n = numEquations) (small : numEquations < 2 ^ 31) :
    (parseLoop env w buf equationsRead numEquations SUCCESS).1 = SUCCESS ↔
      ¬EndsUnsolved env.toInputs w.input n := by
  induction n generalizing w buf equationsRead with
  | zero =>
    rw [parseLoop, if_neg (by omega)]
    refine ⟨?_, fun _ => rfl⟩
    rintro _ ⟨j, before, _⟩
    exact absurd before (Nat.not_lt_zero j)
  | succ n ih =>
    rw [parseLoop, if_pos (by omega), endsUnsolved_succ]
    by_cases reads : ReadsEquation env.toInputs w.input 0
    · by_cases solvable : Solvable env.target (block EQUATION_SIZE 0 w.input.rx)
      · obtain ⟨record, _, pass⟩ := parsePass_solved SUCCESS room ⟨reads, solvable⟩
        have width := block_length (k := 0) reads.present
        rw [pass, dif_neg (by simp), ih width (by rw [countRead_exact low (by omega)]; omega)
          (by rw [countRead_exact low (by omega)]; omega)]
        simp [SolvesEquation, reads, solvable]
      · obtain ⟨ends, err⟩ := parsePass_unsolved SUCCESS room reads solvable
        rw [dif_pos ends]
        simp [err, reads, solvable]
    · obtain ⟨ends, err⟩ := parsePass_unread buf SUCCESS reads
      rw [dif_pos ends]
      simp [err, SolvesEquation, reads]

/-- The first equation, and the others. -/
theorem nothingMissing_succ {o : Output} {next : Nat} (first : SolvesEquation env.toInputs w.input 0)
    (there : env.calloc .solution (w.input.nalloc + 1) = true)
    (goes : callsFor env.writes SOLUTION_SIZE w.output.nwrite = some next) (begins : o.nwrite = next) :
    NothingMissing env (n + 1) w ↔ NothingMissing env n ⟨afterPass w.input, o⟩ := by
  have alloc : ∀ k, w.input.nalloc + 2 * (k + 1) + 1 = w.input.nalloc + 2 + 2 * k + 1 := fun k => by omega
  unfold NothingMissing
  rw [recordCalls, goes, Option.bind_some, begins]
  apply and_congr_left
  intro _
  constructor
  · intro each k small
    obtain ⟨solves, block⟩ := each (k + 1) (by omega)
    rw [alloc] at block
    exact ⟨solvesEquation_afterPass.mpr solves, block⟩
  · intro each k small
    cases k with
    | zero => exact ⟨first, there⟩
    | succ k =>
      obtain ⟨solves, block⟩ := each k (by omega)
      rw [alloc]
      exact ⟨solvesEquation_afterPass.mp solves, block⟩

/-- **All passes do their work exactly when nothing stands in their way.** -/
theorem allDone_iff (room : buf.length = EQUATION_SIZE) : AllDone env n w buf ↔ NothingMissing env n w := by
  induction n generalizing w buf with
  | zero => exact iff_of_true trivial ⟨fun k none_before => absurd none_before (Nat.not_lt_zero k), rfl⟩
  | succ n ih =>
    rw [AllDone, passDone_iff room]
    constructor
    · rintro ⟨⟨solves, there, goes⟩, rest⟩
      obtain ⟨next, goes⟩ := Option.isSome_iff_exists.mp goes
      obtain ⟨record, found, pass⟩ := parsePass_solved SUCCESS room solves
      rw [pass, if_pos there, ih (block_length (k := 0) solves.1.present)] at rest
      refine (nothingMissing_succ solves there goes ?_).mpr rest
      exact safeWrite_calls (by rw [answer_length found]; exact goes)
    · intro nothing
      obtain ⟨solves, there⟩ := nothing.1 0 (by omega)
      have goes : (callsFor env.writes SOLUTION_SIZE w.output.nwrite).isSome := by
        have calls := nothing.2
        rw [recordCalls] at calls
        exact Option.isSome_of_isSome_bind calls
      obtain ⟨next, goes'⟩ := Option.isSome_iff_exists.mp goes
      obtain ⟨record, found, pass⟩ := parsePass_solved SUCCESS room solves
      refine ⟨⟨solves, there, goes⟩, ?_⟩
      rw [pass, if_pos there, ih (block_length (k := 0) solves.1.present)]
      refine (nothingMissing_succ solves there goes' ?_).mp nothing
      exact safeWrite_calls (by rw [answer_length found]; exact goes')

end Loop

end NetCalc.Net
