import NetCalc.Lib.Raising
import NetCalc.Net.GraderAgrees

/-!
# Grading one file (`EquGrader.py`)

`EquGrader` unpacks the two headers and as many equations and solutions as the
header of the unsolved file announces, from where that header says they start,
solves the equations and collects its complaints. It raises where a piece does
not unpack; otherwise `fail` is what it ends with.

A solution whose value is right is never complained of, whatever its id, its
flag and its data code are. So a pair of files passes exactly when everything
unpacks, five fields of the headers agree and the values are those the grader
finds (`grade_passes_iff`).
-/

namespace NetCalc.Grader

set_option autoImplicit false
open NetCalc.Lib

/-! ## The headers -/

/-- `UnpackedHeader`. -/
structure UnpackedHeader where
  magic : Nat
  fileid : Nat
  numequ : Nat
  flag : Nat
  offset : Nat
  numopt : Nat
  deriving DecidableEq, Repr

/-- `UnpackedHeader.__init__`. -/
def UnpackedHeader.unpack (infilebuf : List Byte) : Option UnpackedHeader := do
  let magic ← unpackFrom 4 0 infilebuf
  let fileid ← unpackFrom 8 4 infilebuf
  let numequ ← unpackFrom 8 12 infilebuf
  let flag ← infilebuf[20]?
  let offset ← unpackFrom 4 21 infilebuf
  let numopt ← unpackFrom 2 25 infilebuf
  some ⟨magic, fileid, numequ, flag.toNat, offset, numopt⟩

/-- The test of `get_results` passes the two headers. -/
def UnpackedHeader.Matches (inheader solheader : UnpackedHeader) : Prop :=
  inheader.magic = solheader.magic ∧ inheader.fileid = solheader.fileid ∧
    inheader.numequ = solheader.numequ ∧ inheader.offset = solheader.offset ∧
    inheader.numopt = solheader.numopt
  deriving Decidable

/-! ## `EquGrader` -/

/-- `fulleqlen`, which is `SER_EQU_SIZE`. -/
def fulleqlen : Nat := 32

/-- `solutionlen`, which is `SOLV_EQU_SIZE`. -/
def solutionlen : Nat := 14

/-- What a pass of `get_unsolved` appends. -/
def unsolvedAt (infilebuf : List Byte) (inheader : UnpackedHeader) (i : Nat) : Option Equation :=
  let start := i * fulleqlen + inheader.offset
  Equation.unpack (slice start fulleqlen infilebuf)

/-- `get_unsolved`. -/
def getUnsolved (infilebuf : List Byte) (inheader : UnpackedHeader) : Option (List Equation) :=
  collected (unsolvedAt infilebuf inheader) inheader.numequ

/-- What a pass of `get_solved` appends: the solutions start where the header of
the unsolved file says. -/
def solvedAt (solfilebuf : List Byte) (inheader : UnpackedHeader) (i : Nat) : Option Solution :=
  let start := i * solutionlen + inheader.offset
  Solution.unpack (slice start solutionlen solfilebuf)

/-- `get_solved`. -/
def getSolved (solfilebuf : List Byte) (inheader : UnpackedHeader) : Option (List Solution) :=
  collected (solvedAt solfilebuf inheader) inheader.numequ

/-- `solve_all`. -/
def solveAll (unsolvedlist : List Equation) : List Solution := unsolvedlist.map Solution.solve

/-- An entry of `errors`, by the text it is. -/
inductive Complaint where
  | fileHeadersDontMatch
  | expectedHeader (inheader solheader : UnpackedHeader)
  | numberOfSolutions (solsgiven solsshouldbe : Nat)
  | calculationError
  | unsolved (equation : Equation)
  | expectedSolution (check given : Solution)

/-- What `get_results` appends for one solution. -/
def mistakes (unsolved : Equation) (given check : Solution) : List Complaint :=
  if given.id ≠ check.id ∨ given.eqflag ≠ check.eqflag ∨ given.solution ≠ check.solution ∨
      given.dataCode ≠ check.dataCode then
    if given.solution = check.solution then []
    else [.calculationError, .unsolved unsolved, .expectedSolution check given]
  else []

/-- `get_results`. -/
def getResults (inheader solheader : UnpackedHeader) (unsolvedlist : List Equation)
    (givensols checksols : List Solution) : List Complaint :=
  (if ¬inheader.Matches solheader then [.fileHeadersDontMatch, .expectedHeader inheader solheader] else []) ++
    if givensols.length ≠ checksols.length then [.numberOfSolutions givensols.length checksols.length]
    else (unsolvedlist.zip (givensols.zip checksols)).flatMap fun (unsolved, given, check) =>
      mistakes unsolved given check

/-- `EquGrader.__init__`, for the `fail` it leaves. Returning a value from it
raises. -/
def EquGrader.fail (infilebuf solfilebuf : List Byte) : Option Nat := do
  let inheader ← UnpackedHeader.unpack infilebuf
  let solheader ← UnpackedHeader.unpack solfilebuf
  let unsolvedlist ← getUnsolved infilebuf inheader
  let givensols ← getSolved solfilebuf inheader
  if inheader.numequ ≠ givensols.length then none
  else if (getResults inheader solheader unsolvedlist givensols (solveAll unsolvedlist)).length > 0 then some 1
  else some 0

/-! ## Which files pass -/

section Passes
variable {infilebuf solfilebuf : List Byte}

/-- Only the value of a solution can be wrong. -/
theorem mistakes_nil_iff {unsolved : Equation} {given check : Solution} :
    mistakes unsolved given check = [] ↔ given.solution = check.solution := by
  unfold mistakes
  split
  · split <;> simp_all
  · rename_i same
    exact iff_of_true rfl (by tauto)

/-- There is nothing to complain of. -/
theorem getResults_nil_iff {inheader solheader : UnpackedHeader} {unsolvedlist : List Equation}
    {givensols : List Solution} (numbers : givensols.length = unsolvedlist.length) :
    getResults inheader solheader unsolvedlist givensols (solveAll unsolvedlist) = [] ↔
      inheader.Matches solheader ∧ ∀ (i : Nat) (equation : Equation) (given : Solution),
        unsolvedlist[i]? = some equation → givensols[i]? = some given →
          given.solution = (Solution.solve equation).solution := by
  have counted : ¬givensols.length ≠ (solveAll unsolvedlist).length := by simp [solveAll, numbers]
  unfold getResults
  rw [if_neg counted, List.append_eq_nil_iff, List.flatMap_eq_nil_iff]
  refine and_congr (by split <;> simp_all) ?_
  constructor
  · intro none_wrong i equation given here found
    refine mistakes_nil_iff.mp (none_wrong (equation, given, Solution.solve equation) ?_)
    refine List.mem_iff_getElem?.mpr ⟨i, ?_⟩
    rw [List.getElem?_zip_eq_some, List.getElem?_zip_eq_some, solveAll, List.getElem?_map, here]
    exact ⟨rfl, found, rfl⟩
  · rintro each ⟨equation, given, check⟩ member
    obtain ⟨i, at_i⟩ := List.mem_iff_getElem?.mp member
    rw [List.getElem?_zip_eq_some, List.getElem?_zip_eq_some, solveAll, List.getElem?_map] at at_i
    obtain ⟨here, found, solved⟩ := at_i
    dsimp only at here found solved
    rw [here] at solved
    cases solved
    exact mistakes_nil_iff.mpr (each i equation given here found)

/-- Everything the grader unpacks from the two files. -/
structure Unpacks (infilebuf solfilebuf : List Byte) (inheader solheader : UnpackedHeader) : Prop where
  infile : UnpackedHeader.unpack infilebuf = some inheader
  solfile : UnpackedHeader.unpack solfilebuf = some solheader
  equations : ∀ i, i < inheader.numequ → (unsolvedAt infilebuf inheader i).isSome
  solutions : ∀ i, i < inheader.numequ → (solvedAt solfilebuf inheader i).isSome

/-- The solutions have the values that the grader finds. -/
def RightValues (infilebuf solfilebuf : List Byte) (inheader : UnpackedHeader) : Prop :=
  ∀ i equation given, i < inheader.numequ → unsolvedAt infilebuf inheader i = some equation →
    solvedAt solfilebuf inheader i = some given → given.solution = (Solution.solve equation).solution

/-- Without everything it raises. -/
theorem fail_none (missing : ∀ inheader solheader, ¬Unpacks infilebuf solfilebuf inheader solheader) :
    EquGrader.fail infilebuf solfilebuf = none := by
  cases graded : EquGrader.fail infilebuf solfilebuf with
  | none => rfl
  | some verdict =>
    obtain ⟨inheader, infile, graded⟩ := Option.bind_eq_some_iff.mp graded
    obtain ⟨solheader, solfile, graded⟩ := Option.bind_eq_some_iff.mp graded
    obtain ⟨unsolvedlist, equations, graded⟩ := Option.bind_eq_some_iff.mp graded
    obtain ⟨givensols, solutions, _⟩ := Option.bind_eq_some_iff.mp graded
    exact absurd ⟨infile, solfile, collected_isSome_iff.mp ⟨_, equations⟩, collected_isSome_iff.mp ⟨_, solutions⟩⟩
      (missing inheader solheader)

/-- With it, only the headers and the values count. -/
theorem fail_some {inheader solheader : UnpackedHeader}
    (unpacks : Unpacks infilebuf solfilebuf inheader solheader) :
    ∃ errors : List Complaint,
      (errors = [] ↔ inheader.Matches solheader ∧ RightValues infilebuf solfilebuf inheader) ∧
      EquGrader.fail infilebuf solfilebuf = if errors.length > 0 then some 1 else some 0 := by
  obtain ⟨unsolvedlist, equations⟩ := collected_isSome_iff.mpr unpacks.equations
  obtain ⟨givensols, solutions⟩ := collected_isSome_iff.mpr unpacks.solutions
  obtain ⟨unsolved_length, unsolved_each⟩ := collected_some_iff.mp equations
  obtain ⟨given_length, given_each⟩ := collected_some_iff.mp solutions
  refine ⟨getResults inheader solheader unsolvedlist givensols (solveAll unsolvedlist), ?_, ?_⟩
  · rw [getResults_nil_iff (by omega)]
    refine and_congr_right fun _ => ?_
    constructor
    · intro each i equation given small here found
      rw [unsolved_each i small] at here
      rw [given_each i small] at found
      exact each i equation given here found
    · intro each i equation given here found
      have small : i < inheader.numequ := by
        rw [← unsolved_length]
        exact (List.getElem?_eq_some_iff.mp here).1
      rw [← unsolved_each i small] at here
      rw [← given_each i small] at found
      exact each i equation given small here found
  · unfold EquGrader.fail getUnsolved getSolved
    rw [unpacks.infile, unpacks.solfile]
    simp only [Option.bind_eq_bind, Option.bind_some, equations, solutions]
    rw [if_neg (by omega)]

/-- It passes a file, or fails it once. -/
theorem fail_zero_iff {inheader solheader : UnpackedHeader}
    (unpacks : Unpacks infilebuf solfilebuf inheader solheader) :
    EquGrader.fail infilebuf solfilebuf = some 0 ↔
      inheader.Matches solheader ∧ RightValues infilebuf solfilebuf inheader := by
  obtain ⟨errors, right, graded⟩ := fail_some unpacks
  rw [graded, ← right]
  cases errors <;> simp

theorem fail_one_iff {inheader solheader : UnpackedHeader}
    (unpacks : Unpacks infilebuf solfilebuf inheader solheader) :
    EquGrader.fail infilebuf solfilebuf = some 1 ↔
      ¬(inheader.Matches solheader ∧ RightValues infilebuf solfilebuf inheader) := by
  obtain ⟨errors, right, graded⟩ := fail_some unpacks
  rw [graded, ← right]
  cases errors <;> simp

end Passes

end NetCalc.Grader
