import NetCalc.Lib.CArith
import NetCalc.File.DirectoryParse
import NetCalc.File.SameFile
import NetCalc.Net.StreamLoop

/-!
# Does the number of equations survive?

The header of a file announces its equations with 64 bits. `directory_parse`
stores the number in `parse_args_t`, whose member is an `int`, and the loops of
both programs compare it with an `int` counter. The output header carries the
announced number all the same. What is announced, what is passed on, what can
be counted and what is solved agree exactly for the numbers an `int` can hold
(`count_survives_iff`).
-/

namespace NetCalc.File

set_option autoImplicit false
open NetCalc.Lib NetCalc.Net

/-- The block `directory_parse` hands to the pool. -/
def storedArgs (fileD outFileDes numEquations : Int) : ParseArgs := ⟨fileD, outFileDes, narrow 32 numEquations⟩

/-- The output file of a file, with its header. -/
def createdFile (env : Env) (formatted opened : Int) (file : List Byte) : Int × World :=
  let check := checkHeader env.toInputs (World.start file).input
  createFile env ⟨check.input, (World.start file).output⟩ formatted opened check.header

/-- What is handed to the pool for a file. -/
def passedArgs (env : Env) (fileD formatted opened : Int) (file : List Byte) : ParseArgs :=
  storedArgs fileD (createdFile env formatted opened file).1
    (checkHeader env.toInputs (World.start file).input).numEquations

/-- A file after `directory_parse` and `parse_file`. -/
def parsedFile (env : Env) (fileD formatted opened : Int) (file : List Byte) : World :=
  parseFile env (createdFile env formatted opened file).2 (some (passedArgs env fileD formatted opened file))

/-- The values `equations_read` takes in a loop whose passes make `count` of it.
A pass that counts goes on: `write_stream` never returns `0`. -/
def loopCounts (count : Int → Int) (env : Env) (w : World) (buf : List Byte)
    (equationsRead numEquations : Int) : List Int :=
  if equationsRead < numEquations then
    if _ends : (parsePass env w buf SUCCESS).goEnd = true then [equationsRead]
    else
      equationsRead :: loopCounts count env (parsePass env w buf SUCCESS).world
        (parsePass env w buf SUCCESS).buf (count equationsRead) numEquations
  else [equationsRead]
termination_by w.input.rx.length
decreasing_by
  obtain ⟨enough, rest⟩ := parsePass_reads (by simpa using _ends)
  rw [rest, List.length_drop]
  unfold EQUATION_SIZE at enough ⊢
  omega

/-- The counter of `parse_stream`. -/
def streamCounts (env : Env) (w : World) (header : NetHeader) : List Int :=
  match parseHeaders env w header with
  | none => []
  | some (w, numEquations) => loopCounts (· + 1) env w (zeroed EQUATION_SIZE) 0 numEquations

/-- The counter of `process_equations`, which no pass changes. -/
def processCounts (env : Env) (w : World) (numEquations : Int) : List Int :=
  let equation := calloc env.toInputs .equation w.input
  if equation.1 = false then []
  else loopCounts id env { w with input := equation.2 } (zeroed EQUATION_SIZE) 0 numEquations

/-- Each of the first `n` equations that is complete and can be solved, and
comes after such equations only, has its record at its place in the output. -/
def WrittenOut (t : Target) (n : Int) (stream output : List Byte) : Prop :=
  ∀ i : Nat, i < n → EQUATION_SIZE * (i + 1) ≤ stream.length →
    (∀ j ≤ i, Solvable t (block EQUATION_SIZE j stream)) →
    Correct t (block EQUATION_SIZE i stream) (block SOLUTION_SIZE i output)

/-- The number of equations of a file survives: `process_equations` is called
with the number in the output header, no counter leaves its type, and both
programs write out what there is to write. -/
structure CountSurvives (env : Env) (header : NetHeader) (fileD formatted opened : Int) (file : List Byte) :
    Prop where
  passed : (passedArgs env fileD formatted opened file).numEquations =
    (FileHeader.ofBytes (sent (createdFile env formatted opened file).2.output.log)).numEquations.toInt
  counts : ∀ c ∈ processCounts env (createdFile env formatted opened file).2
    (passedArgs env fileD formatted opened file).numEquations, Fits 32 c
  streamCounts : ∀ c ∈ streamCounts env (World.start file) header, Fits 32 c
  solved : WrittenOut env.target (FileHeader.ofBytes (file.take HEADER_SIZE)).numEquations.toInt
    (file.drop HEADER_SIZE) ((sent (parsedFile env fileD formatted opened file).output.log).drop HEADER_SIZE)
  replied : WrittenOut env.target (FileHeader.ofBytes (file.take HEADER_SIZE)).numEquations.toInt
    (file.drop HEADER_SIZE) ((repliedFile env header file).drop (NET_HEADER_SIZE + HEADER_SIZE))

/-! ## The counters -/

section Counts
variable {env : Env} {w w' : World} {buf : List Byte} {count : Int → Int}

/-- What holds of the counter and is kept by each pass holds of all its values. -/
theorem loopCounts_forall {P : Int → Prop} {equationsRead numEquations : Int} (here : P equationsRead)
    (keeps : ∀ c, c < numEquations → P c → P (count c)) :
    ∀ c ∈ loopCounts count env w buf equationsRead numEquations, P c := by
  fun_induction loopCounts count env w buf equationsRead numEquations with
  | case1 w buf equationsRead more ends => simpa using here
  | case2 w buf equationsRead more goes_on ih =>
    intro c member
    rcases List.mem_cons.mp member with rfl | later
    · exact here
    · exact ih (keeps equationsRead more here) c later
  | case3 w buf equationsRead stop => simpa using here

/-- The counter of `parse_stream` stays between `0` and the announced number. -/
theorem streamCounts_bounded {file stream : List Byte} (all : DeliversAll env.toInputs)
    (width : file.length = HEADER_SIZE) (fields : ¬(FileHeader.ofBytes file).Refused) (header : NetHeader) :
    ∀ c ∈ streamCounts env (World.start (file ++ stream)) header,
      0 ≤ c ∧ c ≤ (FileHeader.ofBytes file).numEquations.toInt := by
  have some_announced : 0 < (FileHeader.ofBytes file).numEquations.toInt := not_le.mp (not_or.mp fields).2
  unfold streamCounts
  split
  · simp
  · rename_i w n headers
    have allocated : (calloc env.toInputs .fileHeader (calloc env.toInputs .equation
      (World.start (file ++ stream)).input).2).2 = ⟨file ++ stream, 0, 2⟩ := rfl
    have announced : n = (FileHeader.ofBytes file).numEquations.toInt := by
      rw [(parseHeaders_some headers).2, allocated, checkHeader_arrives width (all.arrives file stream 0 2) fields]
    rw [announced]
    apply loopCounts_forall (P := fun c => 0 ≤ c ∧ c ≤ (FileHeader.ofBytes file).numEquations.toInt)
    · omega
    · intro c below low
      omega

/-- The counter of `process_equations` stays `0`. -/
theorem processCounts_zero (env : Env) (w : World) (numEquations : Int) :
    ∀ c ∈ processCounts env w numEquations, c = 0 := by
  unfold processCounts
  dsimp only
  split
  · simp
  · exact loopCounts_forall rfl fun c _ same => same

end Counts

/-! ## The records -/

section Records
variable {env : Env} {file stream head output : List Byte} {formatted opened fileD : Int}

/-- The answers to a stream, behind a header, are written out. -/
theorem writtenOut_of_answered {t : Target} {n : Int} {m width : Nat} (width_eq : head.length = width)
    (enough : ∀ i : Nat, i < n → EQUATION_SIZE * (i + 1) ≤ stream.length → i < m)
    (same : output = head ++ (answered (answer t) EQUATION_SIZE m stream).flatten) :
    WrittenOut t n stream (output.drop width) := by
  intro i small present each
  have inOrder : AnswersInOrder t m stream (answered (answer t) EQUATION_SIZE m stream) :=
    .of_front List.prefix_rfl
  have reached : i + 1 ≤ (answered (answer t) EQUATION_SIZE m stream).length :=
    answered_longest (enough i small present) present fun j before =>
      answer_isSome_iff.mpr (each j (Nat.le_of_lt_succ before))
  have here := List.getElem?_eq_getElem reached
  have widths : ∀ record ∈ answered (answer t) EQUATION_SIZE m stream, record.length = SOLUTION_SIZE := by
    intro record member
    obtain ⟨j, found⟩ := List.mem_iff_getElem?.mp member
    exact (inOrder.each j record found).2
  rw [same, ← width_eq, List.drop_left, block_flatten widths here]
  exact (inOrder.each i _ here).1

/-- What `directory_parse` makes of an accepted file: the number and the header
it announces, and the header of the output file. -/
theorem createdFile_eq (stream : List Byte) (all : DeliversAll env.toInputs) (completes : ∀ k, env.writes k ≠ .fail)
    (named : formatted ≠ ERROR) (there : opened ≠ ERROR) (width : file.length = HEADER_SIZE)
    (fields : ¬(FileHeader.ofBytes file).Refused) :
    (checkHeader env.toInputs (World.start (file ++ stream)).input).numEquations =
        (FileHeader.ofBytes file).numEquations.toInt ∧
      (createdFile env formatted opened (file ++ stream)).1 = opened ∧
      sent (createdFile env formatted opened (file ++ stream)).2.output.log =
        (replyFileHeader (FileHeader.ofBytes file)).toBytes := by
  have checked : checkHeader env.toInputs (World.start (file ++ stream)).input = _ :=
    checkHeader_arrives width (all.arrives file stream 0 0) fields
  obtain ⟨_, created⟩ :=
    createFile_sent completes ⟨⟨(file ++ stream).drop file.length, 1, 0⟩, ⟨0, []⟩⟩ named there
      (FileHeader.ofBytes file)
  unfold createdFile
  rw [checked]
  refine ⟨rfl, ?_, created⟩
  unfold createFile
  rw [if_neg named, if_neg there]

/-- A number that an `int` can hold is passed on. -/
theorem parsedFile_eq (in_ok : 2 ≤ fileD) (out_ok : 2 ≤ (createdFile env formatted opened file).1)
    (fits : Fits 32 (checkHeader env.toInputs (World.start file).input).numEquations) :
    sent (parsedFile env fileD formatted opened file).output.log = solvedFile env formatted opened file := by
  unfold parsedFile parseFile passedArgs storedArgs
  dsimp only
  rw [if_neg (not_lt.mpr in_ok), if_neg (not_lt.mpr out_ok), (narrow_eq_iff (by decide) _).mpr fits]
  rfl

end Records

/-- **The number of equations survives exactly when an `int` can hold it.** For
every file whose header is accepted, over descriptors that transfer what they
are asked for. -/
theorem count_survives_iff (env : Env) (header : NetHeader) (fileD formatted opened : Int) (file : List Byte)
    (memory : Allocates env.toInputs) (all : DeliversAll env.toInputs) (completes : ∀ k, env.writes k ≠ .fail)
    (in_ok : 2 ≤ fileD) (named : formatted ≠ ERROR) (out_ok : 2 ≤ opened)
    (accepted : (checkHeader env.toInputs (World.start file).input).err = SUCCESS) :
    CountSurvives env header fileD formatted opened file ↔
      (FileHeader.ofBytes (file.take HEADER_SIZE)).numEquations.toInt ≤ 2 ^ 31 - 1 := by
  obtain ⟨enough, fields⟩ := (checkHeader_delivered_iff all file 0 0).mp accepted
  obtain ⟨head, stream, rfl, width⟩ : ∃ head stream, file = head ++ stream ∧ head.length = HEADER_SIZE :=
    ⟨_, _, (List.take_append_drop HEADER_SIZE file).symm, by rw [List.length_take]; omega⟩
  have front : (head ++ stream).take HEADER_SIZE = head := by rw [← width, List.take_left]
  have rest : (head ++ stream).drop HEADER_SIZE = stream := by rw [← width, List.drop_left]
  have there : opened ≠ ERROR := by
    unfold ERROR
    omega
  rw [front] at fields
  have some_announced : 0 < (FileHeader.ofBytes head).numEquations.toInt := not_le.mp (not_or.mp fields).2
  obtain ⟨announced, descriptor, created⟩ :=
    createdFile_eq stream all completes named there width fields
  have passed_iff : (passedArgs env fileD formatted opened (head ++ stream)).numEquations =
      (FileHeader.ofBytes (sent (createdFile env formatted opened (head ++ stream)).2.output.log)).numEquations.toInt ↔
        Fits 32 (FileHeader.ofBytes head).numEquations.toInt := by
    rw [created, FileHeader.ofBytes_toBytes, ← narrow_eq_iff (by decide), passedArgs, storedArgs, announced]
    rfl
  rw [front]
  constructor
  · intro survives
    exact (passed_iff.mp survives.passed).2
  · intro small
    have fits : Fits 32 (FileHeader.ofBytes head).numEquations.toInt := by
      unfold Fits intMin intMax
      omega
    have within : ∀ c : Int, 0 ≤ c ∧ c ≤ (FileHeader.ofBytes head).numEquations.toInt → Fits 32 c := by
      unfold Fits intMin intMax
      omega
    refine ⟨passed_iff.mpr fits, fun c member => ?_, fun c member => ?_, ?_, ?_⟩
    · rw [processCounts_zero _ _ _ c member]
      exact fits_zero
    · exact within c (streamCounts_bounded all width fields header c member)
    · rw [front, rest, parsedFile_eq in_ok (by rw [descriptor]; exact out_ok) (by rw [announced]; exact fits)]
      refine writtenOut_of_answered (m := stream.length) (FileHeader.toBytes_length _) ?_
        (solvedFile_eq memory all completes named there width fields ?_)
      · intro i _ present
        unfold EQUATION_SIZE at present
        omega
      · unfold EQUATION_SIZE
        omega
    · obtain ⟨n, count⟩ := Int.eq_ofNat_of_zero_le some_announced.le
      rw [front, rest, ← List.drop_drop, count]
      refine writtenOut_of_answered (m := n) (FileHeader.toBytes_length _) (fun i small _ => by omega)
        (repliedFile_eq memory all completes width fields (by omega) count header stream)

/-- One sum. -/
theorem count_survives_one : CountSurvives Env.calm ⟨0, 0, 0, []⟩ 4 10 5
    (unsolvedHeader 1 ++ equationRecords [⟨7, 0, 10, 1, 20⟩]) :=
  (count_survives_iff Env.calm ⟨0, 0, 0, []⟩ 4 10 5 (unsolvedHeader 1 ++ equationRecords [⟨7, 0, 10, 1, 20⟩])
    (fun _ _ => rfl) (fun _ => rfl) (fun _ => WriteAct.noConfusion) (by decide) (by decide) (by decide)
    (by decide +kernel)).mpr (by decide +kernel)

/-- A number whose lower 32 bits are zero: the file calculator gets `0` for it,
and leaves a sum unsolved. -/
theorem count_narrowed_to_zero :
    (checkHeader Env.calm.toInputs (World.start (unsolvedHeader (2 ^ 32) ++
      equationRecords [⟨7, 0, 10, 1, 20⟩])).input).err = SUCCESS ∧
    (passedArgs Env.calm 4 10 5
      (unsolvedHeader (2 ^ 32) ++ equationRecords [⟨7, 0, 10, 1, 20⟩])).numEquations = 0 ∧
    ¬CountSurvives Env.calm ⟨0, 0, 0, []⟩ 4 10 5
      (unsolvedHeader (2 ^ 32) ++ equationRecords [⟨7, 0, 10, 1, 20⟩]) := by
  refine ⟨by decide +kernel, by decide +kernel, ?_⟩
  intro survives
  have sum : Solvable Env.calm.target (block EQUATION_SIZE 0
      ((unsolvedHeader (2 ^ 32) ++ equationRecords [⟨7, 0, 10, 1, 20⟩]).drop HEADER_SIZE)) :=
    ⟨.ADD64, by decide +kernel, by decide +kernel⟩
  have nothing : block SOLUTION_SIZE 0 ((sent (parsedFile Env.calm 4 10 5 (unsolvedHeader (2 ^ 32) ++
      equationRecords [⟨7, 0, 10, 1, 20⟩])).output.log).drop HEADER_SIZE) = [] := by
    decide +kernel
  obtain ⟨op, solution, _, _, record⟩ := survives.solved 0 (by decide +kernel) (by decide +kernel) fun j first => by
    obtain rfl : j = 0 := by omega
    exact sum
  rw [nothing] at record
  simp at record

end NetCalc.File
