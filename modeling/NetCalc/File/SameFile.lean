import NetCalc.File.ThreadHandle
import NetCalc.Net.Verdict

/-!
# Do the two calculators solve a file alike?

The server counts the equations it has read and stops at the announced number.
The file calculator does not count: `equations_read` stays `0`, so its loop is
the server's with a number the counter never reaches (`processLoop_eq`). It
ends where the file does or where an equation cannot be solved. The two
therefore agree, unless a file goes on behind the announced equations with one
more that can be solved (`same_file_iff`).
-/

namespace NetCalc.File

set_option autoImplicit false
open NetCalc.Lib NetCalc.Net

/-- What `create_file` and `process_equations` do with a file: what is read,
and what the output file gets. -/
def solveFile (env : Env) (formatted opened : Int) (file : List Byte) : World :=
  let check := checkHeader env.toInputs (World.start file).input
  let created := createFile env ⟨check.input, (World.start file).output⟩ formatted opened check.header
  (processEquations env created.2 created.1 check.numEquations).2

/-- The contents of `solved_<name>`, where there was no such file before. -/
def solvedFile (env : Env) (formatted opened : Int) (file : List Byte) : List Byte :=
  sent (solveFile env formatted opened file).output.log

/-- What `parse_stream` sends for a file. -/
def repliedFile (env : Env) (header : NetHeader) (file : List Byte) : List Byte :=
  sent (parseStream env (World.start file) header).2.output.log

/-- A file is refused by both checks or by none, and when it is accepted and
its number of equations is an `int`, the solved file is the reply without its
net header. -/
def SolvesAlike (env : Env) (header : NetHeader) (formatted opened : Int) (file : List Byte) : Prop :=
  ((checkHeader env.toInputs (World.start file).input).err = SUCCESS ↔
      (Net.checkHeader env.toInputs (World.start file).input).err = SUCCESS) ∧
    ((checkHeader env.toInputs (World.start file).input).err = SUCCESS →
      (FileHeader.ofBytes (file.take HEADER_SIZE)).numEquations.toInt ≤ 2 ^ 31 - 1 →
      solvedFile env formatted opened file = (repliedFile env header file).drop NET_HEADER_SIZE)

/-- A file has an acceptable header, which announces `n` equations, and `n + 1`
or more complete records of which the first `n + 1` can all be solved. -/
def OneMoreSolvable (t : Target) (file : List Byte) : Prop :=
  HEADER_SIZE ≤ file.length ∧ ¬(FileHeader.ofBytes (file.take HEADER_SIZE)).Refused ∧
    ∃ n : Nat, n ≤ 2 ^ 31 - 1 ∧ (FileHeader.ofBytes (file.take HEADER_SIZE)).numEquations.toInt = n ∧
      EQUATION_SIZE * (n + 1) ≤ (file.drop HEADER_SIZE).length ∧
      ∀ i, i < n + 1 → Solvable t (block EQUATION_SIZE i (file.drop HEADER_SIZE))

/-- The two header checks are one. -/
theorem checkHeader_eq (e : Inputs) (i : Input) : checkHeader e i = Net.checkHeader e i := rfl

/-! ## The loop that does not count -/

section Loop
variable {env : Env} {w : World}

/-- **A loop that does not count is one with a bound out of reach.** -/
theorem processLoop_eq {numEquations : Int} (buf : List Byte) (equationsRead err : Int)
    (some_announced : 0 < numEquations) (fits : equationsRead < 2 ^ 31) :
    processLoop env w buf 0 numEquations err = parseLoop env w buf equationsRead (2 ^ 31) err := by
  fun_induction parseLoop env w buf equationsRead (2 ^ 31) err with
  | case1 w buf equationsRead err more ends =>
    rw [processLoop, if_pos some_announced, processPass_eq, dif_pos ends]
  | case2 w buf equationsRead err more goes_on ih =>
    rw [processLoop, if_pos some_announced, processPass_eq, dif_neg goes_on]
    exact ih (countRead_lt _)
  | case3 w buf equationsRead err stop => exact absurd fits stop

/-- Closing the output file sends nothing. -/
theorem safeClose_sent (fileD : Int) (w : World) :
    sent (safeClose fileD w).2.output.log = sent w.output.log := by
  unfold safeClose
  split
  · exact (sent_append _ _).trans (List.append_nil _)
  · rfl

/-- What `process_equations` appends: the answers to all records there are,
up to the first that has none. -/
theorem processEquations_sent (memory : Allocates env.toInputs) (all : DeliversAll env.toInputs)
    (completes : ∀ k, env.writes k ≠ .fail) {numEquations : Int} (some_announced : 0 < numEquations)
    (outFileDes : Int) {m : Nat} (room : w.input.rx.length < EQUATION_SIZE * (m + 1)) :
    sent (processEquations env w outFileDes numEquations).2.output.log =
      sent w.output.log ++ (answered (answer env.target) EQUATION_SIZE m w.input.rx).flatten := by
  have allocated : ¬(calloc env.toInputs .equation w.input).1 = false := by
    rw [show (calloc env.toInputs .equation w.input).1 = true from memory ..]
    simp
  unfold processEquations
  dsimp only
  rw [if_neg allocated, safeClose_sent, processLoop_eq _ 0 _ some_announced (by decide)]
  have sends : Sends env ⟨(calloc env.toInputs .equation w.input).2, w.output⟩ _ _ :=
    parseLoop_sends (zeroed EQUATION_SIZE) 0 (2 ^ 31) ERROR
  obtain ⟨log, sent_log, arrived⟩ := sends.complete completes
  have longest : records env.toInputs (calloc env.toInputs .equation w.input).2 (zeroed EQUATION_SIZE) 0
      (2 ^ 31) = answered (answer env.target) EQUATION_SIZE m w.input.rx :=
    records_longest memory all (by simp [zeroed]) (.inr ⟨by decide, by decide, room⟩)
  rw [sent_log, sent_append, arrived, longest]

/-- What `create_file` leaves in a file it could open. -/
theorem createFile_sent (completes : ∀ k, env.writes k ≠ .fail) (w : World) {formatted opened : Int}
    (named : formatted ≠ ERROR) (there : opened ≠ ERROR) (header : FileHeader) :
    (createFile env w formatted opened header).2.input = w.input ∧
      sent (createFile env w formatted opened header).2.output.log =
        sent w.output.log ++ (replyFileHeader header).toBytes := by
  have all : (replyFileHeader header).toBytes.take HEADER_SIZE = (replyFileHeader header).toBytes :=
    List.take_of_length_le (by rw [FileHeader.toBytes_length])
  have sends : Sends env ⟨w.input, w.output⟩ _ _ :=
    Sends.write (replyFileHeader header).toBytes w.input w.input w.output
  obtain ⟨log, sent_log, arrived⟩ := sends.complete completes
  unfold createFile
  rw [if_neg named, if_neg there]
  refine ⟨rfl, ?_⟩
  dsimp only
  rw [show ({ header with isSolved := 1 } : FileHeader) = replyFileHeader header from rfl, all]
  exact (congrArg sent sent_log).trans (by rw [sent_append, arrived, List.flatten_singleton])

end Loop

/-! ## Both files -/

section Both
variable {env : Env} {file stream : List Byte} {formatted opened : Int}

/-- **The solved file**: the header, marked as solved, and the answers to all
records there are. -/
theorem solvedFile_eq (memory : Allocates env.toInputs) (all : DeliversAll env.toInputs)
    (completes : ∀ k, env.writes k ≠ .fail) (named : formatted ≠ ERROR) (there : opened ≠ ERROR)
    (width : file.length = HEADER_SIZE) (fields : ¬(FileHeader.ofBytes file).Refused) {m : Nat}
    (room : stream.length < EQUATION_SIZE * (m + 1)) :
    solvedFile env formatted opened (file ++ stream) = (replyFileHeader (FileHeader.ofBytes file)).toBytes ++
      (answered (answer env.target) EQUATION_SIZE m stream).flatten := by
  have checked : checkHeader env.toInputs (World.start (file ++ stream)).input = _ :=
    checkHeader_arrives width (all.arrives file stream 0 0) fields
  have rest : (file ++ stream).drop file.length = stream := List.drop_left
  obtain ⟨input, created⟩ :=
    createFile_sent completes ⟨⟨stream, 1, 0⟩, ⟨0, []⟩⟩ named there (FileHeader.ofBytes file)
  have some_announced : 0 < (FileHeader.ofBytes file).numEquations.toInt := not_le.mp (not_or.mp fields).2
  unfold solvedFile solveFile
  rw [checked]
  dsimp only [World.start]
  rw [rest, processEquations_sent memory all completes some_announced _ (by rw [input]; exact room), input,
    created]
  rfl

/-- **The reply**: it ends with the announced number of answers. -/
theorem repliedFile_eq (memory : Allocates env.toInputs) (all : DeliversAll env.toInputs)
    (completes : ∀ k, env.writes k ≠ .fail) (width : file.length = HEADER_SIZE)
    (fields : ¬(FileHeader.ofBytes file).Refused) {n : Nat} (small : n ≤ 2 ^ 31 - 1)
    (announced : (FileHeader.ofBytes file).numEquations.toInt = n) (header : NetHeader) (stream : List Byte) :
    (repliedFile env header (file ++ stream)).drop NET_HEADER_SIZE =
      (replyFileHeader (FileHeader.ofBytes file)).toBytes ++
        (answered (answer env.target) EQUATION_SIZE n stream).flatten := by
  have accepted : (Net.checkHeader env.toInputs (World.start (file ++ stream)).input).err = SUCCESS :=
    checkHeader_accepts_iff.mpr ⟨file, width, all.arrives file stream 0 0, fields⟩
  have budget : Budget 0 (FileHeader.ofBytes file).numEquations.toInt n stream.length :=
    .inl ⟨Int.le_refl 0, by omega, by omega⟩
  obtain ⟨log, sent_log, arrived⟩ := parseStream_delivered (World.start (file ++ stream)) header memory all
    completes rfl width accepted budget
  have net : (replyNetHeader header (FileHeader.ofBytes file).numEquations.toInt).toBytes.length =
      NET_HEADER_SIZE :=
    NetHeader.toBytes_length (strncpy_length _ _)
  unfold repliedFile
  rw [sent_log, World.start, List.nil_append, arrived, List.append_assoc, ← net, List.drop_left]

/-- Wanting fewer records leaves the same bytes only if there are no more. -/
theorem flatten_answered_inj {t : Target} {n m : Nat} (fewer : n ≤ m) :
    (answered (answer t) EQUATION_SIZE m stream).flatten = (answered (answer t) EQUATION_SIZE n stream).flatten ↔
      (answered (answer t) EQUATION_SIZE m stream).length ≤ n := by
  have many : AnswersInOrder t m stream (answered (answer t) EQUATION_SIZE m stream) := .of_front List.prefix_rfl
  have few : AnswersInOrder t n stream (answered (answer t) EQUATION_SIZE n stream) := .of_front List.prefix_rfl
  constructor
  · intro same
    have lengths := congrArg List.length same
    have bounded := few.bounded
    rw [many.flatten_length, few.flatten_length] at lengths
    unfold SOLUTION_SIZE at lengths
    omega
  · intro bounded
    rw [← answered_take _ _ fewer, List.take_of_length_le bounded]

/-- An accepted file is solved like the server's, unless there is one more
record that can be. -/
theorem same_contents_iff (memory : Allocates env.toInputs) (all : DeliversAll env.toInputs)
    (completes : ∀ k, env.writes k ≠ .fail) (named : formatted ≠ ERROR) (there : opened ≠ ERROR)
    (header : NetHeader) (enough : HEADER_SIZE ≤ file.length)
    (fields : ¬(FileHeader.ofBytes (file.take HEADER_SIZE)).Refused) {n : Nat} (small : n ≤ 2 ^ 31 - 1)
    (announced : (FileHeader.ofBytes (file.take HEADER_SIZE)).numEquations.toInt = n) :
    solvedFile env formatted opened file = (repliedFile env header file).drop NET_HEADER_SIZE ↔
      ¬(EQUATION_SIZE * (n + 1) ≤ (file.drop HEADER_SIZE).length ∧
        ∀ i, i < n + 1 → Solvable env.target (block EQUATION_SIZE i (file.drop HEADER_SIZE))) := by
  have width : (file.take HEADER_SIZE).length = HEADER_SIZE := by
    rw [List.length_take]
    omega
  have room : (file.drop HEADER_SIZE).length <
      EQUATION_SIZE * ((n + 1 + (file.drop HEADER_SIZE).length) + 1) := by
    unfold EQUATION_SIZE
    omega
  have solved := solvedFile_eq memory all completes named there width fields room
  have replied := repliedFile_eq memory all completes width fields small announced header (file.drop HEADER_SIZE)
  rw [List.take_append_drop] at solved replied
  rw [solved, replied, List.append_cancel_left_eq, flatten_answered_inj (by omega), ← not_lt]
  apply not_congr
  rw [← Nat.succ_le_iff, Nat.succ_eq_add_one, answered_reaches_iff (by omega)]
  simp only [answer_isSome_iff]

end Both

/-- **The two calculators solve a file alike, unless one more equation can be
solved.** For every file, over descriptors that transfer what they are asked
for: the checks of its header agree, and where they accept it and it announces
`n` equations, the file that `create_file` and `process_equations` leave is the
reply of `parse_stream` without its first 48 bytes, exactly when not all of the
first `n + 1` records are there and can be solved. -/
theorem same_file_iff (env : Env) (header : NetHeader) (formatted opened : Int) (file : List Byte)
    (memory : Allocates env.toInputs) (all : DeliversAll env.toInputs) (completes : ∀ k, env.writes k ≠ .fail)
    (named : formatted ≠ ERROR) (there : opened ≠ ERROR) :
    SolvesAlike env header formatted opened file ↔ ¬OneMoreSolvable env.target file := by
  have decides : (Net.checkHeader env.toInputs (World.start file).input).err = SUCCESS ↔
      HEADER_SIZE ≤ file.length ∧ ¬(FileHeader.ofBytes (file.take HEADER_SIZE)).Refused :=
    checkHeader_delivered_iff all file 0 0
  unfold SolvesAlike
  rw [checkHeader_eq, decides]
  constructor
  · rintro ⟨_, alike⟩ ⟨enough, fields, n, small, announced, more⟩
    have same := alike ⟨enough, fields⟩ (by omega)
    exact (same_contents_iff memory all completes named there header enough fields small announced).mp same more
  · intro none_more
    refine ⟨Iff.rfl, ?_⟩
    rintro ⟨enough, fields⟩ small
    obtain ⟨n, announced⟩ := Int.eq_ofNat_of_zero_le (not_le.mp (not_or.mp fields).2).le
    apply (same_contents_iff memory all completes named there header enough fields (by omega) announced).mpr
    intro more
    exact none_more ⟨enough, fields, n, by omega, announced, more⟩

/-- Two sums, and as many are announced. -/
theorem same_file_two :
    solvedFile Env.calm 10 5 (unsolvedHeader 2 ++ equationRecords [⟨7, 0, 10, 1, 20⟩, ⟨9, 0, 3, 1, 4⟩]) =
      (repliedFile Env.calm ⟨0, 0, 0, []⟩
        (unsolvedHeader 2 ++ equationRecords [⟨7, 0, 10, 1, 20⟩, ⟨9, 0, 3, 1, 4⟩])).drop NET_HEADER_SIZE := by
  have alike := same_file_iff Env.calm ⟨0, 0, 0, []⟩ 10 5
    (unsolvedHeader 2 ++ equationRecords [⟨7, 0, 10, 1, 20⟩, ⟨9, 0, 3, 1, 4⟩]) (fun _ _ => rfl) (fun _ => rfl)
    (fun _ => WriteAct.noConfusion) (by decide) (by decide)
  refine (alike.mpr ?_).2 (by decide +kernel) (by decide +kernel)
  rintro ⟨_, _, n, _, announced, room, _⟩
  have two : (FileHeader.ofBytes ((unsolvedHeader 2 ++ equationRecords
      [⟨7, 0, 10, 1, 20⟩, ⟨9, 0, 3, 1, 4⟩]).take HEADER_SIZE)).numEquations.toInt = 2 := by
    decide +kernel
  have length : ((unsolvedHeader 2 ++ equationRecords
      [⟨7, 0, 10, 1, 20⟩, ⟨9, 0, 3, 1, 4⟩]).drop HEADER_SIZE).length = 64 := by
    decide +kernel
  rw [length] at room
  unfold EQUATION_SIZE at room
  omega

/-- One sum is announced and two are there: the file calculator solves both. -/
theorem record_behind_the_last :
    ¬SolvesAlike Env.calm ⟨0, 0, 0, []⟩ 10 5
      (unsolvedHeader 1 ++ equationRecords [⟨7, 0, 10, 1, 20⟩, ⟨9, 0, 3, 1, 4⟩]) := by
  rintro ⟨_, alike⟩
  have same := congrArg List.length (alike (by decide +kernel) (by decide +kernel))
  have solved : (solvedFile Env.calm 10 5
      (unsolvedHeader 1 ++ equationRecords [⟨7, 0, 10, 1, 20⟩, ⟨9, 0, 3, 1, 4⟩])).length = 55 := by
    decide +kernel
  have replied : ((repliedFile Env.calm ⟨0, 0, 0, []⟩ (unsolvedHeader 1 ++ equationRecords
      [⟨7, 0, 10, 1, 20⟩, ⟨9, 0, 3, 1, 4⟩])).drop NET_HEADER_SIZE).length = 41 := by
    decide +kernel
  rw [solved, replied] at same
  cases same

end NetCalc.File
