import NetCalc.Net.Answers

/-!
# Solving one file (`thread_handle.c`)

`check_header` reads the header of a file, `create_file` opens its output file
and writes the header there, marked as solved, and `parse_file` has
`process_equations` answer the equations and close the output file. A `World`
is one file with what its output file gets. What `snprintf` and `open` return
is an argument.

The structures of `thread_handle.c` have the fields of those of the server, at
the same places. `process_equations` declares the counter `equations_read` and
compares it in each pass, but no pass changes it.
-/

namespace NetCalc.File

set_option autoImplicit false
open NetCalc.Lib NetCalc.Net

/-- `parse_args_t`. -/
structure ParseArgs where
  inFileStream : Int
  outFileStream : Int
  numEquations : Int
  deriving DecidableEq, Repr

/-- `check_header`. -/
def checkHeader (e : Inputs) (i : Input) : Checked :=
  let r := safeRead e i (zeroed HEADER_SIZE) HEADER_SIZE
  let header := FileHeader.ofBytes r.2.1
  if r.1 ≠ HEADER_SIZE then ⟨ERROR, 0, header, r.2.2⟩
  else if header.isSolved ≠ 0 then ⟨ERROR, 0, header, r.2.2⟩
  else if header.numEquations.toInt ≤ 0 then ⟨ERROR, 0, header, r.2.2⟩
  else ⟨SUCCESS, header.numEquations.toInt, header, r.2.2⟩

/-- `create_file`: the descriptor it returns. -/
def createFile (env : Env) (w : World) (formatted opened : Int) (header : FileHeader) : Int × World :=
  if formatted = ERROR then (formatted, w)
  else if opened = ERROR then (opened, w)
  else
    let header : FileHeader := { header with isSolved := 1 }
    (opened, { w with output := (safeWrite env.writes w.output (header.toBytes.take HEADER_SIZE)).2 })

/-- `write_file`. -/
def writeFile (env : Env) (w : World) (calcResult : Calc) (equation : Equation) : Nat × World :=
  let block := calloc env.toInputs .solution w.input
  if block.1 = false then (SIZE_ERROR, { w with input := block.2 })
  else
    let solution : SolvedEquation := {
      equationId := equation.equationId
      isSolved := 1
      solutionType := if Op.MOD64.val ≥ calcResult.oper then INT else UINT
      solution := calcResult.result }
    let written := safeWrite env.writes w.output (solution.toBytes.take SOLUTION_SIZE)
    (written.1, ⟨block.2, written.2⟩)

/-- One pass of the loop of `process_equations`. -/
def processPass (env : Env) (w : World) (buf : List Byte) (err : Int) : Pass :=
  let block := calloc env.toInputs .calcVar w.input
  if block.1 = false then ⟨true, err, buf, { w with input := block.2 }⟩
  else
    let r := safeRead env.toInputs block.2 buf EQUATION_SIZE
    let w : World := { w with input := r.2.2 }
    if r.1 = 0 then ⟨true, err, r.2.1, w⟩
    else if r.1 ≠ EQUATION_SIZE then ⟨true, err, r.2.1, w⟩
    else
      let equation := Equation.ofBytes r.2.1
      let set := setCalcFile env.target calcInit equation.num1 equation.num2 equation.operator
      if set.1 ≠ SUCCESS then ⟨true, set.1, r.2.1, w⟩
      else
        let solved := solveFunc set.2
        if solved.1 ≠ SUCCESS then ⟨true, solved.1, r.2.1, w⟩
        else
          let written := writeFile env w solved.2 equation
          ⟨written.1 = 0, solved.1, r.2.1, written.2⟩

/-- **Two copies of one pass.** What the file calculator does with an equation
the server does too. -/
theorem processPass_eq (env : Env) (w : World) (buf : List Byte) (err : Int) :
    processPass env w buf err = parsePass env w buf err := rfl

/-- The loop of `process_equations`. -/
def processLoop (env : Env) (w : World) (buf : List Byte) (equationsRead numEquations err : Int) :
    Int × World :=
  if equationsRead < numEquations then
    if _ends : (processPass env w buf err).goEnd = true then
      ((processPass env w buf err).err, (processPass env w buf err).world)
    else
      processLoop env (processPass env w buf err).world (processPass env w buf err).buf equationsRead
        numEquations (processPass env w buf err).err
  else (err, w)
termination_by w.input.rx.length
decreasing_by
  rw [processPass_eq] at _ends ⊢
  obtain ⟨enough, rest⟩ := parsePass_reads (by simpa using _ends)
  rw [rest, List.length_drop]
  unfold EQUATION_SIZE at enough ⊢
  omega

/-- `safe_close`, with a `close` that succeeds. -/
def safeClose (fileD : Int) (w : World) : Int × World :=
  if 2 < fileD then (SUCCESS, closeSocket w) else (-1, w)

/-- `process_equations`. -/
def processEquations (env : Env) (w : World) (outFileDes numEquations : Int) : Int × World :=
  let equation := calloc env.toInputs .equation w.input
  let w : World := { w with input := equation.2 }
  if equation.1 = false then safeClose outFileDes w
  else safeClose outFileDes (processLoop env w (zeroed EQUATION_SIZE) 0 numEquations ERROR).2

/-- `parse_file`. -/
def parseFile (env : Env) (w : World) (args : Option ParseArgs) : World :=
  match args with
  | none => w
  | some args =>
    if args.inFileStream < 2 then w
    else if args.outFileStream < 2 then w
    else (processEquations env w args.outFileStream args.numEquations).2

end NetCalc.File
