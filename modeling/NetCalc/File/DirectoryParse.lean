import NetCalc.File.ThreadHandle
import NetCalc.Lib.Dialogue
import NetCalc.Thread.Pool

/-!
# The directory as a machine (`thread_handle.c`, `thread_main.c`)

The main thread runs `directory_parse`: for each name `readdir` gives it opens
the file, checks its header, creates its output file and hands `parse_file` to
the pool, with a block for the two descriptors and the number of equations.
The workers run `parse_file`. Every call to the system is an action of its
own, and so is solving an equation; what else a thread computes between two
calls belongs to the first.

A thread's code is therefore a `Client`: `prepare` is what `directory_parse`
does for one name and `parse` is `parse_file`, the loops of `safe_read` and
`safe_write` included. `serve` is the kernel's and the allocator's side. A
number that `open` returns is any that is not in use, so a number that
`safe_close` has given back comes again.

The pointer that is handed to the pool is the file it was allocated for: two
blocks that exist at the same time have different addresses. What a call does
is for each file data (`Env`): how much the file's `k`-th `read` delivers, its
`k`-th `write` accepts, and which of its allocations succeed. The block for
the arguments and the path names are always there: `directory_parse` does not
look whether they are. Messages are not modelled.
-/

namespace NetCalc.File

set_option autoImplicit false
open NetCalc.Lib NetCalc.Net

/-- `MAX_PATH`. -/
def MAX_PATH : Nat := 4096

/-- The name of a file. -/
abbrev Name := List Byte

/-- A path. -/
abbrev Path := List Byte

/-- `'/'`. -/
def SLASH : Byte := 47

/-- `'.'`. -/
def DOT : Byte := 46

/-- `"solved_"`. -/
def SOLVED : List Byte := [115, 111, 108, 118, 101, 100, 95]

/-- `directory_name`: what `snprintf` leaves of `"%s/%s"` in `MAX_PATH` bytes. -/
def directoryName (inDirName : Path) (name : Name) : Path :=
  (inDirName ++ SLASH :: name).take (MAX_PATH - 1)

/-- `path` of `create_file`: `"%s/solved_%s"`, in `MAX_PATH + 1` bytes. -/
def solvedPath (outDirectoryName : Path) (name : Name) : Path :=
  (outDirectoryName ++ SLASH :: (SOLVED ++ name)).take MAX_PATH

/-- What the program is started on: the names in the input directory, its name
as it was given, the output directory's full name, what the file system holds,
and the descriptors that are open. The names are distinct, and the three
standard streams are open, as they are when `main` is called. -/
structure Directory where
  names : List Name
  inDirName : Path
  fullDir : Path
  realpath : Path → Option Path
  files : Path → List Byte
  env : Name → Env
  opened : List Int
  distinct : names.Nodup
  standard : ∀ d, 0 ≤ d → d ≤ 2 → d ∈ opened
  numbers : ∀ d ∈ opened, 0 ≤ d

/-- A file of the input directory. -/
abbrev Entry (D : Directory) := { f : Name // f ∈ D.names }

/-! ## Calls to the system -/

/-- What a thread asks the system for; `args` reads, `store` makes and `free`
gives back the block of the arguments, and `solve` asks for nothing: the thread
computes on blocks of its own. -/
inductive Request where
  | openIn
  | openOut
  | alloc (b : Block)
  | read (fileD : Int) (len : Nat)
  | solve
  | write (fileD : Int) (bytes : List Byte)
  | close (fileD : Int)
  | store (args : ParseArgs)
  | args
  | free

/-- What it gets. -/
inductive Reply where
  | opened (fileD : Int)
  | block (there : Bool)
  | data (bytes : Except Errno (List Byte))
  | accepted (bytes : Option Nat)
  | args (args : Option ParseArgs)
  | done

/-- The descriptor a call is made on. -/
def Request.fileD : Request → Option Int
  | .read fileD _ => some fileD
  | .write fileD _ => some fileD
  | .close fileD => some fileD
  | _ => none

/-! ## `directory_parse`, for one name -/

/-- Where the main thread stands with a name. -/
inductive PreparePc where
  | opening
  | allocHeader (fileD : Int)
  | checking (fileD : Int) (buf : List Byte) (total : Nat) (last : Int)
  | creating (fileD : Int) (numEquations : Int) (header : FileHeader)
  | writing (fileD : Int) (numEquations : Int) (fileDes : Int) (bytes : List Byte) (total : Nat)
  | storing (fileD : Int) (fileDes : Int) (numEquations : Int)
  | ready
  | failed

namespace PreparePc

/-- `check_header` after its `safe_read`. -/
def checked (fileD : Int) (byteRead : Nat) (buf : List Byte) : PreparePc :=
  let header := FileHeader.ofBytes buf
  if byteRead ≠ HEADER_SIZE then .failed
  else if header.isSolved ≠ 0 then .failed
  else if header.numEquations.toInt ≤ 0 then .failed
  else .creating fileD header.numEquations.toInt header

/-- The `safe_read` of `check_header`, at the top of its loop. -/
def check (fileD : Int) (buf : List Byte) (total : Nat) (last : Int) : PreparePc :=
  if readMore last HEADER_SIZE then .checking fileD buf total last else checked fileD total buf

/-- After `create_file`. -/
def created (fileD numEquations fileDes : Int) : PreparePc :=
  if fileDes < 2 then .failed else .storing fileD fileDes numEquations

/-- The `safe_write` of `create_file`, at the top of its loop. -/
def write (fileD numEquations fileDes : Int) (bytes : List Byte) (total : Nat) : PreparePc :=
  if total < bytes.length then .writing fileD numEquations fileDes bytes total
  else created fileD numEquations fileDes

/-- The next call. -/
def request : PreparePc → Option Request
  | .opening => some .openIn
  | .allocHeader _ => some (.alloc .fileHeader)
  | .checking fileD _ total _ => some (.read fileD (HEADER_SIZE - total))
  | .creating _ _ _ => some .openOut
  | .writing _ _ fileDes bytes total => some (.write fileDes (bytes.drop total))
  | .storing fileD fileDes numEquations => some (.store ⟨fileD, fileDes, narrow 32 numEquations⟩)
  | .ready => none
  | .failed => none

/-- What comes after it. -/
def receive : PreparePc → Reply → PreparePc
  | .opening, .opened fileD => .allocHeader fileD
  | .allocHeader fileD, .block there => if there = false then .failed else check fileD (zeroed HEADER_SIZE) 0 0
  | .checking fileD buf total _, .data (.ok bs) =>
    if bs = [] then checked fileD 0 buf else check fileD (patch buf total bs) (total + bs.length) bs.length
  | .checking fileD buf _ _, .data (.error errno) => checked fileD (readError errno) buf
  | .creating fileD numEquations header, .opened fileDes =>
    if fileDes = ERROR then created fileD numEquations fileDes
    else
      let header : FileHeader := { header with isSolved := 1 }
      write fileD numEquations fileDes (header.toBytes.take HEADER_SIZE) 0
  | .writing fileD numEquations fileDes _ _, .accepted none => created fileD numEquations fileDes
  | .writing fileD numEquations fileDes bytes total, .accepted (some k) =>
    if total = bytes.length then created fileD numEquations fileDes
    else write fileD numEquations fileDes bytes (total + k)
  | .storing _ _ _, _ => .ready
  | pc, _ => pc

end PreparePc

/-- What `directory_parse` does for one name, up to `threadpool_add_job`. -/
def prepare : Client PreparePc Request Reply := ⟨PreparePc.request, PreparePc.receive⟩

/-! ## `parse_file` -/

/-- Where a worker stands in `parse_file`. `equations_read` is `0`, and `err`
is looked at where it is set only. -/
inductive JobPc where
  | entered
  | allocEquation (args : ParseArgs)
  | allocCalc (args : ParseArgs) (buf : List Byte)
  | reading (args : ParseArgs) (buf : List Byte) (total : Nat) (last : Int)
  | solving (args : ParseArgs) (buf : List Byte)
  | allocSolution (args : ParseArgs) (buf : List Byte) (calcResult : Calc)
  | writing (args : ParseArgs) (buf bytes : List Byte) (total : Nat)
  | closing (args : ParseArgs)
  | freeing
  | finished

namespace JobPc

/-- `END` of `process_equations`: `safe_close` leaves the standard streams open. -/
def close (args : ParseArgs) : JobPc :=
  if 2 < args.outFileStream then .closing args else .freeing

/-- The top of the loop of `process_equations`. -/
def loop (args : ParseArgs) (buf : List Byte) : JobPc :=
  if 0 < args.numEquations then .allocCalc args buf else close args

/-- After the `safe_read`. -/
def read (args : ParseArgs) (bytesRead : Nat) (buf : List Byte) : JobPc :=
  if bytesRead = 0 then close args
  else if bytesRead ≠ EQUATION_SIZE then close args
  else .solving args buf

/-- `set_calc_file` and `solve_func`. -/
def solve (t : Target) (args : ParseArgs) (buf : List Byte) : JobPc :=
  let equation := Equation.ofBytes buf
  let set := setCalcFile t calcInit equation.num1 equation.num2 equation.operator
  if set.1 ≠ SUCCESS then close args
  else
    let solved := solveFunc set.2
    if solved.1 ≠ SUCCESS then close args else .allocSolution args buf solved.2

/-- The `safe_read`, at the top of its loop. -/
def safeRead (args : ParseArgs) (buf : List Byte) (total : Nat) (last : Int) : JobPc :=
  if readMore last EQUATION_SIZE then .reading args buf total last else read args total buf

/-- After `write_file`. -/
def written (args : ParseArgs) (buf : List Byte) (numBytes : Nat) : JobPc :=
  if numBytes = 0 then close args else loop args buf

/-- The `safe_write` of `write_file`, at the top of its loop. -/
def write (args : ParseArgs) (buf bytes : List Byte) (total : Nat) : JobPc :=
  if total < bytes.length then .writing args buf bytes total else written args buf total

/-- The next call. -/
def request : JobPc → Option Request
  | .entered => some .args
  | .allocEquation _ => some (.alloc .equation)
  | .allocCalc _ _ => some (.alloc .calcVar)
  | .reading args _ total _ => some (.read args.inFileStream (EQUATION_SIZE - total))
  | .solving _ _ => some .solve
  | .allocSolution _ _ _ => some (.alloc .solution)
  | .writing args _ bytes total => some (.write args.outFileStream (bytes.drop total))
  | .closing args => some (.close args.outFileStream)
  | .freeing => some .free
  | .finished => none

/-- What comes after it. -/
def receive (t : Target) : JobPc → Reply → JobPc
  | .entered, .args none => .finished
  | .entered, .args (some args) =>
    if args.inFileStream < 2 then .freeing
    else if args.outFileStream < 2 then .freeing
    else .allocEquation args
  | .allocEquation args, .block there => if there = false then close args else loop args (zeroed EQUATION_SIZE)
  | .allocCalc args buf, .block there => if there = false then close args else safeRead args buf 0 0
  | .reading args buf total _, .data (.ok bs) =>
    if bs = [] then read args 0 buf else safeRead args (patch buf total bs) (total + bs.length) bs.length
  | .reading args buf _ _, .data (.error errno) => read args (readError errno) buf
  | .solving args buf, _ => solve t args buf
  | .allocSolution args buf calcResult, .block there =>
    if there = false then written args buf SIZE_ERROR
    else
      let equation := Equation.ofBytes buf
      let solution : SolvedEquation := {
        equationId := equation.equationId
        isSolved := 1
        solutionType := if Op.MOD64.val ≥ calcResult.oper then INT else UINT
        solution := calcResult.result }
      write args buf (solution.toBytes.take SOLUTION_SIZE) 0
  | .writing args buf _ _, .accepted none => written args buf SIZE_ERROR
  | .writing args buf bytes total, .accepted (some k) =>
    if total = bytes.length then written args buf total else write args buf bytes (total + k)
  | .closing _, _ => .freeing
  | .freeing, _ => .finished
  | pc, _ => pc

end JobPc

/-- `parse_file`. -/
def parse (t : Target) : Client JobPc Request Reply := ⟨JobPc.request, JobPc.receive t⟩

/-! ## The process -/

/-- An open file. `owner` is whose it is: the file of the input directory that
it was opened for, if any. No action reads it. -/
structure OpenFile (D : Directory) where
  path : Path
  offset : Nat
  append : Bool
  owner : Option (Entry D)

/-- The task handed to the pool. -/
inductive Task where
  | parseFile
  deriving DecidableEq, Repr

/-- What the history of a file's calls is: how many `read` and `calloc` calls
there were, and what was written. -/
structure Tape where
  nread : Nat
  nalloc : Nat
  output : Output

/-- Where the main thread stands. -/
inductive ListerPc (D : Directory) where
  | next
  | preparing (f : Entry D) (pc : PreparePc)
  | adding (f : Entry D)
  | added
  | ended

/-- The main thread, the pool's only caller. -/
def mainThread : Fin 1 := Fin.last 0

/-- The pool of the process: one caller, and a file stands for its arguments. -/
abbrev FilePool (D : Directory) (n : Nat) := Thread.Pool n 1 Task Empty (Entry D)

/-- The process, with `n` workers. `todo` is what `readdir` has not given yet,
`flag` whether `signal_flag_g` is set. -/
structure Process (D : Directory) (n : Nat) where
  pool : FilePool D n
  files : Path → List Byte
  fds : Int → Option (OpenFile D)
  args : Entry D → Option ParseArgs
  tape : Entry D → Tape
  todo : List (Entry D)
  flag : Bool
  lister : ListerPc D
  jobs : Fin n → Option (Entry D × JobPc)

/-- The actions: a signal comes, the main thread goes on, the pool does, or a
worker goes on inside `parse_file`. `chosen` is the number `open` finds. -/
inductive Act (D : Directory) (n : Nat) where
  | raise
  | list (chosen : Option Int)
  | pool (a : Thread.Act n 1 Task Empty (Entry D))
  | job (w : Fin n)

variable {D : Directory} {n : Nat}

/-- The path `open` is given for an input file. -/
def Directory.inPath (D : Directory) (f : Entry D) : Option Path :=
  D.realpath (directoryName D.inDirName f.1)

/-- The path of an output file. -/
def Directory.outPath (D : Directory) (f : Entry D) : Path := solvedPath D.fullDir f.1

/-- The environment of a file. -/
def Directory.envOf (D : Directory) (f : Entry D) : Env := D.env f.1

/-- What an input file holds. -/
def Directory.content (D : Directory) (f : Entry D) : List Byte :=
  match D.inPath f with
  | none => []
  | some path => D.files path

namespace Process

/-- `open`: the number that is returned, and the new entry of the table. -/
def openFile (s : Process D n) (file : OpenFile D) (chosen : Option Int) : Option (Reply × Process D n) :=
  match chosen with
  | none => some (.opened ERROR, s)
  | some fileD =>
    if 0 ≤ fileD ∧ (s.fds fileD).isNone then
      some (.opened fileD, { s with fds := Function.update s.fds fileD (some file) })
    else none

/-- `read`, for file `f`. -/
def readFile (s : Process D n) (f : Entry D) (fileD : Int) (len : Nat) : Reply × Process D n :=
  match s.fds fileD with
  | none => (.data (.error (.other 9)), s)
  | some file =>
    let tape := s.tape f
    let r := sysRead (D.envOf f).toInputs ⟨(s.files file.path).drop file.offset, tape.nread, tape.nalloc⟩ len
    let offset := match r.1 with
      | .ok bs => file.offset + bs.length
      | .error _ => file.offset
    (.data r.1, { s with
      fds := Function.update s.fds fileD (some { file with offset := offset })
      tape := Function.update s.tape f { tape with nread := r.2.nread } })

/-- `write`, for file `f`: the bytes that are accepted go to the end of the
file that is open under the number. -/
def writeFile (s : Process D n) (f : Entry D) (fileD : Int) (bytes : List Byte) : Reply × Process D n :=
  match s.fds fileD with
  | none => (.accepted none, s)
  | some file =>
    if file.append = false then (.accepted none, s)
    else
      let tape := s.tape f
      let r := sysWrite (D.envOf f).writes tape.output bytes
      let put := match r.1 with
        | some k => bytes.take k
        | none => []
      (.accepted r.1, { s with
        files := Function.update s.files file.path (s.files file.path ++ put)
        tape := Function.update s.tape f { tape with output := r.2 } })

/-- One call to the system, for file `f`. -/
def serve (s : Process D n) (f : Entry D) (q : Request) (chosen : Option Int) : Option (Reply × Process D n) :=
  match q with
  | .openIn => match D.inPath f with
    | none => s.openFile ⟨[], 0, false, some f⟩ none
    | some path => s.openFile ⟨path, 0, false, some f⟩ chosen
  | .openOut => s.openFile ⟨D.outPath f, 0, true, some f⟩ chosen
  | .alloc b =>
    let tape := s.tape f
    some (.block ((D.envOf f).calloc b tape.nalloc),
      { s with tape := Function.update s.tape f { tape with nalloc := tape.nalloc + 1 } })
  | .read fileD len => some (s.readFile f fileD len)
  | .write fileD bytes => some (s.writeFile f fileD bytes)
  | .close fileD =>
    let tape := s.tape f
    some (.done, { s with
      fds := Function.update s.fds fileD none
      tape := Function.update s.tape f
        { tape with output := { tape.output with log := tape.output.log ++ [.closed] } } })
  | .solve => some (.done, s)
  | .store args => some (.done, { s with args := Function.update s.args f (some args) })
  | .args => some (.args (s.args f), s)
  | .free => some (.done, { s with args := Function.update s.args f none })

/-- The job `directory_parse` hands over. -/
def fileJob (f : Entry D) : Job Task Empty (Entry D) := ⟨some .parseFile, none, some f⟩

/-- What the pool may do now: `threadpool_destroy` is called after
`directory_parse` has returned, and a worker comes back from `parse_file` when
that has. -/
def allows (s : Process D n) : Thread.Act n 1 Task Empty (Entry D) → Bool
  | .enter _ _ => false
  | .shutdown => false
  | .destroy => match s.lister with
    | .ended => true
    | _ => false
  | .ret w => match s.jobs w with
    | some (_, .finished) => true
    | some _ => false
    | none => true
  | _ => true

/-- The jobs after an action of the pool. -/
def started (s : Process D n) : Thread.Act n 1 Task Empty (Entry D) → Fin n → Option (Entry D × JobPc)
  | .invoke w => match s.pool.workers w with
    | .unlocked locals => match locals.task, locals.arg with
      | some _, some f => Function.update s.jobs w (some (f, .entered))
      | _, _ => s.jobs
    | _ => s.jobs
  | .ret w => Function.update s.jobs w none
  | _ => s.jobs

/-- One action. -/
def step (s : Process D n) : Act D n → Option (Process D n)
  | .raise => some { s with flag := true }
  | .list chosen => match s.lister with
    | .next => match s.todo with
      | [] => if s.flag then some { s with lister := .ended } else some s
      | f :: rest => some { s with
          todo := rest
          lister := if f.1.take 1 = [DOT] then .next else .preparing f .opening }
    | .preparing f pc => match prepare.request pc with
      | some q => (s.serve f q chosen).map fun r => { r.2 with lister := .preparing f (prepare.receive pc r.1) }
      | none => match pc with
        | .ready => some { s with lister := .adding f }
        | _ => some { s with lister := .ended }
    | .adding f =>
      (Thread.step s.pool (.enter mainThread (fileJob f))).map fun pool => { s with pool := pool, lister := .added }
    | .added => match s.pool.callers mainThread with
      | .idle => some { s with lister := .next }
      | _ => none
    | .ended => none
  | .pool a =>
    if s.allows a then (Thread.step s.pool a).map fun pool => { s with pool := pool, jobs := s.started a }
    else none
  | .job w => match s.jobs w with
    | none => none
    | some (f, pc) => match JobPc.request pc with
      | none => none
      | some q => (s.serve f q none).map fun r =>
          { r.2 with jobs := Function.update s.jobs w (some (f, JobPc.receive (D.envOf f).target pc r.1)) }

end Process

/-- What an action does, with its guard. -/
inductive Stepped (s : Process D n) : Act D n → Process D n → Prop where
  | raise : Stepped s .raise { s with flag := true }
  | ends (chosen : Option Int) (next : s.lister = .next) (nothing : s.todo = []) (raised : s.flag = true) :
      Stepped s (.list chosen) { s with lister := .ended }
  | waits (chosen : Option Int) (next : s.lister = .next) (nothing : s.todo = []) (calm : s.flag = false) :
      Stepped s (.list chosen) s
  | skips (chosen : Option Int) (f : Entry D) (rest : List (Entry D)) (next : s.lister = .next)
      (first : s.todo = f :: rest) (dot : f.1.take 1 = [DOT]) :
      Stepped s (.list chosen) { s with todo := rest, lister := .next }
  | takes (chosen : Option Int) (f : Entry D) (rest : List (Entry D)) (next : s.lister = .next)
      (first : s.todo = f :: rest) (named : f.1.take 1 ≠ [DOT]) :
      Stepped s (.list chosen) { s with todo := rest, lister := .preparing f .opening }
  | prepares (chosen : Option Int) (f : Entry D) (pc : PreparePc) (q : Request) (a : Reply) (u : Process D n)
      (at_f : s.lister = .preparing f pc) (asks : prepare.request pc = some q)
      (served : s.serve f q chosen = some (a, u)) :
      Stepped s (.list chosen) { u with lister := .preparing f (prepare.receive pc a) }
  | prepared (chosen : Option Int) (f : Entry D) (at_f : s.lister = .preparing f .ready) :
      Stepped s (.list chosen) { s with lister := .adding f }
  | fails (chosen : Option Int) (f : Entry D) (pc : PreparePc) (at_f : s.lister = .preparing f pc)
      (silent : prepare.request pc = none) : Stepped s (.list chosen) { s with lister := .ended }
  | adds (chosen : Option Int) (f : Entry D) (pool : FilePool D n) (at_f : s.lister = .adding f)
      (entered : Thread.step s.pool (.enter mainThread (Process.fileJob f)) = some pool) :
      Stepped s (.list chosen) { s with pool := pool, lister := .added }
  | added (chosen : Option Int) (at_added : s.lister = .added) :
      Stepped s (.list chosen) { s with lister := .next }
  | pools (a : Thread.Act n 1 Task Empty (Entry D)) (pool : FilePool D n) (allowed : s.allows a = true)
      (stepped : Thread.step s.pool a = some pool) :
      Stepped s (.pool a) { s with pool := pool, jobs := s.started a }
  | parses (w : Fin n) (f : Entry D) (pc : JobPc) (q : Request) (a : Reply) (u : Process D n)
      (at_w : s.jobs w = some (f, pc)) (asks : JobPc.request pc = some q)
      (served : s.serve f q none = some (a, u)) :
      Stepped s (.job w)
        { u with jobs := Function.update s.jobs w (some (f, JobPc.receive (D.envOf f).target pc a)) }

/-- **What a step can do.** -/
theorem step_cases {s t : Process D n} {l : Act D n} (went : s.step l = some t) : Stepped s l t := by
  cases l with
  | raise =>
    cases went
    exact .raise
  | list chosen =>
    unfold Process.step at went
    dsimp only at went
    split at went
    · rename_i next
      split at went
      · rename_i nothing
        split at went
        · rename_i raised
          cases went
          exact .ends chosen next nothing raised
        · rename_i calm
          cases went
          exact .waits chosen next nothing (Bool.eq_false_of_not_eq_true calm)
      · rename_i f rest first
        cases went
        split
        · rename_i dot
          exact .skips chosen f rest next first dot
        · rename_i named
          exact .takes chosen f rest next first named
    · rename_i f pc at_f
      split at went
      · rename_i q asks
        obtain ⟨⟨a, u⟩, served, rfl⟩ := Option.map_eq_some_iff.mp went
        exact .prepares chosen f pc q a u at_f asks served
      · rename_i silent
        split at went
        · cases went
          exact .prepared chosen f at_f
        · cases went
          exact .fails chosen f _ at_f silent
    · rename_i f at_f
      obtain ⟨pool, entered, rfl⟩ := Option.map_eq_some_iff.mp went
      exact .adds chosen f pool at_f entered
    · rename_i at_added
      split at went
      · cases went
        exact .added chosen at_added
      · cases went
    · cases went
  | pool a =>
    unfold Process.step at went
    dsimp only at went
    split at went
    · rename_i allowed
      obtain ⟨pool, stepped, rfl⟩ := Option.map_eq_some_iff.mp went
      exact .pools a pool allowed stepped
    · cases went
  | job w =>
    unfold Process.step at went
    dsimp only at went
    split at went
    · cases went
    · rename_i f pc at_w
      split at went
      · cases went
      · rename_i q asks
        obtain ⟨⟨a, u⟩, served, rfl⟩ := Option.map_eq_some_iff.mp went
        exact .parses w f pc q a u at_w asks served

/-- The process before `directory_parse`. -/
def Process.start (D : Directory) (n : Nat) : Process D n where
  pool := Thread.threadpoolCreate n 1 Task Empty (Entry D)
  files := D.files
  fds fileD := if fileD ∈ D.opened then some ⟨[], 0, false, none⟩ else none
  args _ := none
  tape _ := ⟨0, 0, ⟨0, []⟩⟩
  todo := D.names.attach
  flag := false
  lister := .next
  jobs _ := none

/-- The machine. -/
def fileLts (D : Directory) (n : Nat) : Lts (Process D n) (Act D n) where
  init := Process.start D n
  step := Process.step

/-- One input file on its own: the calls succeed, and the files get the
numbers 3 and 4. -/
def processAlone (env : Env) (file : List Byte) : World :=
  let block := calloc env.toInputs .fileHeader (World.start file).input
  let w : World := ⟨block.2, (World.start file).output⟩
  if block.1 = false then w
  else
    let check := checkHeader env.toInputs w.input
    let w : World := { w with input := check.input }
    if check.err ≠ SUCCESS then w
    else
      let created := createFile env w 0 4 check.header
      parseFile env created.2 (some ⟨3, created.1, narrow 32 check.numEquations⟩)

end NetCalc.File
