import NetCalc.File.Ownership

/-!
# One file, served alone

A file's `Share` of the process is what its calls read and change: what it has
(`Hands`), its input and its output. `shareServer` answers a call from the share
only, and does not let a file touch a descriptor that is not its own.

Whatever numbers `open` finds, `prepare` ends with a share from which
`parse_file` does what is left of `processAlone` (`prepare_ends`), and `parse`
ends with the output of `processAlone` (`parse_ends`).
-/

namespace NetCalc.File

set_option autoImplicit false
open NetCalc.Lib NetCalc.Net

/-- A file's share of the process. -/
structure Share extends Hands where
  world : World

/-- A share with another world. -/
def Share.inWorld (x : Share) (w : World) : Share := { x with world := w }

@[simp] theorem Share.inWorld_world (x : Share) (w : World) : (x.inWorld w).world = w := rfl

@[simp] theorem Share.inWorld_inD (x : Share) (w : World) : (x.inWorld w).inD = x.inD := rfl

/-- How a call is answered. The numbers 0, 1 and 2 are taken. -/
inductive Served (env : Env) (x : Share) : Request → Reply → Share → Prop where
  | openIn (fileD : Int) (high : 2 < fileD) : Served env x .openIn (.opened fileD) { x with inD := some fileD }
  | openOut (fileD : Int) (high : 2 < fileD) :
      Served env x .openOut (.opened fileD) { x with outD := some fileD }
  | noIn : Served env x .openIn (.opened ERROR) x
  | noOut : Served env x .openOut (.opened ERROR) x
  | alloc (b : Block) : Served env x (.alloc b) (.block (NetCalc.calloc env.toInputs b x.world.input).1)
      (x.inWorld { x.world with input := (NetCalc.calloc env.toInputs b x.world.input).2 })
  | read (fileD : Int) (len : Nat) (own : x.inD = some fileD) :
      Served env x (.read fileD len) (.data (sysRead env.toInputs x.world.input len).1)
        (x.inWorld { x.world with input := (sysRead env.toInputs x.world.input len).2 })
  | unread (len : Nat) (errno : Errno) (closed : x.inD ≠ some ERROR) :
      Served env x (.read ERROR len) (.data (.error errno)) x
  | write (fileD : Int) (bytes : List Byte) (own : x.outD = some fileD) :
      Served env x (.write fileD bytes) (.accepted (sysWrite env.writes x.world.output bytes).1)
        (x.inWorld { x.world with output := (sysWrite env.writes x.world.output bytes).2 })
  | close (fileD : Int) (own : x.outD = some fileD) :
      Served env x (.close fileD) .done { x with world := closeSocket x.world, outD := none }
  | store (args : ParseArgs) : Served env x (.store args) .done { x with args := some args }
  | solve : Served env x .solve .done x
  | args : Served env x .args (.args x.args) x
  | free : Served env x .free .done { x with args := none }

/-- The system, as far as one file sees it. -/
def shareServer (env : Env) : Server Request Reply Share := ⟨fun x => SafeCall x.toHands, Served env⟩

/-! ## Single calls -/

section Calls
variable {P : Type} {C : Client P Request Reply} {env : Env} {post : P → Share → Prop} {p : P} {x : Share}
  {fileD : Int}

theorem ends_alloc {b : Block} (asks : C.request p = some (.alloc b))
    (rest : Ends C (shareServer env) post (C.receive p (.block (calloc env.toInputs b x.world.input).1))
      (x.inWorld { x.world with input := (calloc env.toInputs b x.world.input).2 })) :
    Ends C (shareServer env) post p x := by
  apply Ends.answered asks trivial _ rest
  intro a' x' served
  cases served
  exact ⟨rfl, rfl⟩

theorem ends_sysRead {len : Nat} (own : x.inD = some fileD) (asks : C.request p = some (.read fileD len))
    (rest : Ends C (shareServer env) post (C.receive p (.data (sysRead env.toInputs x.world.input len).1))
      (x.inWorld { x.world with input := (sysRead env.toInputs x.world.input len).2 })) :
    Ends C (shareServer env) post p x := by
  apply Ends.answered asks (show SafeCall x.toHands (.read fileD len) from .inl own) _ rest
  intro a' x' served
  cases served with
  | read _ _ own => exact ⟨rfl, rfl⟩
  | unread _ errno closed => exact absurd own closed

theorem ends_sysWrite {bytes : List Byte} (own : x.outD = some fileD)
    (asks : C.request p = some (.write fileD bytes))
    (rest : Ends C (shareServer env) post (C.receive p (.accepted (sysWrite env.writes x.world.output bytes).1))
      (x.inWorld { x.world with output := (sysWrite env.writes x.world.output bytes).2 })) :
    Ends C (shareServer env) post p x := by
  apply Ends.answered asks own _ rest
  intro a' x' served
  cases served
  exact ⟨rfl, rfl⟩

/-! ## The loops of `safe_read` and `safe_write` -/

/-- The points of a client that make up a `safe_read`: `on` is the top of the
loop, `point` its call, and `after` what follows. -/
structure Reads (C : Client P Request Reply) (fileD : Int) (len : Nat) (on point : List Byte → Nat → Int → P)
    (after : Nat → List Byte → P) : Prop where
  top : ∀ buf total last, on buf total last =
    if readMore last len then point buf total last else after total buf
  asks : ∀ buf total last, C.request (point buf total last) = some (.read fileD (len - total))
  data : ∀ buf total last bs, C.receive (point buf total last) (.data (.ok bs)) =
    if bs = [] then after 0 buf else on (patch buf total bs) (total + bs.length) bs.length
  error : ∀ buf total last errno, C.receive (point buf total last) (.data (.error errno)) =
    after (readError errno) buf

/-- The points that make up a `safe_write`. -/
structure Writes (C : Client P Request Reply) (fileD : Int) (bytes : List Byte) (on point after : Nat → P) :
    Prop where
  top : ∀ total, on total = if total < bytes.length then point total else after total
  asks : ∀ total, C.request (point total) = some (.write fileD (bytes.drop total))
  refused : ∀ total, C.receive (point total) (.accepted none) = after SIZE_ERROR
  accepted : ∀ total k, C.receive (point total) (.accepted (some k)) =
    if total = bytes.length then after total else on (total + k)

/-- **`safe_read`, call by call.** -/
theorem Reads.ends {len : Nat} {on point : List Byte → Nat → Int → P} {after : Nat → List Byte → P}
    (reads : Reads C fileD len on point after) (own : x.inD = some fileD) (buf : List Byte) (total : Nat)
    (last : Int) (rest : Ends C (shareServer env) post
      (after (safeReadLoop env.toInputs len x.world.input buf total last).1
        (safeReadLoop env.toInputs len x.world.input buf total last).2.1)
      (x.inWorld { x.world with
        input := (safeReadLoop env.toInputs len x.world.input buf total last).2.2 })) :
    Ends C (shareServer env) post (on buf total last) x := by
  obtain ⟨w, world⟩ : ∃ w, x.world = w := ⟨_, rfl⟩
  obtain ⟨i, input⟩ : ∃ i, w.input = i := ⟨_, rfl⟩
  rw [world, input] at rest
  fun_induction safeReadLoop env.toInputs len i buf total last generalizing x w with
  | case1 i buf total last more i' found =>
    rw [reads.top, if_pos more]
    apply ends_sysRead own (reads.asks ..)
    rw [world, input, found, reads.data, if_pos rfl]
    exact rest
  | case2 i buf total last more bs i' found some_came ih =>
    rw [reads.top, if_pos more]
    apply ends_sysRead own (reads.asks ..)
    rw [world, input, found, reads.data, if_neg some_came]
    exact ih (x := x.inWorld { w with input := i' }) own { w with input := i' } rfl rest rfl
  | case3 i buf total last more errno i' found =>
    rw [reads.top, if_pos more]
    apply ends_sysRead own (reads.asks ..)
    rw [world, input, found, reads.error]
    exact rest
  | case4 i buf total last stop =>
    rw [reads.top, if_neg stop]
    subst world input
    exact rest

/-- **`safe_write`, call by call.** -/
theorem Writes.ends {bytes : List Byte} {on point after : Nat → P} (writes : Writes C fileD bytes on point after)
    (own : x.outD = some fileD) (total : Nat)
    (rest : Ends C (shareServer env) post (after (safeWriteLoop env.writes bytes total x.world.output).1)
      (x.inWorld { x.world with output := (safeWriteLoop env.writes bytes total x.world.output).2 })) :
    Ends C (shareServer env) post (on total) x := by
  obtain ⟨w, world⟩ : ∃ w, x.world = w := ⟨_, rfl⟩
  obtain ⟨o, output⟩ : ∃ o, w.output = o := ⟨_, rfl⟩
  rw [world, output] at rest
  fun_induction safeWriteLoop env.writes bytes total o generalizing x w with
  | case1 total o more o' found =>
    rw [writes.top, if_pos more]
    apply ends_sysWrite own (writes.asks ..)
    rw [world, output, found, writes.refused]
    exact rest
  | case2 => omega
  | case3 total o more k o' found not_all ih =>
    rw [writes.top, if_pos more]
    apply ends_sysWrite own (writes.asks ..)
    rw [world, output, found, writes.accepted, if_neg not_all]
    exact ih (x := x.inWorld { w with output := o' }) own { w with output := o' } rfl rest rfl
  | case4 total o stop =>
    rw [writes.top, if_neg stop]
    subst world output
    exact rest

end Calls

/-! ## `directory_parse`, for one name -/

section Prepare
variable {env : Env} {file : List Byte} {x : Share} {fileD numEquations fileDes : Int}

/-- A share from which `parse_file` does what is left to do for a file alone. -/
structure Ready (env : Env) (file : List Byte) (x : Share) (args : ParseArgs) : Prop
    extends x.Both args.inFileStream args.outFileStream where
  block : x.args = some args
  rest : parseFile env x.world (some args) = processAlone env file

/-- Before a file is opened. -/
def Share.fresh (file : List Byte) : Share := ⟨⟨none, none, none⟩, World.start file⟩

/-- What `directory_parse` leaves when it has something for the pool. -/
def Prepared (env : Env) (file : List Byte) (pc : PreparePc) (x : Share) : Prop :=
  pc = .ready → ∃ args, Ready env file x args

/-- The file is given up. -/
theorem ends_failed : Ends prepare (shareServer env) (Prepared env file) .failed x :=
  .done rfl fun impossible => by cases impossible

theorem checking (fileD : Int) :
    Reads prepare fileD HEADER_SIZE (PreparePc.check fileD) (.checking fileD) (PreparePc.checked fileD) where
  top _ _ _ := rfl
  asks _ _ _ := rfl
  data _ _ _ _ := rfl
  error _ _ _ _ := rfl

theorem writing (fileD numEquations fileDes : Int) (bytes : List Byte) :
    Writes prepare fileDes bytes (PreparePc.write fileD numEquations fileDes bytes)
      (.writing fileD numEquations fileDes bytes) (fun _ => PreparePc.created fileD numEquations fileDes) where
  top _ := rfl
  asks _ := rfl
  refused _ := rfl
  accepted _ _ := rfl

/-- Which numbers the descriptors have does not matter, if they are above the
standard streams. -/
theorem parseFile_numbers {w : World} (in_high : 2 < fileD) (out_high : 2 < fileDes) (n : Int) :
    parseFile env w (some ⟨fileD, fileDes, n⟩) = parseFile env w (some ⟨3, 4, n⟩) := by
  have in_ok : ¬fileD < 2 := by omega
  have out_ok : ¬fileDes < 2 := by omega
  simp [parseFile, processEquations, safeClose, in_ok, out_ok, out_high]

/-- After the header: the output file is opened, and the block is filled. -/
theorem ends_creating {header : FileHeader} (own : x.inD = some fileD) (in_high : 2 < fileD)
    (unopened : x.outD = none)
    (rest : parseFile env (createFile env x.world 0 4 header).2 (some ⟨3, 4, narrow 32 numEquations⟩) =
      processAlone env file) :
    Ends prepare (shareServer env) (Prepared env file) (.creating fileD numEquations header) x := by
  apply Ends.step (q := .openOut) rfl unopened
  intro a x' served
  cases served with
  | noOut =>
    have refused : prepare.receive (.creating fileD numEquations header) (.opened ERROR) = .failed := rfl
    rw [refused]
    exact ends_failed
  | openOut fileDes out_high =>
    have opened : fileDes ≠ ERROR := by
      unfold ERROR
      omega
    have goes_on : prepare.receive (.creating fileD numEquations header) (.opened fileDes) =
        PreparePc.write fileD numEquations fileDes
          (({ header with isSolved := 1 } : FileHeader).toBytes.take HEADER_SIZE) 0 := if_neg opened
    rw [goes_on]
    apply (writing fileD numEquations fileDes _).ends rfl
    have created : PreparePc.created fileD numEquations fileDes = .storing fileD fileDes numEquations :=
      if_neg (by omega)
    rw [created]
    apply Ends.answered (a := .done) rfl trivial (fun a' x'' served => by cases served; exact ⟨rfl, rfl⟩)
    apply Ends.done rfl
    intro _
    refine ⟨⟨fileD, fileDes, narrow 32 numEquations⟩, ⟨own, rfl, in_high, out_high⟩, rfl, ?_⟩
    rw [parseFile_numbers in_high out_high]
    exact rest

/-- The header check. -/
theorem ends_check (own : x.inD = some fileD) (in_high : 2 < fileD) (unopened : x.outD = none)
    (rest : (checkHeader env.toInputs x.world.input).err = SUCCESS → parseFile env
      (createFile env { x.world with input := (checkHeader env.toInputs x.world.input).input } 0 4
        (checkHeader env.toInputs x.world.input).header).2
      (some ⟨3, 4, narrow 32 (checkHeader env.toInputs x.world.input).numEquations⟩) = processAlone env file) :
    Ends prepare (shareServer env) (Prepared env file)
      (PreparePc.check fileD (zeroed HEADER_SIZE) 0 0) x := by
  apply (checking fileD).ends own
  obtain ⟨r, read⟩ : ∃ r, safeReadLoop env.toInputs HEADER_SIZE x.world.input (zeroed HEADER_SIZE) 0 0 = r :=
    ⟨_, rfl⟩
  rw [read]
  unfold PreparePc.checked
  dsimp only
  split
  · exact ends_failed
  rename_i whole
  split
  · exact ends_failed
  rename_i unsolved
  split
  · exact ends_failed
  rename_i announced
  refine ends_creating (x := x.inWorld _) own in_high unopened ?_
  have accepted : checkHeader env.toInputs x.world.input =
      ⟨SUCCESS, (FileHeader.ofBytes r.2.1).numEquations.toInt, FileHeader.ofBytes r.2.1, r.2.2⟩ := by
    unfold checkHeader safeRead
    dsimp only
    rw [read, if_neg whole, if_neg unsolved, if_neg announced]
  rw [accepted] at rest
  exact rest rfl

/-- Nothing can be read where `open` failed. -/
theorem ends_unopened (closed : x.inD = none) : Ends prepare (shareServer env) (Prepared env file)
    (PreparePc.check ERROR (zeroed HEADER_SIZE) 0 0) x := by
  have more : readMore 0 HEADER_SIZE = true := (readMore_iff (by decide)).mpr (by decide)
  have harmless : SafeCall x.toHands (.read ERROR (HEADER_SIZE - 0)) := Or.inr rfl
  rw [(checking ERROR).top, if_pos more]
  apply Ends.step ((checking ERROR).asks ..) harmless
  intro a x' served
  cases served with
  | read _ _ own =>
    rw [closed] at own
    cases own
  | unread _ errno _ =>
    rw [(checking ERROR).error]
    have failed : PreparePc.checked ERROR (readError errno) (zeroed HEADER_SIZE) = .failed :=
      if_pos (readError_ne (by decide) (by decide) errno)
    rw [failed]
    exact ends_failed

/-- A file on its own whose header is accepted. -/
theorem processAlone_accepted (there : (calloc env.toInputs .fileHeader (World.start file).input).1 = true)
    (accepted : (checkHeader env.toInputs (calloc env.toInputs .fileHeader (World.start file).input).2).err =
      SUCCESS) :
    let check := checkHeader env.toInputs (calloc env.toInputs .fileHeader (World.start file).input).2
    processAlone env file = parseFile env
      (createFile env ⟨check.input, (World.start file).output⟩ 0 4 check.header).2
      (some ⟨3, 4, narrow 32 check.numEquations⟩) := by
  intro check
  have opened : (createFile env ⟨check.input, (World.start file).output⟩ 0 4 check.header).1 = 4 := rfl
  unfold processAlone
  dsimp only
  rw [if_neg (by rw [there]; simp), if_neg (not_not.mpr accepted), opened]

/-- The header's block. -/
theorem ends_allocHeader (next : (calloc env.toInputs .fileHeader x.world.input).1 = true →
      Ends prepare (shareServer env) (Prepared env file) (PreparePc.check fileD (zeroed HEADER_SIZE) 0 0)
        (x.inWorld { x.world with input := (calloc env.toInputs .fileHeader x.world.input).2 })) :
    Ends prepare (shareServer env) (Prepared env file) (.allocHeader fileD) x := by
  apply ends_alloc rfl
  cases there : (calloc env.toInputs .fileHeader x.world.input).1 with
  | false => exact ends_failed
  | true => exact next there

/-- **`directory_parse` for one name.** It ends, and leaves for the pool what
is left of the file's own processing. -/
theorem prepare_ends (env : Env) (file : List Byte) :
    Ends prepare (shareServer env) (Prepared env file) .opening (Share.fresh file) := by
  apply Ends.step (q := .openIn) rfl rfl
  intro a x served
  cases served with
  | noIn => exact ends_allocHeader fun _ => ends_unopened rfl
  | openIn fileD in_high =>
    apply ends_allocHeader
    intro there
    apply ends_check rfl in_high rfl
    intro accepted
    exact (processAlone_accepted there accepted).symm

end Prepare

/-! ## `parse_file` -/

section Parse
variable {env : Env} {final : World} {x : Share} {args : ParseArgs}

/-- What `parse_file` leaves. -/
def Solved (final : World) (_ : JobPc) (x : Share) : Prop := x.world = final

/-- The end of `parse_file`. -/
theorem ends_freeing (solved : x.world = final) :
    Ends (parse env.target) (shareServer env) (Solved final) .freeing x := by
  apply Ends.answered (a := .done) rfl trivial (fun a' x' served => by cases served; exact ⟨rfl, rfl⟩)
  exact Ends.done rfl solved

/-- The end of `process_equations`. -/
theorem ends_close (own : x.outD = some args.outFileStream) (high : 2 < args.outFileStream)
    (closed : closeSocket x.world = final) :
    Ends (parse env.target) (shareServer env) (Solved final) (JobPc.close args) x := by
  have closes : JobPc.close args = .closing args := if_pos high
  rw [closes]
  apply Ends.answered (a := .done) rfl own (fun a' x' served => by cases served; exact ⟨rfl, rfl⟩)
  exact ends_freeing closed

theorem parse_reads (t : Target) (args : ParseArgs) :
    Reads (parse t) args.inFileStream EQUATION_SIZE (JobPc.safeRead args) (.reading args) (JobPc.read args) where
  top _ _ _ := rfl
  asks _ _ _ := rfl
  data _ _ _ _ := rfl
  error _ _ _ _ := rfl

theorem parse_writes (t : Target) (args : ParseArgs) (buf bytes : List Byte) :
    Writes (parse t) args.outFileStream bytes (JobPc.write args buf bytes) (.writing args buf bytes)
      (JobPc.written args buf) where
  top _ := rfl
  asks _ := rfl
  refused _ := rfl
  accepted _ _ := rfl

/-- `write_file`, call by call. -/
theorem ends_writeFile (own : x.outD = some args.outFileStream) {buf : List Byte} {calcResult : Calc}
    (rest : Ends (parse env.target) (shareServer env) (Solved final)
      (JobPc.written args buf (writeFile env x.world calcResult (Equation.ofBytes buf)).1)
      (x.inWorld (writeFile env x.world calcResult (Equation.ofBytes buf)).2)) :
    Ends (parse env.target) (shareServer env) (Solved final) (.allocSolution args buf calcResult) x := by
  unfold writeFile at rest
  dsimp only at rest
  apply ends_alloc rfl
  cases there : (calloc env.toInputs .solution x.world.input).1 with
  | false =>
    rw [if_pos there] at rest
    exact rest
  | true =>
    rw [if_neg (by rw [there]; simp)] at rest
    have goes_on : (parse env.target).receive (.allocSolution args buf calcResult) (.block true) =
        JobPc.write args buf ((solvedEquation calcResult (Equation.ofBytes buf)).toBytes.take SOLUTION_SIZE) 0 :=
      rfl
    rw [goes_on]
    apply (parse_writes env.target args buf _).ends
      (x := x.inWorld ⟨(calloc env.toInputs .solution x.world.input).2, x.world.output⟩) own 0
    exact rest

/-- **One pass**, call by call. -/
theorem ends_pass (own_in : x.inD = some args.inFileStream) (own_out : x.outD = some args.outFileStream)
    (some_announced : 0 < args.numEquations) {buf : List Byte} (err : Int)
    (stops : (processPass env x.world buf err).goEnd = true →
      Ends (parse env.target) (shareServer env) (Solved final) (JobPc.close args)
        (x.inWorld (processPass env x.world buf err).world))
    (goes_on : ¬(processPass env x.world buf err).goEnd = true →
      Ends (parse env.target) (shareServer env) (Solved final)
        (JobPc.loop args (processPass env x.world buf err).buf)
        (x.inWorld (processPass env x.world buf err).world)) :
    Ends (parse env.target) (shareServer env) (Solved final) (JobPc.loop args buf) x := by
  have more : JobPc.loop args buf = .allocCalc args buf := if_pos some_announced
  unfold processPass at stops goes_on
  dsimp only at stops goes_on
  rw [more]
  apply ends_alloc rfl
  cases there : (calloc env.toInputs .calcVar x.world.input).1 with
  | false =>
    rw [if_pos there] at stops
    exact stops rfl
  | true =>
    have allocated : ¬(calloc env.toInputs .calcVar x.world.input).1 = false := by
      rw [there]
      simp
    rw [if_neg allocated] at stops goes_on
    apply (parse_reads env.target args).ends
      (x := x.inWorld ⟨(calloc env.toInputs .calcVar x.world.input).2, x.world.output⟩) own_in buf 0 0
    obtain ⟨r, read⟩ : ∃ r, NetCalc.safeRead env.toInputs (calloc env.toInputs .calcVar x.world.input).2 buf
      EQUATION_SIZE = r := ⟨_, rfl⟩
    rw [read] at stops goes_on
    unfold NetCalc.safeRead at read
    dsimp only [Share.inWorld_world]
    rw [read]
    unfold JobPc.read
    split
    · rename_i nothing
      rw [if_pos nothing] at stops
      exact stops rfl
    rename_i something
    rw [if_neg something] at stops goes_on
    split
    · rename_i short
      rw [if_pos short] at stops
      exact stops rfl
    rename_i whole
    rw [if_neg whole] at stops goes_on
    apply Ends.answered (a := .done) rfl trivial (fun a' x' served => by cases served; exact ⟨rfl, rfl⟩)
    have solves : (parse env.target).receive (.solving args r.2.1) .done = JobPc.solve env.target args r.2.1 := rfl
    rw [solves]
    unfold JobPc.solve
    dsimp only
    split
    · rename_i unknown
      rw [if_pos unknown] at stops
      exact stops rfl
    rename_i known
    rw [if_neg known] at stops goes_on
    split
    · rename_i unsolved
      rw [if_pos unsolved] at stops
      exact stops rfl
    rename_i solved
    rw [if_neg solved] at stops goes_on
    apply ends_writeFile (x := x.inWorld ⟨r.2.2, x.world.output⟩) own_out
    unfold JobPc.written
    split
    · rename_i none_written
      exact stops (decide_eq_true none_written)
    · rename_i some_written
      exact goes_on (by simpa using some_written)

/-- **The loop of `process_equations`**, call by call. -/
theorem ends_loop (own_in : x.inD = some args.inFileStream) (own_out : x.outD = some args.outFileStream)
    (high : 2 < args.outFileStream) (buf : List Byte) (err : Int)
    (closed : closeSocket (processLoop env x.world buf 0 args.numEquations err).2 = final) :
    Ends (parse env.target) (shareServer env) (Solved final) (JobPc.loop args buf) x := by
  obtain ⟨w, world⟩ : ∃ w, x.world = w := ⟨_, rfl⟩
  rw [world] at closed
  fun_induction processLoop env w buf 0 args.numEquations err generalizing x with
  | case1 w buf err more stops =>
    subst world
    apply ends_pass own_in own_out more err
    · exact fun _ => ends_close own_out high closed
    · exact fun goes_on => absurd stops goes_on
  | case2 w buf err more goes_on ih =>
    subst world
    apply ends_pass own_in own_out more err
    · exact fun stops => absurd stops goes_on
    · exact fun _ => ih (x := x.inWorld _) own_in own_out closed rfl
  | case3 w buf err stop =>
    subst world
    have ended : JobPc.loop args buf = JobPc.close args := if_neg stop
    rw [ended]
    exact ends_close own_out high closed

/-- **`parse_file`**, call by call. -/
theorem parse_ends {file : List Byte} (ready : Ready env file x args) :
    Ends (parse env.target) (shareServer env) (Solved (processAlone env file)) .entered x := by
  have in_ok : ¬args.inFileStream < 2 := by
    have high := ready.in_high
    omega
  have out_ok : ¬args.outFileStream < 2 := by
    have high := ready.out_high
    omega
  have rest := ready.rest
  simp only [parseFile, if_neg in_ok, if_neg out_ok, processEquations, safeClose, if_pos ready.out_high] at rest
  apply Ends.answered (a := .args (some args)) rfl trivial
  · intro a' x' served
    cases served
    rw [ready.block]
    exact ⟨rfl, rfl⟩
  have goes_on : (parse env.target).receive .entered (.args (some args)) = .allocEquation args := by
    have first : (parse env.target).receive .entered (.args (some args)) =
        if args.inFileStream < 2 then .freeing
        else if args.outFileStream < 2 then .freeing else .allocEquation args := rfl
    rw [first, if_neg in_ok, if_neg out_ok]
  rw [goes_on]
  apply ends_alloc rfl
  cases there : (calloc env.toInputs .equation x.world.input).1 with
  | false =>
    rw [if_pos there] at rest
    exact ends_close ready.output ready.out_high rest
  | true =>
    rw [if_neg (by rw [there]; simp)] at rest
    apply ends_loop (x := x.inWorld ⟨(calloc env.toInputs .equation x.world.input).2, x.world.output⟩)
      ready.input ready.output ready.out_high (zeroed EQUATION_SIZE) ERROR
    exact rest

end Parse

end NetCalc.File
