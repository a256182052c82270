import NetCalc.Net.GradeGenerated
import NetCalc.Net.ReceivedFile
import NetCalc.Net.Session

/-!
# The acceptance test of the server (`NetCalcTests.py`, `client.py`)

The test fills a directory with generated files, has the client send each of
them to the server and write what comes back to a second directory, and grades
the two. On connections that transfer what they are asked to, everything that
can go wrong is then in the equations: the test passes exactly when no quotient
and no remainder by zero was drawn, and it raises when one was
(`netcalc_test`).
-/

namespace NetCalc.Client

set_option autoImplicit false
open NetCalc.Lib NetCalc.Net NetCalc.Grader

/-! ## `manage_files` -/

/-- `pathlib.Path(name).suffix`: from the last dot on, which is neither the
first character nor the last. -/
def suffix (name : List Char) : List Char :=
  let ext := (name.reverse.takeWhile (· ≠ '.')).reverse
  let i := name.length - ext.length - 1
  if name.contains '.' ∧ 0 < i ∧ ext ≠ [] then '.' :: ext else []

/-- The client and the server on one connection: `none` if the client raises
before it has sent its message, or the server does not survive it. -/
def session (env : Env) (reads : Nat → ReadAct) (filename : String) (buffer : List Byte) : Option Outcome := do
  let totalMessage ← totalMessage filename buffer
  let w ← handleNewConnection env (World.start totalMessage)
  some (writeIntoDir reads ⟨sent w.output.log, 0⟩ (getNumEquations buffer))

/-- `Client.manage_files` on a listing of the input directory: whether it
raises, and the output directory then. -/
def manageFiles (env : String → Env) (reads : String → Nat → ReadAct) :
    List (String × List Byte) → Dir → Bool × Dir
  | [], outFolder => (false, outFolder)
  | (filename, buffer) :: listing, outFolder =>
    if suffix filename.toList = ['.', 'e', 'q', 'u'] then
      match session (env filename) (reads filename) filename buffer with
      | none => (true, outFolder)
      | some outcome =>
        let outFolder := outcome.file.elim outFolder (outFolder.write filename)
        if outcome.raised then (true, outFolder) else manageFiles env reads listing outFolder
    else manageFiles env reads listing outFolder

/-- A connection transfers what it is asked to, and there is memory. -/
structure Transfers (env : Env) : Prop where
  memory : Allocates env.toInputs
  reads : DeliversAll env.toInputs
  writes : ∀ k, env.writes k = .all

/-- The client's end of it delivers, in chunks, the net header in one. -/
structure Delivers (reads : Nat → ReadAct) : Prop where
  chunks : Chunked reads
  header : (reads 0).upTo netHeaderSize = netHeaderSize

section Session
variable {reads : Nat → ReadAct} {s : Sock}

/-- The loop receives the stream to its end, when that comes before what is
expected. -/
theorem receiveLoop_short (chunks : Chunked reads) {expected received : Nat} {out : List Byte}
    (short : received + s.rx.length ≤ expected) :
    receiveLoop reads expected received s out = ⟨false, some (out ++ s.rx)⟩ := by
  fun_induction receiveLoop reads expected received s out with
  | case1 received s out more s' failed =>
    rw [chunks.recv] at failed
    cases failed
  | case2 received s out more s' delivered =>
    have some_came := chunks.upTo_pos s.nrecv (Nat.zero_lt_of_lt more)
    have none_came : s.rx.take ((reads s.nrecv).upTo expected) = [] := by
      rw [chunks.recv] at delivered
      exact Option.some.inj (congrArg Prod.fst delivered)
    rcases List.take_eq_nil_iff.mp none_came with zero | empty
    · omega
    · rw [empty, List.append_nil]
  | case3 received s out more data s' delivered some_bytes ih =>
    rw [chunks.recv] at delivered
    cases delivered
    have left : received + (s.rx.take ((reads s.nrecv).upTo expected)).length +
        (s.rx.drop ((reads s.nrecv).upTo expected)).length ≤ expected := by
      rw [Nat.add_assoc, ← List.length_append, List.take_append_drop]
      exact short
    rw [ih left, List.append_assoc, List.take_append_drop]
  | case4 received s out stop =>
    have none_left : s.rx = [] := List.length_eq_zero_iff.mp (by omega)
    rw [none_left, List.append_nil]

/-- What follows a net header that names a file is written, if it is not more
than is expected. -/
theorem writeIntoDir_delivered (delivers : Delivers reads) {net rest : List Byte}
    {res : Nat × Nat × Nat × List Byte} {numEquations : Nat} (unpacked : unpack net = some res)
    (named : res.2.1 ≠ 0) (short : rest.length ≤ fileHeaderSize + equationSize * numEquations) :
    writeIntoDir reads ⟨net ++ rest, 0⟩ numEquations = ⟨false, some rest⟩ := by
  have size := unpack_length unpacked
  have delivered : recv reads ⟨net ++ rest, 0⟩ netHeaderSize = (some net, ⟨rest, 1⟩) := by
    rw [delivers.chunks.recv, delivers.header, ← size]
    simp
  rw [writeIntoDir, delivered]
  dsimp only
  rw [unpacked]
  dsimp only
  rw [if_neg named, receiveLoop_short delivers.chunks (by rw [Nat.zero_add]; exact short)]
  rfl

/-- **What a session leaves** is the solved file, up to the first equation that
has no answer. -/
theorem session_leaves {env : Env} {filename : String} {file stream : List Byte} {n : Nat}
    (transfers : Transfers env) (delivers : Delivers reads)
    (characters : ∀ c ∈ filename.toList, 0 < c.toNat ∧ c.toNat < 128)
    (some_name : 1 ≤ filename.length) (short_name : filename.length ≤ 24)
    (width : file.length = HEADER_SIZE) (unsolved : (FileHeader.ofBytes file).isSolved = 0)
    (announced : (FileHeader.ofBytes file).numEquations.toNat = n) (some_equations : 1 ≤ n)
    (counted : n ≤ 2 ^ 31 - 1) (complete : stream.length = EQUATION_SIZE * n) :
    session env reads filename (file ++ stream) = some ⟨false, some (solvedFile env.target n file stream)⟩ := by
  obtain ⟨name, text, length, printable⟩ := ascii_text characters
  have short : name.length ≤ MAX_FILENAME_SIZE := by
    unfold MAX_FILENAME_SIZE
    omega
  have same_count : getNumEquations (file ++ stream) = n := by
    rw [getNumEquations_eq width, announced]
  have message := totalMessage_eq text length short (by omega : getNumEquations (file ++ stream) ≤ 2 ^ 31 - 1)
  have signed : (FileHeader.ofBytes file).numEquations.toInt = n := by
    rw [BitVec.toInt_eq_toNat_of_lt (by omega), announced]
  obtain ⟨w, served, reply⟩ := session_reply transfers.memory transfers.reads transfers.writes printable short
    width unsolved signed some_equations complete
  have unpacked := unpack_reply n n printable short counted
  have fewer : (solvedFile env.target n file stream).length ≤ fileHeaderSize + equationSize * n := by
    have front : (answered (answer env.target) EQUATION_SIZE n stream).length ≤ n := (answered_length ..).1
    have inOrder : AnswersInOrder env.target n stream (answered (answer env.target) EQUATION_SIZE n stream) :=
      .of_front List.prefix_rfl
    rw [solvedFile, List.length_append, List.length_set, width, inOrder.flatten_length]
    exact Nat.add_le_add_left (Nat.mul_le_mul_left 14 front) 27
  unfold session
  rw [message, same_count]
  simp only [Option.bind_eq_bind, Option.bind_some, served, reply]
  exact congrArg some (writeIntoDir_delivered delivers unpacked (by dsimp only; omega) fewer)

/-- **What becomes of any unsolved file.** For every ASCII name of 1 to 24
characters and every file whose equations start behind its header, with counts
below the width: the client writes a file and does not raise. On that file the
grader raises exactly when an equation cannot be solved; it passes the file
exactly when all can and each is solved alike; otherwise it fails it. -/
theorem session_graded (env : Env) (reads : Nat → ReadAct) (filename : String) (file stream : List Byte) (n : Nat)
    (transfers : Transfers env) (delivers : Delivers reads)
    (characters : ∀ c ∈ filename.toList, 0 < c.toNat ∧ c.toNat < 128)
    (some_name : 1 ≤ filename.length) (short_name : filename.length ≤ 24)
    (width : file.length = HEADER_SIZE) (unsolved : (FileHeader.ofBytes file).isSolved = 0)
    (offset : (FileHeader.ofBytes file).offset = 27)
    (announced : (FileHeader.ofBytes file).numEquations.toNat = n) (some_equations : 1 ≤ n)
    (counted : n ≤ 2 ^ 31 - 1) (complete : stream.length = EQUATION_SIZE * n) (counts : CountsBelow n stream) :
    ∃ solved, session env reads filename (file ++ stream) = some ⟨false, some solved⟩ ∧
      (EquGrader.fail (file ++ stream) solved = none ↔ ¬AllSolvable env.target n stream) ∧
      (EquGrader.fail (file ++ stream) solved = some 0 ↔
        AllSolvable env.target n stream ∧ AllAlike env.target n stream) ∧
      (EquGrader.fail (file ++ stream) solved = some 1 ↔
        AllSolvable env.target n stream ∧ ¬AllAlike env.target n stream) :=
  ⟨_, session_leaves transfers delivers characters some_name short_name width unsolved announced some_equations
    counted complete, answers_graded width offset env.target n announced complete counts⟩

/-- The quotient of `-7` by `2`. -/
def minusSevenHalves : Net.Equation := ⟨7, 0, -7, 4, 2⟩

/-- The server rounds it to `-3`, the grader to `-4`: the file fails. -/
theorem session_graded_rounding :
    ∃ solved, session Env.calm (fun _ => .all) "a.equ"
        ((generatedHeader 7 1).toBytes ++ minusSevenHalves.toBytes) =
        some ⟨false, some solved⟩ ∧
      EquGrader.fail ((generatedHeader 7 1).toBytes ++ minusSevenHalves.toBytes) solved = some 1 := by
  have characters : ("a.equ".toList.all fun c => 0 < c.toNat ∧ c.toNat < 128) = true := by decide +kernel
  have fields := FileHeader.ofBytes_toBytes (generatedHeader 7 1)
  have only : ∀ i, i < 1 → equationAt minusSevenHalves.toBytes i = minusSevenHalves := fun i small => by
    obtain rfl : i = 0 := by omega
    decide
  have known : Op.ofByte? minusSevenHalves.operator = some .DIV64 := by decide
  obtain ⟨solved, left, _, _, fails⟩ :=
    session_graded Env.calm (fun _ => .all) "a.equ" (generatedHeader 7 1).toBytes
    minusSevenHalves.toBytes 1 ⟨fun _ _ => rfl, fun _ => rfl, fun _ => rfl⟩ ⟨fun _ => .inl rfl, rfl⟩
    (fun c member => of_decide_eq_true (List.all_eq_true.mp characters c member)) (by decide +kernel)
    (by decide +kernel) (FileHeader.toBytes_length _) (by rw [fields]; rfl) (by rw [fields]; rfl)
    (by rw [fields]; rfl) (by decide) (by decide) (Net.Equation.toBytes_length _) fun i op small here has => by
      rw [only i small, known] at here
      obtain rfl := Option.some.inj here
      exact False.elim has
  refine ⟨solved, left, fails.mpr ⟨fun i small => ?_, fun alike => ?_⟩⟩
  · obtain rfl : i = 0 := by omega
    exact ⟨.DIV64, by decide, by decide⟩
  · have here := alike 0 .DIV64 (by decide) (by rw [only 0 (by decide), known])
    rw [only 0 (by decide)] at here
    exact absurd here (by unfold Alike AlikeWhen; decide)

/-- Sessions that all leave a file leave an output directory with these files. -/
theorem manageFiles_writes {env : String → Env} {reads : String → Nat → ReadAct}
    {result : String × List Byte → List Byte} {listing : List (String × List Byte)} {outFolder : Dir}
    (each : ∀ f ∈ listing, suffix f.1.toList = ['.', 'e', 'q', 'u'] ∧
      session (env f.1) (reads f.1) f.1 f.2 = some ⟨false, some (result f)⟩)
    (distinct : (listing.map Prod.fst).Nodup) (absent : ∀ f ∈ listing, f.1 ∉ outFolder.files.map Prod.fst) :
    ∃ dir, manageFiles env reads listing outFolder = (false, dir) ∧
      dir.files = outFolder.files ++ listing.map fun f => (f.1, result f) := by
  induction listing generalizing outFolder with
  | nil => exact ⟨outFolder, rfl, (List.append_nil _).symm⟩
  | cons f listing ih =>
    obtain ⟨equ, left⟩ := each f List.mem_cons_self
    obtain ⟨new, distinct⟩ := List.nodup_cons.mp distinct
    have written := Dir.write_new (result f) (absent f List.mem_cons_self)
    have still_absent : ∀ g ∈ listing, g.1 ∉ (outFolder.write f.1 (result f)).files.map Prod.fst := by
      intro g member present
      rw [written, List.map_append, List.mem_append] at present
      rcases present with before | own
      · exact absent g (List.mem_cons_of_mem f member) before
      · have same : g.1 = f.1 := List.mem_singleton.mp own
        exact new (same ▸ List.mem_map_of_mem member)
    obtain ⟨dir, managed, files⟩ :=
      ih (fun g member => each g (List.mem_cons_of_mem f member)) distinct still_absent
    refine ⟨dir, ?_, ?_⟩
    · rw [manageFiles, if_pos equ, left]
      exact managed
    · rw [files, written, List.append_assoc]
      rfl

end Session

/-! ## The test -/

/-- The name of a generated file is one the client sends. -/
theorem fileName_suffix (fileId : BitVec 64) : suffix (fileName fileId).toList = ['.', 'e', 'q', 'u'] := by
  have length : (hex (encode 8 fileId)).length = 16 := by rw [hex_length, encode_length]
  have front : ((fileName fileId).toList.reverse.takeWhile (· ≠ '.')).reverse = ['e', 'q', 'u'] := by
    rw [fileName_toList, List.reverse_append]
    rfl
  unfold suffix
  rw [front, fileName_toList]
  simp [length]

theorem fileName_characters (fileId : BitVec 64) :
    ∀ c ∈ (fileName fileId).toList, 0 < c.toNat ∧ c.toNat < 128 := by
  intro c member
  rw [fileName_toList] at member
  rcases List.mem_append.mp member with digit | dot
  · exact ⟨(hex_ascii digit).1, (hex_ascii digit).2.1⟩
  · have each : (['.', 'e', 'q', 'u'].all fun c => 0 < c.toNat ∧ c.toNat < 128) = true := by decide
    exact of_decide_eq_true (List.all_eq_true.mp each c dot)

/-- **The acceptance test, from the draw to the verdict.** Take any ids and
equations that can be drawn, any order in which the systems list the
directories, and connections that transfer what they are asked to. The client
then comes to its end without an exception, and `grade_dirs` returns `0`
exactly when no file that is kept divides by zero; when one does, it raises. -/
theorem netcalc_test (t : Target) (env : String → Env) (reads : String → Nat → ReadAct)
    (drawn : List (BitVec 64 × List Draw)) (shifts : FullShiftsAddNothing t)
    (target : ∀ name, (env name).target = t) (transfers : ∀ name, Transfers (env name))
    (delivers : ∀ name, Delivers (reads name))
    (numbers : ∀ f ∈ drawn, 1 ≤ f.2.length ∧ f.2.length ≤ 2 ^ 31 - 1) :
    ∃ unsolved, generateFiles drawn .empty = some unsolved ∧
      ∀ listing, listing.Perm unsolved.files → ∃ solved, manageFiles env reads listing .empty = (false, solved) ∧
        ∀ inwalk outwalk, inwalk.Perm (unsolved.files.map Prod.snd) → outwalk.Perm (solved.files.map Prod.snd) →
          (gradeDirs inwalk outwalk = some 0 ↔ ∀ f, Survives drawn f → ∀ d ∈ f.2, ¬d.ByZero) ∧
            (gradeDirs inwalk outwalk = none ↔ ∃ f, Survives drawn f ∧ ∃ d ∈ f.2, d.ByZero) := by
  have few : ∀ f ∈ drawn, f.2.length < 2 ^ 64 := fun f member => by
    have bound := (numbers f member).2
    omega
  obtain ⟨unsolved, filled⟩ := generateFiles_some few .empty
  refine ⟨unsolved, filled, fun listing order => ?_⟩
  have each : ∀ file ∈ listing, suffix file.1.toList = ['.', 'e', 'q', 'u'] ∧
      session (env file.1) (reads file.1) file.1 file.2 = some ⟨false, some (solvedBy t file.2)⟩ := by
    intro file member
    rcases (mem_generateFiles filled).mp (order.mem_iff.mp member) with ⟨before, _⟩ | ⟨f, survives, named⟩
    · cases before
    obtain ⟨some_equations, counted⟩ := numbers f survives.mem
    have shape := named.shape (few f survives.mem)
    rw [named.1]
    refine ⟨fileName_suffix f.1, ?_⟩
    have left := session_leaves (transfers (fileName f.1)) (delivers (fileName f.1)) (fileName_characters f.1)
      (by rw [fileName_length]; decide) (by rw [fileName_length]; decide) shape.width (by rw [shape.fields]; rfl)
      (by rw [shape.fields, shape.count]) some_equations counted (generatedStream_length f.2)
    rw [← shape.content_eq, target, ← shape.solved] at left
    exact left
  have distinct : (listing.map Prod.fst).Nodup := (order.map Prod.fst).nodup_iff.mpr unsolved.distinct
  have fresh : ∀ file ∈ listing, file.1 ∉ Dir.empty.files.map Prod.fst := fun _ _ => List.not_mem_nil
  obtain ⟨solved, managed, files⟩ := manageFiles_writes each distinct fresh
  refine ⟨solved, managed, fun inwalk outwalk ins outs => graded_generated filled few shifts ins ?_⟩
  have contents : solved.files.map Prod.snd = listing.map fun file => solvedBy t file.2 := by
    rw [files, List.map_append, List.map_map]
    rfl
  rw [contents] at outs
  exact outs.trans (order.map _)

/-- A file with a sum and a quotient. -/
def sumAndQuotient (divisor : Nat) (small : divisor ≤ 2 ^ 16) : List (BitVec 64 × List Draw) :=
  [(7, [⟨1, .ADD64, 20, 22, by decide, by decide⟩, ⟨2, .DIV64, 7, divisor, by decide, small⟩])]

/-- The test passes with a divisor of `2`, and raises with a divisor of `0`. -/
theorem netcalc_test_quotient :
    (∃ unsolved solved, generateFiles (sumAndQuotient 2 (by decide)) .empty = some unsolved ∧
        manageFiles (fun _ => Env.calm) (fun _ _ => .all) unsolved.files .empty = (false, solved) ∧
        gradeDirs (unsolved.files.map Prod.snd) (solved.files.map Prod.snd) = some 0) ∧
      ∃ unsolved solved, generateFiles (sumAndQuotient 0 (by decide)) .empty = some unsolved ∧
        manageFiles (fun _ => Env.calm) (fun _ _ => .all) unsolved.files .empty = (false, solved) ∧
        gradeDirs (unsolved.files.map Prod.snd) (solved.files.map Prod.snd) = none := by
  have shifts : FullShiftsAddNothing Env.calm.target := ⟨fun _ => BitVec.or_zero, fun _ => BitVec.or_zero⟩
  have transfers : Transfers Env.calm := ⟨fun _ _ => rfl, fun _ => rfl, fun _ => rfl⟩
  have delivers : Delivers fun _ => .all := ⟨fun _ => .inl rfl, rfl⟩
  constructor
  · obtain ⟨unsolved, filled, tested⟩ := netcalc_test Env.calm.target (fun _ => Env.calm) (fun _ _ => .all)
      (sumAndQuotient 2 (by decide)) shifts (fun _ => rfl) (fun _ => transfers) (fun _ => delivers)
      fun f member => by obtain rfl := List.mem_singleton.mp member; exact ⟨by decide, by decide⟩
    obtain ⟨solved, managed, graded⟩ := tested unsolved.files .rfl
    refine ⟨unsolved, solved, filled, managed, (graded _ _ .rfl .rfl).1.mpr fun f survives => ?_⟩
    obtain rfl := List.mem_singleton.mp survives.mem
    decide
  · obtain ⟨unsolved, filled, tested⟩ := netcalc_test Env.calm.target (fun _ => Env.calm) (fun _ _ => .all)
      (sumAndQuotient 0 (by decide)) shifts (fun _ => rfl) (fun _ => transfers) (fun _ => delivers)
      fun f member => by obtain rfl := List.mem_singleton.mp member; exact ⟨by decide, by decide⟩
    obtain ⟨solved, managed, graded⟩ := tested unsolved.files .rfl
    refine ⟨unsolved, solved, filled, managed, (graded _ _ .rfl .rfl).2.mpr ⟨_, ⟨[], [], rfl, ?_⟩, ?_⟩⟩
    · exact List.forall_mem_nil _
    · decide

end NetCalc.Client
