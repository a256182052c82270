import NetCalc.File.SameFile
import NetCalc.File.Schedule

/-!
# What a second run leaves

`create_file` opens the output file with `O_APPEND`: what was in it stays, and
every write goes to its end. Solving a file therefore adds to the earlier
contents what a run without them would have left, and a second run adds the
same contents once more (`solved_again`). With calls that are completed these
do not depend on how the reads and writes were cut (`processAlone_completes`).
-/

namespace NetCalc.File

set_option autoImplicit false
open NetCalc.Lib NetCalc.Net

/-- Allocations succeed, and reads and writes are completed. -/
structure Completes (env : Env) : Prop where
  memory : Allocates env.toInputs
  reads : DeliversAll env.toInputs
  writes : ∀ k, env.writes k ≠ .fail

/-- The directory as another run finds it. -/
def Directory.again (D : Directory) (files : Path → List Byte) (env : Name → Env) : Directory :=
  { D with files := files, env := env }

/-- The files, without those of the output directory. -/
def Directory.withoutOutput (D : Directory) (path : Path) : List Byte :=
  if ∃ f ∈ D.names, path = solvedPath D.fullDir f then [] else D.files path

/-- What an accepted file has to be answered with: its header, marked as solved,
and the answers to the records, where the number of them is positive as an
`int`. -/
def solvedContents (t : Target) (file : List Byte) : List Byte :=
  (replyFileHeader (FileHeader.ofBytes (file.take HEADER_SIZE))).toBytes ++
    if 0 < narrow 32 (FileHeader.ofBytes (file.take HEADER_SIZE)).numEquations.toInt then
      (answered (answer t) EQUATION_SIZE (file.drop HEADER_SIZE).length (file.drop HEADER_SIZE)).flatten
    else []

variable {env : Env} {file : List Byte}

/-- A loop that is not entered sends nothing. -/
theorem processEquations_nothing (w : World) (outFileDes : Int) {numEquations : Int}
    (none_announced : ¬0 < numEquations) :
    sent (processEquations env w outFileDes numEquations).2.output.log = sent w.output.log := by
  unfold processEquations
  dsimp only
  split
  · rw [safeClose_sent]
  · rw [safeClose_sent, processLoop, if_neg none_announced]

/-- What `parse_file` adds to an output file that is open. -/
theorem parseFile_sent (completes : Completes env) (w : World) (numEquations : Int) :
    sent (parseFile env w (some ⟨3, 4, numEquations⟩)).output.log = sent w.output.log ++
      if 0 < numEquations then
        (answered (answer env.target) EQUATION_SIZE w.input.rx.length w.input.rx).flatten
      else [] := by
  have entered : parseFile env w (some ⟨3, 4, numEquations⟩) = (processEquations env w 4 numEquations).2 := rfl
  have room : w.input.rx.length < EQUATION_SIZE * (w.input.rx.length + 1) := by
    unfold EQUATION_SIZE
    omega
  rw [entered]
  by_cases some_announced : 0 < numEquations
  · rw [if_pos some_announced]
    exact processEquations_sent completes.memory completes.reads completes.writes some_announced 4 room
  · rw [if_neg some_announced, List.append_nil]
    exact processEquations_nothing w 4 some_announced

/-- What one file on its own gets, from calls that are completed. -/
theorem processAlone_completes (completes : Completes env) : sent (processAlone env file).output.log =
    if HEADER_SIZE ≤ file.length ∧ ¬(FileHeader.ofBytes (file.take HEADER_SIZE)).Refused then
      solvedContents env.target file
    else [] := by
  have there : (calloc env.toInputs .fileHeader (World.start file).input).1 = true := completes.memory ..
  have start : (calloc env.toInputs .fileHeader (World.start file).input).2 = ⟨file, 0, 1⟩ := rfl
  have decides : (checkHeader env.toInputs ⟨file, 0, 1⟩).err = SUCCESS ↔ _ :=
    checkHeader_delivered_iff completes.reads file 0 1
  by_cases accepted : HEADER_SIZE ≤ file.length ∧ ¬(FileHeader.ofBytes (file.take HEADER_SIZE)).Refused
  · rw [if_pos accepted, processAlone_accepted there (by rw [start]; exact decides.mpr accepted), start]
    have width : (file.take HEADER_SIZE).length = HEADER_SIZE := by
      rw [List.length_take]
      exact Nat.min_eq_left accepted.1
    have checked : checkHeader env.toInputs ⟨file.take HEADER_SIZE ++ file.drop HEADER_SIZE, 0, 1⟩ = _ :=
      checkHeader_arrives width (completes.reads.arrives (file.take HEADER_SIZE) (file.drop HEADER_SIZE) 0 1)
        accepted.2
    rw [List.take_append_drop, width] at checked
    obtain ⟨input, created⟩ := createFile_sent completes.writes ⟨⟨file.drop HEADER_SIZE, 1, 1⟩, ⟨0, []⟩⟩
      (by decide : (0 : Int) ≠ ERROR) (by decide : (4 : Int) ≠ ERROR) (FileHeader.ofBytes (file.take HEADER_SIZE))
    rw [checked, parseFile_sent completes]
    dsimp only [World.start]
    rw [input, created]
    rfl
  · rw [if_neg accepted]
    unfold processAlone
    dsimp only
    rw [if_neg (by rw [there]; simp), start, if_pos (mt decides.mp accepted)]
    rfl

/-! ## Another run -/

section Runs
variable {D : Directory} {files : Path → List Byte} {envs : Name → Env} {f : Entry D}

/-- A run finds the input files that are still what they were. -/
theorem content_again (kept : ∀ path, D.inPath f = some path → files path = D.files path) :
    (D.again files envs).content f = D.content f := by
  have same : (D.again files envs).inPath f = D.inPath f := rfl
  unfold Directory.content
  rw [same]
  cases at_path : D.inPath f with
  | none => rfl
  | some path => exact kept path at_path

/-- The paths are what they were. -/
theorem Directory.Separate.again (separate : D.Separate) : (D.again files envs).Separate :=
  ⟨separate.short, separate.apart⟩

/-- The input files are none of the output directory. -/
theorem withoutOutput_kept (separate : D.Separate) (path : Path) (at_path : D.inPath f = some path) :
    D.withoutOutput path = D.files path := by
  refine if_neg ?_
  rintro ⟨g, member, rfl⟩
  exact separate.inPath_ne f ⟨g, member⟩ at_path

/-- The output files are. -/
theorem withoutOutput_outPath : D.withoutOutput (D.outPath f) = [] := if_pos ⟨f.1, f.2, rfl⟩

/-- A run leaves the input files as they are. -/
theorem run_kept (separate : D.Separate) {n : Nat} {s : Process D n} (h : (fileLts D n).Reachable s) (path : Path)
    (at_path : D.inPath f = some path) : s.files path = D.files path := by
  obtain ⟨_, _, _, _, shared⟩ := shared separate h
  exact (shared.viewed f).source path at_path

/-- What a run adds to an output file, as if there had been nothing before it,
whatever else its calls do. -/
theorem again_output (separate : D.Separate) {n : Nat} {s : Process (D.again files envs) n}
    (h : (fileLts (D.again files envs) n).Reachable s) (back : Finished s f)
    (kept : ∀ path, D.inPath f = some path → files path = D.files path) (completes : Completes (envs f.1)) :
    s.files (D.outPath f) = files (D.outPath f) ++
      if HEADER_SIZE ≤ (D.content f).length ∧ ¬(FileHeader.ofBytes ((D.content f).take HEADER_SIZE)).Refused then
        solvedContents (envs f.1).target (D.content f)
      else [] := by
  have added := finished_output separate.again h back
  rw [content_again kept] at added
  have alone : sent (processAlone (envs f.1) (D.content f)).output.log = _ := processAlone_completes completes
  rw [← alone]
  exact added

end Runs

/-- **Solving again appends the same contents again.** For every directory with
separate outputs, all schedules and numbers of workers, and calls that are
completed, however they are cut: a file that has been solved has in its output
file what was there before, behind it exactly what a run without an earlier
output file leaves, so these alone just where there was nothing before; and a
second run on what the first has left adds them once more. -/
theorem solved_again (D : Directory) (separate : D.Separate) (envs₀ envs₂ : Name → Env) (n₀ n₁ n₂ : Nat)
    (s₀ : Process (D.again D.withoutOutput envs₀) n₀) (s₁ : Process D n₁)
    (s₂ : Process (D.again s₁.files envs₂) n₂) (f : Entry D)
    (completes₀ : Completes (envs₀ f.1)) (completes₁ : Completes (D.env f.1)) (completes₂ : Completes (envs₂ f.1))
    (target₀ : (envs₀ f.1).target = (D.env f.1).target) (target₂ : (envs₂ f.1).target = (D.env f.1).target)
    (run₀ : (fileLts _ n₀).Reachable s₀) (run₁ : (fileLts D n₁).Reachable s₁)
    (run₂ : (fileLts _ n₂).Reachable s₂) (back₀ : Finished s₀ f) (back₁ : Finished s₁ f) (back₂ : Finished s₂ f) :
    s₁.files (D.outPath f) = D.files (D.outPath f) ++ s₀.files (D.outPath f) ∧
      (s₁.files (D.outPath f) = s₀.files (D.outPath f) ↔ D.files (D.outPath f) = []) ∧
      s₂.files (D.outPath f) = s₁.files (D.outPath f) ++ s₀.files (D.outPath f) := by
  have first := @again_output D D.files D.env f separate n₁ s₁ run₁ back₁ (fun _ _ => rfl) completes₁
  have fresh := again_output separate run₀ back₀ (withoutOutput_kept separate) completes₀
  have second := again_output separate run₂ back₂ (run_kept separate run₁) completes₂
  rw [withoutOutput_outPath, List.nil_append, target₀] at fresh
  rw [target₂, ← fresh] at second
  rw [← fresh] at first
  refine ⟨first, ?_, second⟩
  rw [first, List.append_left_eq_self]

/-- A schedule that solves the first file of a directory. -/
def firstFileRun (D : Directory) : List (Act D 1) :=
  [.list none, .list (some 3), .list none, .list none, .list (some 4)] ++ List.replicate 4 (.list none) ++
    [.pool (.test mainThread), .pool (.enqueue mainThread (some 100)), .pool (.signal mainThread []),
      .pool (.lock (Fin.last 0)), .pool (.invoke (Fin.last 0))] ++
    List.replicate 11 (.job (Fin.last 0)) ++ [.pool (.ret (Fin.last 0))]

/-- Where it ends. -/
def ranFirst (D : Directory) : Process D 1 :=
  ((fileLts D 1).run (Process.start D 1) (firstFileRun D)).getD (Process.start D 1)

theorem ranFirst_reachable {D : Directory}
    (runs : ((fileLts D 1).run (Process.start D 1) (firstFileRun D)).isSome = true) :
    (fileLts D 1).Reachable (ranFirst D) := by
  obtain ⟨s, run⟩ := Option.isSome_iff_exists.mp runs
  refine ⟨firstFileRun D, ?_⟩
  unfold ranFirst
  rw [show (fileLts D 1).run (fileLts D 1).init (firstFileRun D) = some s from run, run]
  rfl

theorem ranFirst_finished {D : Directory} {f : Entry D}
    (names : (finishedFiles (ranFirst D)).map Subtype.val = [f.1]) : Finished (ranFirst D) f := by
  apply finished_of_name
  rw [names]
  exact List.mem_singleton_self _

/-- The file `a`. -/
def firstFile : Entry twoFiles := ⟨[97], by decide⟩

/-- The directory of the two files, without and with what a first run has left. -/
def twoFilesFresh : Directory := twoFiles.again twoFiles.withoutOutput twoFiles.env

@[inherit_doc twoFilesFresh]
def twoFilesAgain : Directory := twoFiles.again (ranFirst twoFiles).files twoFiles.env

theorem calm_completes : Completes Env.calm :=
  ⟨fun _ _ => rfl, fun _ => rfl, fun _ => WriteAct.noConfusion⟩

/-- Two runs that solve `a`, and one that finds nothing in the output directory. -/
theorem solved_again_first :
    Finished (ranFirst twoFilesFresh) firstFile ∧ Finished (ranFirst twoFiles) firstFile ∧
      Finished (ranFirst twoFilesAgain) firstFile ∧
      (ranFirst twoFilesAgain).files (twoFiles.outPath firstFile) =
        (ranFirst twoFiles).files (twoFiles.outPath firstFile) ++
          (ranFirst twoFilesFresh).files (twoFiles.outPath firstFile) := by
  have back₀ : Finished (ranFirst twoFilesFresh) firstFile := ranFirst_finished (by decide +kernel)
  have back₁ : Finished (ranFirst twoFiles) firstFile := ranFirst_finished (by decide +kernel)
  have back₂ : Finished (ranFirst twoFilesAgain) firstFile := ranFirst_finished (by decide +kernel)
  exact ⟨back₀, back₁, back₂, (solved_again twoFiles twoFiles_separate twoFiles.env twoFiles.env 1 1 1
    (ranFirst twoFilesFresh) (ranFirst twoFiles) (ranFirst twoFilesAgain)
    firstFile calm_completes calm_completes calm_completes rfl rfl
    (ranFirst_reachable (by decide +kernel)) (ranFirst_reachable (by decide +kernel))
    (ranFirst_reachable (by decide +kernel)) back₀ back₁ back₂).2.2⟩

/-- The second run leaves 82 bytes where the first has left 41. -/
theorem second_run_appends :
    (fileLts twoFiles 1).Reachable (ranFirst twoFiles) ∧ Finished (ranFirst twoFiles) firstFile ∧
      (fileLts twoFilesAgain 1).Reachable (ranFirst twoFilesAgain) ∧
      Finished (ranFirst twoFilesAgain) firstFile ∧
      (ranFirst twoFilesAgain).files (twoFiles.outPath firstFile) ≠
        (ranFirst twoFiles).files (twoFiles.outPath firstFile) := by
  refine ⟨ranFirst_reachable (by decide +kernel), ranFirst_finished (by decide +kernel),
    ranFirst_reachable (by decide +kernel), ranFirst_finished (by decide +kernel), ?_⟩
  intro same
  have once : ((ranFirst twoFiles).files (twoFiles.outPath firstFile)).length = 41 := by decide +kernel
  have twice : ((ranFirst twoFilesAgain).files (twoFiles.outPath firstFile)).length = 82 := by decide +kernel
  rw [same, once] at twice
  cases twice

end NetCalc.File
