import NetCalc.Common.Converts
import NetCalc.File.DirectoryParse
import NetCalc.Lib.Getopt
import NetCalc.Lib.Scopes

/-!
# The command line of ThreadCalc (`thread_main.c`)

`main` reads the number of threads and two directories, opens both, starts the
pool and runs `directory_parse`. It looks at the number of its arguments before
it takes them apart, and allows three besides its name: there is no room for a
number of threads in a word of its own. `CommandLine` lists the lines on which
`directory_parse` is run, and it is run on no others (`threadcalc_main`).

What the calls of `main` return is an argument, and so are the addresses that
they give out. On every way through it gives back what it was given: the full
names that the checks of the directories ask for and do not need, the
directories and the pool.
-/

namespace NetCalc.File

set_option autoImplicit false
open NetCalc.Lib

/-- `MIN_ARGS`. -/
def MIN_ARGS : Nat := 3

/-- `MAX_ARGS`. -/
def MAX_ARGS : Nat := 4

/-- `IN_DIR`. -/
def IN_DIR : Nat := 0

/-- `OUT_DIR`. -/
def OUT_DIR : Nat := 1

/-- What the calls return: of two calls that are the same, each. -/
structure Calls where
  sigaction : Nat → Int
  realpath : Nat → Path → Bool
  opendir : Nat → Path → Bool
  threadpoolCreate : BitVec 64 → Bool

/-- The pointers they return. -/
structure Pointers where
  fullIn : Nat
  inDes : Nat
  fullOut : Nat
  outDes : Nat
  threadpool : Nat

/-- What `main` is given by them. -/
inductive Given where
  | fullDir
  | dirDes
  | threadpool
  deriving DecidableEq

/-- How a check of a directory ends: what it returns, whether it leaves a
pointer, and what it has done. -/
structure DirCheck where
  err : Int
  there : Bool
  done : Ledger Nat Given

section Main
variable (calls : Calls) (p : Pointers)

/-- The checks of the directories: they test the address of the pointer that
`opendir` returns, and not the pointer. -/
def checkDirectory (call : Nat) (directoryName : Path) (fullDir dirDes : Nat) : DirCheck :=
  if calls.realpath call directoryName = false then ⟨-1, false, []⟩
  else if calls.opendir call directoryName = false then
    ⟨0, false, [(fullDir, .opened .fullDir), (fullDir, .closed)]⟩
  else ⟨0, true, [(fullDir, .opened .fullDir), (dirDes, .opened .dirDes), (fullDir, .closed)]⟩

/-- `check_in_directory`. -/
def checkInDirectory (directoryName : Path) : DirCheck :=
  checkDirectory calls IN_DIR directoryName p.fullIn p.inDes

/-- `check_out_directory`. -/
def checkOutDirectory (directoryName : Path) : DirCheck :=
  checkDirectory calls OUT_DIR directoryName p.fullOut p.outDes

/-- `signal_action_setup`. -/
def signalActionSetup : Int := if calls.sigaction 0 ≠ 0 then calls.sigaction 0 else calls.sigaction 1

/-- `":n:"`. -/
def takes (c : Byte) : Option Bool := if c = 110 then some true else none

/-- One pass of the loop over the options: `num_threads`, if it goes on. -/
def readOption (_numThreads : BitVec 64) : Getopt → Option (BitVec 64)
  | .option _ (some optarg) =>
    if (checkOption checkConvertToLong optarg).err ≠ SUCCESS then none
    else some (BitVec.ofInt 64 (strtol optarg).value)
  | _ => none

/-- `directories[iter]`. -/
def directories (operands : List CString) (iter : Nat) : Path :=
  ((operands.map CString.chars).getD iter []).take (MAX_PATH - 1)

/-- What `main` does behind its label `END`. -/
def mainEnd (threadpool inDes outDes : Bool) : Ledger Nat Given :=
  (if threadpool then [(p.threadpool, .closed)] else []) ++
    ((if inDes then [(p.inDes, .closed)] else []) ++ (if outDes then [(p.outDes, .closed)] else []))

/-- How `main` ends: what it returns, what it called `directory_parse` with, if
it did, on how many threads, and what it did with its pointers. -/
structure Run where
  status : Int
  parsed : Option (Path × Path × BitVec 64)
  done : Ledger Nat Given

/-- `main`. -/
def main (argv : List CString) : Run :=
  if MIN_ARGS > argv.length ∨ MAX_ARGS < argv.length then ⟨0, none, mainEnd p false false false⟩
  else
    let words := getopt takes none (argv.drop 1)
    match words.1.foldlM readOption 0 with
    | none => ⟨0, none, mainEnd p false false false⟩
    | some numThreads =>
      let inDir := directories words.2 IN_DIR
      let outDir := directories words.2 OUT_DIR
      let numThreads := if numThreads = 0 then 4 else numThreads
      if signalActionSetup calls ≠ SUCCESS then ⟨0, none, mainEnd p false false false⟩
      else
        let input := checkInDirectory calls p inDir
        if input.err ≠ SUCCESS then ⟨0, none, input.done ++ mainEnd p false input.there false⟩
        else if input.there = false then ⟨0, none, input.done ++ mainEnd p false input.there false⟩
        else
          let output := checkOutDirectory calls p outDir
          let done := input.done ++ output.done
          if output.err ≠ SUCCESS then ⟨0, none, done ++ mainEnd p false input.there output.there⟩
          else if output.there = false then ⟨0, none, done ++ mainEnd p false input.there output.there⟩
          else if calls.threadpoolCreate numThreads = false then
            ⟨0, none, done ++ mainEnd p false input.there output.there⟩
          else
            let parses := [(p.threadpool, .opened .threadpool), (p.inDes, .used), (p.threadpool, .used)]
            ⟨0, some (inDir, outDir, numThreads), done ++ (parses ++ mainEnd p true input.there output.there)⟩

end Main

/-! ## What is given back -/

section Given
variable {calls : Calls} {p : Pointers} {argv : List CString} {es : Ledger Nat Given} {full des : Nat}

theorem full_scoped (full : Nat) {own : List Nat} :
    Scoped own [(full, .opened Given.fullDir), (full, .closed)] := Scoped.nil.bracket Given.fullDir

/-- A directory, and what is done while it is open. -/
theorem directory_scoped (full : Nat) {own : List Nat} (within : Scoped (des :: own) es) :
    Scoped own ((full, .opened .fullDir) :: (des, .opened .dirDes) :: (full, .closed) ::
      (es ++ [(des, .closed)])) := by
  have one_by_one : Scoped own ([(full, .opened .fullDir)] ++ (full, .closed) :: (des, .opened .dirDes) ::
      (es ++ [(des, .closed)])) := (full_scoped full).append (within.bracket .dirDes)
  exact one_by_one.early

/-- Both directories, which are closed in the order in which they were opened. -/
theorem directories_scoped (within : Scoped [p.outDes, p.inDes] es) :
    Scoped [] ([(p.fullIn, .opened .fullDir), (p.inDes, .opened .dirDes), (p.fullIn, .closed)] ++
      [(p.fullOut, .opened .fullDir), (p.outDes, .opened .dirDes), (p.fullOut, .closed)] ++
        (es ++ [(p.inDes, .closed), (p.outDes, .closed)])) := by
  have nested := directory_scoped p.fullIn (directory_scoped p.fullOut within)
  have inside_out : Scoped [] (([(p.fullIn, .opened .fullDir), (p.inDes, .opened .dirDes), (p.fullIn, .closed)] ++
      [(p.fullOut, .opened .fullDir), (p.outDes, .opened .dirDes), (p.fullOut, .closed)] ++ es) ++
        (p.outDes, .closed) :: (p.inDes, .closed) :: []) := by
    simpa using nested
  simpa using inside_out.swap_closed

/-- How a directory's check ends. -/
theorem checkDirectory_cases (calls : Calls) (call : Nat) (name : Path) (full des : Nat) :
    (calls.realpath call name = false ∧ checkDirectory calls call name full des = ⟨-1, false, []⟩) ∨
      (calls.opendir call name = false ∧ checkDirectory calls call name full des =
        ⟨0, false, [(full, .opened .fullDir), (full, .closed)]⟩) ∨
      ((calls.realpath call name = true ∧ calls.opendir call name = true) ∧
        checkDirectory calls call name full des =
          ⟨0, true, [(full, .opened .fullDir), (des, .opened .dirDes), (full, .closed)]⟩) := by
  unfold checkDirectory
  cases calls.realpath call name with
  | false => exact .inl ⟨rfl, rfl⟩
  | true =>
    cases calls.opendir call name with
    | false => exact .inr (.inl ⟨rfl, rfl⟩)
    | true => exact .inr (.inr ⟨⟨rfl, rfl⟩, rfl⟩)

/-- **Everything that `main` is given it gives back.** -/
theorem main_scoped (calls : Calls) (p : Pointers) (argv : List CString) : Scoped [] (main calls p argv).done := by
  unfold main
  split
  · exact .nil
  dsimp only
  split
  · exact .nil
  rename_i numThreads _
  split
  · exact .nil
  unfold checkInDirectory checkOutDirectory
  generalize (if numThreads = 0 then (4 : BitVec 64) else numThreads) = numThreads
  rcases checkDirectory_cases calls IN_DIR (directories (getopt takes none (argv.drop 1)).2 IN_DIR) p.fullIn p.inDes
    with ⟨_, input⟩ | ⟨_, input⟩ | ⟨_, input⟩
  · rw [input, if_pos (by decide)]
    exact .nil
  · rw [input, if_neg (by simp [SUCCESS]), if_pos rfl]
    exact full_scoped p.fullIn
  rw [input, if_neg (by simp [SUCCESS]), if_neg (by simp)]
  rcases checkDirectory_cases calls OUT_DIR (directories (getopt takes none (argv.drop 1)).2 OUT_DIR) p.fullOut
    p.outDes with ⟨_, output⟩ | ⟨_, output⟩ | ⟨_, output⟩
  · rw [output, if_pos (by decide)]
    exact directory_scoped p.fullIn .nil
  · rw [output, if_neg (by simp [SUCCESS]), if_pos rfl]
    exact directory_scoped p.fullIn (full_scoped p.fullOut)
  · rw [output, if_neg (by simp [SUCCESS]), if_neg (by simp)]
    split
    · exact directories_scoped .nil
    · have uses : Scoped [p.threadpool, p.outDes, p.inDes] [(p.inDes, Deed.used (ι := Given)), (p.threadpool, .used)] :=
        .use (by simp) (.use (by simp) .nil)
      exact directories_scoped (uses.bracket Given.threadpool)

end Given

/-! ## What is understood -/

/-- A word with the number of threads: `-n`, and the number. -/
def Counts (w : CString) (count : BitVec 64) : Prop :=
  ∃ number, w.chars = 45 :: 110 :: number ∧ number ≠ [] ∧ Passes (.cut number) ∧
    BitVec.ofInt 64 (strtol (.cut number)).value = count

/-- The words behind the program's name on which it runs, the names of the two
directories and the number of threads, `0` where there is none. -/
inductive CommandLine : List CString → CString → CString → BitVec 64 → Prop
  | two {i o} : ¬IsOption i → ¬IsOption o → CommandLine [i, o] i o 0
  | three {i o x} : ¬IsOption i → ¬IsOption o → ¬IsOption x → CommandLine [i, o, x] i o 0
  | countFirst {w i o count} : Counts w count → ¬IsOption i → ¬IsOption o → CommandLine [w, i, o] i o count
  | countBetween {w i o count} : Counts w count → ¬IsOption i → ¬IsOption o → CommandLine [i, w, o] i o count
  | countLast {w i o count} : Counts w count → ¬IsOption i → ¬IsOption o → CommandLine [i, o, w] i o count
  | dashesFirst {i o} : CommandLine [dashes, i, o] i o 0
  | dashesBetween {i o} : ¬IsOption i → CommandLine [i, dashes, o] i o 0
  | dashesLast {i o} : ¬IsOption i → ¬IsOption o → CommandLine [i, o, dashes] i o 0

/-- The calls let the program come to `directory_parse`. -/
structure Calls.Allow (calls : Calls) (i o : Path) (numThreads : BitVec 64) : Prop where
  signals : signalActionSetup calls = SUCCESS
  input : calls.realpath IN_DIR i = true ∧ calls.opendir IN_DIR i = true
  output : calls.realpath OUT_DIR o = true ∧ calls.opendir OUT_DIR o = true
  pool : calls.threadpoolCreate numThreads = true

section CommandLine
variable {w i o x : CString} {ws : List CString} {count numThreads : BitVec 64}

/-- What is understood of the words: their operands, and the number of threads. -/
def Understood (words operands : List CString) (numThreads : BitVec 64) : Prop :=
  (getopt takes none words).2 = operands ∧ (getopt takes none words).1.foldlM readOption 0 = some numThreads

/-- A word with options that is understood and does not take the next one. -/
theorem option_understood {rest : List Getopt} (options : IsOption w)
    (alone : (wordOptions takes (w.chars.drop 1)).2 = none)
    (read : ((wordOptions takes (w.chars.drop 1)).1 ++ rest).foldlM readOption count = some numThreads) :
    ∃ count', Counts w count' ∧ rest.foldlM readOption count' = some numThreads := by
  obtain ⟨c, cs, same⟩ := isOption_chars options
  rw [same, List.drop_succ_cons, List.drop_zero, wordOptions, takes] at alone read
  by_cases known : c = 110
  · rw [if_pos known] at alone read
    dsimp only at alone read
    by_cases nothing : cs = []
    · rw [if_pos nothing] at alone
      cases alone
    · rw [if_neg nothing, List.singleton_append, List.foldlM_cons, readOption] at read
      split at read
      · cases read
      · rename_i passes
        refine ⟨_, ⟨cs, by rw [same, known], nothing, ?_, rfl⟩, read⟩
        exact (checkOption_iff (by decide) _).mp (not_not.mp passes)
  · rw [if_neg known, List.cons_append, List.foldlM_cons] at read
    cases read

/-- What `getopt` makes of a word with the number of threads. -/
theorem Counts.word (counts : Counts w count) :
    IsOption w ∧ w ≠ dashes ∧ ∃ optarg, wordOptions takes (w.chars.drop 1) = ([.option 110 (some optarg)], none) ∧
      ∀ before, readOption before (.option 110 (some optarg)) = some count := by
  obtain ⟨number, same, some_text, passes, rfl⟩ := counts
  refine ⟨⟨?_, ?_⟩, ?_, .cut number, ?_, ?_⟩
  · rw [CString.at, same]
    rfl
  · rw [same]
    simp
  · rintro rfl
    have other : dashes.chars = [45, 45] := by decide
    rw [other] at same
    cases same
  · rw [same, List.drop_succ_cons, List.drop_zero, wordOptions, takes, if_pos rfl]
    exact if_neg some_text
  · intro before
    rw [readOption, if_neg]
    exact not_not.mpr ((checkOption_iff (by decide) _).mpr passes)

/-- The last word, behind the directories. -/
theorem last_understood {operands : List CString} (understood : Understood [w] operands count) :
    (¬IsOption w ∧ count = 0) ∨ Counts w count ∨ (w = dashes ∧ count = 0) := by
  obtain ⟨_, read⟩ := understood
  by_cases dash : w = dashes
  · rw [dash, getopt_dashes] at read
    exact .inr (.inr ⟨dash, (Option.some.inj read).symm⟩)
  by_cases options : IsOption w
  · rw [getopt_option dash options] at read
    cases waits : (wordOptions takes (w.chars.drop 1)).2 with
    | some c =>
      -- An option without its argument ends the program.
      rw [waits, getopt, List.foldlM_append] at read
      obtain ⟨_, _, missing⟩ := Option.bind_eq_some_iff.mp read
      cases missing
    | none =>
      rw [waits] at read
      obtain ⟨count', counts, none_left⟩ := option_understood options waits read
      obtain rfl := Option.some.inj none_left
      exact .inr (.inl counts)
  · rw [getopt_operand options] at read
    exact .inl ⟨options, (Option.some.inj read).symm⟩

/-- The two words behind the input directory. -/
theorem behind_input {rest : List CString} (plain : ¬IsOption i)
    (understood : Understood [w, x] (o :: rest) count) : CommandLine [i, w, x] i o count := by
  obtain ⟨operands, read⟩ := understood
  by_cases dash : w = dashes
  · rw [dash, getopt_dashes] at operands read
    cases operands
    cases read
    rw [dash]
    exact .dashesBetween plain
  by_cases options : IsOption w
  · rw [getopt_option dash options] at operands read
    dsimp only at operands read
    have one : 1 ≤ (getopt takes (wordOptions takes (w.chars.drop 1)).2 [x]).2.length := by
      rw [operands]
      simp
    cases waits : (wordOptions takes (w.chars.drop 1)).2 with
    | some c =>
      rw [waits] at one
      exact absurd (one.trans (getopt_waits c [x])) (by simp)
    | none =>
      rw [waits] at operands read one
      obtain ⟨all, plain'⟩ : getopt takes none [x] = ([], [x]) ∧ _ := getopt_full one
      rw [all] at operands read
      cases operands
      obtain ⟨count', counts, none_left⟩ := option_understood options waits read
      obtain rfl := Option.some.inj none_left
      exact .countBetween counts plain (plain' o (by simp))
  · rw [getopt_operand options] at operands read
    obtain rfl : w = o := (List.cons.inj operands).1
    rcases last_understood ⟨rfl, read⟩ with ⟨third, rfl⟩ | counts | ⟨rfl, rfl⟩
    · exact .three plain options third
    · exact .countLast counts plain options
    · exact .dashesLast plain options

/-- Two operands of at most three words. -/
theorem commandLine_of_understood {rest : List CString} (short : ws.length ≤ 3)
    (understood : Understood ws (i :: o :: rest) count) : CommandLine ws i o count := by
  obtain ⟨operands, read⟩ := understood
  have two : 2 ≤ (getopt takes none ws).2.length := by
    rw [operands]
    simp
  have enough := two.trans (getopt_sublist none ws).length_le
  match ws, short, enough with
  | [a, b], _, _ =>
    obtain ⟨all, plain⟩ : getopt takes none [a, b] = ([], [a, b]) ∧ _ := getopt_full two
    rw [all] at operands read
    cases operands
    cases read
    exact .two (plain i (by simp)) (plain o (by simp))
  | [a, b, c], _, _ =>
    by_cases dash : a = dashes
    · rw [dash, getopt_dashes] at operands read
      cases operands
      cases read
      rw [dash]
      exact .dashesFirst
    by_cases options : IsOption a
    · rw [getopt_option dash options] at operands read two
      dsimp only at operands read two
      cases waits : (wordOptions takes (a.chars.drop 1)).2 with
      | some c' =>
        rw [waits] at two
        exact absurd (two.trans (getopt_waits c' [b, c])) (by simp)
      | none =>
        rw [waits] at operands read two
        obtain ⟨all, plain⟩ : getopt takes none [b, c] = ([], [b, c]) ∧ _ := getopt_full two
        rw [all] at operands read
        cases operands
        obtain ⟨count', counts, none_left⟩ := option_understood options waits read
        obtain rfl := Option.some.inj none_left
        exact .countFirst counts (plain i (by simp)) (plain o (by simp))
    · rw [getopt_operand options] at operands read
      obtain ⟨rfl, behind⟩ := List.cons.inj operands
      exact behind_input options ⟨behind, read⟩

/-- Each of the lines is understood. -/
theorem CommandLine.understood (line : CommandLine ws i o count) :
    2 ≤ ws.length ∧ ws.length ≤ 3 ∧ ∃ rest, Understood ws (i :: o :: rest) count := by
  have counted : ∀ {w : CString} {count : BitVec 64} (ws : List CString), Counts w count →
      ∃ optarg, getopt takes none (w :: ws) = (.option 110 (some optarg) :: (getopt takes none ws).1,
        (getopt takes none ws).2) ∧ ∀ before, readOption before (.option 110 (some optarg)) = some count := by
    intro w count ws counts
    obtain ⟨options, other, optarg, word, reads⟩ := counts.word
    refine ⟨optarg, ?_, reads⟩
    rw [getopt_option other options, word]
    rfl
  cases line with
  | two first second =>
    refine ⟨Nat.le_refl _, Nat.le_succ _, [], ?_⟩
    rw [Understood, getopt_operand first, getopt_operand second]
    exact ⟨rfl, rfl⟩
  | @three _ _ x first second third =>
    refine ⟨Nat.le_succ _, Nat.le_refl _, [x], ?_⟩
    rw [Understood, getopt_operand first, getopt_operand second, getopt_operand third]
    exact ⟨rfl, rfl⟩
  | countFirst counts first second =>
    obtain ⟨optarg, word, reads⟩ := counted [i, o] counts
    refine ⟨Nat.le_succ _, Nat.le_refl _, [], ?_⟩
    rw [Understood, word, getopt_operand first, getopt_operand second, List.foldlM_cons, reads]
    exact ⟨rfl, rfl⟩
  | countBetween counts first second =>
    obtain ⟨optarg, word, reads⟩ := counted [o] counts
    refine ⟨Nat.le_succ _, Nat.le_refl _, [], ?_⟩
    rw [Understood, getopt_operand first, word, getopt_operand second, List.foldlM_cons, reads]
    exact ⟨rfl, rfl⟩
  | countLast counts first second =>
    obtain ⟨optarg, word, reads⟩ := counted [] counts
    refine ⟨Nat.le_succ _, Nat.le_refl _, [], ?_⟩
    rw [Understood, getopt_operand first, getopt_operand second, word, List.foldlM_cons, reads]
    exact ⟨rfl, rfl⟩
  | dashesFirst =>
    refine ⟨Nat.le_succ _, Nat.le_refl _, [], ?_⟩
    rw [Understood, getopt_dashes]
    exact ⟨rfl, rfl⟩
  | dashesBetween first =>
    refine ⟨Nat.le_succ _, Nat.le_refl _, [], ?_⟩
    rw [Understood, getopt_operand first, getopt_dashes]
    exact ⟨rfl, rfl⟩
  | dashesLast first second =>
    refine ⟨Nat.le_succ _, Nat.le_refl _, [], ?_⟩
    rw [Understood, getopt_operand first, getopt_operand second, getopt_dashes]
    exact ⟨rfl, rfl⟩

end CommandLine

/-! ## The program -/

section Program
variable {calls : Calls} {p : Pointers} {argv : List CString} {inDir outDir : Path} {n : BitVec 64}

/-- A directory that is checked without an error, and is there. -/
theorem checkDirectory_ok (calls : Calls) (call : Nat) (name : Path) (full des : Nat) :
    ((checkDirectory calls call name full des).err = SUCCESS ∧
      (checkDirectory calls call name full des).there = true) ↔
        calls.realpath call name = true ∧ calls.opendir call name = true := by
  rcases checkDirectory_cases calls call name full des with ⟨unknown, same⟩ | ⟨closed, same⟩ | ⟨there, same⟩
  · rw [same]
    exact iff_of_false (fun ok => absurd ok.1 (by decide)) (fun ok => by simp [unknown] at ok)
  · rw [same]
    exact iff_of_false (fun ok => by cases ok.2) (fun ok => by simp [closed] at ok)
  · rw [same]
    exact iff_of_true ⟨rfl, rfl⟩ there

/-- What `main` calls `directory_parse` with, by what it understands. -/
theorem main_parsed : (main calls p argv).parsed = some (inDir, outDir, n) ↔
    (MIN_ARGS ≤ argv.length ∧ argv.length ≤ MAX_ARGS) ∧
      ∃ operands count, Understood (argv.drop 1) operands count ∧ inDir = directories operands IN_DIR ∧
        outDir = directories operands OUT_DIR ∧ n = (if count = 0 then 4 else count) ∧
          calls.Allow inDir outDir n := by
  unfold main
  by_cases wrong : MIN_ARGS > argv.length ∨ MAX_ARGS < argv.length
  · rw [if_pos wrong]
    exact iff_of_false nofun fun ok => wrong.elim (not_lt.mpr ok.1.1) (not_lt.mpr ok.1.2)
  rw [if_neg wrong]
  obtain ⟨enough, few⟩ := not_or.mp wrong
  rw [and_iff_right (⟨not_lt.mp enough, not_lt.mp few⟩ : MIN_ARGS ≤ argv.length ∧ argv.length ≤ MAX_ARGS)]
  dsimp only
  split
  · rename_i refused
    refine iff_of_false nofun ?_
    rintro ⟨_, count, ⟨_, read⟩, _⟩
    rw [refused] at read
    cases read
  rename_i count read
  have only : (∃ operands count, Understood (argv.drop 1) operands count ∧ inDir = directories operands IN_DIR ∧
      outDir = directories operands OUT_DIR ∧ n = (if count = 0 then 4 else count) ∧ calls.Allow inDir outDir n) ↔
        inDir = directories (getopt takes none (argv.drop 1)).2 IN_DIR ∧
          outDir = directories (getopt takes none (argv.drop 1)).2 OUT_DIR ∧ n = (if count = 0 then 4 else count) ∧
            calls.Allow inDir outDir n := by
    constructor
    · rintro ⟨_, count', ⟨rfl, read'⟩, names⟩
      rw [read] at read'
      cases read'
      exact names
    · exact fun names => ⟨_, count, ⟨rfl, read⟩, names⟩
  rw [only]
  generalize (if count = 0 then (4 : BitVec 64) else count) = numThreads
  split
  · rename_i signals
    exact iff_of_false nofun fun ok => signals ok.2.2.2.signals
  rename_i signals
  have input := checkDirectory_ok calls IN_DIR (directories (getopt takes none (argv.drop 1)).2 IN_DIR) p.fullIn
    p.inDes
  have output := checkDirectory_ok calls OUT_DIR (directories (getopt takes none (argv.drop 1)).2 OUT_DIR) p.fullOut
    p.outDes
  rw [← checkInDirectory] at input
  rw [← checkOutDirectory] at output
  split
  · rename_i failed
    refine iff_of_false nofun ?_
    rintro ⟨rfl, _, _, allow⟩
    exact failed (input.mpr allow.input).1
  split
  · rename_i nowhere
    refine iff_of_false nofun ?_
    rintro ⟨rfl, _, _, allow⟩
    rw [(input.mpr allow.input).2] at nowhere
    cases nowhere
  rename_i checked there
  split
  · rename_i failed
    refine iff_of_false nofun ?_
    rintro ⟨_, rfl, _, allow⟩
    exact failed (output.mpr allow.output).1
  split
  · rename_i nowhere
    refine iff_of_false nofun ?_
    rintro ⟨_, rfl, _, allow⟩
    rw [(output.mpr allow.output).2] at nowhere
    cases nowhere
  rename_i checked' there'
  split
  · rename_i failed
    refine iff_of_false nofun ?_
    rintro ⟨_, _, rfl, allow⟩
    rw [allow.pool] at failed
    cases failed
  rename_i started
  constructor
  · intro parsed
    cases parsed
    refine ⟨rfl, rfl, rfl, not_not.mp signals, input.mp ?_, output.mp ?_, by simpa using started⟩
    · exact ⟨not_not.mp checked, by simpa using there⟩
    · exact ⟨not_not.mp checked', by simpa using there'⟩
  · rintro ⟨rfl, rfl, rfl, _⟩
    rfl

/-- Without a second operand there is no output directory. -/
theorem understood_two {operands : List CString} (noName : ∀ k, calls.realpath k [] = false)
    (allow : calls.Allow (directories operands IN_DIR) (directories operands OUT_DIR) n) :
    ∃ i o rest, operands = i :: o :: rest := by
  match operands with
  | i :: o :: rest => exact ⟨i, o, rest, rfl⟩
  | [] | [_] =>
    have there := allow.output.1
    rw [show directories _ OUT_DIR = [] from rfl, noName] at there
    cases there

end Program

/-- **On which command lines ThreadCalc runs, and what it leaves behind.** The
empty name is the name of no directory. Whatever the arguments and the answers
of the calls: `directory_parse` is run exactly on the lines of `CommandLine`
where the calls allow it, with the names that are found there, cut off at
`MAX_PATH`, and as many threads as are asked for, or four; a number of threads
in a word of its own is on none of them. And on every way through `main`, as
long as the addresses that it is given are not in use, nothing is used or given
back that it does not have, and everything it was given is given back once. -/
theorem threadcalc_main (calls : Calls) (p : Pointers) (argv : List CString)
    (noName : ∀ k, calls.realpath k [] = false) :
    (∀ inDir outDir n, (main calls p argv).parsed = some (inDir, outDir, n) ↔
      ∃ program words i o count, argv = program :: words ∧ CommandLine words i o count ∧
        inDir = i.chars.take (MAX_PATH - 1) ∧ outDir = o.chars.take (MAX_PATH - 1) ∧
          n = (if count = 0 then 4 else count) ∧ calls.Allow inDir outDir n) ∧
      (FreshlyOpened nobody (main calls p argv).done →
        Proper nobody (main calls p argv).done ∧ Balanced (main calls p argv).done) := by
  refine ⟨fun inDir outDir n => ?_, fun fresh => (main_scoped calls p argv).balanced fresh⟩
  rw [main_parsed]
  constructor
  · rintro ⟨⟨enough, few⟩, operands, count, understood, rfl, rfl, threads, allow⟩
    obtain ⟨i, o, rest, rfl⟩ := understood_two noName allow
    match argv, enough, few with
    | program :: words, _, few =>
      exact ⟨program, words, i, o, count, rfl, commandLine_of_understood (Nat.le_of_succ_le_succ few) understood, rfl,
        rfl, threads, allow⟩
  · rintro ⟨program, words, i, o, count, rfl, line, rfl, rfl, threads, allow⟩
    obtain ⟨enough, few, rest, understood⟩ := line.understood
    exact ⟨⟨Nat.succ_le_succ enough, Nat.succ_le_succ few⟩, i :: o :: rest, count, understood, rfl, rfl, threads, allow⟩

/-- Calls that all succeed, but for a directory without a name. -/
def ready : Calls := ⟨fun _ => 0, fun _ name => decide (name ≠ []), fun _ _ => true, fun _ => true⟩

/-- Where the second full name is, the first one was. -/
def somewhere : Pointers := ⟨100, 200, 100, 300, 400⟩

/-- A number of threads in a word of its own. -/
example : (main ready somewhere [.ofChars ['t'], .ofChars ['-', 'n'], .ofChars ['2'], .ofChars ['i'],
    .ofChars ['o']]).parsed = none := by
  decide

/-- `-n2`, and the directories `i` and `o`. -/
theorem threadcalc_main_two :
    (main ready somewhere [.ofChars ['t'], .ofChars ['-', 'n', '2'], .ofChars ['i'], .ofChars ['o']]).parsed =
        some ([105], [111], 2) ∧
      Balanced (main ready somewhere
        [.ofChars ['t'], .ofChars ['-', 'n', '2'], .ofChars ['i'], .ofChars ['o']]).done := by
  have both := threadcalc_main ready somewhere
    [.ofChars ['t'], .ofChars ['-', 'n', '2'], .ofChars ['i'], .ofChars ['o']] (fun _ => rfl)
  refine ⟨(both.1 _ _ _).mpr ?_, (both.2 (by decide)).2⟩
  have passes : Passes (.cut [50]) := (checkOption_iff (by decide : ERROR ≠ SUCCESS) _).mp (by decide)
  have counts : Counts (.ofChars ['-', 'n', '2']) 2 := ⟨[50], by decide, by decide, passes, by decide⟩
  exact ⟨.ofChars ['t'], _, .ofChars ['i'], .ofChars ['o'], 2, rfl, .countFirst counts (by decide) (by decide),
    by decide, by decide, by decide, rfl, ⟨rfl, rfl⟩, ⟨rfl, rfl⟩, rfl⟩

end NetCalc.File
