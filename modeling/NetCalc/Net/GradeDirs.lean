import Mathlib.Data.List.Nodup
import NetCalc.Net.EquFile

/-!
# Grading two directories (`EquGrader.py`)

A directory holds one file of each name, so that `generate_files` replaces a
file whose id is drawn twice. `grade_dirs` walks over the unsolved and the
solved files in whatever order the system lists them, grades every pair of
files whose headers have one id, and returns the number of failures, negated,
with the solved files that are missing counted as failures.

Where the solved files belong one to one to the unsolved, the order of either
walk does not matter, and each file is graded against its own
(`gradeDirs_paired`).
-/

namespace NetCalc.Grader

set_option autoImplicit false
open NetCalc.Lib

/-! ## Directories -/

/-- The files of a directory, by their names. -/
structure Dir where
  files : List (String × List Byte)
  distinct : (files.map Prod.fst).Nodup

/-- A new directory. -/
def Dir.empty : Dir := ⟨[], List.nodup_nil⟩

/-- Writing a whole file, which may be there already. -/
def Dir.write (dir : Dir) (name : String) (content : List Byte) : Dir where
  files := dir.files.filter (·.1 ≠ name) ++ [(name, content)]
  distinct := by
    rw [List.map_append, List.nodup_append]
    refine ⟨dir.distinct.sublist (List.filter_sublist.map _), List.nodup_singleton _, ?_⟩
    intro other before last here
    obtain ⟨file, member, rfl⟩ := List.mem_map.mp before
    obtain rfl := List.mem_singleton.mp here
    simpa using (List.mem_filter.mp member).2

/-- A file that is in a directory after a write was written, or has another name. -/
theorem Dir.mem_write {dir : Dir} {name : String} {content : List Byte} {file : String × List Byte} :
    file ∈ (dir.write name content).files ↔ (file ∈ dir.files ∧ file.1 ≠ name) ∨ file = (name, content) := by
  rw [write, List.mem_append, List.mem_filter, List.mem_singleton, decide_eq_true_iff]

/-- A new name goes behind the others. -/
theorem Dir.write_new {dir : Dir} {name : String} (content : List Byte) (absent : name ∉ dir.files.map Prod.fst) :
    (dir.write name content).files = dir.files ++ [(name, content)] := by
  refine congrArg (· ++ _) (List.filter_eq_self.mpr fun file member => decide_eq_true ?_)
  rintro rfl
  exact absent (List.mem_map_of_mem member)

/-- `bytes.hex`. -/
def hex (bs : List Byte) : List Char :=
  bs.flatMap fun b => [Nat.digitChar (b.toNat / 16), Nat.digitChar (b.toNat % 16)]

/-- The name of a generated file. -/
def fileName (fileId : BitVec 64) : String := String.ofList (hex (encode 8 fileId) ++ ['.', 'e', 'q', 'u'])

/-- `generate_files`: a file for each of `drawn`. -/
def generateFiles : List (BitVec 64 × List Draw) → Dir → Option Dir
  | [], outputDir => some outputDir
  | (fileId, draws) :: drawn, outputDir => do
    let content ← generated fileId draws
    generateFiles drawn (outputDir.write (fileName fileId) content)

/-! ## `grade_dirs` -/

/-- `checkheader`. -/
def checkheader (buf : List Byte) : Option Int := do
  let infilemagic ← unpackFrom 4 0 buf
  let infileflag ← buf[20]?
  some (if infilemagic = EQU_HDR_MAGIC then infileflag.toNat else -1)

/-- `matchfiles`. -/
def matchfiles (file1 file2 : List Byte) : Option Bool := do
  let h1 ← UnpackedHeader.unpack file1
  let h2 ← UnpackedHeader.unpack file2
  some (h1.fileid = h2.fileid)

/-- The files of a walk whose header says `flag`. -/
def flagged (flag : Int) (walk : List (List Byte)) : Option (List (List Byte)) :=
  chosen (fun buf => (checkheader buf).map fun found => decide (found = flag)) walk

/-- What a pair of files adds to `num_failed`. -/
def gradePair (infile outfile : List Byte) : Option Nat := do
  if ← matchfiles infile outfile then EquGrader.fail infile outfile else some 0

/-- `grade_dirs`, with the files in the order of the two walks. -/
def gradeDirs (inwalk outwalk : List (List Byte)) : Option Int := do
  let infilelist ← flagged 0 inwalk
  let outfilelist ← flagged 1 outwalk
  let compared ← summed (fun infile => summed (gradePair infile) outfilelist) infilelist
  let numFiles : Int := infilelist.length
  let numFailed : Int :=
    if numFiles ≠ outfilelist.length then compared + (numFiles - outfilelist.length) else compared
  let numPassed := numFiles - numFailed
  some (numPassed - numFiles)

/-- `checkheader` reads what the header holds. -/
theorem checkheader_unpacked {buf : List Byte} {header : UnpackedHeader}
    (unpacked : UnpackedHeader.unpack buf = some header) :
    checkheader buf = some (if header.magic = EQU_HDR_MAGIC then (header.flag : Int) else -1) := by
  obtain ⟨magic, magic_eq, unpacked⟩ := Option.bind_eq_some_iff.mp unpacked
  obtain ⟨fileid, _, unpacked⟩ := Option.bind_eq_some_iff.mp unpacked
  obtain ⟨numequ, _, unpacked⟩ := Option.bind_eq_some_iff.mp unpacked
  obtain ⟨flag, flag_eq, unpacked⟩ := Option.bind_eq_some_iff.mp unpacked
  obtain ⟨offset, _, unpacked⟩ := Option.bind_eq_some_iff.mp unpacked
  obtain ⟨numopt, _, unpacked⟩ := Option.bind_eq_some_iff.mp unpacked
  obtain rfl := Option.some.inj unpacked
  rw [checkheader, magic_eq, flag_eq]
  rfl

theorem matchfiles_unpacked {file1 file2 : List Byte} {h1 h2 : UnpackedHeader}
    (first : UnpackedHeader.unpack file1 = some h1) (second : UnpackedHeader.unpack file2 = some h2) :
    matchfiles file1 file2 = some (decide (h1.fileid = h2.fileid)) := by
  rw [matchfiles, first, second]
  rfl

/-! ## Names -/

section Names

/-- A digit has one value. -/
theorem digitChar_inj {a b : Nat} (small_a : a < 16) (small_b : b < 16)
    (same : Nat.digitChar a = Nat.digitChar b) :
    a = b := by
  have each : ∀ a b : Fin 16, Nat.digitChar a = Nat.digitChar b → a = b := by decide
  exact congrArg Fin.val (each ⟨a, small_a⟩ ⟨b, small_b⟩ same)

theorem hex_inj {xs ys : List Byte} (same : hex xs = hex ys) : xs = ys := by
  induction xs generalizing ys with
  | nil =>
    cases ys with
    | nil => rfl
    | cons y ys => cases same
  | cons x xs ih =>
    cases ys with
    | nil => cases same
    | cons y ys =>
      have split : ∀ (b : Byte) (bs : List Byte),
          hex (b :: bs) = Nat.digitChar (b.toNat / 16) :: Nat.digitChar (b.toNat % 16) :: hex bs := fun _ _ => rfl
      rw [split, split, List.cons.injEq, List.cons.injEq] at same
      obtain ⟨high, low, rest⟩ := same
      have small_x := x.isLt
      have small_y := y.isLt
      have high := digitChar_inj (by omega) (by omega) high
      have low := digitChar_inj (by omega) (by omega) low
      rw [ih rest, BitVec.eq_of_toNat_eq (by omega : x.toNat = y.toNat)]

theorem hex_length (bs : List Byte) : (hex bs).length = 2 * bs.length := by
  simp [hex, List.length_flatMap, Nat.mul_comm]

/-- Digits are printable characters. -/
theorem hex_ascii {bs : List Byte} {c : Char} (member : c ∈ hex bs) : 0 < c.toNat ∧ c.toNat < 128 ∧ c ≠ '.' := by
  obtain ⟨b, _, digit⟩ := List.mem_flatMap.mp member
  have small := b.isLt
  have each : ∀ a : Fin 16, 0 < (Nat.digitChar a).toNat ∧ (Nat.digitChar a).toNat < 128 ∧
      Nat.digitChar a ≠ '.' := by
    decide
  rcases List.mem_pair.mp digit with rfl | rfl
  · exact each ⟨b.toNat / 16, by omega⟩
  · exact each ⟨b.toNat % 16, by omega⟩

/-- Files of two ids have two names. -/
theorem fileName_inj {a b : BitVec 64} (same : fileName a = fileName b) : a = b := by
  have digits := hex_inj (List.append_cancel_right (String.ofList_injective same))
  rw [← decode_encode (k := 8) a rfl, digits, decode_encode (k := 8) b rfl]

theorem fileName_toList (fileId : BitVec 64) :
    (fileName fileId).toList = hex (encode 8 fileId) ++ ['.', 'e', 'q', 'u'] := String.toList_ofList

theorem fileName_length (fileId : BitVec 64) : (fileName fileId).length = 20 := by
  rw [← String.length_toList, fileName_toList, List.length_append, hex_length, encode_length]
  rfl

end Names

/-! ## What is in the directory of unsolved files -/

/-- The files that are not replaced: those whose id is not drawn again. -/
def Survives (drawn : List (BitVec 64 × List Draw)) (f : BitVec 64 × List Draw) : Prop :=
  ∃ before after, drawn = before ++ f :: after ∧ ∀ g ∈ after, g.1 ≠ f.1

/-- A generated file, in its directory. -/
def IsFile (file : String × List Byte) (f : BitVec 64 × List Draw) : Prop :=
  file.1 = fileName f.1 ∧ generated f.1 f.2 = some file.2

section Generated
variable {drawn : List (BitVec 64 × List Draw)} {f first : BitVec 64 × List Draw} {start dir : Dir}
  {file : String × List Byte}

theorem Survives.mem (survives : Survives drawn f) : f ∈ drawn := by
  obtain ⟨before, after, rfl, _⟩ := survives
  exact List.mem_append_right before List.mem_cons_self

theorem survives_cons_iff :
    Survives (first :: drawn) f ↔ Survives drawn f ∨ (f = first ∧ ∀ g ∈ drawn, g.1 ≠ f.1) := by
  constructor
  · rintro ⟨before, after, split, last⟩
    cases before with
    | nil =>
      obtain ⟨rfl, rfl⟩ := List.cons.inj split
      exact .inr ⟨rfl, last⟩
    | cons g before =>
      obtain ⟨rfl, rfl⟩ := List.cons.inj split
      exact .inl ⟨before, after, rfl, last⟩
  · rintro (⟨before, after, rfl, last⟩ | ⟨rfl, last⟩)
    · exact ⟨first :: before, after, rfl, last⟩
    · exact ⟨[], drawn, rfl, last⟩

/-- **What `generate_files` leaves in a directory**: what was there under other
names, and the file of each id as it was drawn last. -/
theorem mem_generateFiles (filled : generateFiles drawn start = some dir) : file ∈ dir.files ↔
    (file ∈ start.files ∧ ∀ f ∈ drawn, file.1 ≠ fileName f.1) ∨ ∃ f, Survives drawn f ∧ IsFile file f := by
  induction drawn generalizing start with
  | nil =>
    cases filled
    have nothing : ¬∃ f, Survives [] f ∧ IsFile file f := by
      rintro ⟨f, survives, _⟩
      cases survives.mem
    simp [nothing]
  | cons first drawn ih =>
    obtain ⟨fileId, draws⟩ := first
    obtain ⟨content, here, rest⟩ := Option.bind_eq_some_iff.mp filled
    have own : IsFile file (fileId, draws) ↔ file = (fileName fileId, content) := by
      unfold IsFile
      rw [here, Option.some.injEq, Prod.ext_iff]
      exact and_congr_right fun _ => eq_comm
    rw [ih rest, Dir.mem_write]
    constructor
    · rintro (⟨⟨before, other⟩ | rfl, kept⟩ | ⟨f, survives, named⟩)
      · exact .inl ⟨before, List.forall_mem_cons.mpr ⟨other, kept⟩⟩
      · refine .inr ⟨(fileId, draws), survives_cons_iff.mpr (.inr ⟨rfl, fun g member same => ?_⟩), own.mpr rfl⟩
        exact kept g member (congrArg fileName same.symm)
      · exact .inr ⟨f, survives_cons_iff.mpr (.inl survives), named⟩
    · rintro (⟨before, kept⟩ | ⟨f, survives, named⟩)
      · obtain ⟨other, kept⟩ := List.forall_mem_cons.mp kept
        exact .inl ⟨.inl ⟨before, other⟩, kept⟩
      · rcases survives_cons_iff.mp survives with later | ⟨rfl, last⟩
        · exact .inr ⟨f, later, named⟩
        · obtain rfl := own.mp named
          exact .inl ⟨.inr rfl, fun g member same => last g member (fileName_inj same.symm)⟩

/-- Nothing keeps `generate_files` from filling it. -/
theorem generateFiles_some (few : ∀ f ∈ drawn, f.2.length < 2 ^ 64) (start : Dir) :
    ∃ dir, generateFiles drawn start = some dir := by
  induction drawn generalizing start with
  | nil => exact ⟨start, rfl⟩
  | cons first drawn ih =>
    obtain ⟨dir, filled⟩ := ih (fun f member => few f (List.mem_cons_of_mem _ member))
      (start.write (fileName first.1)
        ((generatedHeader first.1 first.2.length).toBytes ++ generatedStream first.2))
    exact ⟨dir, by rw [generateFiles, generated_eq (few first List.mem_cons_self)]; exact filled⟩

end Generated

/-! ## Whichever way the walks go -/

/-- Unsolved files with their solved ones, and unsolved files that have none.
Only what belongs together has one id. -/
structure Paired (pairs : List (List Byte × List Byte)) (missing : List (List Byte)) : Prop where
  unsolved : ∀ p ∈ pairs, checkheader p.1 = some 0
  solved : ∀ p ∈ pairs, checkheader p.2 = some 1
  own : ∀ p ∈ pairs, matchfiles p.1 p.2 = some true
  others : ∀ p ∈ pairs, ∀ q ∈ pairs, q ≠ p → matchfiles p.1 q.2 = some false
  unsolved_missing : ∀ infile ∈ missing, checkheader infile = some 0
  alone : ∀ infile ∈ missing, ∀ q ∈ pairs, matchfiles infile q.2 = some false
  distinct : pairs.Nodup

section Paired
variable {pairs : List (List Byte × List Byte)} {missing inwalk outwalk : List (List Byte)}

theorem flagged_all {flag : Int} {walk : List (List Byte)} (all : ∀ buf ∈ walk, checkheader buf = some flag) :
    flagged flag walk = some walk := by
  refine chosen_all fun buf member => ?_
  rw [all buf member, Option.map_some, decide_eq_true rfl]

theorem gradePair_own {infile outfile : List Byte} (own : matchfiles infile outfile = some true) :
    gradePair infile outfile = EquGrader.fail infile outfile := by
  rw [gradePair, own]
  rfl

theorem gradePair_other {infile outfile : List Byte} (other : matchfiles infile outfile = some false) :
    gradePair infile outfile = some 0 := by
  rw [gradePair, other]
  rfl

/-- Each file is graded against its own. -/
theorem Paired.summed_outs (h : Paired pairs missing) {p : List Byte × List Byte} (member : p ∈ pairs) :
    summed (gradePair p.1) (pairs.map Prod.snd) = EquGrader.fail p.1 p.2 := by
  rw [summed_map, summed_only h.distinct member fun q inside other =>
    gradePair_other (h.others p member q inside other),
    gradePair_own (h.own p member)]

/-- **How directories are graded.** Whatever the order of the two walks, the
result is the number of files that fail against their own solved file together
with the number of files that have none; and `grade_dirs` raises exactly when
the grading of one file does. -/
theorem gradeDirs_paired (h : Paired pairs missing) (ins : inwalk.Perm (pairs.map Prod.fst ++ missing))
    (outs : outwalk.Perm (pairs.map Prod.snd)) :
    gradeDirs inwalk outwalk = (summed (fun p : List Byte × List Byte => EquGrader.fail p.1 p.2) pairs).map
      fun (failed : Nat) => (-(failed + missing.length) : Int) := by
  have unsolved : ∀ infile ∈ inwalk, checkheader infile = some 0 := by
    intro infile member
    rcases List.mem_append.mp (ins.mem_iff.mp member) with paired | alone
    · obtain ⟨p, pair, rfl⟩ := List.mem_map.mp paired
      exact h.unsolved p pair
    · exact h.unsolved_missing infile alone
  have solved : ∀ outfile ∈ outwalk, checkheader outfile = some 1 := by
    intro outfile member
    obtain ⟨p, pair, rfl⟩ := List.mem_map.mp (outs.mem_iff.mp member)
    exact h.solved p pair
  have lonely : summed (fun infile => summed (gradePair infile) (pairs.map Prod.snd)) missing = some 0 := by
    refine summed_zero_iff.mpr fun infile member => summed_zero_iff.mpr fun outfile inside => ?_
    obtain ⟨q, pair, rfl⟩ := List.mem_map.mp inside
    exact gradePair_other (h.alone infile member q pair)
  have compared : summed (fun infile => summed (gradePair infile) outwalk) inwalk =
      summed (fun p : List Byte × List Byte => EquGrader.fail p.1 p.2) pairs := by
    rw [summed_perm ins, summed_congr fun infile _ => summed_perm outs, summed_append_zero lonely, summed_map]
    exact summed_congr fun p member => h.summed_outs member
  have more : inwalk.length = outwalk.length + missing.length := by
    rw [ins.length_eq, outs.length_eq, List.length_append, List.length_map, List.length_map]
  unfold gradeDirs
  rw [flagged_all unsolved, flagged_all solved]
  simp only [Option.bind_eq_bind, Option.bind_some, compared]
  cases summed (fun p : List Byte × List Byte => EquGrader.fail p.1 p.2) pairs with
  | none => rfl
  | some failed =>
    rw [Option.bind_some, Option.map_some, Option.some.injEq]
    split <;> omega

end Paired

end NetCalc.Grader
