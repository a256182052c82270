import NetCalc.Net.GradeFile

/-!
# How a solved file is graded

The server and the file calculator leave the same file where nothing disturbs
them: the unsolved file's header, marked as solved, and the answers to its
equations up to the first that has none. The grader raises on such a file when
an answer is missing, because it reads as many as the header announces; it
fails the file when an answer is not the number Python finds; and otherwise it
passes the file (`answers_graded`).
-/

namespace NetCalc.Grader

set_option autoImplicit false
open NetCalc.Lib

/-! ## Counts from zero on -/

/-- Where a word and a number are alike for any count below the width. Rotated
by `0` a word is shifted by the whole width too, and what the target makes of
that must not add a bit to it. -/
def Alike (t : Target) (op : Op) (a b : BitVec 64) : Prop :=
  match op with
  | .ROL64 => if b = 0 then a ||| t.shr 64 a 64 = a else AlikeWhen .ROL64 a b
  | .ROR64 => if b = 0 then a ||| t.shl 64 a 64 = a else AlikeWhen .ROR64 a b
  | op => AlikeWhen op a b

section Counts
variable {t : Target} {op : Op} {a b v : BitVec 64}

/-- Rotating left by nothing. -/
theorem rotated_left_zero (ok : ∀ prior, rotateLFunc t a 0 prior = (0, v)) :
    (v.toNat : Int) = (bitlrot a.toNat (0 : BitVec 64).toNat).solution ↔ a ||| t.shr 64 a 64 = a := by
  have word : v = a ||| t.shr 64 a 64 := by
    have value := (congrArg Prod.snd (ok 0)).symm
    simpa [rotateLFunc, shiftLeft, shiftRight, complement] using value
  have number : (bitlrot a.toNat (0 : BitVec 64).toNat).solution = (a.toNat : Int) := by
    unfold bitlrot
    rw [lshift_natCast, rest_natCast (by decide), rshift_natCast]
    show ((a.toNat * 2 ^ 0 ||| a.toNat / 2 ^ 64 : Nat) : Int) = _
    rw [Nat.div_eq_of_lt a.isLt, pow_zero, Nat.mul_one, Nat.or_zero]
  rw [number, word, Int.natCast_inj, BitVec.toNat_inj]

/-- Rotating right by nothing. -/
theorem rotated_right_zero (ok : ∀ prior, rotateRFunc t a 0 prior = (0, v)) :
    (v.toNat : Int) = (bitrrot a.toNat (0 : BitVec 64).toNat).solution ↔ a ||| t.shl 64 a 64 = a := by
  have word : v = a ||| t.shl 64 a 64 := by
    have value := (congrArg Prod.snd (ok 0)).symm
    simpa [rotateRFunc, shiftLeft, shiftRight, complement] using value
  have number : (bitrrot a.toNat (0 : BitVec 64).toNat).solution = (a.toNat : Int) := by
    unfold bitrrot
    rw [rshift_natCast, rest_natCast (by decide), lshift_natCast]
    show ((a.toNat / 2 ^ 0 ||| (a.toNat * 2 ^ 64 &&& (2 ^ 64 - 1)) : Nat) : Int) = _
    rw [Nat.and_two_pow_sub_one_eq_mod, Nat.mul_mod_left, pow_zero, Nat.div_one, Nat.or_zero]
  rw [number, word, Int.natCast_inj, BitVec.toNat_inj]

/-- The server's word is the grader's number just under the condition of the
operator. -/
theorem value_alike_iff (ok : ∀ prior, op.func t a b prior = (0, v)) (count : HasCount op → b.toNat ≤ 63) :
    readAs op v = (method op (readAs op a) (readAs op b)).solution ↔ Alike t op a b := by
  by_cases zero : b = 0
  · subst zero
    cases op with
    | SHL64 => exact lshift_alike_iff (count trivial) ok
    | SHR64 => exact iff_of_true (rshift_alike (count trivial) ok) trivial
    | ROL64 => exact rotated_left_zero ok
    | ROR64 => exact rotated_right_zero ok
    | _ => exact solution_alike_iff ok False.elim
  · have positive : 1 ≤ b.toNat := by
      refine Nat.pos_of_ne_zero fun none => zero ?_
      exact BitVec.eq_of_toNat_eq none
    rw [solution_alike_iff ok fun has => ⟨positive, count has⟩]
    cases op with
    | ROL64 => rw [Alike, if_neg zero]
    | ROR64 => rw [Alike, if_neg zero]
    | _ => rfl

end Counts

/-! ## The two files -/

/-- What the grader unpacks from a file header. -/
def UnpackedHeader.ofFile (header : Net.FileHeader) : UnpackedHeader where
  magic := header.magic.toNat
  fileid := header.fileId.toNat
  numequ := header.numEquations.toNat
  flag := header.isSolved.toNat
  offset := header.offset.toNat
  numopt := header.reserved.toNat

/-- The header marked as solved, and the answers to the equations up to the
first that has none. -/
def solvedFile (t : Target) (n : Nat) (file stream : List Byte) : List Byte :=
  file.set 20 1 ++ (answered (Net.answer t) Net.EQUATION_SIZE n stream).flatten

/-- The `i`-th equation. -/
def equationAt (stream : List Byte) (i : Nat) : Net.Equation :=
  Net.Equation.ofBytes (block Net.EQUATION_SIZE i stream)

/-- Every equation can be solved. -/
def AllSolvable (t : Target) (n : Nat) (stream : List Byte) : Prop :=
  ∀ i, i < n → Net.Solvable t (block Net.EQUATION_SIZE i stream)

/-- Every equation is solved alike. -/
def AllAlike (t : Target) (n : Nat) (stream : List Byte) : Prop :=
  ∀ i op, i < n → Op.ofByte? (equationAt stream i).operator = some op →
    Alike t op (equationAt stream i).num1 (equationAt stream i).num2

/-- No count is beyond the width. -/
def CountsBelow (n : Nat) (stream : List Byte) : Prop :=
  ∀ i op, i < n → Op.ofByte? (equationAt stream i).operator = some op → HasCount op →
    (equationAt stream i).num2.toNat ≤ 63

section Files
variable {t : Target} {n i : Nat} {file stream rest : List Byte}

/-- The grader reads the header the server reads. -/
theorem unpack_file (width : file.length = Net.HEADER_SIZE) (rest : List Byte) :
    UnpackedHeader.unpack (file ++ rest) = some (.ofFile (Net.FileHeader.ofBytes file)) := by
  unfold Net.HEADER_SIZE at width
  have field : ∀ {size offset w : Nat}, offset + size ≤ 27 → w = 8 * size →
      unpackFrom size offset (file ++ rest) = some (decode w (slice offset size file)).toNat := by
    intro size offset w room wide
    rw [unpackFrom_eq (by rw [List.length_append]; omega), slice_left (by omega),
      valueOf_slice (by omega) wide]
  have flag : (file ++ rest)[20]? = some (decode 8 (slice 20 1 file)) := by
    have one : slice 20 1 file = [file[20]] := by
      rw [slice, List.drop_eq_getElem_cons (by omega)]
      rfl
    rw [List.getElem?_append_left (by omega), List.getElem?_eq_getElem (by omega), one]
    simp [decode, valueOf]
  unfold UnpackedHeader.unpack
  rw [field (w := 32) (by decide) rfl, field (w := 64) (by decide) rfl, field (w := 64) (by decide) rfl, flag,
    field (w := 32) (by decide) rfl, field (w := 16) (by decide) rfl]
  rfl

/-- Marked as solved, it says the same otherwise. -/
theorem unpack_solved (width : file.length = Net.HEADER_SIZE) (rest : List Byte) :
    UnpackedHeader.unpack (file.set 20 1 ++ rest) =
      some (.ofFile { Net.FileHeader.ofBytes file with isSolved := 1 }) := by
  rw [unpack_file (by rw [List.length_set, width]), ← Net.FileHeader.solved_toBytes width,
    Net.FileHeader.ofBytes_toBytes]

/-- Where the pieces start. -/
theorem slice_behind (width : file.length = Net.HEADER_SIZE) (size : Nat) :
    slice (i * size + 27) size (file ++ rest) = block size i rest := by
  unfold Net.HEADER_SIZE at width
  rw [slice_past width (by omega), Nat.add_sub_cancel, Nat.mul_comm]
  rfl

/-- Every answer is as long as the others. -/
theorem answers_length (n : Nat) (stream : List Byte) :
    ∀ record ∈ answered (Net.answer t) Net.EQUATION_SIZE n stream, record.length = Net.SOLUTION_SIZE := by
  intro record member
  obtain ⟨i, here⟩ := List.mem_iff_getElem?.mp member
  exact Net.answer_length (answered_each here)

/-- A solved equation's value is right just where the two solve it alike. -/
theorem right_value_iff {op : Op} (size : (block Net.EQUATION_SIZE i stream).length = 32)
    (known : Op.ofByte? (equationAt stream i).operator = some op)
    (count : HasCount op → (equationAt stream i).num2.toNat ≤ 63) {record : List Byte}
    (solved : Net.answer t (block Net.EQUATION_SIZE i stream) = some record) :
    ∃ e given, Equation.unpack (block Net.EQUATION_SIZE i stream) = some e ∧
      Solution.unpack record = some given ∧
      (given.solution = (Solution.solve e).solution ↔
        Alike t op (equationAt stream i).num1 (equationAt stream i).num2) := by
  obtain ⟨op', v, known', ok, bytes⟩ := Net.answer_correct solved
  obtain rfl : op' = op := Option.some.inj (known'.symm.trans known)
  refine ⟨_, _, unpack_equation size known, unpack_record bytes, ?_⟩
  refine Iff.trans ?_ (value_alike_iff ok count)
  unfold Solution.solve
  rw [operations_val]
  rfl

section Graded
variable (width : file.length = Net.HEADER_SIZE) (offset : (Net.FileHeader.ofBytes file).offset = 27)
include width offset

theorem unsolvedAt_eq (i : Nat) :
    unsolvedAt (file ++ stream) (.ofFile (Net.FileHeader.ofBytes file)) i =
      Equation.unpack (block Net.EQUATION_SIZE i stream) := by
  unfold unsolvedAt UnpackedHeader.ofFile
  rw [offset]
  exact congrArg Equation.unpack (slice_behind width fulleqlen)

/-- An answer is where the grader looks for it. -/
theorem solvedAt_record {record : List Byte}
    (here : (answered (Net.answer t) Net.EQUATION_SIZE n stream)[i]? = some record) :
    solvedAt (solvedFile t n file stream) (.ofFile (Net.FileHeader.ofBytes file)) i = Solution.unpack record := by
  unfold solvedAt UnpackedHeader.ofFile
  rw [offset]
  refine congrArg Solution.unpack ?_
  refine (slice_behind (by rw [List.length_set, width]) solutionlen).trans ?_
  exact block_flatten (answers_length n stream) here

/-- Beyond the last answer there is nothing to unpack. -/
theorem solvedAt_beyond (beyond : (answered (Net.answer t) Net.EQUATION_SIZE n stream).length ≤ i) :
    solvedAt (solvedFile t n file stream) (.ofFile (Net.FileHeader.ofBytes file)) i = none := by
  have flat : (answered (Net.answer t) Net.EQUATION_SIZE n stream).flatten.length ≤ 14 * i := by
    rw [List.length_flatten, List.map_congr_left (answers_length n stream), List.map_const',
      List.sum_replicate_nat, Nat.mul_comm]
    exact Nat.mul_le_mul_left 14 beyond
  have nothing : block solutionlen i (answered (Net.answer t) Net.EQUATION_SIZE n stream).flatten = [] := by
    unfold block solutionlen
    rw [List.drop_of_length_le flat, List.take_nil]
  unfold solvedAt UnpackedHeader.ofFile
  rw [offset]
  have place : slice (i * solutionlen + 27) solutionlen (solvedFile t n file stream) = _ :=
    slice_behind (by rw [List.length_set, width]) solutionlen
  rw [nothing] at place
  exact congrArg Solution.unpack place

/-- When everything can be solved, everything unpacks. -/
theorem unpacks_of_solvable (announced : (Net.FileHeader.ofBytes file).numEquations.toNat = n)
    (complete : stream.length = Net.EQUATION_SIZE * n) (counts : CountsBelow n stream)
    (solvable : AllSolvable t n stream) :
    Unpacks (file ++ stream) (solvedFile t n file stream) (.ofFile (Net.FileHeader.ofBytes file))
        (.ofFile { Net.FileHeader.ofBytes file with isSolved := 1 }) ∧
      (RightValues (file ++ stream) (solvedFile t n file stream) (.ofFile (Net.FileHeader.ofBytes file)) ↔
        AllAlike t n stream) := by
  have full : (answered (Net.answer t) Net.EQUATION_SIZE n stream).length = n :=
    (answered_all_iff complete.ge).mpr fun i small => Net.answer_isSome_iff.mpr (solvable i small)
  have each : ∀ i, i < n → ∃ op e given, Op.ofByte? (equationAt stream i).operator = some op ∧
      unsolvedAt (file ++ stream) (.ofFile (Net.FileHeader.ofBytes file)) i = some e ∧
      solvedAt (solvedFile t n file stream) (.ofFile (Net.FileHeader.ofBytes file)) i = some given ∧
      (given.solution = (Solution.solve e).solution ↔
        Alike t op (equationAt stream i).num1 (equationAt stream i).num2) := by
    intro i small
    obtain ⟨record, solved⟩ := Option.isSome_iff_exists.mp (Net.answer_isSome_iff.mpr (solvable i small))
    obtain ⟨op, known, _⟩ := solvable i small
    have size : (block Net.EQUATION_SIZE i stream).length = 32 :=
      block_length (by rw [complete]; exact Nat.mul_le_mul_left _ small)
    obtain ⟨e, given, unpacked, found, right⟩ := right_value_iff size known (counts i op small known) solved
    have here : (answered (Net.answer t) Net.EQUATION_SIZE n stream)[i]? = some record := by
      rw [List.getElem?_eq_getElem (by omega)]
      have found := answered_each (List.getElem?_eq_getElem
        (show i < (answered (Net.answer t) Net.EQUATION_SIZE n stream).length by omega))
      rw [solved] at found
      exact found.symm
    refine ⟨op, e, given, known, ?_, ?_, right⟩
    · rw [unsolvedAt_eq width offset, unpacked]
    · rw [solvedAt_record width offset here, found]
  have numequ : (UnpackedHeader.ofFile (Net.FileHeader.ofBytes file)).numequ = n := announced
  refine ⟨⟨unpack_file width stream, unpack_solved width _, ?_, ?_⟩, ?_⟩
  · intro i small
    rw [numequ] at small
    obtain ⟨_, e, _, _, unpacked, _⟩ := each i small
    rw [unpacked]
    rfl
  · intro i small
    rw [numequ] at small
    obtain ⟨_, _, given, _, _, found, _⟩ := each i small
    rw [found]
    rfl
  · constructor
    · intro right i op small known
      obtain ⟨op', e, given, known', unpacked, found, alike⟩ := each i small
      obtain rfl : op' = op := Option.some.inj (known'.symm.trans known)
      exact alike.mp (right i e given (by rw [numequ]; exact small) unpacked found)
    · intro all_alike i e given small unpacked found
      rw [numequ] at small
      obtain ⟨op, e', given', known, unpacked', found', alike⟩ := each i small
      obtain rfl : e' = e := Option.some.inj (unpacked'.symm.trans unpacked)
      obtain rfl : given' = given := Option.some.inj (found'.symm.trans found)
      exact alike.mpr (all_alike i op small known)

/-- An answer that is missing cannot be unpacked. -/
theorem fail_of_unsolvable (announced : (Net.FileHeader.ofBytes file).numEquations.toNat = n)
    (complete : stream.length = Net.EQUATION_SIZE * n) (unsolvable : ¬AllSolvable t n stream) :
    EquGrader.fail (file ++ stream) (solvedFile t n file stream) = none := by
  apply fail_none
  intro inheader solheader unpacks
  obtain rfl : _ = inheader := Option.some.inj ((unpack_file width stream).symm.trans unpacks.infile)
  have short : (answered (Net.answer t) Net.EQUATION_SIZE n stream).length < n := by
    refine lt_of_le_of_ne (answered_length ..).1 fun full => unsolvable fun i small => ?_
    exact Net.answer_isSome_iff.mp ((answered_all_iff complete.ge).mp full i small)
  have numequ : (UnpackedHeader.ofFile (Net.FileHeader.ofBytes file)).numequ = n := announced
  have there := unpacks.solutions _ (short.trans_eq numequ.symm)
  rw [solvedAt_beyond width offset le_rfl] at there
  cases there

/-- **How a solved file is graded.** Take any header that says the equations
start behind it, any number of equations with counts below the width, and what
the server or the file calculator makes of them. The grader raises exactly when
one of them cannot be solved; it passes the file exactly when, besides, each is
solved alike; and it fails the file once otherwise. -/
theorem answers_graded (t : Target) (n : Nat) (announced : (Net.FileHeader.ofBytes file).numEquations.toNat = n)
    (complete : stream.length = Net.EQUATION_SIZE * n) (counts : CountsBelow n stream) :
    (EquGrader.fail (file ++ stream) (solvedFile t n file stream) = none ↔ ¬AllSolvable t n stream) ∧
      (EquGrader.fail (file ++ stream) (solvedFile t n file stream) = some 0 ↔
        AllSolvable t n stream ∧ AllAlike t n stream) ∧
      (EquGrader.fail (file ++ stream) (solvedFile t n file stream) = some 1 ↔
        AllSolvable t n stream ∧ ¬AllAlike t n stream) := by
  by_cases solvable : AllSolvable t n stream
  · obtain ⟨unpacks, right⟩ := unpacks_of_solvable width offset announced complete counts solvable
    have matching : (UnpackedHeader.ofFile (Net.FileHeader.ofBytes file)).Matches
        (.ofFile { Net.FileHeader.ofBytes file with isSolved := 1 }) := ⟨rfl, rfl, rfl, rfl, rfl⟩
    have passes := fail_zero_iff unpacks
    have fails := fail_one_iff unpacks
    rw [right] at passes fails
    simp only [matching, true_and] at passes fails
    refine ⟨?_, by simp only [solvable, true_and, passes], by simp only [solvable, true_and, fails]⟩
    refine iff_of_false (fun raised => ?_) (not_not.mpr solvable)
    rw [raised] at passes fails
    by_cases alike : AllAlike t n stream
    · cases passes.mpr alike
    · cases fails.mpr alike
  · rw [fail_of_unsolvable width offset announced complete solvable]
    simp [solvable]

end Graded

end Files

end NetCalc.Grader
