import NetCalc.Common.ShiftRotate
import NetCalc.Common.SignedMath
import NetCalc.Net.Answers
import NetCalc.Net.Grader

/-!
# Do the server and the grader agree?

The server computes with words of 64 bits, the grader with Python's integers.
They solve an equation alike (`solved_alike_iff`) where the word has room for
what Python computes and where rounding down is rounding to zero.
-/

namespace NetCalc.Grader

set_option autoImplicit false
open NetCalc.Lib

/-- The method of an operator. -/
def method : Op → Int → Int → Done
  | .ADD64 => add
  | .SUB64 => subtract
  | .MULT64 => multiply
  | .DIV64 => divide
  | .MOD64 => mod
  | .SHL64 => bitlshift
  | .SHR64 => bitrshift
  | .AND64 => bitand
  | .OR64 => bitor
  | .XOR64 => bitxor
  | .ROL64 => bitlrot
  | .ROR64 => bitrrot

/-- An operand or a result, as its operator's data code has it read. -/
def readAs (op : Op) (x : BitVec 64) : Int := if op.val ≤ 5 then x.toInt else x.toNat

/-- `data_code`. -/
def dataCode (op : Op) : Nat := if op.val ≤ 5 then 1 else 2

/-- Shifts and rotations. -/
def HasCount : Op → Prop
  | .SHL64 | .SHR64 | .ROL64 | .ROR64 => True
  | _ => False

/-- Where the two solve an equation alike: the difference is not `2 ^ 63`, which
the server's `validate_sub` lets through; the quotient is exact or not
negative; no bit is shifted out of the word, which Python does not have. -/
def AlikeWhen (op : Op) (a b : BitVec 64) : Prop :=
  match op with
  | .SUB64 => a.toInt - b.toInt ≠ 2 ^ 63
  | .DIV64 | .MOD64 => b.toInt ∣ a.toInt ∨ (0 ≤ a.toInt ↔ 0 < b.toInt)
  | .SHL64 | .ROL64 => a.toNat * 2 ^ b.toNat < 2 ^ 64
  | _ => True

/-- The server's record of an equation, unpacked, and the grader's own solution
of the equation have the same id, data code and solution. -/
def Agree (equation record : List Byte) : Prop :=
  ∃ e given, Equation.unpack equation = some e ∧ Solution.unpack record = some given ∧
    given.id = (Solution.solve e).id ∧ given.dataCode = (Solution.solve e).dataCode ∧
    given.solution = (Solution.solve e).solution

/-! ## The records -/

section Records
variable {t : Target} {data record : List Byte} {op : Op}

theorem unpackFrom_eq {size offset : Nat} (room : offset + size ≤ data.length) :
    unpackFrom size offset data = some (valueOf (slice offset size data)) := if_pos room

/-- A field's value is that of its word. -/
theorem valueOf_slice {w k offset : Nat} (room : offset + k ≤ data.length) (width : w = 8 * k) :
    valueOf (slice offset k data) = (decode w (slice offset k data)).toNat := by
  rw [← valueOf_encode _ width, encode_decode _ width (slice_length room)]

theorem signed_toNat (x : BitVec 64) : signed x.toNat = x.toInt := by
  rw [signed, BitVec.ofNat_toNat, BitVec.setWidth_eq]

theorem operations_val (op : Op) : operations op.val.toNat = some (method op) := by
  cases op <;> rfl

/-- What the grader unpacks from an equation the server can solve. -/
theorem unpack_equation (size : data.length = 32)
    (known : Op.ofByte? (Net.Equation.ofBytes data).operator = some op) :
    Equation.unpack data = some ⟨(Net.Equation.ofBytes data).equationId.toNat,
      readAs op (Net.Equation.ofBytes data).num1, op.val.toNat, readAs op (Net.Equation.ofBytes data).num2,
      dataCode op⟩ := by
  have value := Op.ofVal?_val known
  have operator : valueOf (slice 13 1 data) = op.val.toNat := by
    rw [valueOf_slice (w := 8) (k := 1) (by omega) rfl, value]
    rfl
  have id : valueOf (slice 0 4 data) = (Net.Equation.ofBytes data).equationId.toNat :=
    valueOf_slice (by omega) rfl
  have num1 : valueOf (slice 5 8 data) = (Net.Equation.ofBytes data).num1.toNat := valueOf_slice (by omega) rfl
  have num2 : valueOf (slice 14 8 data) = (Net.Equation.ofBytes data).num2.toNat := valueOf_slice (by omega) rfl
  unfold Equation.unpack
  rw [unpackFrom_eq (by omega), unpackFrom_eq (by omega), unpackFrom_eq (by omega), unpackFrom_eq (by omega),
    unpackFrom_eq (by omega), operator, id, num1, num2]
  cases op <;> simp [Op.val, readAs, dataCode, signed_toNat]

/-- What it unpacks from the record of a solution. -/
theorem unpack_record {id : BitVec 32} {solution : BitVec 64}
    (bytes : record = encode 4 id ++ [1] ++ [if op.val ≤ 5 then 1 else 2] ++ encode 8 solution) :
    Solution.unpack record = some ⟨id.toNat, 1, dataCode op, readAs op solution⟩ := by
  have size : record.length = 14 := by simp [bytes]
  have idField : slice 0 4 record = encode 4 id := by
    rw [bytes, List.append_assoc, List.append_assoc]
    exact slice_here (encode_length _)
  have flagField : slice 4 1 record = [1] := by
    rw [bytes, List.append_assoc, List.append_assoc, slice_past (encode_length _) (by decide)]
    exact slice_here rfl
  have codeField : slice 5 1 record = [if op.val ≤ 5 then 1 else 2] := by
    rw [bytes, List.append_assoc, List.append_assoc, slice_past (encode_length _) (by decide),
      slice_past (n := 1) rfl (by decide)]
    exact slice_here rfl
  have solutionField : slice 6 8 record = encode 8 solution := by
    rw [bytes, List.append_assoc, List.append_assoc, slice_past (encode_length _) (by decide),
      slice_past (n := 1) rfl (by decide), slice_past (n := 1) rfl (by decide)]
    exact slice_all (encode_length _)
  unfold Solution.unpack
  rw [unpackFrom_eq (by omega), unpackFrom_eq (by omega), unpackFrom_eq (by omega), unpackFrom_eq (by omega),
    idField, flagField, codeField, solutionField, valueOf_encode (k := 4) id rfl,
    valueOf_encode (k := 8) solution rfl]
  cases op <;> simp [Op.val, readAs, dataCode, signed_toNat, valueOf]

end Records

/-! ## Signed numbers -/

section Signed
variable {a b v : BitVec 64} {x y : Int}

/-- Rounding to zero is rounding down where the quotient is exact or not negative. -/
theorem tdiv_eq_fdiv_iff (nonzero : y ≠ 0) : x.tdiv y = x.fdiv y ↔ y ∣ x ∨ (0 ≤ x ↔ 0 < y) := by
  rw [Int.fdiv_eq_tdiv]
  by_cases exactly : y ∣ x
  · simp [exactly]
  rw [if_neg exactly]
  rcases Int.lt_or_lt_of_ne nonzero with negative | positive
  · rw [Int.sign_eq_neg_one_of_neg negative]
    split <;> split <;> omega
  · rw [Int.sign_eq_one_of_pos positive]
    split <;> split <;> omega

/-- So are the remainders the same. -/
theorem tmod_eq_fmod_iff (nonzero : y ≠ 0) : x.tmod y = x.fmod y ↔ y ∣ x ∨ (0 ≤ x ↔ 0 < y) := by
  rw [Int.fmod_eq_tmod]
  by_cases exactly : y ∣ x
  · simp [exactly]
  rw [if_neg exactly]
  split <;> split <;> omega

theorem ranged_solution (solution : Int) : (ranged solution).solution = solution := rfl

theorem add_alike (ok : ∀ prior, addFunc a b prior = (0, v)) :
    v.toInt = (add a.toInt b.toInt).solution := by
  have exactly := add_exact (by decide) a b
  have fits := (exactly.accepts 0).mp (by rw [ok])
  have answer := exactly.answers 0 fits
  rw [ok] at answer
  exact answer

theorem multiply_alike (ok : ∀ prior, multFunc a b prior = (0, v)) :
    v.toInt = (multiply a.toInt b.toInt).solution := by
  have exactly := (multExact (by decide) a b).exact
  have fits := (exactly.accepts 0).mp (by rw [ok])
  have answer := exactly.answers 0 fits
  rw [ok] at answer
  exact answer

theorem subtract_alike_iff (ok : ∀ prior, subFunc a b prior = (0, v)) :
    v.toInt = (subtract a.toInt b.toInt).solution ↔ a.toInt - b.toInt ≠ 2 ^ 63 := by
  have valid : validateSub a b = 0 := subFunc_ok.mp (by rw [ok 0])
  have word : v = BitVec.ofInt 64 (a.toInt - b.toInt) := by
    have answer := ok 0
    unfold subFunc at answer
    dsimp only at answer
    rw [if_neg (not_not.mpr valid)] at answer
    exact (congrArg Prod.snd answer).symm
  have fits_iff : v.toInt = a.toInt - b.toInt ↔ Fits 64 (a.toInt - b.toInt) := by
    constructor
    · intro same
      rw [← same]
      exact fits_toInt v
    · intro fits
      rw [word]
      exact toInt_ofInt_of_fits (by decide) fits
  have decides := validateSub_decides_iff (a := a) (b := b)
  rw [valid] at decides
  show v.toInt = a.toInt - b.toInt ↔ _
  rw [fits_iff]
  have low : intMin 64 = -2 ^ 63 := rfl
  have high : intMax 64 = 2 ^ 63 - 1 := rfl
  unfold Fits at decides ⊢
  rw [low, high] at decides ⊢
  constructor
  · intro fits
    omega
  · intro other
    by_cases least : a.toInt - b.toInt = -2 ^ 63
    · omega
    · exact (decides.mpr ⟨by omega, least⟩).mp rfl

theorem divide_alike_iff (ok : ∀ prior, divFunc a b prior = (0, v)) :
    v.toInt = (divide a.toInt b.toInt).solution ↔ b.toInt ∣ a.toInt ∨ (0 ≤ a.toInt ↔ 0 < b.toInt) := by
  obtain ⟨nonzero, quotient⟩ := divFunc_computes (by decide) 0 (by rw [ok 0] : (divFunc a b 0).1 = 0)
  rw [ok 0] at quotient
  unfold divide
  rw [if_neg nonzero, ranged_solution, ← tdiv_eq_fdiv_iff nonzero]
  show v.toInt = _ ↔ _
  rw [show v.toInt = a.toInt.tdiv b.toInt from quotient]

theorem mod_alike_iff (ok : ∀ prior, modFunc a b prior = (0, v)) :
    v.toInt = (mod a.toInt b.toInt).solution ↔ b.toInt ∣ a.toInt ∨ (0 ≤ a.toInt ↔ 0 < b.toInt) := by
  have nonzero : b.toInt ≠ 0 := modFunc_ok.mp (by rw [ok 0] : (modFunc a b 0).1 = 0)
  have remainder := modFunc_computes (by decide) 0 nonzero (a := a)
  rw [ok 0] at remainder
  unfold mod
  rw [if_neg nonzero, ranged_solution, ← tmod_eq_fmod_iff nonzero]
  rw [show v.toInt = a.toInt.tmod b.toInt from remainder]

end Signed

/-! ## Unsigned numbers -/

section Unsigned
variable {t : Target} {a b v : BitVec 64}

theorem lshift_natCast (x n : Nat) : lshift x n = some ((x * 2 ^ n : Nat) : Int) := by
  unfold lshift
  rw [if_neg (by omega), Int.toNat_natCast]
  push_cast
  rfl

theorem rshift_natCast (x n : Nat) : rshift x n = some ((x / 2 ^ n : Nat) : Int) := by
  unfold rshift
  rw [if_neg (by omega), Int.toNat_natCast]
  push_cast
  rfl

/-- A word does not hold what is shifted out of it. -/
theorem lshift_alike_iff (small : b.toNat ≤ 63) (ok : ∀ prior, shiftLFunc t a b prior = (0, v)) :
    (v.toNat : Int) = (bitlshift a.toNat b.toNat).solution ↔ a.toNat * 2 ^ b.toNat < 2 ^ 64 := by
  have value : (shiftLFunc t a b 0).2 = _ := shiftLFunc_value t (Nat.lt_succ_of_le small)
  rw [ok 0] at value
  have word : v.toNat = a.toNat * 2 ^ b.toNat % 2 ^ 64 := by
    rw [show v = _ from value, BitVec.toNat_ofNat]
  unfold bitlshift
  rw [lshift_natCast, word]
  show ((_ : Nat) : Int) = ((_ : Nat) : Int) ↔ _
  rw [Int.natCast_inj]
  exact ⟨fun same => same ▸ Nat.mod_lt _ (by decide), Nat.mod_eq_of_lt⟩

theorem rshift_alike (small : b.toNat ≤ 63) (ok : ∀ prior, shiftRFunc t a b prior = (0, v)) :
    (v.toNat : Int) = (bitrshift a.toNat b.toNat).solution := by
  have value : (shiftRFunc t a b 0).2 = _ := shiftRFunc_value t (Nat.lt_succ_of_le small)
  rw [ok 0] at value
  have fits : a.toNat / 2 ^ b.toNat < 2 ^ 64 := Nat.lt_of_le_of_lt (Nat.div_le_self ..) a.isLt
  unfold bitrshift
  rw [rshift_natCast, show v = _ from value, BitVec.toNat_ofNat, Nat.mod_eq_of_lt fits]
  rfl

theorem bitand_alike (ok : ∀ prior, andFunc a b prior = (0, v)) :
    (v.toNat : Int) = (bitand a.toNat b.toNat).solution := by
  have word : v = a &&& b := (congrArg Prod.snd (ok 0)).symm
  rw [word, BitVec.toNat_and]
  rfl

theorem bitor_alike (ok : ∀ prior, orFunc a b prior = (0, v)) :
    (v.toNat : Int) = (bitor a.toNat b.toNat).solution := by
  have word : v = a ||| b := (congrArg Prod.snd (ok 0)).symm
  rw [word, BitVec.toNat_or]
  rfl

theorem bitxor_alike (ok : ∀ prior, xorFunc a b prior = (0, v)) :
    (v.toNat : Int) = (bitxor a.toNat b.toNat).solution := by
  have word : v = a ^^^ b := (congrArg Prod.snd (ok 0)).symm
  rw [word, BitVec.toNat_xor]
  rfl

/-- The count that is left of the width. -/
theorem rest_natCast {n : Nat} (small : n ≤ 64) : (64 : Int) - n = ((64 - n : Nat) : Int) := by
  omega

theorem bitlrot_alike_iff (positive : 1 ≤ b.toNat) (small : b.toNat ≤ 63)
    (ok : ∀ prior, rotateLFunc t a b prior = (0, v)) :
    (v.toNat : Int) = (bitlrot a.toNat b.toNat).solution ↔ a.toNat * 2 ^ b.toNat < 2 ^ 64 := by
  have value : (rotateLFunc t a b 0).2 = _ := rotateLFunc_value t positive (Nat.lt_succ_of_le small)
  rw [ok 0] at value
  have word : v.toNat = a.toNat * 2 ^ b.toNat % 2 ^ 64 ||| a.toNat / 2 ^ (64 - b.toNat) := by
    rw [show v = _ from value, BitVec.toNat_rotateLeft, Nat.mod_eq_of_lt (Nat.lt_succ_of_le small),
      Nat.shiftLeft_eq, Nat.shiftRight_eq_div_pow]
  have unmasked : (bitlrot a.toNat b.toNat).solution =
      ((a.toNat * 2 ^ b.toNat ||| a.toNat / 2 ^ (64 - b.toNat) : Nat) : Int) := by
    unfold bitlrot
    rw [lshift_natCast, rest_natCast (by omega), rshift_natCast]
    rfl
  rw [unmasked, Int.natCast_inj]
  constructor
  · intro same
    have bound := v.isLt
    rw [same] at bound
    exact Nat.lt_of_le_of_lt Nat.left_le_or bound
  · intro room
    rw [word, Nat.mod_eq_of_lt room]

theorem bitrrot_alike (positive : 1 ≤ b.toNat) (small : b.toNat ≤ 63)
    (ok : ∀ prior, rotateRFunc t a b prior = (0, v)) :
    (v.toNat : Int) = (bitrrot a.toNat b.toNat).solution := by
  have value : (rotateRFunc t a b 0).2 = _ := rotateRFunc_value t positive (Nat.lt_succ_of_le small)
  rw [ok 0] at value
  have word : v.toNat = a.toNat / 2 ^ b.toNat ||| a.toNat * 2 ^ (64 - b.toNat) % 2 ^ 64 := by
    rw [show v = _ from value, BitVec.toNat_rotateRight, Nat.mod_eq_of_lt (Nat.lt_succ_of_le small),
      Nat.shiftLeft_eq, Nat.shiftRight_eq_div_pow]
  have masked : (bitrrot a.toNat b.toNat).solution =
      ((a.toNat / 2 ^ b.toNat ||| (a.toNat * 2 ^ (64 - b.toNat) &&& (2 ^ 64 - 1)) : Nat) : Int) := by
    unfold bitrrot
    rw [rshift_natCast, rest_natCast (by omega), lshift_natCast]
    rfl
  rw [masked, Nat.and_two_pow_sub_one_eq_mod, word]

end Unsigned

/-! ## Server and grader -/

/-- The words the server computes are the numbers the grader computes just under
the condition of their operator. -/
theorem solution_alike_iff {t : Target} {op : Op} {a b v : BitVec 64}
    (ok : ∀ prior, op.func t a b prior = (0, v)) (count : HasCount op → 1 ≤ b.toNat ∧ b.toNat ≤ 63) :
    readAs op v = (method op (readAs op a) (readAs op b)).solution ↔ AlikeWhen op a b := by
  cases op with
  | ADD64 => exact iff_of_true (add_alike ok) trivial
  | SUB64 => exact subtract_alike_iff ok
  | MULT64 => exact iff_of_true (multiply_alike ok) trivial
  | DIV64 => exact divide_alike_iff ok
  | MOD64 => exact mod_alike_iff ok
  | SHL64 => exact lshift_alike_iff (count trivial).2 ok
  | SHR64 => exact iff_of_true (rshift_alike (count trivial).2 ok) trivial
  | AND64 => exact iff_of_true (bitand_alike ok) trivial
  | OR64 => exact iff_of_true (bitor_alike ok) trivial
  | XOR64 => exact iff_of_true (bitxor_alike ok) trivial
  | ROL64 => exact bitlrot_alike_iff (count trivial).1 (count trivial).2 ok
  | ROR64 => exact iff_of_true (bitrrot_alike (count trivial).1 (count trivial).2 ok) trivial

/-- **Server and grader agree where words are numbers.** For every equation of
32 bytes with an operator of the table, any two operands (for a shift or a
rotation, a count from 1 to 63) and the record with which the server answers
it: the grader unpacks from the record the id, the data code and the solution
that it finds itself, if and only if the operator's condition holds. -/
theorem solved_alike_iff (t : Target) (equation record : List Byte) (op : Op) (size : equation.length = 32)
    (known : Op.ofByte? (Net.Equation.ofBytes equation).operator = some op)
    (count : HasCount op → 1 ≤ (Net.Equation.ofBytes equation).num2.toNat ∧
      (Net.Equation.ofBytes equation).num2.toNat ≤ 63)
    (solved : Net.answer t equation = some record) :
    Agree equation record ↔
      AlikeWhen op (Net.Equation.ofBytes equation).num1 (Net.Equation.ofBytes equation).num2 := by
  obtain ⟨op', v, known', ok, bytes⟩ := Net.answer_correct solved
  rw [known] at known'
  cases known'
  have unpacked := unpack_equation size known
  have given := unpack_record bytes
  rw [← solution_alike_iff ok count]
  have own : Solution.solve ⟨(Net.Equation.ofBytes equation).equationId.toNat,
      readAs op (Net.Equation.ofBytes equation).num1, op.val.toNat,
      readAs op (Net.Equation.ofBytes equation).num2, dataCode op⟩ =
      ⟨(Net.Equation.ofBytes equation).equationId.toNat, EQ_SOLVED, dataCode op,
        (method op (readAs op (Net.Equation.ofBytes equation).num1)
          (readAs op (Net.Equation.ofBytes equation).num2)).solution⟩ := by
    unfold Solution.solve
    rw [operations_val]
  constructor
  · rintro ⟨e, s, found, found', _, _, same⟩
    rw [unpacked] at found
    cases found
    rw [given] at found'
    cases found'
    rw [own] at same
    exact same
  · intro same
    refine ⟨_, _, unpacked, given, ?_⟩
    rw [own]
    exact ⟨rfl, rfl, same⟩

/-- A target, for equations that ask nothing of it. -/
def noTarget : Target := ⟨fun _ _ _ => 0, fun _ _ _ => 0⟩

/-- `7 / 2`, as an equation. -/
def sevenHalves : List Byte := (⟨7, 0, 7, 4, 2⟩ : Net.Equation).toBytes

/-- The server's answer, `3`. -/
def threeAnswer : List Byte := encode 4 (7 : BitVec 32) ++ [1, 1] ++ encode 8 (3 : BitVec 64)

/-- Both divide `7` by `2` alike. -/
theorem solved_alike_division :
    sevenHalves.length = 32 ∧ Op.ofByte? (Net.Equation.ofBytes sevenHalves).operator = some .DIV64 ∧
      Net.answer noTarget sevenHalves = some threeAnswer ∧ Agree sevenHalves threeAnswer :=
  ⟨by decide, by decide, by decide,
    (solved_alike_iff noTarget sevenHalves threeAnswer .DIV64 (by decide) (by decide)
      (fun count => False.elim count) (by decide)).mpr (.inr (by decide))⟩

/-- The highest bit rotated left by one: the server's word is `1`, the grader's
number `2 ^ 64 + 1`. -/
theorem highest_bit_rotated :
    Net.answer noTarget (⟨7, 0, 9223372036854775808, 11, 1⟩ : Net.Equation).toBytes =
        some (encode 4 (7 : BitVec 32) ++ [1, 2] ++ encode 8 (1 : BitVec 64)) ∧
      ¬Agree (⟨7, 0, 9223372036854775808, 11, 1⟩ : Net.Equation).toBytes
        (encode 4 (7 : BitVec 32) ++ [1, 2] ++ encode 8 (1 : BitVec 64)) := by
  have unpacked : Equation.unpack (⟨7, 0, 9223372036854775808, 11, 1⟩ : Net.Equation).toBytes =
      some ⟨7, 9223372036854775808, 11, 1, 2⟩ := by decide
  have given : Solution.unpack (encode 4 (7 : BitVec 32) ++ [1, 2] ++ encode 8 (1 : BitVec 64)) =
      some ⟨7, 1, 2, 1⟩ := by decide
  refine ⟨by decide, ?_⟩
  rintro ⟨e, s, found, found', _, _, same⟩
  rw [unpacked] at found
  cases found
  rw [given] at found'
  cases found'
  exact absurd same (by decide)

end NetCalc.Grader
