import NetCalc.Common.CalcHandle32
import NetCalc.Common.ShiftRotate
import NetCalc.Common.SignedMath

/-!
# What the operators mean

The functions of `math_funcs.c` and `math_funcs_thirty_two.c` work on words. As
operations on integers they are the same twelve at each width: the first five
answer with the integer result if a word of the width can hold it, and with
nothing otherwise; the others are operations on the binary digits of numbers
that are not negative (`meaning`).

At both widths an operator's function computes its meaning wherever C defines
what it does and `validate_sub` is not off by one (`Op.funcAt_means`). A wider
word does not change a result, it has room for more of them (`meaning_narrow`).
-/

namespace NetCalc

set_option autoImplicit false
open NetCalc.Lib

/-- The operators of signed numbers. -/
def Op.isSigned : Op → Bool
  | .ADD64 | .SUB64 | .MULT64 | .DIV64 | .MOD64 => true
  | _ => false

/-- A word as the number that an operator takes it for. -/
def Op.read {w : Nat} (op : Op) (x : BitVec w) : Int := if op.isSigned then x.toInt else x.toNat

/-- The numbers that an operator can be given in words of `w` bits. -/
def Op.InType (w : Nat) (op : Op) (v : Int) : Prop := if op.isSigned then Fits w v else 0 ≤ v ∧ v < 2 ^ w

instance (w : Nat) (op : Op) (v : Int) : Decidable (op.InType w v) := by
  unfold Op.InType
  infer_instance

/-- The result of an operator with `w` bits, if there is one. -/
def meaning (w : Nat) : Op → Int → Int → Option Int
  | .ADD64, x, y => C.value w (x + y)
  | .SUB64, x, y => C.value w (x - y)
  | .MULT64, x, y => C.value w (x * y)
  | .DIV64, x, y => if y = 0 then none else C.value w (x.tdiv y)
  | .MOD64, x, y => if y = 0 then none else some (x.tmod y)
  | .SHL64, x, y => some (x.toNat * 2 ^ y.toNat % 2 ^ w : Nat)
  | .SHR64, x, y => some (x.toNat / 2 ^ y.toNat : Nat)
  | .AND64, x, y => some (x.toNat &&& y.toNat : Nat)
  | .OR64, x, y => some (x.toNat ||| y.toNat : Nat)
  | .XOR64, x, y => some (x.toNat ^^^ y.toNat : Nat)
  | .ROL64, x, y => some (x.toNat * 2 ^ y.toNat % 2 ^ w ||| x.toNat / 2 ^ (w - y.toNat) : Nat)
  | .ROR64, x, y => some (x.toNat / 2 ^ y.toNat ||| x.toNat * 2 ^ (w - y.toNat) % 2 ^ w : Nat)

/-- Where an operator's function has no surprises: a count is below the width,
that of a rotation is not `0`, and a difference is not the one at which
`validate_sub` is off by one. -/
def Op.Plain (w : Nat) : Op → Int → Int → Prop
  | .SUB64, x, y => (x - y).natAbs ≠ 2 ^ (w - 1)
  | .SHL64, _, y | .SHR64, _, y => y < w
  | .ROL64, _, y | .ROR64, _, y => 0 < y ∧ y < w
  | _, _, _ => True

/-- The function of an operator at any width. -/
def Op.funcAt {w : Nat} (t : Target) : Op → MathFunc w
  | .ADD64 => addFunc
  | .SUB64 => subFunc
  | .MULT64 => multFunc
  | .DIV64 => divFunc
  | .MOD64 => modFunc
  | .SHL64 => shiftLFunc t
  | .SHR64 => shiftRFunc t
  | .AND64 => andFunc
  | .OR64 => orFunc
  | .XOR64 => xorFunc
  | .ROL64 => rotateLFunc t
  | .ROR64 => rotateRFunc t

/-- At 64 bits it is the one of `math_funcs.c`. -/
theorem Op.func_eq (t : Target) (op : Op) : op.func t = op.funcAt t := by
  cases op <;> rfl

/-- At 32 bits it is what the one of `math_funcs_thirty_two.c` leaves. -/
theorem Op.func32_eq (t : Target) (op : Op) : (op.func32 t).outcome = op.funcAt t := by
  cases op <;> rfl

/-! ## The functions compute the meaning -/

section Computes
variable {w : Nat} {a b prior : BitVec w} {op : Op}

/-- A function answers on two words what an operation on integers says: it
succeeds where there is a result, and its word is read as that result. -/
structure Means (op : Op) (answer : Int × BitVec w) (result : Option Int) : Prop where
  succeeds : answer.1 = 0 ↔ result.isSome = true
  value : ∀ r, result = some r → op.read answer.2 = r

/-- What is exact or refused has the meaning of the integer operation. -/
theorem ExactOrRefused.means {func : MathFunc w} {exact : Int} (signed : op.isSigned = true)
    (h : ExactOrRefused func a b exact) (prior : BitVec w) : Means op (func a b prior) (C.value w exact) where
  succeeds := (h.accepts prior).trans C.value_isSome_iff.symm
  value r found := by
    obtain ⟨fits, rfl⟩ := C.value_eq_some_iff.mp found
    rw [Op.read, if_pos signed]
    exact h.answers prior fits

/-- A function that always succeeds means its result. -/
theorem means_unsigned {answer : Int × BitVec w} {r : Nat} (unsigned : op.isSigned = false)
    (succeeds : answer.1 = 0) (value : answer.2.toNat = r) : Means op answer (some (r : Int)) where
  succeeds := iff_of_true succeeds rfl
  value r' found := by
    cases found
    rw [Op.read, unsigned, if_neg (by decide), value]

theorem divFunc_means (wide : 1 < w) (prior : BitVec w) : Means .DIV64 (divFunc a b prior)
    (if b.toInt = 0 then none else C.value w (a.toInt.tdiv b.toInt)) := by
  have accepts := (divModFit wide a b).div_accepts prior
  by_cases zero : b.toInt = 0
  · rw [if_pos zero]
    exact ⟨iff_of_false (fun ok => (accepts.mp ok).1 zero) (by decide), nofun⟩
  · rw [if_neg zero]
    have room : ¬(a.toInt = intMin w ∧ b.toInt = -1) ↔ Fits w (a.toInt.tdiv b.toInt) := by
      constructor
      · exact fits_tdiv (fits_toInt a)
      · rintro fits ⟨least, minus⟩
        have low := intMin_eq w
        rw [least, minus, Int.tdiv_neg, Int.tdiv_one] at fits
        unfold Fits at fits
        omega
    constructor
    · rw [accepts, C.value_isSome_iff, ← room]
      exact and_iff_right zero
    · intro r found
      obtain ⟨fits, rfl⟩ := C.value_eq_some_iff.mp found
      exact (divFunc_computes (by omega) prior (accepts.mpr ⟨zero, room.mpr fits⟩)).2

theorem modFunc_means (pos : 0 < w) (prior : BitVec w) : Means .MOD64 (modFunc a b prior)
    (if b.toInt = 0 then none else some (a.toInt.tmod b.toInt)) := by
  by_cases zero : b.toInt = 0
  · rw [if_pos zero]
    exact ⟨iff_of_false (fun ok => modFunc_ok.mp ok zero) (by decide), nofun⟩
  · rw [if_neg zero]
    refine ⟨iff_of_true (modFunc_ok.mpr zero) rfl, fun r found => ?_⟩
    cases found
    exact modFunc_computes pos prior zero

/-- **An operator's function computes what the operator means.** -/
theorem Op.funcAt_means (t : Target) (wide : 1 < w) (plain : op.Plain w (op.read a) (op.read b))
    (prior : BitVec w) : Means op (op.funcAt t a b prior) (meaning w op (op.read a) (op.read b)) := by
  cases op with
  | ADD64 => exact (add_exact (by omega) a b).means rfl prior
  | SUB64 => exact ((addSubExact_iff (by omega) a b).mpr plain).sub_exact.means rfl prior
  | MULT64 => exact (multExact (by omega) a b).exact.means rfl prior
  | DIV64 => exact divFunc_means wide prior
  | MOD64 => exact modFunc_means (by omega) prior
  | SHL64 =>
    refine means_unsigned rfl rfl ?_
    have small : b.toNat < w := Int.ofNat_lt.mp plain
    rw [Op.funcAt, shiftLFunc_value t small, BitVec.toNat_ofNat]
    rfl
  | SHR64 =>
    refine means_unsigned rfl rfl ?_
    have small : b.toNat < w := Int.ofNat_lt.mp plain
    rw [Op.funcAt, shiftRFunc_value t small, BitVec.toNat_ofNat]
    exact Nat.mod_eq_of_lt (lt_of_le_of_lt (Nat.div_le_self ..) a.isLt)
  | AND64 => exact means_unsigned rfl rfl (BitVec.toNat_and ..)
  | OR64 => exact means_unsigned rfl rfl (BitVec.toNat_or ..)
  | XOR64 => exact means_unsigned rfl rfl (BitVec.toNat_xor ..)
  | ROL64 =>
    obtain ⟨positive, small⟩ := plain
    refine means_unsigned rfl rfl ?_
    rw [Op.funcAt, rotateLFunc_value t (Int.ofNat_lt.mp positive) (Int.ofNat_lt.mp small),
      BitVec.toNat_rotateLeft,
      Nat.mod_eq_of_lt (Int.ofNat_lt.mp small), Nat.shiftLeft_eq, Nat.shiftRight_eq_div_pow]
    rfl
  | ROR64 =>
    obtain ⟨positive, small⟩ := plain
    refine means_unsigned rfl rfl ?_
    rw [Op.funcAt, rotateRFunc_value t (Int.ofNat_lt.mp positive) (Int.ofNat_lt.mp small),
      BitVec.toNat_rotateRight,
      Nat.mod_eq_of_lt (Int.ofNat_lt.mp small), Nat.shiftLeft_eq, Nat.shiftRight_eq_div_pow]
    rfl

end Computes

/-! ## Widths -/

section Widths
variable {w w' : Nat} {op : Op} {x y r : Int}

/-- A word is the word of the number it is read as. -/
theorem Op.ofInt_read (op : Op) (x : BitVec w) : BitVec.ofInt w (op.read x) = x := by
  unfold Op.read
  split
  · exact BitVec.ofInt_toInt
  · rw [BitVec.ofInt_natCast, BitVec.ofNat_toNat, BitVec.setWidth_eq]

/-- And a number of its type is what its word is read as. -/
theorem Op.read_ofInt (pos : 0 < w) (range : op.InType w x) : op.read (BitVec.ofInt w x) = x := by
  unfold Op.read
  unfold Op.InType at range
  split
  · rename_i signed
    rw [if_pos signed] at range
    exact toInt_ofInt_of_fits pos range
  · rename_i unsigned
    rw [if_neg unsigned] at range
    rw [BitVec.toNat_ofInt, Int.toNat_of_nonneg (Int.emod_nonneg _ (by positivity))]
    exact Int.emod_eq_of_lt range.1 (by exact_mod_cast range.2)

theorem Op.read_inType (op : Op) (x : BitVec w) : op.InType w (op.read x) := by
  unfold Op.read Op.InType
  split
  · exact fits_toInt x
  · exact ⟨Int.natCast_nonneg _, by exact_mod_cast x.isLt⟩

/-- A number of `w` bits. -/
theorem inType_unsigned {n : Nat} (unsigned : op.isSigned = false) (small : n < 2 ^ w) : op.InType w n := by
  rw [Op.InType, unsigned, if_neg (by decide)]
  exact ⟨Int.natCast_nonneg n, by exact_mod_cast small⟩

/-- **Results are numbers that the operator can be given.** -/
theorem meaning_inType (first : op.InType w x) (second : op.InType w y) (result : meaning w op x y = some r) :
    op.InType w r := by
  have exact : op.isSigned = true → ∀ v, C.value w v = some r → op.InType w r := by
    intro signed v found
    obtain ⟨fits, rfl⟩ := C.value_eq_some_iff.mp found
    rwa [Op.InType, if_pos signed]
  have bound : op.isSigned = false → x.toNat < 2 ^ w ∧ y.toNat < 2 ^ w := by
    intro unsigned
    rw [Op.InType, unsigned, if_neg (by decide)] at first second
    constructor
    · exact (Int.toNat_lt first.1).mpr (by exact_mod_cast first.2)
    · exact (Int.toNat_lt second.1).mpr (by exact_mod_cast second.2)
  have shifted : ∀ n k : Nat, n < 2 ^ w → n / 2 ^ k < 2 ^ w := fun n k => lt_of_le_of_lt (Nat.div_le_self ..)
  have pushed : ∀ n : Nat, n % 2 ^ w < 2 ^ w := fun n => Nat.mod_lt n (Nat.two_pow_pos w)
  cases op with
  | ADD64 => exact exact rfl _ result
  | SUB64 => exact exact rfl _ result
  | MULT64 => exact exact rfl _ result
  | DIV64 =>
    simp only [meaning] at result
    split at result
    · cases result
    · exact exact rfl _ result
  | MOD64 =>
    simp only [meaning] at result
    split at result
    · cases result
    · cases result
      exact fits_tmod first ‹_›
  | SHL64 =>
    cases result
    exact inType_unsigned rfl (pushed _)
  | SHR64 =>
    cases result
    exact inType_unsigned rfl (shifted _ _ (bound rfl).1)
  | AND64 =>
    cases result
    exact inType_unsigned rfl (Nat.and_lt_two_pow _ (bound rfl).2)
  | OR64 =>
    cases result
    exact inType_unsigned rfl (Nat.or_lt_two_pow (bound rfl).1 (bound rfl).2)
  | XOR64 =>
    cases result
    exact inType_unsigned rfl (Nat.xor_lt_two_pow (bound rfl).1 (bound rfl).2)
  | ROL64 =>
    cases result
    exact inType_unsigned rfl (Nat.or_lt_two_pow (pushed _) (shifted _ _ (bound rfl).1))
  | ROR64 =>
    cases result
    exact inType_unsigned rfl (Nat.or_lt_two_pow (shifted _ _ (bound rfl).1) (pushed _))

theorem fits_mono (le : w ≤ w') (fits : Fits w x) : Fits w' x := by
  have grows : (2 : Int) ^ (w - 1) ≤ 2 ^ (w' - 1) := pow_le_pow_right₀ (by decide) (by omega)
  unfold Fits intMin intMax at *
  omega

theorem value_narrow (le : w ≤ w') (v : Int) : C.value w v = (C.value w' v).bind (C.value w) := by
  by_cases fits : Fits w v
  · rw [C.value_of_fits (fits_mono le fits)]
    rfl
  · unfold C.value
    by_cases fits' : Fits w' v
    · simp [fits, fits']
    · simp [fits, fits']

/-- **A narrower word gives the same results**, those it can hold. -/
theorem meaning_narrow (le : w ≤ w') (signed : op.isSigned = true) (first : Fits w x) :
    meaning w op x y = (meaning w' op x y).bind (C.value w) := by
  cases op with
  | ADD64 => exact value_narrow le _
  | SUB64 => exact value_narrow le _
  | MULT64 => exact value_narrow le _
  | DIV64 =>
    simp only [meaning]
    split
    · rfl
    · exact value_narrow le _
  | MOD64 =>
    simp only [meaning]
    split
    · rfl
    · exact (C.value_of_fits (fits_tmod first ‹_›)).symm
  | _ => cases signed

end Widths

end NetCalc
