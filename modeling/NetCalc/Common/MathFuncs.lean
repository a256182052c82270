import NetCalc.Lib.CInt
import NetCalc.Common.Utils

/-!
# The twelve operations (`math_funcs.c`)

An operand is a `convert_u`: one word, read as `num` (signed) or `unum`
(unsigned). An operation takes its two operands and the word at `p_result`,
and returns its status and the word left there. `math_funcs_thirty_two.c` has
the same functions at the width 32, so the width `w` is a parameter.

Signed arithmetic that leaves the type wraps, as on two's complement hardware.
A shift by the width or more is not defined in C: what the compiled program
computes there is the business of a `Target`.
-/

namespace NetCalc

set_option autoImplicit false
open NetCalc.Lib

/-- What the compiled program makes of a shift whose count is not below the
width. -/
structure Target where
  shl : (w : Nat) → BitVec w → Nat → BitVec w
  shr : (w : Nat) → BitVec w → Nat → BitVec w

/-- `math_func`: the operands and the word at `p_result` to the status and the
word left there. -/
abbrev MathFunc (w : Nat) := BitVec w → BitVec w → BitVec w → Int × BitVec w

section Operations
variable {w : Nat}

/-- `validate_add`. -/
def validateAdd (num1 num2 : BitVec w) : Int :=
  if num1.toInt > 0 ∧ num2.toInt > intMax w - num1.toInt then -1
  else if num1.toInt < 0 ∧ num2.toInt < intMin w - num1.toInt then -1
  else 0

/-- `add_func`. -/
def addFunc : MathFunc w := fun num1 num2 result =>
  let err := validateAdd num1 num2
  if err ≠ 0 then (err, result) else (err, BitVec.ofInt w (num1.toInt + num2.toInt))

/-- `validate_sub`. -/
def validateSub (num1 num2 : BitVec w) : Int :=
  if num1.toInt > 0 ∧ num2.toInt < intMin w + num1.toInt then -1
  else if num1.toInt < 0 ∧ num2.toInt > intMax w + num1.toInt then -1
  else 0

/-- `sub_func`. -/
def subFunc : MathFunc w := fun num1 num2 result =>
  let err := validateSub num1 num2
  if err ≠ 0 then (err, result) else (0, BitVec.ofInt w (num1.toInt - num2.toInt))

/-- `validate_multi`. -/
def validateMulti (num1 num2 : BitVec w) : Int :=
  if (num1.toInt > 0 ∧ num2.toInt > 0 ∧ num1.toInt > (intMax w).tdiv num2.toInt) ∨
      (num1.toInt < 0 ∧ num2.toInt < 0 ∧ num1.toInt < (intMax w).tdiv num2.toInt) then -1
  else if (num1.toInt < 0 ∧ num2.toInt > 0 ∧ num1.toInt < (intMin w).tdiv num2.toInt) ∨
      (num1.toInt > 0 ∧ num2.toInt < 0 ∧ num2.toInt < (intMin w).tdiv num1.toInt) then -1
  else 0

/-- `mult_func`. -/
def multFunc : MathFunc w := fun num1 num2 result =>
  let err := validateMulti num1 num2
  if err ≠ 0 then (err, result) else (0, BitVec.ofInt w (num1.toInt * num2.toInt))

/-- `validate_divide`. -/
def validateDivide (num1 num2 : BitVec w) : Int :=
  if num2.toInt = 0 then -1
  else if num1.toInt = intMin w ∧ num2.toInt = -1 then -1
  else 0

/-- `div_func`. -/
def divFunc : MathFunc w := fun num1 num2 result =>
  let err := validateDivide num1 num2
  if err ≠ 0 then (err, result) else (0, BitVec.ofInt w (num1.toInt.tdiv num2.toInt))

/-- `llabs`, which has no answer for the least value but that value itself. -/
def llabs (num : BitVec w) : Int := narrow w num.toInt.natAbs

/-- `mod_func`. -/
def modFunc : MathFunc w := fun num1 num2 result =>
  if num2.toInt = 0 then (-1, result) else (0, BitVec.ofInt w (num1.toInt.tmod (llabs num2)))

/-- `num1.unum << count`. -/
def shiftLeft (t : Target) (num1 count : BitVec w) : BitVec w :=
  if count.toNat < w then num1 <<< count.toNat else t.shl w num1 count.toNat

/-- `num1.unum >> count`. -/
def shiftRight (t : Target) (num1 count : BitVec w) : BitVec w :=
  if count.toNat < w then num1 >>> count.toNat else t.shr w num1 count.toNat

/-- `shift_l_func`. -/
def shiftLFunc (t : Target) : MathFunc w := fun num1 num2 _ => (0, shiftLeft t num1 num2)

/-- `shift_r_func`. -/
def shiftRFunc (t : Target) : MathFunc w := fun num1 num2 _ => (0, shiftRight t num1 num2)

/-- `and_func`. -/
def andFunc : MathFunc w := fun num1 num2 _ => (0, num1 &&& num2)

/-- `or_func`. -/
def orFunc : MathFunc w := fun num1 num2 _ => (0, num1 ||| num2)

/-- `xor_func`. -/
def xorFunc : MathFunc w := fun num1 num2 _ => (0, num1 ^^^ num2)

/-- `NUM_BITS - num2.unum`, in unsigned arithmetic. -/
def complement (num2 : BitVec w) : BitVec w := BitVec.ofNat w w - num2

/-- `rotate_l_func`. -/
def rotateLFunc (t : Target) : MathFunc w := fun num1 num2 _ =>
  (0, shiftLeft t num1 num2 ||| shiftRight t num1 (complement num2))

/-- `rotate_r_func`. -/
def rotateRFunc (t : Target) : MathFunc w := fun num1 num2 _ =>
  (0, shiftRight t num1 num2 ||| shiftLeft t num1 (complement num2))

/-! ## When an operation answers -/

variable {num1 num2 result : BitVec w}

theorem addFunc_ok : (addFunc num1 num2 result).1 = 0 ↔ validateAdd num1 num2 = 0 := by
  unfold addFunc
  dsimp only
  split <;> simp_all

theorem subFunc_ok : (subFunc num1 num2 result).1 = 0 ↔ validateSub num1 num2 = 0 := by
  unfold subFunc
  dsimp only
  split <;> simp_all

theorem multFunc_ok : (multFunc num1 num2 result).1 = 0 ↔ validateMulti num1 num2 = 0 := by
  unfold multFunc
  dsimp only
  split <;> simp_all

theorem divFunc_ok : (divFunc num1 num2 result).1 = 0 ↔ validateDivide num1 num2 = 0 := by
  unfold divFunc
  dsimp only
  split <;> simp_all

theorem modFunc_ok : (modFunc num1 num2 result).1 = 0 ↔ num2.toInt ≠ 0 := by
  unfold modFunc
  split <;> simp_all

end Operations

end NetCalc
