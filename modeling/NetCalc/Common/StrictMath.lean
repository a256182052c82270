import NetCalc.Lib.CArith
import NetCalc.Common.CalcHandle32

/-!
# The operations by the rules of the language (`math_funcs.c`)

The functions of `math_funcs.c` once more, with each expression evaluated as C
evaluates it: `none` is an evaluation that meets something undefined, and the
second operand of `&&` and `||` is left out where C leaves it out. `llabs` of
the least value is that value, as everywhere here.

What these functions compute, the compiled program computes, whatever it makes
of a shift by the width or more (`func_refined`).
-/

namespace NetCalc.Strict

set_option autoImplicit false
open NetCalc.Lib

variable {w : Nat}

/-- `validate_add`. -/
def validateAdd (num1 num2 : BitVec w) : Option Int := do
  let overflow ← C.and (num1.toInt > 0) ((C.sub w (intMax w) num1.toInt).map (num2.toInt > ·))
  if overflow then some (-1)
  else
    let underflow ← C.and (num1.toInt < 0) ((C.sub w (intMin w) num1.toInt).map (num2.toInt < ·))
    some (if underflow then -1 else 0)

/-- `add_func`. -/
def addFunc (num1 num2 result : BitVec w) : Option (Int × BitVec w) := do
  let err ← validateAdd num1 num2
  if err ≠ 0 then some (err, result)
  else
    let sum ← C.add w num1.toInt num2.toInt
    some (err, BitVec.ofInt w sum)

/-- `validate_sub`. -/
def validateSub (num1 num2 : BitVec w) : Option Int := do
  let overflow ← C.and (num1.toInt > 0) ((C.add w (intMin w) num1.toInt).map (num2.toInt < ·))
  if overflow then some (-1)
  else
    let underflow ← C.and (num1.toInt < 0) ((C.add w (intMax w) num1.toInt).map (num2.toInt > ·))
    some (if underflow then -1 else 0)

/-- `sub_func`. -/
def subFunc (num1 num2 result : BitVec w) : Option (Int × BitVec w) := do
  let err ← validateSub num1 num2
  if err ≠ 0 then some (err, result)
  else
    let difference ← C.sub w num1.toInt num2.toInt
    some (0, BitVec.ofInt w difference)

/-- `validate_multi`. -/
def validateMulti (num1 num2 : BitVec w) : Option Int := do
  let overflow ← C.or
    (C.and (num1.toInt > 0 ∧ num2.toInt > 0) ((C.div w (intMax w) num2.toInt).map (num1.toInt > ·)))
    (C.and (num1.toInt < 0 ∧ num2.toInt < 0) ((C.div w (intMax w) num2.toInt).map (num1.toInt < ·)))
  if overflow then some (-1)
  else
    let underflow ← C.or
      (C.and (num1.toInt < 0 ∧ num2.toInt > 0) ((C.div w (intMin w) num2.toInt).map (num1.toInt < ·)))
      (C.and (num1.toInt > 0 ∧ num2.toInt < 0) ((C.div w (intMin w) num1.toInt).map (num2.toInt < ·)))
    some (if underflow then -1 else 0)

/-- `mult_func`. -/
def multFunc (num1 num2 result : BitVec w) : Option (Int × BitVec w) := do
  let err ← validateMulti num1 num2
  if err ≠ 0 then some (err, result)
  else
    let product ← C.mul w num1.toInt num2.toInt
    some (0, BitVec.ofInt w product)

/-- `div_func`. -/
def divFunc (num1 num2 result : BitVec w) : Option (Int × BitVec w) :=
  let err := validateDivide num1 num2
  if err ≠ 0 then some (err, result)
  else (C.div w num1.toInt num2.toInt).map fun quotient => (0, BitVec.ofInt w quotient)

/-- `mod_func`. -/
def modFunc (num1 num2 result : BitVec w) : Option (Int × BitVec w) :=
  if num2.toInt = 0 then some (-1, result)
  else (C.rem w num1.toInt (llabs num2)).map fun remainder => (0, BitVec.ofInt w remainder)

/-- `shift_l_func`. -/
def shiftLFunc (num1 num2 _result : BitVec w) : Option (Int × BitVec w) :=
  (C.shl num1 num2.toNat).map fun shifted => (0, shifted)

/-- `shift_r_func`. -/
def shiftRFunc (num1 num2 _result : BitVec w) : Option (Int × BitVec w) :=
  (C.shr num1 num2.toNat).map fun shifted => (0, shifted)

/-- `rotate_l_func`. -/
def rotateLFunc (num1 num2 _result : BitVec w) : Option (Int × BitVec w) := do
  let high ← C.shl num1 num2.toNat
  let low ← C.shr num1 (complement num2).toNat
  some (0, high ||| low)

/-- `rotate_r_func`. -/
def rotateRFunc (num1 num2 _result : BitVec w) : Option (Int × BitVec w) := do
  let low ← C.shr num1 num2.toNat
  let high ← C.shl num1 (complement num2).toNat
  some (0, low ||| high)

/-! ## The validators are defined -/

variable {num1 num2 result : BitVec w}

/-- **No expression of `validate_add` overflows**, and its value is the
validator's. -/
theorem validateAdd_defined : validateAdd num1 num2 = some (NetCalc.validateAdd num1 num2) := by
  have one := fits_toInt num1
  have low := intMin_eq w
  have nonneg := intMax_nonneg w
  unfold Fits at one
  have above : num1.toInt > 0 → C.sub w (intMax w) num1.toInt = some (intMax w - num1.toInt) := by
    intro positive
    exact C.value_of_fits (by unfold Fits; omega)
  have below : num1.toInt < 0 → C.sub w (intMin w) num1.toInt = some (intMin w - num1.toInt) := by
    intro negative
    exact C.value_of_fits (by unfold Fits; omega)
  unfold validateAdd NetCalc.validateAdd C.and
  by_cases positive : num1.toInt > 0
  · have other : ¬num1.toInt < 0 := by omega
    simp [above positive, positive, other]
    split <;> rfl
  · by_cases negative : num1.toInt < 0
    · simp [below negative, positive, negative]
    · simp [positive, negative]

/-- The same for `validate_sub`. -/
theorem validateSub_defined : validateSub num1 num2 = some (NetCalc.validateSub num1 num2) := by
  have one := fits_toInt num1
  have low := intMin_eq w
  have nonneg := intMax_nonneg w
  unfold Fits at one
  have below : num1.toInt > 0 → C.add w (intMin w) num1.toInt = some (intMin w + num1.toInt) := by
    intro positive
    exact C.value_of_fits (by unfold Fits; omega)
  have above : num1.toInt < 0 → C.add w (intMax w) num1.toInt = some (intMax w + num1.toInt) := by
    intro negative
    exact C.value_of_fits (by unfold Fits; omega)
  unfold validateSub NetCalc.validateSub C.and
  by_cases positive : num1.toInt > 0
  · have other : ¬num1.toInt < 0 := by omega
    simp [below positive, positive, other]
    split <;> rfl
  · by_cases negative : num1.toInt < 0
    · simp [above negative, positive, negative]
    · simp [positive, negative]

/-- **No division of `validate_multi` divides by zero or overflows**, and its
value is the validator's. -/
theorem validateMulti_defined : validateMulti num1 num2 = some (NetCalc.validateMulti num1 num2) := by
  have low := intMin_eq w
  have nonneg := intMax_nonneg w
  have top : ∀ v : Int, v ≠ 0 → C.div w (intMax w) v = some ((intMax w).tdiv v) := by
    intro v nonzero
    exact C.div_of_fits (by unfold Fits; omega) nonzero (by omega)
  have bottom : ∀ v : Int, 0 < v → C.div w (intMin w) v = some ((intMin w).tdiv v) := by
    intro v positive
    exact C.div_of_fits (by unfold Fits; omega) (by omega) (by omega)
  unfold validateMulti NetCalc.validateMulti C.and C.or
  -- which divisions are evaluated depends on the two signs
  rcases Int.lt_trichotomy num1.toInt 0 with neg1 | zero1 | pos1
  · rcases Int.lt_trichotomy num2.toInt 0 with neg2 | zero2 | pos2
    · simp [top _ (Int.ne_of_lt neg2), neg1, neg2, not_lt.mpr neg1.le, not_lt.mpr neg2.le]
      split <;> rfl
    · simp [neg1, zero2]
    · simp [bottom _ pos2, neg1, pos2, not_lt.mpr neg1.le, not_lt.mpr pos2.le]
      split <;> rfl
  · simp [zero1]
  · rcases Int.lt_trichotomy num2.toInt 0 with neg2 | zero2 | pos2
    · simp [bottom _ pos1, pos1, neg2, not_lt.mpr pos1.le, not_lt.mpr neg2.le]
    · simp [pos1, zero2]
    · simp [top _ (Int.ne_of_gt pos2), pos1, pos2, not_lt.mpr pos1.le, not_lt.mpr pos2.le]
      split <;> rfl

/-! ## What the compiled program computes -/

/-- The function of an operator. -/
def func : Op → BitVec w → BitVec w → BitVec w → Option (Int × BitVec w)
  | .ADD64 => addFunc
  | .SUB64 => subFunc
  | .MULT64 => multFunc
  | .DIV64 => divFunc
  | .MOD64 => modFunc
  | .SHL64 => shiftLFunc
  | .SHR64 => shiftRFunc
  | .AND64 => fun num1 num2 _ => some (0, num1 &&& num2)
  | .OR64 => fun num1 num2 _ => some (0, num1 ||| num2)
  | .XOR64 => fun num1 num2 _ => some (0, num1 ^^^ num2)
  | .ROL64 => rotateLFunc
  | .ROR64 => rotateRFunc

section Refined
variable {r : Int × BitVec w}

/-- A value that is refused or computed. -/
theorem ite_refined {α : Type} {p : Prop} [Decidable p] {x z r : α} {y : Option α}
    (h : (if p then some x else y) = some r) (computed : y = some r → z = r) : (if p then x else z) = r := by
  split at h
  · rw [if_pos ‹p›]
    exact Option.some.inj h
  · rw [if_neg ‹¬p›]
    exact computed h

/-- What a validator lets through is computed. -/
theorem value_refined {err status v : Int}
    (h : (if err ≠ 0 then some (err, result)
      else (C.value w v).bind fun exact => some (status, BitVec.ofInt w exact)) = some r) :
    (if err ≠ 0 then (err, result) else (status, BitVec.ofInt w v)) = r := by
  refine ite_refined h fun computed => ?_
  obtain ⟨exact, value, same⟩ := Option.bind_eq_some_iff.mp computed
  rw [(C.value_eq_some_iff.mp value).2]
  exact Option.some.inj same

theorem addFunc_refined (h : addFunc num1 num2 result = some r) : NetCalc.addFunc num1 num2 result = r := by
  simp only [addFunc, validateAdd_defined, Option.bind_eq_bind, Option.bind_some] at h
  exact value_refined h

theorem subFunc_refined (h : subFunc num1 num2 result = some r) : NetCalc.subFunc num1 num2 result = r := by
  simp only [subFunc, validateSub_defined, Option.bind_eq_bind, Option.bind_some] at h
  exact value_refined h

theorem multFunc_refined (h : multFunc num1 num2 result = some r) :
    NetCalc.multFunc num1 num2 result = r := by
  simp only [multFunc, validateMulti_defined, Option.bind_eq_bind, Option.bind_some] at h
  exact value_refined h

theorem divFunc_refined (h : divFunc num1 num2 result = some r) : NetCalc.divFunc num1 num2 result = r := by
  refine ite_refined h fun computed => ?_
  obtain ⟨quotient, divided, same⟩ := Option.map_eq_some_iff.mp computed
  rw [C.div_value divided]
  exact same

theorem modFunc_refined (h : modFunc num1 num2 result = some r) : NetCalc.modFunc num1 num2 result = r := by
  refine ite_refined h fun computed => ?_
  obtain ⟨remainder, divided, same⟩ := Option.map_eq_some_iff.mp computed
  obtain ⟨_, _, rfl⟩ := Option.map_eq_some_iff.mp divided
  exact same

/-- A shift that the language defines is the target's. -/
theorem shl_refined {t : Target} {count shifted : BitVec w} (h : C.shl num1 count.toNat = some shifted) :
    shiftLeft t num1 count = shifted := by
  unfold C.shl at h
  unfold shiftLeft
  split at h
  · rename_i small
    exact (if_pos small).trans (Option.some.inj h)
  · cases h

theorem shr_refined {t : Target} {count shifted : BitVec w} (h : C.shr num1 count.toNat = some shifted) :
    shiftRight t num1 count = shifted := by
  unfold C.shr at h
  unfold shiftRight
  split at h
  · rename_i small
    exact (if_pos small).trans (Option.some.inj h)
  · cases h

theorem shiftLFunc_refined (t : Target) (h : shiftLFunc num1 num2 result = some r) :
    NetCalc.shiftLFunc t num1 num2 result = r := by
  obtain ⟨shifted, shift, rfl⟩ := Option.map_eq_some_iff.mp h
  rw [NetCalc.shiftLFunc, shl_refined shift]

theorem shiftRFunc_refined (t : Target) (h : shiftRFunc num1 num2 result = some r) :
    NetCalc.shiftRFunc t num1 num2 result = r := by
  obtain ⟨shifted, shift, rfl⟩ := Option.map_eq_some_iff.mp h
  rw [NetCalc.shiftRFunc, shr_refined shift]

theorem rotateLFunc_refined (t : Target) (h : rotateLFunc num1 num2 result = some r) :
    NetCalc.rotateLFunc t num1 num2 result = r := by
  obtain ⟨high, left, h⟩ := Option.bind_eq_some_iff.mp h
  obtain ⟨low, right, h⟩ := Option.bind_eq_some_iff.mp h
  cases h
  rw [NetCalc.rotateLFunc, shl_refined left, shr_refined right]

theorem rotateRFunc_refined (t : Target) (h : rotateRFunc num1 num2 result = some r) :
    NetCalc.rotateRFunc t num1 num2 result = r := by
  obtain ⟨low, right, h⟩ := Option.bind_eq_some_iff.mp h
  obtain ⟨high, left, h⟩ := Option.bind_eq_some_iff.mp h
  cases h
  rw [NetCalc.rotateRFunc, shr_refined right, shl_refined left]

end Refined

/-- **The compiled operations refine the language's.** Where the evaluation of an
operation is defined, the compiled program has its status and its word, whatever
the target makes of what is not. -/
theorem func_refined (t : Target) (op : Op) {num1 num2 result : BitVec 64} {r : Int × BitVec 64}
    (h : func op num1 num2 result = some r) : op.func t num1 num2 result = r := by
  cases op with
  | ADD64 => exact addFunc_refined h
  | SUB64 => exact subFunc_refined h
  | MULT64 => exact multFunc_refined h
  | DIV64 => exact divFunc_refined h
  | MOD64 => exact modFunc_refined h
  | SHL64 =>
    rw [func] at h
    exact shiftLFunc_refined t h
  | SHR64 =>
    rw [func] at h
    exact shiftRFunc_refined t h
  | AND64 => exact Option.some.inj h
  | OR64 => exact Option.some.inj h
  | XOR64 => exact Option.some.inj h
  | ROL64 =>
    rw [func] at h
    exact rotateLFunc_refined t h
  | ROR64 =>
    rw [func] at h
    exact rotateRFunc_refined t h

end NetCalc.Strict
