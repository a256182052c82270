import NetCalc.Lib.Words
import NetCalc.Common.MathFuncs

/-!
# Choosing and running an operation (`calc_handle.c`)

A `calc_t` holds two operands, a result word and the function that
`set_math_func` chose from the operator's number.
-/

namespace NetCalc

set_option autoImplicit false
open NetCalc.Lib

/-- `enum op`. -/
inductive Op where
  | ADD64 | SUB64 | MULT64 | DIV64 | MOD64 | SHL64 | SHR64 | AND64 | OR64 | XOR64 | ROL64 | ROR64
  deriving DecidableEq, Repr

/-- The enumerator's value. -/
def Op.val : Op → Int
  | .ADD64 => 1
  | .SUB64 => 2
  | .MULT64 => 3
  | .DIV64 => 4
  | .MOD64 => 5
  | .SHL64 => 6
  | .SHR64 => 7
  | .AND64 => 8
  | .OR64 => 9
  | .XOR64 => 10
  | .ROL64 => 11
  | .ROR64 => 12

/-- All of them. -/
def Op.all : List Op :=
  [.ADD64, .SUB64, .MULT64, .DIV64, .MOD64, .SHL64, .SHR64, .AND64, .OR64, .XOR64, .ROL64, .ROR64]

/-- The enumerator with the value `oper`, if there is one. -/
def Op.ofVal? (oper : Int) : Option Op := Op.all.find? fun op => op.val = oper

/-- The function of an operator. -/
def Op.func (t : Target) : Op → MathFunc 64
  | .ADD64 => addFunc
  | .SUB64 => subFunc
  | .MULT64 => multFunc
  | .DIV64 => divFunc
  | .MOD64 => modFunc
  | .SHL64 => shiftLFunc t
  | .SHR64 => shiftRFunc t
  | .AND64 => andFunc
  | .OR64 => orFunc
  | .XOR64 => xorFunc
  | .ROL64 => rotateLFunc t
  | .ROR64 => rotateRFunc t

/-- `calc_t`. -/
structure Calc where
  num1 : BitVec 64
  num2 : BitVec 64
  result : BitVec 64
  oper : Int
  funcPtr : Option (MathFunc 64)

/-- What `calc_init` allocates. -/
def calcInit : Calc := ⟨0, 0, 0, 0, none⟩

/-- `set_math_func`. -/
def setMathFunc (t : Target) (oper : Int) (calcVar : Calc) : Int × Calc :=
  match Op.ofVal? oper with
  | some op => (0, { calcVar with funcPtr := some (op.func t) })
  | none => (-1, calcVar)

/-- `solve_func`. -/
def solveFunc (calcVar : Calc) : Int × Calc :=
  match calcVar.funcPtr with
  | none => (-1, calcVar)
  | some func =>
    let answer := func calcVar.num1 calcVar.num2 calcVar.result
    (answer.1, { calcVar with result := answer.2 })

/-- `set_calc_file`, which reads the operator as an unsigned character. -/
def setCalcFile (t : Target) (calcVar : Calc) (operand1 operand2 : BitVec 64) (oper : BitVec 8) : Int × Calc :=
  let repOp : Int := oper.toNat
  let chosen := setMathFunc t repOp calcVar
  if chosen.1 ≠ 0 then chosen
  else (chosen.1, { chosen.2 with num1 := operand1, num2 := operand2, oper := repOp })

/-! ## What the two steps come to -/

/-- The operator a record's byte selects. -/
def Op.ofByte? (oper : Byte) : Option Op := Op.ofVal? oper.toNat

theorem Op.ofVal?_val {oper : Int} {op : Op} (h : Op.ofVal? oper = some op) : op.val = oper := by
  simpa using List.find?_some h

/-- The table holds the operators 1 to 12. -/
theorem Op.ofByte?_isSome {oper : Byte} : (Op.ofByte? oper).isSome ↔ 1 ≤ oper.toNat ∧ oper.toNat ≤ 12 := by
  rw [Op.ofByte?, Op.ofVal?, List.find?_isSome]
  simp only [decide_eq_true_eq]
  simp only [Op.all, List.mem_cons, List.not_mem_nil, or_false, exists_eq_or_imp, exists_eq_left, Op.val]
  omega

/-- An operator that is not in the table is refused. -/
theorem setCalcFile_unknown {t : Target} {a b : BitVec 64} {oper : BitVec 8} (unknown : Op.ofByte? oper = none) :
    (setCalcFile t calcInit a b oper).1 = -1 := by
  have found : Op.ofVal? oper.toNat = none := unknown
  simp [setCalcFile, setMathFunc, found]

/-- An operator of the table is chosen, with its operands. -/
theorem setCalcFile_known {t : Target} {a b : BitVec 64} {oper : BitVec 8} {op : Op}
    (known : Op.ofByte? oper = some op) :
    setCalcFile t calcInit a b oper = (0, ⟨a, b, 0, op.val, some (op.func t)⟩) := by
  have found : Op.ofVal? oper.toNat = some op := known
  simp [setCalcFile, setMathFunc, found, calcInit, Op.ofVal?_val found]

/-- The operand pairs an operation answers: those its own validator accepts. -/
def Op.accepts : Op → BitVec 64 → BitVec 64 → Bool
  | .ADD64, a, b => validateAdd a b = 0
  | .SUB64, a, b => validateSub a b = 0
  | .MULT64, a, b => validateMulti a b = 0
  | .DIV64, a, b => validateDivide a b = 0
  | .MOD64, _, b => b.toInt ≠ 0
  | _, _, _ => true

/-- An operation succeeds on exactly these. -/
theorem Op.func_ok {t : Target} (op : Op) (a b result : BitVec 64) :
    (op.func t a b result).1 = 0 ↔ op.accepts a b = true := by
  cases op with
  | ADD64 => simpa [Op.accepts, Op.func] using addFunc_ok
  | SUB64 => simpa [Op.accepts, Op.func] using subFunc_ok
  | MULT64 => simpa [Op.accepts, Op.func] using multFunc_ok
  | DIV64 => simpa [Op.accepts, Op.func] using divFunc_ok
  | MOD64 => simpa [Op.accepts, Op.func] using modFunc_ok
  | _ => exact iff_of_true rfl rfl

/-- An operation that succeeds does not look at the word it overwrites. -/
theorem Op.func_prior {t : Target} {op : Op} {a b result : BitVec 64} (ok : (op.func t a b result).1 = 0)
    (prior : BitVec 64) : op.func t a b result = op.func t a b prior := by
  cases op with
  | ADD64 => simp [Op.func, addFunc, addFunc_ok.mp ok]
  | SUB64 => simp [Op.func, subFunc, subFunc_ok.mp ok]
  | MULT64 => simp [Op.func, multFunc, multFunc_ok.mp ok]
  | DIV64 => simp [Op.func, divFunc, divFunc_ok.mp ok]
  | MOD64 => simp [Op.func, modFunc, modFunc_ok.mp ok]
  | _ => rfl

end NetCalc
