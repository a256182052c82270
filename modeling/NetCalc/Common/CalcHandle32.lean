import Mathlib.Data.List.Basic
import NetCalc.Common.CalcHandle
import NetCalc.Lib.CString

/-!
# Operators as text (`calc_handle_thirty_two.c`)

The calculator of the command line finds its operator in the table
`p_ops_str`, where the place of a string is the value of the enumerator. Its
`enum op_` has the values of `enum op`, so an `Op` stands for both. The
functions of `math_funcs_thirty_two.c` are those of `math_funcs.c` at the
width 32, and say on the standard output what went wrong.
-/

namespace NetCalc

set_option autoImplicit false
open NetCalc.Lib

/-- One `printf`: its format, and its argument if it has one. -/
inductive Print where
  | message (text : String)
  | string (format : String) (arg : CString)
  | number (format : String) (arg : Int)
  deriving DecidableEq

/-- What a function returns: its status, what it leaves at its output
parameter and what it prints. -/
structure Ran (α : Type) where
  err : Int
  value : α
  out : List Print

/-- `math_func_32`. -/
abbrev MathFunc32 := BitVec 32 → BitVec 32 → BitVec 32 → Ran (BitVec 32)

/-- `MAX_CHARS`. -/
def MAX_CHARS : Nat := 4

/-- `SIGNED`. -/
def SIGNED : Int := 1

/-- `UNSIGNED`. -/
def UNSIGNED : Int := 2

/-- `p_ops_str`. -/
def pOpsStr : List CString :=
  [.ofChars [], .ofChars ['+'], .ofChars ['-'], .ofChars ['*'], .ofChars ['/'], .ofChars ['%'],
    .ofChars ['<', '<'], .ofChars ['>', '>'], .ofChars ['&'], .ofChars ['|'], .ofChars ['^'],
    .ofChars ['<', '<', '<'], .ofChars ['>', '>', '>']]

/-! ## The operations -/

/-- An operation that prints why it fails. -/
def reporting (func : MathFunc 32) (failure : String) : MathFunc32 := fun num1 num2 result =>
  let answer := func num1 num2 result
  ⟨answer.1, answer.2, if answer.1 ≠ 0 then [.message failure] else []⟩

/-- An operation that cannot fail. -/
def silent (func : MathFunc 32) : MathFunc32 := fun num1 num2 result =>
  ⟨(func num1 num2 result).1, (func num1 num2 result).2, []⟩

/-- `add_func_32`. -/
def addFunc32 : MathFunc32 := reporting addFunc "Overflow error\n"

/-- `sub_func_32`. -/
def subFunc32 : MathFunc32 := reporting subFunc "Underflow error\n"

/-- `mult_func_32`. -/
def multFunc32 : MathFunc32 := reporting multFunc "Overflow/Underflow error\n"

/-- `div_func_32`, which prints its quotient too. -/
def divFunc32 : MathFunc32 := fun num1 num2 result =>
  let answer := divFunc num1 num2 result
  ⟨answer.1, answer.2, if answer.1 ≠ 0 then [.message "Zero error or overflow\n"]
    else [.number "Divided is %d\n" answer.2.toInt]⟩

/-- `mod_func_32`. -/
def modFunc32 : MathFunc32 := reporting modFunc "Divisor cannot be 0\n"

/-- The function of an operator. -/
def Op.func32 (t : Target) : Op → MathFunc32
  | .ADD64 => addFunc32
  | .SUB64 => subFunc32
  | .MULT64 => multFunc32
  | .DIV64 => divFunc32
  | .MOD64 => modFunc32
  | .SHL64 => silent (shiftLFunc t)
  | .SHR64 => silent (shiftRFunc t)
  | .AND64 => silent andFunc
  | .OR64 => silent orFunc
  | .XOR64 => silent xorFunc
  | .ROL64 => silent (rotateLFunc t)
  | .ROR64 => silent (rotateRFunc t)

/-- An operation that succeeds does not look at the word it overwrites. -/
theorem Op.func32_prior {t : Target} {op : Op} {a b result : BitVec 32} (ok : (op.func32 t a b result).err = 0)
    (prior : BitVec 32) : op.func32 t a b result = op.func32 t a b prior := by
  cases op with
  | ADD64 => simp [Op.func32, addFunc32, reporting, addFunc, addFunc_ok.mp ok]
  | SUB64 => simp [Op.func32, subFunc32, reporting, subFunc, subFunc_ok.mp ok]
  | MULT64 => simp [Op.func32, multFunc32, reporting, multFunc, multFunc_ok.mp ok]
  | DIV64 => simp [Op.func32, divFunc32, divFunc, divFunc_ok.mp ok]
  | MOD64 => simp [Op.func32, modFunc32, reporting, modFunc, modFunc_ok.mp ok]
  | _ => rfl

/-! ## The handle -/

/-- `calc_t_32`. -/
structure Calc32 where
  num1 : BitVec 32
  num2 : BitVec 32
  result : BitVec 32
  oper : Int
  funcPtr : Option MathFunc32

/-- What `calc_init_32` allocates. -/
def calcInit32 : Calc32 := ⟨0, 0, 0, 0, none⟩

/-- `set_math_func_32`. -/
def setMathFunc32 (t : Target) (oper : Int) (calcVar : Calc32) : Ran Calc32 :=
  match Op.ofVal? oper with
  | some op => ⟨0, { calcVar with funcPtr := some (op.func32 t) }, []⟩
  | none => ⟨-1, calcVar, [.number "Unknown operator %d\n" oper]⟩

/-- `solve_func_32`. -/
def solveFunc32 (calcVar : Calc32) : Ran Calc32 :=
  match calcVar.funcPtr with
  | none => ⟨-1, calcVar, [.message "Function pointer is NULL\n"]⟩
  | some func =>
    let answer := func calcVar.num1 calcVar.num2 calcVar.result
    ⟨answer.err, { calcVar with result := answer.value }, answer.out⟩

/-- The loop of `choose_check_32`: `iter` when it ends. -/
def chooseCheckLoop (oper : CString) : List CString → Nat → Nat
  | [], iter => iter
  | s :: rest, iter => if strncmp oper s MAX_CHARS = 0 then iter + 1 else chooseCheckLoop oper rest (iter + 1)

/-- `choose_check_32`. -/
def chooseCheck32 (oper : CString) : Int :=
  if Op.MOD64.val ≥ chooseCheckLoop oper (pOpsStr.drop 1) 0 then SIGNED else UNSIGNED

/-- The loop of `translate_op_32`: `*p_translated_num` when it ends. -/
def translateOpLoop (oper : CString) : List CString → Nat → Int → Int
  | [], _, translatedNum => translatedNum
  | s :: rest, idx, translatedNum =>
    if strncmp oper s MAX_CHARS = 0 then idx else translateOpLoop oper rest (idx + 1) translatedNum

/-- `translate_op_32`. -/
def translateOp32 (oper : CString) (translatedNum : Int) : Ran Int :=
  let found := translateOpLoop oper (pOpsStr.drop 1) 1 translatedNum
  if found = 0 then ⟨-1, found, [.string "Invalid operator: %s\n" oper]⟩ else ⟨0, found, []⟩

/-- `set_calc_32`: the operands arrive as values of the type `int32_t`. -/
def setCalc32 (t : Target) (calcVar : Calc32) (operand1 operand2 : Int) (oper : Option CString) : Ran Calc32 :=
  match oper with
  | none => ⟨-1, calcVar, []⟩
  | some oper =>
    let repOp := translateOp32 oper 0
    if repOp.err ≠ 0 then ⟨repOp.err, calcVar, repOp.out ++ [.message "failed to translate operation\n"]⟩
    else
      let chosen := setMathFunc32 t repOp.value calcVar
      if chosen.err ≠ 0 then
        ⟨chosen.err, chosen.value, repOp.out ++ chosen.out ++ [.message "failed to set math function\n"]⟩
      else
        ⟨chosen.err, { chosen.value with
          num1 := BitVec.ofInt 32 operand1
          num2 := BitVec.ofInt 32 operand2
          oper := repOp.value }, repOp.out ++ chosen.out⟩

/-- `print_result_32`. -/
def printResult32 (resultCalc : Calc32) : List Print :=
  if Op.MOD64.val ≥ resultCalc.oper then [.number "%d\n" resultCalc.result.toInt]
  else [.number "%u\n" resultCalc.result.toNat]

/-! ## The table -/

/-- Every operator is shorter than the bound of its comparison. -/
theorem pOpsStr_short : ∀ s ∈ pOpsStr.drop 1, s.chars.length < MAX_CHARS := by decide

section Table
variable {oper : CString} {table : List CString}

/-- The place of an operator, counted by `choose_check_32`; every place for a
string that is not in the table. -/
theorem chooseCheckLoop_eq (short : ∀ s ∈ table, s.chars.length < MAX_CHARS) (iter : Nat) :
    chooseCheckLoop oper table iter =
      if oper ∈ table then iter + table.idxOf oper + 1 else iter + table.length := by
  induction table generalizing iter with
  | nil => rfl
  | cons s rest ih =>
    have matched : strncmp oper s MAX_CHARS = 0 ↔ oper = s := strncmp_eq_zero_iff (short s List.mem_cons_self)
    rw [chooseCheckLoop]
    by_cases here : oper = s
    · rw [if_pos (matched.mpr here)]
      simp [here]
    · rw [if_neg (mt matched.mp here), ih fun r member => short r (List.mem_cons_of_mem s member)]
      by_cases later : oper ∈ rest
      · rw [if_pos later, if_pos (List.mem_cons_of_mem s later), List.idxOf_cons_ne rest (Ne.symm here)]
        omega
      · rw [if_neg later, if_neg (by simp [here, later]), List.length_cons]
        omega

/-- The place of an operator as `translate_op_32` finds it. -/
theorem translateOpLoop_eq (short : ∀ s ∈ table, s.chars.length < MAX_CHARS) (idx : Nat) (translatedNum : Int) :
    translateOpLoop oper table idx translatedNum =
      if oper ∈ table then ((idx + table.idxOf oper : Nat) : Int) else translatedNum := by
  induction table generalizing idx with
  | nil => rfl
  | cons s rest ih =>
    have matched : strncmp oper s MAX_CHARS = 0 ↔ oper = s := strncmp_eq_zero_iff (short s List.mem_cons_self)
    rw [translateOpLoop]
    by_cases here : oper = s
    · rw [if_pos (matched.mpr here)]
      simp [here]
    · rw [if_neg (mt matched.mp here), ih fun r member => short r (List.mem_cons_of_mem s member)]
      by_cases later : oper ∈ rest
      · rw [if_pos later, if_pos (List.mem_cons_of_mem s later), List.idxOf_cons_ne rest (Ne.symm here)]
        omega
      · rw [if_neg later, if_neg (by simp [here, later])]

end Table

end NetCalc
