import Mathlib.Data.Int.Bitwise
import NetCalc.Lib.Words

/-!
# The grader (`EquGrader.py`)

The grader unpacks an equation with `struct`, solves it with Python's integers,
which are unbounded, and compares the solution with the one it unpacks from the
server's record. What raises is `none`: `unpack_from` where the bytes end, `<<`
and `>>` where the count is negative.
-/

namespace NetCalc.Grader

set_option autoImplicit false
open NetCalc.Lib

/-! ## Python -/

/-- `a << count`. -/
def lshift (a count : Int) : Option Int := if count < 0 then none else some (a * 2 ^ count.toNat)

/-- `a >> count`. -/
def rshift (a count : Int) : Option Int := if count < 0 then none else some (a / 2 ^ count.toNat)

/-- `struct.unpack_from` with a little-endian unsigned format of `size` bytes. -/
def unpackFrom (size offset : Nat) (data : List Byte) : Option Nat :=
  if offset + size ≤ data.length then some (valueOf (slice offset size data)) else none

/-- The format `q` where the format `Q` gives `n`. -/
def signed (n : Nat) : Int := (BitVec.ofNat 64 n).toInt

/-! ## Equations and solutions -/

/-- `Equation`, without the fields that are only printed. -/
structure Equation where
  id : Nat
  op1 : Int
  operator : Nat
  op2 : Int
  dataCode : Nat
  deriving DecidableEq

/-- `Equation.__init__`. -/
def Equation.unpack (data : List Byte) : Option Equation := do
  let _flag ← unpackFrom 1 4 data
  let operator ← unpackFrom 1 13 data
  if operator < 1 ∨ 12 < operator then none
  else
    let id ← unpackFrom 4 0 data
    let op1 ← unpackFrom 8 5 data
    let op2 ← unpackFrom 8 14 data
    if operator > 5 then some ⟨id, op1, operator, op2, 2⟩
    else some ⟨id, signed op1, operator, signed op2, 1⟩

/-- `Solution`. -/
structure Solution where
  id : Nat
  eqflag : Nat
  dataCode : Nat
  solution : Int
  deriving DecidableEq

/-- `Solution.__init__`, from bytes. -/
def Solution.unpack (data : List Byte) : Option Solution := do
  let id ← unpackFrom 4 0 data
  let eqflag ← unpackFrom 1 4 data
  let dataCode ← unpackFrom 1 5 data
  let solution ← unpackFrom 8 6 data
  some ⟨id, eqflag, dataCode, if dataCode = 1 then signed solution else solution⟩

/-- What a method leaves in `solution` and `eqflag`. -/
structure Done where
  solution : Int
  eqflag : Nat

/-- `eqflags["ERROR"]`. -/
def ERROR : Nat := 0

/-- `eqflags["EQ_SOLVED"]`. -/
def EQ_SOLVED : Nat := 1

/-- The test of a result's range, with the limits of the source. -/
def ranged (solution : Int) : Done :=
  let longMax : Int := 2 ^ 63
  let longMin : Int := 2 ^ 64
  ⟨solution, if longMin > solution ∧ solution > longMax then ERROR else 0⟩

/-- `try` an expression, and leave `0` if it raises. -/
def tried : Option Int → Done
  | some solution => ⟨solution, 0⟩
  | none => ⟨0, ERROR⟩

/-- `add`. -/
def add (op1 op2 : Int) : Done := ranged (op1 + op2)

/-- `subtract`. -/
def subtract (op1 op2 : Int) : Done := ranged (op1 - op2)

/-- `multiply`. -/
def multiply (op1 op2 : Int) : Done := ranged (op1 * op2)

/-- `divide`, which rounds down. -/
def divide (op1 op2 : Int) : Done := if op2 = 0 then ⟨0, ERROR⟩ else ranged (op1.fdiv op2)

/-- `mod`, with the sign of the divisor. -/
def mod (op1 op2 : Int) : Done := if op2 = 0 then ⟨0, ERROR⟩ else ranged (op1.fmod op2)

/-- `bitlshift`. -/
def bitlshift (op1 op2 : Int) : Done := tried (lshift op1 op2)

/-- `bitrshift`. -/
def bitrshift (op1 op2 : Int) : Done := tried (rshift op1 op2)

/-- `bitand`. -/
def bitand (op1 op2 : Int) : Done := tried (some (Int.land op1 op2))

/-- `bitor`. -/
def bitor (op1 op2 : Int) : Done := tried (some (Int.lor op1 op2))

/-- `bitxor`. -/
def bitxor (op1 op2 : Int) : Done := tried (some (Int.xor op1 op2))

/-- `bitlrot`. -/
def bitlrot (op1 op2 : Int) : Done := tried do
  let high ← lshift op1 op2
  let low ← rshift op1 (64 - op2)
  some (Int.lor high low)

/-- `bitrrot`, where `&` binds tighter than `|`. -/
def bitrrot (op1 op2 : Int) : Done := tried do
  let low ← rshift op1 op2
  let high ← lshift op1 (64 - op2)
  some (Int.lor low (Int.land high (2 ^ 64 - 1)))

/-- `operations`. -/
def operations : Nat → Option (Int → Int → Done)
  | 1 => some add
  | 2 => some subtract
  | 3 => some multiply
  | 4 => some divide
  | 5 => some mod
  | 6 => some bitlshift
  | 7 => some bitrshift
  | 8 => some bitand
  | 9 => some bitor
  | 10 => some bitxor
  | 11 => some bitlrot
  | 12 => some bitrrot
  | _ => none

/-- `Solution.__init__`, from an equation: `eqflag` is `EQ_SOLVED` whatever the
method made it. -/
def Solution.solve (equation : Equation) : Solution :=
  match operations equation.operator with
  | some method => ⟨equation.id, EQ_SOLVED, equation.dataCode, (method equation.op1 equation.op2).solution⟩
  | none => ⟨equation.id, 0, equation.dataCode, 0⟩

end NetCalc.Grader
