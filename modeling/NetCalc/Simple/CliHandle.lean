import NetCalc.Common.CalcHandle32

/-!
# The command line (`cli_handle.c`, `simple_main.c`)

`parse_args` converts the two operands, as signed or as unsigned numbers by
what the operator asks for, and `main` has the operation done and its result
printed. A `converter_u` is one word. Whether `calc_init_32` gets its memory is
an argument of `main`.
-/

namespace NetCalc.Simple

set_option autoImplicit false
open NetCalc.Lib

/-- `INT32_MAX`. -/
def INT32_MAX : Int := 2 ^ 31 - 1

/-- `INT32_MIN`. -/
def INT32_MIN : Int := -2 ^ 31

/-- `UINT32_MAX`. -/
def UINT32_MAX : Int := 2 ^ 32 - 1

/-- `*p_ENDptr`. -/
def endChar (c : Converted) : Byte := c.rest.headD 0

/-- `convert_from_string`. Its two tests of `ERANGE` follow one of `errno` and
never decide. -/
def convertFromString (str : CString) (convertedNum : BitVec 32) : Ran (BitVec 32) :=
  let tester := strtol str
  if tester.errno ≠ 0 then ⟨-1, convertedNum, [.message "Error converting to integer\n"]⟩
  else if INT32_MAX < tester.value ∨ INT32_MIN > tester.value then
    ⟨-1, convertedNum, [.message "Number is out of bounds of 32bits\n"]⟩
  else if (endChar tester).toInt = tester.value ∧ endChar tester ≠ 0 then
    ⟨-1, convertedNum, [.message "No digits\n"]⟩
  else if endChar tester ≠ 0 then ⟨-1, convertedNum, [.message "Not a valid number\n"]⟩
  else ⟨0, BitVec.ofInt 32 tester.value, []⟩

/-- `convert_from_string_unsigned`. Its tests of `ERANGE` and `EINVAL` follow
one of `errno` and never decide. -/
def convertFromStringUnsigned (str : CString) (convertedNum : BitVec 32) : Ran (BitVec 32) :=
  let utester := strtoul str
  if utester.errno ≠ 0 then ⟨-1, convertedNum, [.message "Error converting to integer\n"]⟩
  else if endChar utester ≠ 0 then ⟨-1, convertedNum, [.message "Not a valid number\n"]⟩
  else if UINT32_MAX < utester.value then ⟨-1, convertedNum, [.message "Overflow error\n"]⟩
  else ⟨0, BitVec.ofInt 32 utester.value, []⟩

/-- What `parse_args` leaves at its output parameters. -/
structure Args where
  num1 : BitVec 32
  num2 : BitVec 32
  oper : Option CString

/-- The conversion of both operands by one function. -/
def convertBoth (convert : CString → BitVec 32 → Ran (BitVec 32)) (arg1 arg3 : CString) (args : Args) :
    Ran Args :=
  let first := convert arg1 args.num1
  let args : Args := { args with num1 := first.value }
  if first.err ≠ 0 then ⟨first.err, args, first.out ++ [.message "Failed to convert string\n"]⟩
  else
    let second := convert arg3 args.num2
    let args : Args := { args with num2 := second.value }
    if second.err ≠ 0 then
      ⟨second.err, args, first.out ++ second.out ++ [.message "Failed to convert string\n"]⟩
    else ⟨second.err, args, first.out ++ second.out⟩

/-- `parse_args`. -/
def parseArgs (argv : List CString) (args : Args) : Ran Args :=
  match argv with
  | [_, arg1, oper, arg3] =>
    let args : Args := { args with oper := some oper }
    let checkType := chooseCheck32 oper
    if checkType = SIGNED then convertBoth convertFromString arg1 arg3 args
    else if checkType = UNSIGNED then
      if arg1.at 0 = 45 ∨ arg3.at 0 = 45 then
        ⟨-1, args, [.message "Unsigned argument can not be negative\n"]⟩
      else convertBoth convertFromStringUnsigned arg1 arg3 args
    else ⟨-1, args, [.message "Failed to convert operator\n"]⟩
  | _ => ⟨-1, args, [.message "Invalid number of arguments\n"]⟩

/-- How the program ends: what `main` returns, `*p_new_calc` if it was
allocated, and everything printed. -/
structure Outcome where
  err : Int
  newCalc : Option Calc32
  out : List Print

/-- `main`. -/
def main (t : Target) (allocated : Bool) (argv : List CString) : Outcome :=
  let parsed := parseArgs argv ⟨0, 0, none⟩
  if parsed.err ≠ 0 then ⟨parsed.err, none, parsed.out ++ [.message "Error parsing arguments\n"]⟩
  else if allocated = false then ⟨parsed.err, none, parsed.out⟩
  else
    let set := setCalc32 t calcInit32 parsed.value.num1.toInt parsed.value.num2.toInt parsed.value.oper
    if set.err ≠ 0 then
      ⟨set.err, some set.value, parsed.out ++ set.out ++ [.message "Failed to set calc"]⟩
    else
      let solved := solveFunc32 set.value
      if solved.err ≠ 0 then
        ⟨solved.err, some solved.value, parsed.out ++ set.out ++ solved.out ++ [.message "Failed to solve\n"]⟩
      else
        ⟨solved.err, some solved.value, parsed.out ++ set.out ++ solved.out ++ printResult32 solved.value⟩

/-- What the caller of the program sees of the value that `main` returns. -/
def exitStatus (err : Int) : Nat := (BitVec.ofInt 8 err).toNat

end NetCalc.Simple
