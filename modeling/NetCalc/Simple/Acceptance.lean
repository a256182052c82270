import Mathlib.Data.List.Infix
import NetCalc.Lib.Decimal
import NetCalc.Simple.Exact

/-!
# The tests of the command line calculator (`SimpleCalcTests.py`)

A line of `SimpleCalc.tests` has two operands, an operator and the expected
answer, or `FAIL` where there is none. `test_input` runs the program and looks
for the answer in what it prints; where none is expected it takes everything
that does not begin with a digit. A row that is right passes, and not every row
that passes is right: where a failure is expected, a result is not noticed if
it is negative or a quotient (`simplecalc_tests`). One line of the file is of
that kind, `-2147483647 + -1 FAIL`; and on `2147483647 - -1 FAIL`, which is not
fair, the overflow that the line is there to find is not found.

The program prints nothing on its standard error, and is not killed by a signal.
-/

namespace NetCalc.Simple

set_option autoImplicit false
open NetCalc.Lib

/-- The text of a literal. -/
def literal (text : String) : List Byte := charBytes text.toList

/-- A format with its one directive replaced. -/
def fill (format : String) (arg : List Byte) : List Byte :=
  (literal format).takeWhile (· ≠ 37) ++ arg ++ ((literal format).dropWhile (· ≠ 37)).drop 2

/-- What one `printf` writes. -/
def written : Print → List Byte
  | .message text => literal text
  | .string format arg => fill format arg.chars
  | .number format arg => fill format (decimal arg)

/-- The standard output. -/
def Outcome.stdout (outcome : Outcome) : List Byte := outcome.out.flatMap written

/-- `FAIL` and `PASS`. -/
def FAIL : Int := -1

@[inherit_doc FAIL] def PASS : Int := 0

/-- A line of `SimpleCalc.tests`. -/
structure Row where
  op1 : CString
  operator : CString
  op2 : CString
  ans : List Byte

/-- `test_input`, of the program under the name `binLoc`. It raises where the output is not ASCII. -/
def testInput (t : Target) (binLoc : CString) (row : Row) : Option Int :=
  let output := (main t true [binLoc, row.op1, row.operator, row.op2]).stdout
  if output.any fun c => 128 ≤ c.toNat then none
  else if row.ans = literal "FAIL" then
    if output.length = 0 then some PASS
    else if isDigit (output.headD 0) = false then some PASS
    else some FAIL
  else if row.ans <:+: output then some PASS
  else some FAIL

/-- `main`: the number that the tests exit with. -/
def testsMain (t : Target) (binLoc : CString) (rows : List Row) : Option Int := do
  let results ← rows.mapM (testInput t binLoc)
  return results.length - (results.filter (· = PASS)).length

/-- A row expects what the operator means. -/
def Row.Right (row : Row) : Prop :=
  (∃ op r, Asks row.op1 row.operator row.op2 op r ∧ row.ans = decimal r) ∨
    ((∀ op r, ¬Asks row.op1 row.operator row.op2 op r) ∧ row.ans = literal "FAIL")

/-! ## What a failure prints -/

/-- The messages of the program. -/
def reports : List String :=
  ["Error converting to integer\n", "Number is out of bounds of 32bits\n", "No digits\n", "Not a valid number\n",
    "Overflow error\n", "Failed to convert string\n", "Unsigned argument can not be negative\n",
    "Failed to convert operator\n", "Invalid number of arguments\n", "Error parsing arguments\n",
    "Failed to set calc", "Failed to solve\n", "failed to translate operation\n", "Underflow error\n",
    "Overflow/Underflow error\n", "Zero error or overflow\n", "Divisor cannot be 0\n"]

/-- What is printed are numbers, messages of the program and its complaint about an operator. -/
def Said (oper : CString) (out : List Print) : Prop :=
  ∀ p ∈ out, isNumber p = true ∨ (∃ text ∈ reports, p = .message text) ∨ p = .string "Invalid operator: %s\n" oper

section Said
variable {t : Target} {oper : CString} {out more : List Print}

theorem Said.nil : Said oper [] := List.forall_mem_nil _

theorem Said.report {text : String} (listed : text ∈ reports) : Said oper [.message text] := by
  intro p member
  rw [List.mem_singleton.mp member]
  exact .inr (.inl ⟨text, listed, rfl⟩)

theorem Said.number (format : String) (arg : Int) : Said oper [.number format arg] := by
  intro p member
  rw [List.mem_singleton.mp member]
  exact .inl rfl

theorem Said.append (said : Said oper out) (too : Said oper more) : Said oper (out ++ more) := by
  intro p member
  rcases List.mem_append.mp member with here | later
  · exact said p here
  · exact too p later

theorem convertFromString_said (str : CString) (num : BitVec 32) : Said oper (convertFromString str num).out := by
  unfold convertFromString
  dsimp only
  split_ifs
  · exact .report (by decide)
  · exact .report (by decide)
  · exact .report (by decide)
  · exact .report (by decide)
  · exact .nil

theorem convertFromStringUnsigned_said (str : CString) (num : BitVec 32) :
    Said oper (convertFromStringUnsigned str num).out := by
  unfold convertFromStringUnsigned
  dsimp only
  split_ifs
  · exact .report (by decide)
  · exact .report (by decide)
  · exact .report (by decide)
  · exact .nil

theorem convertBoth_said {convert : CString → BitVec 32 → Ran (BitVec 32)}
    (said : ∀ str num, Said oper (convert str num).out) (arg1 arg3 : CString) (args : Args) :
    Said oper (convertBoth convert arg1 arg3 args).out := by
  unfold convertBoth
  dsimp only
  split_ifs
  · exact (said _ _).append (.report (by decide))
  · exact ((said _ _).append (said _ _)).append (.report (by decide))
  · exact (said _ _).append (said _ _)

theorem parseArgs_said (argv : List CString) (args : Args) : Said oper (parseArgs argv args).out := by
  unfold parseArgs
  split
  · dsimp only
    split_ifs
    · exact convertBoth_said convertFromString_said _ _ _
    · exact .report (by decide)
    · exact convertBoth_said convertFromStringUnsigned_said _ _ _
    · exact .report (by decide)
  · exact .report (by decide)

theorem func32_said (op : Op) (a b prior : BitVec 32) : Said oper (op.func32 t a b prior).out := by
  have reported : ∀ (func : MathFunc 32) (text : String), text ∈ reports →
      Said oper (reporting func text a b prior).out := by
    intro func text listed
    unfold reporting
    dsimp only
    split
    · exact .report listed
    · exact .nil
  cases op with
  | DIV64 =>
    unfold Op.func32 divFunc32
    dsimp only
    split
    · exact .report (by decide)
    · exact .number _ _
  | ADD64 | SUB64 | MULT64 | MOD64 => exact reported _ _ (by decide)
  | _ => exact .nil

/-- The program prints nothing else. -/
theorem main_said (program arg1 arg3 : CString) : Said oper (main t true [program, arg1, oper, arg3]).out := by
  by_cases known : ∃ op, symbol op = oper
  · obtain ⟨op, rfl⟩ := known
    by_cases accepted : Operands op arg1 arg3
    · rw [main_applies accepted rfl rfl]
      dsimp only
      split
      · exact (func32_said op _ _ _).append (.report (by decide))
      · rw [printResult32_symbol op _ rfl]
        exact (func32_said op _ _ _).append (.number _ _)
    · rcases parseArgs_symbol op program arg1 arg3 ⟨0, 0, none⟩ with ⟨there, _⟩ | ⟨_, failed, _⟩
      · exact absurd there accepted
      · unfold main
        dsimp only
        rw [failed, if_pos (by decide)]
        exact (parseArgs_said _ _).append (.report (by decide))
  · have unknown := not_exists.mp known
    unfold main
    dsimp only
    rcases parseArgs_unknown unknown program arg1 arg3 ⟨0, 0, none⟩ with ⟨_, same⟩ | ⟨_, failed, _⟩
    · rw [same]
      dsimp only
      rw [if_neg (by decide), if_neg (by decide), setCalc32_unknown t unknown,
        if_pos (Int.neg_ne_zero.mpr one_ne_zero),
        List.nil_append]
      refine Said.append ?_ (.report (by decide))
      intro p member
      rcases List.mem_pair.mp member with rfl | rfl
      · exact .inr (.inr rfl)
      · exact .inr (.inl ⟨_, by decide, rfl⟩)
    · rw [failed, if_pos (by decide)]
      exact (parseArgs_said _ _).append (.report (by decide))

/-- A text in words: it does not begin with a digit, and is ASCII. -/
structure Worded (text : List Byte) : Prop where
  begins : ∃ c cs, text = c :: cs ∧ isDigit c = false
  ascii : ∀ c ∈ text, c.toNat < 128

theorem reports_worded {text : String} (listed : text ∈ reports) : Worded (literal text) := by
  have all : ∀ text ∈ reports, literal text ≠ [] ∧ isDigit ((literal text).headD 0) = false ∧
      ∀ c ∈ literal text, c.toNat < 128 := by
    simp only [reports, literal, List.forall_mem_cons]
    simp [charBytes, isDigit]
  obtain ⟨some_text, head, ascii⟩ := all text listed
  obtain ⟨c, cs, same⟩ := List.exists_cons_of_ne_nil some_text
  rw [same] at head
  exact ⟨⟨c, cs, same, head⟩, ascii⟩

/-- The complaint about an operator is as good as the operator. -/
theorem invalid_worded (ascii : ∀ c ∈ oper.chars, c.toNat < 128) :
    Worded (written (.string "Invalid operator: %s\n" oper)) := by
  have front : (literal "Invalid operator: %s\n").takeWhile (· ≠ 37) = 73 :: literal "nvalid operator: " := by
    decide +kernel
  have back : ((literal "Invalid operator: %s\n").dropWhile (· ≠ 37)).drop 2 = [10] := by
    decide +kernel
  have letters : ∀ c ∈ 73 :: literal "nvalid operator: ", c.toNat < 128 := by
    decide +kernel
  rw [written, fill, front, back]
  refine ⟨⟨73, _, rfl, by decide⟩, ?_⟩
  intro c member
  rcases List.mem_append.mp member with there | last
  · exact (List.mem_append.mp there).elim (letters c) (ascii c)
  · rw [List.mem_singleton.mp last]
    decide

/-- A program that fails prints words, or nothing. -/
theorem Said.stdout (said : Said oper out) (quiet : Quiet out) (ascii : ∀ c ∈ oper.chars, c.toNat < 128) :
    out.flatMap written = [] ∨ Worded (out.flatMap written) := by
  have words : ∀ p ∈ out, Worded (written p) := by
    intro p member
    rcases said p member with number | ⟨text, listed, rfl⟩ | rfl
    · rw [quiet p member] at number
      cases number
    · exact reports_worded listed
    · exact invalid_worded ascii
  cases out with
  | nil => exact .inl rfl
  | cons p ps =>
    obtain ⟨c, cs, same, head⟩ := (words p List.mem_cons_self).begins
    refine .inr ⟨⟨c, cs ++ ps.flatMap written, by rw [List.flatMap_cons, same, List.cons_append], head⟩, ?_⟩
    intro c member
    obtain ⟨p', there, within⟩ := List.mem_flatMap.mp member
    exact (words p' there).ascii c within

end Said

/-! ## What the tests tell -/

section Tests
variable {t : Target} {binLoc : CString} {row : Row} {op : Op} {r : Int}

theorem decimal_ascii (v : Int) : ∀ c ∈ decimal v, c.toNat < 128 := by
  intro c member
  rcases decimal_chars v c member with rfl | digit
  · decide
  · simp only [isDigit, decide_eq_true_eq] at digit
    omega

/-- A number is not the word that stands for a failure. -/
theorem decimal_ne_fail (v : Int) : decimal v ≠ literal "FAIL" := by
  intro same
  have letter : (70 : Byte) ∈ decimal v := by
    rw [same]
    decide +kernel
  exact absurd (decimal_chars v 70 letter) (by decide)

/-- The number that is printed last. -/
theorem written_format (op : Op) (r : Int) : written (.number (format op) r) = decimal r ++ [10] := by
  have signed : (literal "%d\n").takeWhile (· ≠ 37) = [] ∧
      ((literal "%d\n").dropWhile (· ≠ 37)).drop 2 = [10] := by
    decide +kernel
  have unsigned : (literal "%u\n").takeWhile (· ≠ 37) = [] ∧
      ((literal "%u\n").dropWhile (· ≠ 37)).drop 2 = [10] := by
    decide +kernel
  rw [written, format, fill]
  split
  · rw [signed.1, signed.2, List.nil_append]
  · rw [unsigned.1, unsigned.2, List.nil_append]

/-- What a quotient is announced with. -/
theorem written_divided (r : Int) :
    written (.number "Divided is %d\n" r) = 68 :: (literal "ivided is " ++ decimal r ++ [10]) := by
  have front : (literal "Divided is %d\n").takeWhile (· ≠ 37) = 68 :: literal "ivided is " := by decide +kernel
  have back : ((literal "Divided is %d\n").dropWhile (· ≠ 37)).drop 2 = [10] := by decide +kernel
  rw [written, fill, front, back]
  rfl

/-- A result on the standard output: the number is there, it is ASCII, and it
begins with a digit unless it is negative or a quotient. -/
theorem prints_stdout (op : Op) (r : Int) : ∃ c cs, (prints op r).flatMap written = c :: cs ∧
    (isDigit c = true ↔ 0 ≤ r ∧ op ≠ .DIV64) ∧ (∀ b ∈ c :: cs, b.toNat < 128) ∧ decimal r <:+: c :: cs := by
  obtain ⟨c, cs, same, digit⟩ := decimal_head r
  have ascii : ∀ b ∈ decimal r ++ [10], b.toNat < 128 := by
    intro b member
    rcases List.mem_append.mp member with there | last
    · exact decimal_ascii r b there
    · rw [List.mem_singleton.mp last]
      decide
  by_cases divides : op = .DIV64
  · have out : (prints op r).flatMap written =
        68 :: (literal "ivided is " ++ decimal r ++ [10] ++ (decimal r ++ [10])) := by
      rw [prints, if_pos divides, List.flatMap_append, List.flatMap_singleton, List.flatMap_singleton,
        written_divided, written_format, List.cons_append]
    have letters : ∀ b ∈ 68 :: literal "ivided is ", b.toNat < 128 := by decide +kernel
    refine ⟨68, _, out, iff_of_false (by decide) fun both => both.2 divides, ?_, ?_⟩
    · intro b member
      rcases List.mem_cons.mp member with rfl | member
      · decide
      rcases List.mem_append.mp member with front | back
      · rw [List.append_assoc] at front
        rcases List.mem_append.mp front with word | number
        · exact letters b (List.mem_cons_of_mem _ word)
        · exact ascii b number
      · exact ascii b back
    · exact ((List.infix_append_left.trans List.infix_append_right).trans (List.suffix_cons ..).isInfix)
  · refine ⟨c, cs ++ [10], ?_, ?_, ?_, ?_⟩
    · rw [prints, if_neg divides, List.nil_append, List.flatMap_singleton, written_format, same, List.cons_append]
    · rw [digit]
      exact (and_iff_left divides).symm
    · rwa [← List.cons_append, ← same]
    · rw [← List.cons_append, ← same]
      exact List.infix_append_left

/-- A line that asks for a result: an expected number is looked for in it, and
an expected failure is missed where it begins with a digit. -/
theorem testInput_answers
    (answers : (main t true [binLoc, row.op1, row.operator, row.op2]).Answers op r) :
    (row.ans = decimal r → testInput t binLoc row = some PASS) ∧
      (row.ans = literal "FAIL" → (testInput t binLoc row = some FAIL ↔ 0 ≤ r ∧ op ≠ .DIV64)) := by
  obtain ⟨c, cs, out, digit, ascii, inside⟩ := prints_stdout op r
  have output : (main t true [binLoc, row.op1, row.operator, row.op2]).stdout = c :: cs := by
    rw [Outcome.stdout, answers.2, out]
  have decoded : ((c :: cs).any fun b => decide (128 ≤ b.toNat)) = false := by
    rw [List.any_eq_false]
    intro b member
    have small := ascii b member
    simpa using small
  unfold testInput
  rw [output]
  dsimp only
  rw [decoded, if_neg (by decide)]
  constructor
  · intro expects
    rw [if_neg (by rw [expects]; exact decimal_ne_fail r), if_pos (by rw [expects]; exact inside)]
  · intro expects
    rw [if_pos expects, if_neg (by simp), ← digit, List.headD_cons]
    cases isDigit c with
    | true => exact iff_of_true rfl rfl
    | false => exact iff_of_false (by decide) (by decide)

/-- A line that fails, as it is expected to. -/
theorem testInput_fails (ascii : ∀ c ∈ row.operator.chars, c.toNat < 128)
    (fails : (main t true [binLoc, row.op1, row.operator, row.op2]).Fails) (expects : row.ans = literal "FAIL") :
    testInput t binLoc row = some PASS := by
  unfold testInput
  dsimp only [Outcome.stdout]
  rcases (main_said binLoc row.op1 row.op2).stdout fails.2 ascii with nothing | ⟨⟨c, cs, same, head⟩, small⟩
  · rw [nothing, if_pos expects]
    rfl
  · rw [same] at small ⊢
    have decoded : ((c :: cs).any fun b => decide (128 ≤ b.toNat)) = false := by
      rw [List.any_eq_false]
      intro b member
      simpa using small b member
    rw [decoded, if_neg (by decide), if_pos expects, if_neg (by simp), List.headD_cons, if_pos head]

/-- The tests are passed when every row is. -/
theorem testsMain_passed {rows : List Row} (passed : ∀ row ∈ rows, testInput t binLoc row = some PASS) :
    testsMain t binLoc rows = some 0 := by
  have results : rows.mapM (testInput t binLoc) = some (rows.map fun _ => PASS) := by
    induction rows with
    | nil => rfl
    | cons row rows ih =>
      rw [List.mapM_cons, passed row List.mem_cons_self,
        ih fun row member => passed row (List.mem_cons_of_mem _ member)]
      rfl
  unfold testsMain
  rw [results]
  have all : (rows.map fun _ => PASS).filter (· = PASS) = rows.map fun _ => PASS := by
    rw [List.filter_eq_self]
    intro res member
    obtain ⟨_, _, rfl⟩ := List.mem_map.mp member
    rfl
  show some (_ - _ : Int) = some 0
  rw [all, sub_self]

end Tests

/-- **What the tests tell.** On lines that are fair, with operators in ASCII:
where every row is right, all are passed and the tests exit with `0`; and a row
that expects a failure is reported exactly when there is a result, the operator
is not `/` and the result is not negative. -/
theorem simplecalc_tests (t : Target) (binLoc : CString) (rows : List Row)
    (fair : ∀ row ∈ rows, Fair row.op1 row.operator row.op2)
    (ascii : ∀ row ∈ rows, ∀ c ∈ row.operator.chars, c.toNat < 128) :
    ((∀ row ∈ rows, row.Right) → testsMain t binLoc rows = some 0) ∧
      ∀ row ∈ rows, row.ans = literal "FAIL" →
        (testInput t binLoc row = some FAIL ↔
          ∃ op r, Asks row.op1 row.operator row.op2 op r ∧ 0 ≤ r ∧ op ≠ .DIV64) := by
  constructor
  · intro right
    refine testsMain_passed fun row member => ?_
    have exact := simplecalc_exact t binLoc _ _ _ (fair row member)
    rcases right row member with ⟨op, r, asks, expects⟩ | ⟨nothing, expects⟩
    · exact (testInput_answers (exact.1 op r asks).1).1 expects
    · exact testInput_fails (ascii row member) (exact.2 nothing) expects
  · intro row member expects
    have exact := simplecalc_exact t binLoc _ _ _ (fair row member)
    by_cases result : ∃ op r, Asks row.op1 row.operator row.op2 op r
    · obtain ⟨op, r, asks⟩ := result
      rw [(testInput_answers (exact.1 op r asks).1).2 expects]
      constructor
      · exact fun missed => ⟨op, r, asks, missed⟩
      · rintro ⟨op', r', asks', missed⟩
        obtain ⟨rfl, rfl⟩ := asks.unique asks'
        exact missed
    · have nothing : ∀ op r, ¬Asks row.op1 row.operator row.op2 op r := fun op r asks => result ⟨op, r, asks⟩
      rw [testInput_fails (ascii row member) (exact.2 nothing) expects]
      refine iff_of_false (by decide) ?_
      rintro ⟨op, r, asks, _⟩
      exact nothing op r asks

/-- There is a result, and a failure is expected. -/
example : testInput ⟨fun _ _ _ => 0, fun _ _ _ => 0⟩ (.ofChars ['s'])
    ⟨.ofChars ['-', '2', '1', '4', '7', '4', '8', '3', '6', '4', '7'], .ofChars ['+'], .ofChars ['-', '1'],
      literal "FAIL"⟩ = some PASS := by
  decide +kernel

/-- `validate_sub` is off by one, and a negative number is printed. -/
example : testInput ⟨fun _ _ _ => 0, fun _ _ _ => 0⟩ (.ofChars ['s'])
    ⟨.ofChars ['2', '1', '4', '7', '4', '8', '3', '6', '4', '7'], .ofChars ['-'], .ofChars ['-', '1'],
      literal "FAIL"⟩ = some PASS := by
  decide +kernel

/-- A quotient, and an operator that does not exist. -/
theorem simplecalc_tests_two :
    testsMain ⟨fun _ _ _ => 0, fun _ _ _ => 0⟩ (.ofChars ['s'])
      [⟨.ofChars ['-', '7'], .ofChars ['/'], .ofChars ['2'], decimal (-3)⟩,
        ⟨.ofChars ['-', '7'], .ofChars ['?'], .ofChars ['2'], literal "FAIL"⟩] = some 0 := by
  refine (simplecalc_tests ⟨fun _ _ _ => 0, fun _ _ _ => 0⟩ (.ofChars ['s']) _ ?_ ?_).1 ?_
  · intro row member
    rcases List.mem_pair.mp member with rfl | rfl
    · exact fair_quotient
    · exact { fair_quotient with plain := fun op _ _ same => absurd same (by cases op <;> decide) }
  · decide
  · intro row member
    rcases List.mem_pair.mp member with rfl | rfl
    · exact .inl ⟨.DIV64, -3, ⟨rfl, -7, 2, reads_minusSeven, reads_two, by decide⟩, rfl⟩
    · refine .inr ⟨fun op r asks => ?_, rfl⟩
      exact absurd asks.1 (by cases op <;> decide)

end NetCalc.Simple
