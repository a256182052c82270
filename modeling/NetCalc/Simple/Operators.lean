import NetCalc.Simple.CliHandle

/-!
# Is an operator interpreted the same way everywhere?

Four functions classify the operator: `choose_check_32` by the strings before
it in the table, `translate_op_32` by its place there, `set_math_func_32` by
the enumerator of that place and `print_result_32` by its order. For the
twelve operators they agree, and an operand of 32 unsigned bits comes through
the parameters of type `int32_t`. Any other string is let through by the first
and refused by the second, provided the program comes so far: when
`calc_init_32` gets no memory, `main` returns the `0` that `parse_args` left
(`interprets_iff`).
-/

namespace NetCalc.Simple

set_option autoImplicit false
open NetCalc.Lib

/-- The string that names an operator. -/
def symbol : Op → CString
  | .ADD64 => .ofChars ['+']
  | .SUB64 => .ofChars ['-']
  | .MULT64 => .ofChars ['*']
  | .DIV64 => .ofChars ['/']
  | .MOD64 => .ofChars ['%']
  | .SHL64 => .ofChars ['<', '<']
  | .SHR64 => .ofChars ['>', '>']
  | .AND64 => .ofChars ['&']
  | .OR64 => .ofChars ['|']
  | .XOR64 => .ofChars ['^']
  | .ROL64 => .ofChars ['<', '<', '<']
  | .ROR64 => .ofChars ['>', '>', '>']

/-- The operators of signed numbers: `+`, `-`, `*`, `/` and `%`. -/
def isSigned : Op → Bool
  | .ADD64 | .SUB64 | .MULT64 | .DIV64 | .MOD64 => true
  | _ => false

/-- A word as the number an operator takes it for. -/
def readAs (op : Op) (w : BitVec 32) : Int := if isSigned op then w.toInt else w.toNat

/-- The value `strtol` or `strtoul` returns for an operand. -/
def operand (op : Op) (arg : CString) : Int := if isSigned op then (strtol arg).value else (strtoul arg).value

/-- What an operator's result is printed by. -/
def format (op : Op) : String := if isSigned op then "%d\n" else "%u\n"

/-- A number is printed. -/
def isNumber : Print → Bool
  | .number _ _ => true
  | _ => false

/-- An operator's result: its function's answer to the words of the two
operands, each of which is the value converted; printed last, as the number
the operator takes it for. -/
structure Interpreted (t : Target) (op : Op) (arg1 arg3 : CString) (newCalc : Calc32) (out : List Print) :
    Prop where
  first : readAs op newCalc.num1 = operand op arg1
  second : readAs op newCalc.num2 = operand op arg3
  words : newCalc.num1 = BitVec.ofInt 32 (operand op arg1) ∧ newCalc.num2 = BitVec.ofInt 32 (operand op arg3)
  result : ∀ prior, (op.func32 t newCalc.num1 newCalc.num2 prior).err = 0 ∧
    (op.func32 t newCalc.num1 newCalc.num2 prior).value = newCalc.result
  printed : out.getLast? = some (.number (format op) (readAs op newCalc.result))

/-- A command line is interpreted by its operator. With one of the twelve, whose
operands `parse_args` accepts and whose function succeeds on their words, the
program succeeds and the result is what the operator makes of them; with any
other string the program fails and prints no number. -/
structure Interprets (t : Target) (allocated : Bool) (program arg1 oper arg3 : CString) : Prop where
  known : ∀ op, symbol op = oper → allocated = true →
    (parseArgs [program, arg1, oper, arg3] ⟨0, 0, none⟩).err = SUCCESS →
    (op.func32 t (BitVec.ofInt 32 (operand op arg1)) (BitVec.ofInt 32 (operand op arg3)) 0).err = SUCCESS →
    (main t allocated [program, arg1, oper, arg3]).err = SUCCESS ∧
      ∃ newCalc, (main t allocated [program, arg1, oper, arg3]).newCalc = some newCalc ∧
        Interpreted t op arg1 arg3 newCalc (main t allocated [program, arg1, oper, arg3]).out
  unknown : (∀ op, symbol op ≠ oper) →
    exitStatus (main t allocated [program, arg1, oper, arg3]).err ≠ 0 ∧
      ∀ p ∈ (main t allocated [program, arg1, oper, arg3]).out, isNumber p = false

/-- What `convert_from_string` takes. -/
def SignedOperand (arg : CString) : Prop :=
  (strtol arg).errno = 0 ∧ endChar (strtol arg) = 0 ∧ INT32_MIN ≤ (strtol arg).value ∧
    (strtol arg).value ≤ INT32_MAX

/-- What `convert_from_string_unsigned` takes. -/
def UnsignedOperand (arg : CString) : Prop :=
  (strtoul arg).errno = 0 ∧ endChar (strtoul arg) = 0 ∧ (strtoul arg).value ≤ UINT32_MAX

/-- What `parse_args` takes for the operands of an unsigned operator. -/
def UnsignedOperands (arg1 arg3 : CString) : Prop :=
  ¬(arg1.at 0 = 45 ∨ arg3.at 0 = 45) ∧ UnsignedOperand arg1 ∧ UnsignedOperand arg3

instance (arg1 arg3 : CString) : Decidable (UnsignedOperands arg1 arg3) := by
  unfold UnsignedOperands UnsignedOperand
  infer_instance

/-- What `parse_args` takes for the operands of an operator. -/
def Operands (op : Op) (arg1 arg3 : CString) : Prop :=
  if isSigned op then SignedOperand arg1 ∧ SignedOperand arg3 else UnsignedOperands arg1 arg3

/-! ## The classifications -/

/-- The table holds the names of the operators, in their order. -/
theorem symbol_place (op : Op) :
    symbol op ∈ pOpsStr.drop 1 ∧ ((1 + (pOpsStr.drop 1).idxOf (symbol op) : Nat) : Int) = op.val := by
  cases op <;> decide

/-- And nothing else. -/
theorem symbol_of_mem : ∀ s ∈ pOpsStr.drop 1, ∃ op, symbol op = s := by
  have named : ∀ s ∈ pOpsStr.drop 1, ∃ op ∈ Op.all, symbol op = s := by decide
  intro s member
  obtain ⟨op, _, same⟩ := named s member
  exact ⟨op, same⟩

/-- The signed operators are those up to `MOD`. -/
theorem isSigned_iff (op : Op) : isSigned op = true ↔ Op.MOD64.val ≥ op.val := by
  cases op <;> decide

/-- The enumerator of an operator is its own. -/
theorem ofVal_val (op : Op) : Op.ofVal? op.val = some op := by
  cases op <;> decide

/-- `choose_check_32` knows the class of an operator. -/
theorem chooseCheck32_symbol (op : Op) :
    chooseCheck32 (symbol op) = if isSigned op then SIGNED else UNSIGNED := by
  obtain ⟨member, place⟩ := symbol_place op
  unfold chooseCheck32
  rw [chooseCheckLoop_eq pOpsStr_short, if_pos member, Nat.zero_add, Nat.add_comm, place]
  simp only [isSigned_iff]

/-- It lets any other string through as an unsigned operator. -/
theorem chooseCheck32_unknown {oper : CString} (unknown : ∀ op, symbol op ≠ oper) :
    chooseCheck32 oper = UNSIGNED := by
  have outside : oper ∉ pOpsStr.drop 1 := by
    intro member
    obtain ⟨op, same⟩ := symbol_of_mem oper member
    exact unknown op same
  unfold chooseCheck32
  rw [chooseCheckLoop_eq pOpsStr_short, if_neg outside]
  rfl

/-- `translate_op_32` knows the enumerator of an operator. -/
theorem translateOp32_symbol (op : Op) : translateOp32 (symbol op) 0 = ⟨0, op.val, []⟩ := by
  obtain ⟨member, place⟩ := symbol_place op
  have nonzero : op.val ≠ 0 := by cases op <;> decide
  unfold translateOp32
  dsimp only
  rw [translateOpLoop_eq pOpsStr_short, if_pos member, place, if_neg nonzero]

/-- It refuses any other string. -/
theorem translateOp32_unknown {oper : CString} (unknown : ∀ op, symbol op ≠ oper) :
    translateOp32 oper 0 = ⟨-1, 0, [.string "Invalid operator: %s\n" oper]⟩ := by
  have outside : oper ∉ pOpsStr.drop 1 := by
    intro member
    obtain ⟨op, same⟩ := symbol_of_mem oper member
    exact unknown op same
  unfold translateOp32
  dsimp only
  rw [translateOpLoop_eq pOpsStr_short, if_neg outside, if_pos rfl]

/-- `set_calc_32` with an operator: its function and the words of the operands. -/
theorem setCalc32_symbol (t : Target) (op : Op) (calcVar : Calc32) (num1 num2 : BitVec 32) :
    setCalc32 t calcVar num1.toInt num2.toInt (some (symbol op)) =
      ⟨0, ⟨num1, num2, calcVar.result, op.val, some (op.func32 t)⟩, []⟩ := by
  have chosen : setMathFunc32 t op.val calcVar = ⟨0, { calcVar with funcPtr := some (op.func32 t) }, []⟩ := by
    rw [setMathFunc32, ofVal_val]
  unfold setCalc32
  simp only [translateOp32_symbol, chosen, BitVec.ofInt_toInt]
  rfl

/-- `set_calc_32` with any other string. -/
theorem setCalc32_unknown (t : Target) {oper : CString} (unknown : ∀ op, symbol op ≠ oper) (calcVar : Calc32)
    (operand1 operand2 : Int) : setCalc32 t calcVar operand1 operand2 (some oper) =
      ⟨-1, calcVar, [.string "Invalid operator: %s\n" oper, .message "failed to translate operation\n"]⟩ := by
  unfold setCalc32
  simp only [translateOp32_unknown unknown]
  rfl

/-! ## The operands -/

/-- Nothing that is printed is a number. -/
def Quiet (out : List Print) : Prop := ∀ p ∈ out, isNumber p = false

theorem Quiet.message (text : String) : Quiet [.message text] := by
  intro p member
  rw [List.mem_singleton.mp member]
  rfl

theorem Quiet.append {out more : List Print} (h : Quiet out) (k : Quiet more) : Quiet (out ++ more) := by
  intro p member
  rcases List.mem_append.mp member with here | later
  · exact h p here
  · exact k p later

/-- A function that accepts its input silently, and leaves `value`, or fails
with messages. -/
def Decides {α : Type} (ran : Ran α) (accepts : Prop) (value : α) : Prop :=
  (accepts ∧ ran = ⟨0, value, []⟩) ∨ (¬accepts ∧ ran.err = -1 ∧ Quiet ran.out)

/-- `convert_from_string`. -/
theorem convertFromString_decides (str : CString) (num : BitVec 32) :
    Decides (convertFromString str num) (SignedOperand str) (BitVec.ofInt 32 (strtol str).value) := by
  unfold convertFromString SignedOperand
  dsimp only
  split
  · rename_i errno
    exact .inr ⟨fun ok => errno ok.1, rfl, Quiet.message _⟩
  rename_i errno
  split
  · rename_i range
    exact .inr ⟨fun ok => by omega, rfl, Quiet.message _⟩
  rename_i range
  split
  · rename_i digits
    exact .inr ⟨fun ok => digits.2 ok.2.1, rfl, Quiet.message _⟩
  split
  · rename_i whole
    exact .inr ⟨fun ok => whole ok.2.1, rfl, Quiet.message _⟩
  rename_i whole
  exact .inl ⟨⟨not_not.mp errno, not_not.mp whole, by omega, by omega⟩, rfl⟩

/-- `convert_from_string_unsigned`. -/
theorem convertFromStringUnsigned_decides (str : CString) (num : BitVec 32) :
    Decides (convertFromStringUnsigned str num) (UnsignedOperand str) (BitVec.ofInt 32 (strtoul str).value) := by
  unfold convertFromStringUnsigned UnsignedOperand
  dsimp only
  split
  · rename_i errno
    exact .inr ⟨fun ok => errno ok.1, rfl, Quiet.message _⟩
  rename_i errno
  split
  · rename_i whole
    exact .inr ⟨fun ok => whole ok.2.1, rfl, Quiet.message _⟩
  rename_i whole
  split
  · rename_i range
    exact .inr ⟨fun ok => by omega, rfl, Quiet.message _⟩
  rename_i range
  exact .inl ⟨⟨not_not.mp errno, not_not.mp whole, not_lt.mp range⟩, rfl⟩

/-- Both operands by one function: they are accepted together. -/
theorem convertBoth_decides {convert : CString → BitVec 32 → Ran (BitVec 32)} {first second : Prop}
    {word1 word2 : BitVec 32} (arg1 arg3 : CString) (args : Args)
    (one : Decides (convert arg1 args.num1) first word1) (other : Decides (convert arg3 args.num2) second word2) :
    Decides (convertBoth convert arg1 arg3 args) (first ∧ second) ⟨word1, word2, args.oper⟩ := by
  unfold convertBoth
  dsimp only
  rcases one with ⟨accepted, same⟩ | ⟨refused, failed, quiet⟩
  · rw [same, if_neg (by simp)]
    rcases other with ⟨accepted', same'⟩ | ⟨refused', failed', quiet'⟩
    · rw [same', if_neg (by simp)]
      exact .inl ⟨⟨accepted, accepted'⟩, rfl⟩
    · rw [if_pos (by rw [failed']; decide)]
      exact .inr ⟨fun both => refused' both.2, failed', quiet'.append (Quiet.message _)⟩
  · rw [if_pos (by rw [failed]; decide)]
    exact .inr ⟨fun both => refused both.1, failed, quiet.append (Quiet.message _)⟩

/-- The unsigned branch of `parse_args`. -/
theorem unsignedBranch_decides (arg1 arg3 : CString) (args : Args) :
    Decides
      (if arg1.at 0 = 45 ∨ arg3.at 0 = 45 then
        (⟨-1, args, [.message "Unsigned argument can not be negative\n"]⟩ : Ran Args)
      else convertBoth convertFromStringUnsigned arg1 arg3 args)
      (UnsignedOperands arg1 arg3)
      ⟨BitVec.ofInt 32 (strtoul arg1).value, BitVec.ofInt 32 (strtoul arg3).value, args.oper⟩ := by
  by_cases negative : arg1.at 0 = 45 ∨ arg3.at 0 = 45
  · rw [if_pos negative]
    exact .inr ⟨fun accepted => accepted.1 negative, rfl, Quiet.message _⟩
  · rw [if_neg negative]
    rcases convertBoth_decides arg1 arg3 args (convertFromStringUnsigned_decides arg1 args.num1)
      (convertFromStringUnsigned_decides arg3 args.num2) with ⟨accepted, same⟩ | ⟨refused, failed⟩
    · exact .inl ⟨⟨negative, accepted⟩, same⟩
    · exact .inr ⟨fun accepted => refused accepted.2, failed⟩

/-- **`parse_args` with an operator**: the operands are converted by its class. -/
theorem parseArgs_symbol (op : Op) (program arg1 arg3 : CString) (args : Args) :
    Decides (parseArgs [program, arg1, symbol op, arg3] args) (Operands op arg1 arg3)
      ⟨BitVec.ofInt 32 (operand op arg1), BitVec.ofInt 32 (operand op arg3), some (symbol op)⟩ := by
  unfold parseArgs Operands operand
  dsimp only
  rw [chooseCheck32_symbol]
  cases isSigned op with
  | true =>
    rw [if_pos rfl, if_pos rfl]
    exact convertBoth_decides arg1 arg3 _ (convertFromString_decides ..) (convertFromString_decides ..)
  | false =>
    rw [if_neg (by decide), if_pos (by decide)]
    exact unsignedBranch_decides arg1 arg3 _

/-- **`parse_args` with any other string**: the operands are taken for unsigned. -/
theorem parseArgs_unknown {oper : CString} (unknown : ∀ op, symbol op ≠ oper) (program arg1 arg3 : CString)
    (args : Args) : Decides (parseArgs [program, arg1, oper, arg3] args) (UnsignedOperands arg1 arg3)
      ⟨BitVec.ofInt 32 (strtoul arg1).value, BitVec.ofInt 32 (strtoul arg3).value, some oper⟩ := by
  unfold parseArgs
  dsimp only
  rw [chooseCheck32_unknown unknown, if_neg (by decide), if_pos rfl]
  exact unsignedBranch_decides arg1 arg3 _

/-- **An operand survives its word**: read as its operator reads it, it is the
value that was converted. -/
theorem readAs_signed {arg : CString} (fits : SignedOperand arg) :
    (BitVec.ofInt 32 (strtol arg).value).toInt = (strtol arg).value := by
  obtain ⟨_, _, low, high⟩ := fits
  unfold INT32_MIN at low
  unfold INT32_MAX at high
  rw [BitVec.toInt_ofInt]
  exact Int.bmod_eq_of_le (by omega) (by omega)

@[inherit_doc readAs_signed] theorem readAs_unsigned {arg : CString} (fits : UnsignedOperand arg) :
    ((BitVec.ofInt 32 (strtoul arg).value).toNat : Int) = (strtoul arg).value := by
  have low := strtoul_nonneg arg
  have high := fits.2.2
  unfold UINT32_MAX at high
  rw [BitVec.toNat_ofInt]
  omega

theorem readAs_operand {op : Op} {arg1 arg3 : CString} (accepted : Operands op arg1 arg3) :
    readAs op (BitVec.ofInt 32 (operand op arg1)) = operand op arg1 ∧
      readAs op (BitVec.ofInt 32 (operand op arg3)) = operand op arg3 := by
  unfold readAs operand
  unfold Operands at accepted
  cases signed : isSigned op with
  | true =>
    rw [signed] at accepted
    exact ⟨readAs_signed accepted.1, readAs_signed accepted.2⟩
  | false =>
    rw [signed] at accepted
    exact ⟨readAs_unsigned accepted.2.1, readAs_unsigned accepted.2.2⟩

/-! ## The program -/

/-- What is printed last, for an operator. -/
theorem printResult32_symbol (op : Op) (newCalc : Calc32) (chosen : newCalc.oper = op.val) :
    printResult32 newCalc = [.number (format op) (readAs op newCalc.result)] := by
  unfold printResult32 format readAs
  rw [chosen]
  by_cases signed : isSigned op = true
  · rw [if_pos ((isSigned_iff op).mp signed), if_pos signed, if_pos signed]
  · rw [if_neg (mt (isSigned_iff op).mpr signed), if_neg signed, if_neg signed]

section Program
variable {t : Target} {allocated : Bool} {program arg1 arg3 : CString}

/-- With its operands accepted and memory for it, an operator is applied to their words. -/
theorem main_applies {op : Op} (accepted : Operands op arg1 arg3) {word1 word2 : BitVec 32}
    (first : word1 = BitVec.ofInt 32 (operand op arg1)) (second : word2 = BitVec.ofInt 32 (operand op arg3)) :
    main t true [program, arg1, symbol op, arg3] =
      let answer := op.func32 t word1 word2 0
      let newCalc : Calc32 := ⟨word1, word2, answer.value, op.val, some (op.func32 t)⟩
      if answer.err ≠ 0 then ⟨answer.err, some newCalc, answer.out ++ [.message "Failed to solve\n"]⟩
      else ⟨answer.err, some newCalc, answer.out ++ printResult32 newCalc⟩ := by
  have parsed : parseArgs [program, arg1, symbol op, arg3] ⟨0, 0, none⟩ =
      ⟨0, ⟨word1, word2, some (symbol op)⟩, []⟩ := by
    rcases parseArgs_symbol op program arg1 arg3 ⟨0, 0, none⟩ with ⟨_, same⟩ | ⟨refused, _⟩
    · rw [same, first, second]
    · exact absurd accepted refused
  unfold main
  rw [parsed]
  dsimp only
  rw [setCalc32_symbol]
  rfl

/-- `parse_args` accepts the operands that their operator takes. -/
theorem parseArgs_ok {op : Op} {args : Args}
    (ok : (parseArgs [program, arg1, symbol op, arg3] args).err = SUCCESS) : Operands op arg1 arg3 := by
  rcases parseArgs_symbol op program arg1 arg3 args with ⟨accepted, _⟩ | ⟨_, failed, _⟩
  · exact accepted
  · rw [failed] at ok
    exact absurd ok (by decide)

/-- **The program with an operator.** -/
theorem main_symbol {op : Op} (accepted : Operands op arg1 arg3)
    (solved : (op.func32 t (BitVec.ofInt 32 (operand op arg1)) (BitVec.ofInt 32 (operand op arg3)) 0).err = SUCCESS) :
    (main t true [program, arg1, symbol op, arg3]).err = SUCCESS ∧
      ∃ newCalc, (main t true [program, arg1, symbol op, arg3]).newCalc = some newCalc ∧
        Interpreted t op arg1 arg3 newCalc (main t true [program, arg1, symbol op, arg3]).out := by
  obtain ⟨first, second⟩ := readAs_operand accepted
  have goes : ¬(op.func32 t (BitVec.ofInt 32 (operand op arg1)) (BitVec.ofInt 32 (operand op arg3)) 0).err ≠ 0 :=
    not_not.mpr solved
  rw [main_applies accepted rfl rfl]
  dsimp only
  rw [if_neg goes]
  refine ⟨solved, _, rfl, first, second, ⟨rfl, rfl⟩, fun prior => ?_, ?_⟩
  · rw [← Op.func32_prior solved prior]
    exact ⟨solved, rfl⟩
  · rw [printResult32_symbol op _ rfl]
    exact List.getLast?_concat

/-- **The program with any other string.** -/
theorem main_unknown {oper : CString} (unknown : ∀ op, symbol op ≠ oper) :
    Quiet (main t allocated [program, arg1, oper, arg3]).out ∧
      (main t allocated [program, arg1, oper, arg3]).err =
        if allocated = false ∧ UnsignedOperands arg1 arg3 then 0 else -1 := by
  unfold main
  dsimp only
  rcases parseArgs_unknown unknown program arg1 arg3 ⟨0, 0, none⟩ with
    ⟨accepted, same⟩ | ⟨refused, failed, quiet⟩
  · rw [same]
    dsimp only
    rw [if_neg (by simp)]
    cases allocated with
    | false => exact ⟨List.forall_mem_nil _, (if_pos ⟨rfl, accepted⟩).symm⟩
    | true =>
      rw [setCalc32_unknown t unknown]
      refine ⟨?_, (if_neg (by simp)).symm⟩
      intro p member
      rcases List.mem_append.mp member with here | later
      · rcases List.mem_pair.mp here with rfl | rfl
        · rfl
        · rfl
      · exact Quiet.message _ p later
  · rw [failed, if_pos (by decide), if_neg fun both => refused both.2]
    exact ⟨quiet.append (Quiet.message _), rfl⟩

end Program

/-- **One operator, one interpretation, as long as there is memory.** For every
command line of four strings: an operator of the table, whose operands are
accepted and whose function succeeds, is converted, chosen, applied and printed
as what it is; and with any other string, of whatever length and content, the
program fails and prints no number, unless `calc_init_32` gets no memory after
the operands were accepted as unsigned. -/
theorem interprets_iff (t : Target) (allocated : Bool) (program arg1 oper arg3 : CString) :
    Interprets t allocated program arg1 oper arg3 ↔
      allocated = true ∨ (∃ op, symbol op = oper) ∨ ¬UnsignedOperands arg1 arg3 := by
  constructor
  · intro interprets
    by_cases known : ∃ op, symbol op = oper
    · exact .inr (.inl known)
    · have unknown := not_exists.mp known
      have status := (interprets.unknown unknown).1
      rw [(main_unknown unknown).2] at status
      by_cases unlucky : allocated = false ∧ UnsignedOperands arg1 arg3
      · rw [if_pos unlucky] at status
        exact absurd rfl status
      · rcases not_and_or.mp unlucky with there | refused
        · exact .inl (Bool.not_eq_false _ ▸ there)
        · exact .inr (.inr refused)
  · intro condition
    constructor
    · rintro op rfl rfl parsed solved
      exact main_symbol (parseArgs_ok parsed) solved
    · intro unknown
      obtain ⟨quiet, err⟩ := main_unknown unknown
      refine ⟨?_, quiet⟩
      have lucky : ¬(allocated = false ∧ UnsignedOperands arg1 arg3) := by
        rintro ⟨no_memory, fits⟩
        rcases condition with there | ⟨op, same⟩ | refused
        · rw [no_memory] at there
          cases there
        · exact unknown op same
        · exact refused fits
      rw [err, if_neg lucky]
      decide

/-- `1 + 2` succeeds, and what it prints last is 3. -/
theorem interprets_one_plus_two :
    ∃ newCalc, (main ⟨fun _ _ _ => 0, fun _ _ _ => 0⟩ true
        [.ofChars ['s'], .ofChars ['1'], .ofChars ['+'], .ofChars ['2']]).newCalc = some newCalc ∧
      newCalc.result = 3 ∧
      (main ⟨fun _ _ _ => 0, fun _ _ _ => 0⟩ true
        [.ofChars ['s'], .ofChars ['1'], .ofChars ['+'], .ofChars ['2']]).out.getLast? =
          some (.number "%d\n" 3) := by
  have interprets := (interprets_iff ⟨fun _ _ _ => 0, fun _ _ _ => 0⟩ true (.ofChars ['s']) (.ofChars ['1'])
    (.ofChars ['+']) (.ofChars ['2'])).mpr (.inl rfl)
  obtain ⟨_, newCalc, there, interpreted⟩ := interprets.known .ADD64 rfl rfl (by decide) (by decide)
  have three : newCalc.result = 3 := by
    rw [← (interpreted.result 0).2, interpreted.words.1, interpreted.words.2]
    decide
  refine ⟨newCalc, there, three, ?_⟩
  rw [interpreted.printed, three]
  rfl

/-- `1 ? 2`, without memory: the program ends with the status of success. -/
theorem unknown_operator_succeeds :
    ¬Interprets ⟨fun _ _ _ => 0, fun _ _ _ => 0⟩ false (.ofChars ['s']) (.ofChars ['1']) (.ofChars ['?'])
      (.ofChars ['2']) := by
  intro interprets
  obtain ⟨status, _⟩ := interprets.unknown (by intro op; cases op <;> decide)
  exact status (by decide)

end NetCalc.Simple
