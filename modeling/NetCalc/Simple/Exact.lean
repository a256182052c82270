import NetCalc.Common.Meaning
import NetCalc.Lib.Decimal
import NetCalc.Simple.Operands

/-!
# The command line calculator is exact

What the program is for: it reads two numerals and an operator, and prints what
the operator means on their values, or fails and prints no number. It does for
every command line that is `Fair`: its operands have a character and do not wrap
around, and the operator has no surprises on their values (`simplecalc_exact`).
What it prints is an operand again (`result_reads`).
-/

namespace NetCalc.Simple

set_option autoImplicit false
open NetCalc.Lib

/-- An operand of an operator, and its value. -/
structure Reads (op : Op) (s : CString) (v : Int) : Prop where
  denotes : Denotes s.chars v
  range : op.InType 32 v
  unsigned : op.isSigned = false → s.at 0 ≠ 45

/-- A command line asks for a result. -/
def Asks (s1 oper s3 : CString) (op : Op) (r : Int) : Prop :=
  symbol op = oper ∧ ∃ v1 v3, Reads op s1 v1 ∧ Reads op s3 v3 ∧ meaning 32 op v1 v3 = some r

/-- A command line without the operands that are taken for another number, and
without the values on which its operator has surprises. -/
structure Fair (s1 oper s3 : CString) : Prop where
  first : s1.chars ≠ []
  second : s3.chars ≠ []
  safe1 : ¬WrapsAround s1
  safe3 : ¬WrapsAround s3
  plain : ∀ op v1 v3, symbol op = oper → Reads op s1 v1 → Reads op s3 v3 → op.Plain 32 v1 v3

/-- What is printed for a result: a quotient twice. -/
def prints (op : Op) (r : Int) : List Print :=
  (if op = .DIV64 then [.number "Divided is %d\n" r] else []) ++ [.number (format op) r]

/-- The program succeeds, and prints a result. -/
def Outcome.Answers (outcome : Outcome) (op : Op) (r : Int) : Prop :=
  outcome.err = SUCCESS ∧ outcome.out = prints op r

/-- The program fails, and prints no number. -/
def Outcome.Fails (outcome : Outcome) : Prop := exitStatus outcome.err ≠ 0 ∧ Quiet outcome.out

theorem Outcome.fails {outcome : Outcome} (err : outcome.err = -1) (quiet : Quiet outcome.out) :
    outcome.Fails := by
  refine ⟨?_, quiet⟩
  rw [err]
  decide

theorem isSigned_eq (op : Op) : isSigned op = op.isSigned := by
  cases op <;> rfl

theorem readAs_eq (op : Op) (x : BitVec 32) : readAs op x = op.read x := by
  rw [readAs, Op.read, isSigned_eq]

/-! ## Operands -/

section Operands
variable {op : Op} {s s1 s3 : CString} {v v1 v3 : Int}

/-- An operand is read as its value, and fits into a word. -/
theorem Reads.operand_eq (reads : Reads op s v) : operand op s = v := by
  obtain ⟨denotes, range, _⟩ := reads
  unfold operand
  unfold Op.InType at range
  rw [isSigned_eq]
  cases signed : op.isSigned with
  | true =>
    rw [signed, if_pos rfl] at range
    rw [if_pos rfl, strtol_of_begins denotes, if_pos (fits_long range)]
  | false =>
    rw [signed, if_neg (by decide)] at range
    rw [if_neg (by decide), strtoul_of_begins denotes, if_pos (by omega)]
    exact Int.emod_eq_of_lt range.1 (by omega)

/-- Which single operands are accepted. -/
theorem accepts_iff (some_text : s.chars ≠ []) (safe : ¬WrapsAround s) :
    (if op.isSigned then SignedOperand s else s.at 0 ≠ 45 ∧ UnsignedOperand s) ↔ ∃ v, Reads op s v := by
  cases signed : op.isSigned with
  | true =>
    rw [if_pos rfl, signedOperand_iff, or_iff_right some_text]
    constructor
    · rintro ⟨v, denotes, fits⟩
      refine ⟨v, denotes, ?_, fun unsigned => ?_⟩
      · rwa [Op.InType, signed, if_pos rfl]
      · rw [signed] at unsigned
        cases unsigned
    · rintro ⟨v, denotes, range, _⟩
      rw [Op.InType, signed, if_pos rfl] at range
      exact ⟨v, denotes, range⟩
  | false =>
    rw [if_neg (by decide), unsignedOperand_iff, or_iff_right some_text]
    constructor
    · rintro ⟨start, v, denotes, size, high⟩
      have nonneg : 0 ≤ v := Int.not_lt.mp fun negative =>
        safe (wrapsAround_iff.mpr ⟨start, unsignedOperand_iff.mpr (.inr ⟨v, denotes, size, high⟩), v,
          denotes, negative⟩)
      refine ⟨v, denotes, ?_, fun _ => start⟩
      rw [Op.InType, signed, if_neg (by decide)]
      unfold UINT32_MAX at high
      omega
    · rintro ⟨v, denotes, range, start⟩
      rw [Op.InType, signed, if_neg (by decide)] at range
      refine ⟨start signed, v, denotes, by omega, ?_⟩
      unfold UINT32_MAX
      omega

/-- Which operands `parse_args` accepts. -/
theorem operands_iff (first : s1.chars ≠ []) (second : s3.chars ≠ []) (safe1 : ¬WrapsAround s1)
    (safe3 : ¬WrapsAround s3) : Operands op s1 s3 ↔ (∃ v1, Reads op s1 v1) ∧ ∃ v3, Reads op s3 v3 := by
  rw [← accepts_iff first safe1, ← accepts_iff second safe3]
  unfold Operands UnsignedOperands
  rw [isSigned_eq]
  cases op.isSigned with
  | true => exact Iff.rfl
  | false =>
    simp only [Bool.false_eq_true, if_false, not_or]
    exact ⟨fun ⟨⟨a, b⟩, c, d⟩ => ⟨⟨a, c⟩, b, d⟩, fun ⟨⟨a, c⟩, b, d⟩ => ⟨⟨a, b⟩, c, d⟩⟩

/-- The word of an operand is read as its value. -/
theorem Reads.read_word (first : Reads op s1 v1) (second : Reads op s3 v3) (accepted : Operands op s1 s3) :
    op.read (BitVec.ofInt 32 v1) = v1 ∧ op.read (BitVec.ofInt 32 v3) = v3 := by
  have words := readAs_operand accepted
  rwa [readAs_eq, readAs_eq, first.operand_eq, second.operand_eq] at words

end Operands

/-! ## The program -/

section Program
variable {t : Target} {program s1 oper s3 : CString} {op : Op}

/-- An operation that fails prints no number. -/
theorem func32_quiet {a b prior : BitVec 32} (failed : (op.func32 t a b prior).err ≠ 0) :
    Quiet (op.func32 t a b prior).out := by
  have reported : ∀ (func : MathFunc 32) (text : String) (result : BitVec 32),
      Quiet (reporting func text a b result).out := by
    intro func text result
    unfold reporting
    dsimp only
    split
    · exact Quiet.message _
    · exact List.forall_mem_nil _
  cases op with
  | DIV64 =>
    unfold Op.func32 divFunc32 at failed ⊢
    dsimp only at failed ⊢
    rw [if_pos failed]
    exact Quiet.message _
  | ADD64 | SUB64 | MULT64 | MOD64 => exact reported _ _ prior
  | _ => exact List.forall_mem_nil _

/-- Operations that fail return `-1`. -/
theorem func32_err (t : Target) (op : Op) (a b prior : BitVec 32) (failed : (op.func32 t a b prior).err ≠ 0) :
    (op.func32 t a b prior).err = -1 := by
  have either : ∀ {p q : Prop} [Decidable p] [Decidable q] (err : Int),
      (err = if p then -1 else if q then -1 else 0) →
      err ≠ 0 → err = -1 := by
    intro p q _ _ err same nonzero
    split at same
    · exact same
    split at same
    · exact same
    · exact absurd same nonzero
  cases op with
  | ADD64 =>
    have invalid := mt addFunc_ok.mpr failed
    unfold Op.func32 addFunc32 reporting addFunc
    dsimp only
    rw [if_pos invalid]
    exact either _ rfl invalid
  | SUB64 =>
    have invalid := mt subFunc_ok.mpr failed
    unfold Op.func32 subFunc32 reporting subFunc
    dsimp only
    rw [if_pos invalid]
    exact either _ rfl invalid
  | MULT64 =>
    have invalid := mt multFunc_ok.mpr failed
    unfold Op.func32 multFunc32 reporting multFunc
    dsimp only
    rw [if_pos invalid]
    exact either _ rfl invalid
  | DIV64 =>
    have invalid := mt divFunc_ok.mpr failed
    unfold Op.func32 divFunc32 divFunc
    dsimp only
    rw [if_pos invalid]
    exact either _ rfl invalid
  | MOD64 =>
    have zero := mt modFunc_ok.mpr failed
    unfold Op.func32 modFunc32 reporting modFunc
    dsimp only
    rw [if_pos (not_not.mp zero)]
  | _ => exact absurd rfl failed

/-- What an operation prints that succeeds. -/
theorem func32_out {a b prior : BitVec 32} (ok : (op.func32 t a b prior).err = 0) :
    (op.func32 t a b prior).out =
      if op = .DIV64 then [.number "Divided is %d\n" (op.func32 t a b prior).value.toInt] else [] := by
  have nothing : ∀ (func : MathFunc 32) (text : String), (reporting func text a b prior).err = 0 →
      (reporting func text a b prior).out = [] := by
    intro func text ok
    unfold reporting at ok ⊢
    exact if_neg (not_not.mpr ok)
  cases op with
  | DIV64 =>
    unfold Op.func32 divFunc32 at ok ⊢
    dsimp only at ok ⊢
    rw [if_neg (not_not.mpr ok), if_pos rfl]
  | ADD64 | SUB64 | MULT64 | MOD64 => exact nothing _ _ ok
  | _ => rfl

/-- With its operands accepted, an operator's meaning is printed, or nothing is. -/
theorem main_means {v1 v3 : Int} (first : Reads op s1 v1) (second : Reads op s3 v3) (accepted : Operands op s1 s3)
    (plain : op.Plain 32 v1 v3) :
    (∀ r, meaning 32 op v1 v3 = some r → (main t true [program, s1, symbol op, s3]).Answers op r) ∧
      (meaning 32 op v1 v3 = none → (main t true [program, s1, symbol op, s3]).Fails) := by
  obtain ⟨word1, word3⟩ := first.read_word second accepted
  have means : Means op ((op.func32 t).outcome (BitVec.ofInt 32 v1) (BitVec.ofInt 32 v3) 0)
      (meaning 32 op v1 v3) := by
    have plain' : op.Plain 32 (op.read (BitVec.ofInt 32 v1)) (op.read (BitVec.ofInt 32 v3)) := by
      rwa [word1, word3]
    have computed := Op.funcAt_means t (by decide) plain' 0
    rwa [word1, word3, ← Op.func32_eq] at computed
  have status : (op.func32 t (BitVec.ofInt 32 v1) (BitVec.ofInt 32 v3) 0).err = 0 ↔
      (meaning 32 op v1 v3).isSome = true := means.succeeds
  rw [main_applies accepted (by rw [first.operand_eq]) (by rw [second.operand_eq])]
  dsimp only
  constructor
  · intro r result
    have ok := status.mpr (by rw [result]; rfl)
    have value := means.value r result
    rw [if_neg (not_not.mpr ok)]
    refine ⟨ok, ?_⟩
    rw [printResult32_symbol op _ rfl, func32_out ok, prints, readAs_eq]
    by_cases divides : op = .DIV64
    · subst divides
      rw [if_pos rfl, if_pos rfl, ← value]
      rfl
    · rw [if_neg divides, if_neg divides, ← value]
      rfl
  · intro none_there
    have failed : (op.func32 t (BitVec.ofInt 32 v1) (BitVec.ofInt 32 v3) 0).err ≠ 0 := by
      rw [ne_eq, status, none_there]
      decide
    rw [if_pos failed]
    exact Outcome.fails (func32_err t op _ _ 0 failed) ((func32_quiet failed).append (Quiet.message _))

/-- Without operands the program fails. -/
theorem main_refused (refused : ¬Operands op s1 s3) : (main t true [program, s1, symbol op, s3]).Fails := by
  rcases parseArgs_symbol op program s1 s3 ⟨0, 0, none⟩ with ⟨accepted, _⟩ | ⟨_, failed, quiet⟩
  · exact absurd accepted refused
  · unfold main
    dsimp only
    rw [failed, if_pos (by decide)]
    exact Outcome.fails rfl (quiet.append (Quiet.message _))

/-- A number of an operator's type, as it is printed, is an operand. -/
theorem reads_decimal {r : Int} (range : op.InType 32 r) : Reads op (decimalString r) r where
  denotes := denotes_decimal r
  range := range
  unsigned unsigned := by
    rw [Op.InType, unsigned, if_neg (by decide)] at range
    obtain ⟨c, cs, same, digit⟩ := decimal_head r
    have front : (decimalString r).at 0 = (decimal r).getD 0 0 := rfl
    rw [front, same]
    rintro rfl
    exact absurd (digit.mpr range.1) (by decide)

/-- A result is an operand of every operator of the same kind. -/
theorem result_reads {op' : Op} {r : Int} (asks : Asks s1 oper s3 op r) (kind : op'.isSigned = op.isSigned) :
    Reads op' (decimalString r) r := by
  obtain ⟨rfl, v1, v3, reads1, reads3, result⟩ := asks
  have range := meaning_inType reads1.range reads3.range result
  rw [Op.InType, ← kind] at range
  exact reads_decimal range

theorem symbol_inj {op' : Op} (same : symbol op' = symbol op) : op' = op := by
  have place := (symbol_place op').2
  rw [same, (symbol_place op).2] at place
  have found := ofVal_val op'
  rw [← place, ofVal_val op] at found
  exact (Option.some.inj found).symm

/-- A command line asks for one result. -/
theorem Asks.unique {op' : Op} {r r' : Int} (asks : Asks s1 oper s3 op r) (too : Asks s1 oper s3 op' r') :
    op = op' ∧ r = r' := by
  obtain ⟨rfl, v1, v3, reads1, reads3, result⟩ := asks
  obtain ⟨same, v1', v3', reads1', reads3', result'⟩ := too
  obtain rfl := symbol_inj same
  obtain rfl := (reads1.denotes.unique reads1'.denotes).1
  obtain rfl := (reads3.denotes.unique reads3'.denotes).1
  rw [result] at result'
  exact ⟨rfl, Option.some.inj result'⟩

/-- **The calculator is exact.** For every fair command line, when memory can be
had: if the operator is one of the twelve and the operands are numerals of its
type on which it has a result, the program succeeds and prints that result,
which is read as the same number where it is given back as an operand; and
otherwise it fails and prints no number. -/
theorem simplecalc_exact (t : Target) (program s1 oper s3 : CString) (fair : Fair s1 oper s3) :
    (∀ op r, Asks s1 oper s3 op r → (main t true [program, s1, oper, s3]).Answers op r ∧
      ∀ op', op'.isSigned = op.isSigned → Reads op' (decimalString r) r) ∧
      ((∀ op r, ¬Asks s1 oper s3 op r) → (main t true [program, s1, oper, s3]).Fails) := by
  have accepts : ∀ op, Operands op s1 s3 ↔ (∃ v1, Reads op s1 v1) ∧ ∃ v3, Reads op s3 v3 :=
    fun _ => operands_iff fair.first fair.second fair.safe1 fair.safe3
  constructor
  · intro op r asks
    refine ⟨?_, fun op' => result_reads asks⟩
    obtain ⟨rfl, v1, v3, reads1, reads3, result⟩ := asks
    have accepted := (accepts op).mpr ⟨⟨v1, reads1⟩, v3, reads3⟩
    exact (main_means reads1 reads3 accepted (fair.plain op v1 v3 rfl reads1 reads3)).1 r result
  · intro nothing
    by_cases known : ∃ op, symbol op = oper
    · obtain ⟨op, rfl⟩ := known
      by_cases accepted : Operands op s1 s3
      · obtain ⟨⟨v1, reads1⟩, v3, reads3⟩ := (accepts op).mp accepted
        refine (main_means reads1 reads3 accepted (fair.plain op v1 v3 rfl reads1 reads3)).2 ?_
        exact Option.eq_none_iff_forall_ne_some.mpr fun r result =>
          nothing op r ⟨rfl, v1, v3, reads1, reads3, result⟩
      · exact main_refused accepted
    · have unknown := not_exists.mp known
      obtain ⟨quiet, err⟩ : Quiet (main t true [program, s1, oper, s3]).out ∧ _ := main_unknown unknown
      rw [if_neg (by simp)] at err
      exact Outcome.fails err quiet

end Program

/-! ## A quotient -/

theorem reads_minusSeven : Reads .DIV64 (.ofChars ['-', '7']) (-7) where
  denotes := ⟨[], .minus, [55], ⟨by decide, by decide, by decide, by decide, by decide⟩, by decide⟩
  range := by decide
  unsigned := nofun

theorem reads_two : Reads .DIV64 (.ofChars ['2']) 2 where
  denotes := ⟨[], .absent, [50], ⟨by decide, by decide, by decide, by decide, by decide⟩, by decide⟩
  range := by decide
  unsigned := nofun

theorem fair_quotient : Fair (.ofChars ['-', '7']) (.ofChars ['/']) (.ofChars ['2']) where
  first := by decide
  second := by decide
  safe1 wraps := (wrapsAround_iff.mp wraps).1 (by decide)
  safe3 wraps := by
    obtain ⟨_, _, v, denotes, negative⟩ := wrapsAround_iff.mp wraps
    obtain rfl := (denotes.unique reads_two.denotes).1
    exact absurd negative (by decide)
  plain op v1 v3 divides _ _ := by
    cases op with
    | DIV64 => trivial
    | _ => exact absurd divides (by decide)

/-- `-7 / 2` is `-3`. -/
theorem simplecalc_exact_quotient :
    (main ⟨fun _ _ _ => 0, fun _ _ _ => 0⟩ true
      [.ofChars ['s'], .ofChars ['-', '7'], .ofChars ['/'], .ofChars ['2']]).Answers .DIV64 (-3) := by
  have exact := simplecalc_exact ⟨fun _ _ _ => 0, fun _ _ _ => 0⟩ (.ofChars ['s']) _ _ _ fair_quotient
  exact (exact.1 .DIV64 (-3) ⟨rfl, -7, 2, reads_minusSeven, reads_two, by decide⟩).1

end NetCalc.Simple
