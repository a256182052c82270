import NetCalc.File.SameFile
import NetCalc.Simple.Exact

/-!
# Three calculators, one meaning

The server and the file calculator work with words of 64 bits, the calculator
of the command line with 32. Each does what the operators mean at its width:
what the first two answer to a stream of equations is what the abstract
calculator `meant` answers, whatever the compiler makes of a shift that C does
not define; and on an equation of signed numbers that have 32 bits the third
prints the number that the other two put into their records, if it has 32 bits
too, and fails otherwise (`one_meaning`).
-/

namespace NetCalc.File

set_option autoImplicit false
open NetCalc.Lib NetCalc.Net

/-- The record of an equation by what its operator means. -/
def meant (b : List Byte) : Option (List Byte) := do
  let equation := Equation.ofBytes b
  let op ← Op.ofByte? equation.operator
  let r ← meaning 64 op (op.read equation.num1) (op.read equation.num2)
  some (encode 4 equation.equationId ++ [1] ++ [if op.val ≤ 5 then 1 else 2] ++ encode 8 (BitVec.ofInt 64 r))

/-- Its operator has no surprises on an equation. -/
def PlainEquation (b : List Byte) : Prop :=
  ∀ op, Op.ofByte? (Equation.ofBytes b).operator = some op →
    op.Plain 64 (op.read (Equation.ofBytes b).num1) (op.read (Equation.ofBytes b).num2)

/-- The number in a record. -/
def solutionOf (op : Op) (record : List Byte) : Int := op.read (decode 64 (slice 6 8 record))

/-! ## The server -/

section Server
variable {t : Target} {b record : List Byte} {op : Op}

/-- What an operator's function makes of an equation. -/
theorem func_means (known : Op.ofByte? (Equation.ofBytes b).operator = some op) (plain : PlainEquation b) :
    Means op (op.func t (Equation.ofBytes b).num1 (Equation.ofBytes b).num2 0)
      (meaning 64 op (op.read (Equation.ofBytes b).num1) (op.read (Equation.ofBytes b).num2)) := by
  rw [Op.func_eq]
  exact Op.funcAt_means t (by decide) (plain op known) 0

/-- **The server answers what is meant.** -/
theorem answer_meant (plain : PlainEquation b) : answer t b = meant b := by
  cases known : Op.ofByte? (Equation.ofBytes b).operator with
  | none =>
    have nothing : answer t b = none := answer_none fun ⟨op, there, _⟩ => by rw [known] at there; cases there
    rw [nothing, meant]
    simp [known]
  | some op =>
    have means := func_means (t := t) known plain
    cases result : meaning 64 op (op.read (Equation.ofBytes b).num1) (op.read (Equation.ofBytes b).num2) with
    | none =>
      have nothing : answer t b = none := by
        refine answer_none fun ⟨op', there, ok⟩ => ?_
        rw [known] at there
        cases there
        rw [means.succeeds, result] at ok
        cases ok
      rw [nothing, meant]
      simp [known, result]
    | some r =>
      have ok : (op.func t (Equation.ofBytes b).num1 (Equation.ofBytes b).num2 0).1 = 0 :=
        means.succeeds.mpr (by rw [result]; rfl)
      obtain ⟨record, found, op', solution, there, answers, rfl⟩ := answer_some (b := b) (t := t) ⟨op, known, ok⟩
      rw [known] at there
      cases there
      have value := means.value r result
      rw [answers 0] at value
      have word : BitVec.ofInt 64 r = solution := by rw [← value, Op.ofInt_read]
      rw [found, meant]
      simp [known, result, word]

/-- The number in its record is what is meant. -/
theorem answer_solution (known : Op.ofByte? (Equation.ofBytes b).operator = some op) (plain : PlainEquation b) :
    (answer t b).map (solutionOf op) =
      meaning 64 op (op.read (Equation.ofBytes b).num1) (op.read (Equation.ofBytes b).num2) := by
  rw [answer_meant plain, meant]
  cases result : meaning 64 op (op.read (Equation.ofBytes b).num1) (op.read (Equation.ofBytes b).num2) with
  | none => simp [known, result]
  | some r =>
    have range := meaning_inType (Op.read_inType op _) (Op.read_inType op _) result
    simp only [known, result, Option.bind_eq_bind, Option.bind_some, Option.map_some, Option.some.injEq,
      solutionOf]
    rw [List.append_assoc, List.append_assoc, slice_past (encode_length _) (by decide),
      slice_past (n := 1) rfl (by decide), slice_past (n := 1) rfl (by decide), slice_all (encode_length _),
      decode_encode (BitVec.ofInt 64 r) rfl, Op.read_ofInt (by decide) range]

end Server

/-! ## The command line -/

section CommandLine
variable {op : Op} {x y : Int}

theorem decimal_ne_nil (v : Int) : decimal v ≠ [] := by
  obtain ⟨c, cs, same, _⟩ := decimal_head v
  rw [same]
  exact List.cons_ne_nil _ _

/-- A number as it is printed does not wrap around. -/
theorem decimalString_safe (v : Int) : ¬Simple.WrapsAround (decimalString v) := by
  intro wraps
  obtain ⟨start, _, v', denotes, negative⟩ := Simple.wrapsAround_iff.mp wraps
  obtain rfl := (denotes_decimal v).unique denotes |>.1
  apply start
  show (decimal v).getD 0 0 = 45
  rw [decimal, if_pos negative]
  rfl

/-- Numbers in decimal are a fair command line. -/
theorem fair_decimal (plain : op.Plain 32 x y) :
    Simple.Fair (decimalString x) (Simple.symbol op) (decimalString y) where
  first := decimal_ne_nil x
  second := decimal_ne_nil y
  safe1 := decimalString_safe x
  safe3 := decimalString_safe y
  plain op' v1 v3 same first second := by
    obtain rfl := Simple.symbol_inj same
    obtain rfl := (first.denotes.unique (denotes_decimal x)).1
    obtain rfl := (second.denotes.unique (denotes_decimal y)).1
    exact plain

/-- Numbers of 32 bits are far from where the subtraction of 64 bits is off. -/
theorem plain_wide (signed : op.isSigned = true) (first : Fits 32 x) (second : Fits 32 y) : op.Plain 64 x y := by
  cases op with
  | SUB64 =>
    unfold Fits intMin intMax at first second
    show (x - y).natAbs ≠ 2 ^ 63
    omega
  | ADD64 | MULT64 | DIV64 | MOD64 => trivial
  | _ => cases signed

/-- **The command line prints the number of the record**, if it has 32 bits. -/
theorem simplecalc_same (t t' : Target) (program : CString) {b : List Byte}
    (known : Op.ofByte? (Equation.ofBytes b).operator = some op) (signed : op.isSigned = true)
    (num1 : (Equation.ofBytes b).num1.toInt = x) (num2 : (Equation.ofBytes b).num2.toInt = y)
    (first : Fits 32 x) (second : Fits 32 y) (plain : op.Plain 32 x y) :
    (∀ record, answer t b = some record → Fits 32 (solutionOf op record) →
      (Simple.main t' true [program, decimalString x, Simple.symbol op, decimalString y]).Answers op
        (solutionOf op record)) ∧
      ((∀ record, answer t b = some record → ¬Fits 32 (solutionOf op record)) →
        (Simple.main t' true [program, decimalString x, Simple.symbol op, decimalString y]).Fails) := by
  have exact := Simple.simplecalc_exact t' program _ _ _ (fair_decimal plain)
  have read1 : op.read (Equation.ofBytes b).num1 = x := by rw [Op.read, if_pos signed, num1]
  have read2 : op.read (Equation.ofBytes b).num2 = y := by rw [Op.read, if_pos signed, num2]
  have wide : PlainEquation b := by
    intro op' there
    rw [known] at there
    cases there
    rw [read1, read2]
    exact plain_wide signed first second
  have number := answer_solution (t := t) known wide
  rw [read1, read2] at number
  have narrow := meaning_narrow (by decide : 32 ≤ 64) signed first (y := y)
  rw [← number] at narrow
  constructor
  · intro record found fits
    rw [found, Option.map_some, Option.bind_some, C.value_of_fits fits] at narrow
    have reads : ∀ {v : Int}, Fits 32 v → Simple.Reads op (decimalString v) v := by
      intro v range
      refine Simple.reads_decimal ?_
      rwa [Op.InType, if_pos signed]
    exact (exact.1 op _ ⟨rfl, x, y, reads first, reads second, narrow⟩).1
  · intro none_fits
    refine exact.2 fun op' r asks => ?_
    obtain ⟨same, v1, v3, reads1, reads3, result⟩ := asks
    obtain rfl := Simple.symbol_inj same
    obtain rfl := (reads1.denotes.unique (denotes_decimal x)).1
    obtain rfl := (reads3.denotes.unique (denotes_decimal y)).1
    rw [narrow] at result
    cases found : answer t b with
    | none =>
      rw [found] at result
      cases result
    | some record =>
      rw [found] at result
      exact none_fits record found (C.value_eq_some_iff.mp result).1

end CommandLine

/-- **Three calculators, one meaning.** Take any header that is accepted and
announces `n` equations, at most so many complete equations behind it, on which
their operators have no surprises, and descriptors that transfer what they are
asked for. The file calculator's output and the server's reply behind its net
header are the header, marked as solved, and what the abstract calculator
answers; and for each equation of signed numbers of 32 bits the calculator of
the command line, given the numbers in decimal, prints the number in the record
that answers it, if that has 32 bits, and fails if it has not or there is no
answer. -/
theorem one_meaning (env : Env) (header : NetHeader) (formatted opened : Int) (t : Target) (program : CString)
    {file stream : List Byte} {n : Nat} (memory : Allocates env.toInputs) (all : DeliversAll env.toInputs)
    (completes : ∀ k, env.writes k ≠ .fail) (named : formatted ≠ ERROR) (there : opened ≠ ERROR)
    (width : file.length = HEADER_SIZE) (fields : ¬(FileHeader.ofBytes file).Refused) (small : n ≤ 2 ^ 31 - 1)
    (announced : (FileHeader.ofBytes file).numEquations.toInt = n)
    (room : stream.length < EQUATION_SIZE * (n + 1))
    (plain : ∀ i, i < n → PlainEquation (block EQUATION_SIZE i stream)) :
    solvedFile env formatted opened (file ++ stream) =
        file.set 20 1 ++ (answered meant EQUATION_SIZE n stream).flatten ∧
      (repliedFile env header (file ++ stream)).drop NET_HEADER_SIZE =
        file.set 20 1 ++ (answered meant EQUATION_SIZE n stream).flatten ∧
      ∀ i op x y, i < n → Op.ofByte? (Equation.ofBytes (block EQUATION_SIZE i stream)).operator = some op →
        op.isSigned = true → (Equation.ofBytes (block EQUATION_SIZE i stream)).num1.toInt = x →
        (Equation.ofBytes (block EQUATION_SIZE i stream)).num2.toInt = y → Fits 32 x → Fits 32 y →
        op.Plain 32 x y →
        (∀ record, meant (block EQUATION_SIZE i stream) = some record → Fits 32 (solutionOf op record) →
          (Simple.main t true [program, decimalString x, Simple.symbol op, decimalString y]).Answers op
            (solutionOf op record)) ∧
          ((∀ record, meant (block EQUATION_SIZE i stream) = some record → ¬Fits 32 (solutionOf op record)) →
            (Simple.main t true [program, decimalString x, Simple.symbol op, decimalString y]).Fails) := by
  have answers : answered (answer env.target) EQUATION_SIZE n stream = answered meant EQUATION_SIZE n stream :=
    answered_congr fun i below _ => answer_meant (plain i below)
  have marked : (replyFileHeader (FileHeader.ofBytes file)).toBytes = file.set 20 1 :=
    FileHeader.solved_toBytes width 1
  have solved := solvedFile_eq memory all completes named there width fields room
  have replied := repliedFile_eq memory all completes width fields small announced header stream
  rw [answers, marked] at solved replied
  refine ⟨solved, replied, ?_⟩
  intro i op x y below known signed num1 num2 first second apart
  have same := simplecalc_same env.target t program known signed num1 num2 first second apart
  rwa [answer_meant (plain i below)] at same

/-- Two sums: the first of them on the command line too. -/
theorem one_meaning_two :
    solvedFile Env.calm 10 5 (unsolvedHeader 2 ++ equationRecords [⟨7, 0, 10, 1, 20⟩, ⟨9, 0, 3, 1, 4⟩]) =
        (unsolvedHeader 2).set 20 1 ++
          (answered meant EQUATION_SIZE 2 (equationRecords [⟨7, 0, 10, 1, 20⟩, ⟨9, 0, 3, 1, 4⟩])).flatten ∧
      (Simple.main Env.calm.target true
        [.ofChars ['s'], decimalString 10, Simple.symbol .ADD64, decimalString 20]).Answers .ADD64 30 := by
  have same := @one_meaning Env.calm ⟨0, 0, 0, []⟩ 10 5 Env.calm.target (.ofChars ['s']) (unsolvedHeader 2)
    (equationRecords [⟨7, 0, 10, 1, 20⟩, ⟨9, 0, 3, 1, 4⟩]) 2 (fun _ _ => rfl) (fun _ => rfl)
    (fun _ => WriteAct.noConfusion) (by decide) (by decide) (by decide +kernel) (by decide +kernel) (by decide)
    (by decide +kernel) (by decide +kernel) ?_
  · obtain ⟨solved, _, prints⟩ := same
    refine ⟨solved, ?_⟩
    exact (prints 0 .ADD64 10 20 (by decide) (by decide +kernel) rfl (by decide +kernel) (by decide +kernel)
      (by decide) (by decide) trivial).1
      (encode 4 (7 : BitVec 32) ++ [1] ++ [1] ++ encode 8 (30 : BitVec 64)) (by decide +kernel)
      (by decide +kernel)
  · intro i below op known
    have adds : Op.ofByte? (Equation.ofBytes (block EQUATION_SIZE i (equationRecords
        [⟨7, 0, 10, 1, 20⟩, ⟨9, 0, 3, 1, 4⟩]))).operator = some .ADD64 := by
      match i, below with
      | 0, _ => decide +kernel
      | 1, _ => decide +kernel
    rw [adds] at known
    cases known
    trivial

end NetCalc.File
