import NetCalc.Net.Client
import NetCalc.Net.GradeAnswers

/-!
# The files of the acceptance tests (`EquGrader.py`)

`generate_files` fills a directory with equation files. What it takes from
`os.urandom` and from `random` is an argument: a `Draw` for each equation, in
the ranges it is drawn from, and eight bytes for the id of each file.

The file calculator and the server, the client and the grader each take such a
file apart in their own way, and find in it what was drawn (`written_read`).
-/

namespace NetCalc.Grader

set_option autoImplicit false
open NetCalc.Lib

/-- `EQU_HDR_SIZE`. -/
def EQU_HDR_SIZE : Nat := 27

/-- `EQU_HDR_MAGIC`. -/
def EQU_HDR_MAGIC : Nat := 0xdd77bb55

/-- `struct.pack` with a little-endian unsigned format of `size` bytes. -/
def structPack (size v : Nat) : Option (List Byte) := if v < 256 ^ size then some (bytesOf size v) else none

/-- What is drawn for an equation: an id, one of `OPERATORS`, and the two
operands, which for `MOD` and below are drawn from the same range. -/
structure Draw where
  equId : BitVec 32
  op : Op
  num1 : Nat
  num2 : Nat
  num1_le : num1 ≤ 2 ^ 16
  num2_le : num2 ≤ if op.val ≤ 5 then 2 ^ 16 else 16

/-- The bytes `equ` of `gen_equations`. -/
def Draw.equ (d : Draw) : Option (List Byte) := do
  let num1 ← structPack 8 d.num1
  let num2 ← structPack 8 d.num2
  some (encode 4 d.equId ++ [0] ++ (num1 ++ [BitVec.ofInt 8 d.op.val] ++ num2) ++ List.replicate 10 0)

/-- `EquFile`. -/
structure EquFile where
  magic : Nat
  fileId : BitVec 64
  flags : Byte
  equOffset : Nat
  numOptHdrs : Nat
  numEqu : Nat
  equations : List (List Byte)
  deriving DecidableEq, Repr

/-- `set_flag`. -/
def EquFile.setFlag (f : EquFile) (flag : Byte) : EquFile := { f with flags := flag ||| f.flags }

/-- `EquFile.__init__`. -/
def EquFile.new (fileId : BitVec 64) : EquFile :=
  EquFile.setFlag ⟨EQU_HDR_MAGIC, fileId, 0, EQU_HDR_SIZE, 0, 0, []⟩ 0

/-- `gen_equations`. -/
def EquFile.genEquations (f : EquFile) (draws : List Draw) : Option EquFile := do
  let equations ← draws.mapM Draw.equ
  some { f with numEqu := draws.length, equations := f.equations ++ equations }

/-- `write_file`: what it writes. -/
def EquFile.writeFile (f : EquFile) : Option (List Byte) := do
  let magic ← structPack 4 f.magic
  let numEqu ← structPack 8 f.numEqu
  let equOffset ← structPack 4 f.equOffset
  let numOptHdrs ← structPack 2 f.numOptHdrs
  some (magic ++ encode 8 f.fileId ++ numEqu ++ [f.flags] ++ equOffset ++ numOptHdrs ++ f.equations.flatten)

/-- A file of `generate_files`. -/
def generated (fileId : BitVec 64) (draws : List Draw) : Option (List Byte) := do
  let equFile ← (EquFile.new fileId).genEquations draws
  equFile.writeFile

/-! ## One equation -/

/-- A draw, as the record of an equation. -/
def Draw.equation (d : Draw) : Net.Equation where
  equationId := d.equId
  reserved := 0
  num1 := BitVec.ofNat 64 d.num1
  operator := BitVec.ofInt 8 d.op.val
  num2 := BitVec.ofNat 64 d.num2

section Draws
variable (d : Draw)

theorem Draw.num2_small : d.num2 ≤ 2 ^ 16 := by
  refine d.num2_le.trans ?_
  split <;> decide

/-- The operands, as words and as numbers. -/
@[simp] theorem Draw.num1_toNat : d.equation.num1.toNat = d.num1 := by
  have small := d.num1_le
  exact (BitVec.toNat_ofNat ..).trans (Nat.mod_eq_of_lt (by omega))

@[simp] theorem Draw.num2_toNat : d.equation.num2.toNat = d.num2 := by
  have small := d.num2_small
  exact (BitVec.toNat_ofNat ..).trans (Nat.mod_eq_of_lt (by omega))

@[simp] theorem Draw.num1_toInt : d.equation.num1.toInt = d.num1 := by
  have small := d.num1_le
  rw [BitVec.toInt_eq_toNat_of_lt (by rw [d.num1_toNat]; omega), d.num1_toNat]

@[simp] theorem Draw.num2_toInt : d.equation.num2.toInt = d.num2 := by
  have small := d.num2_small
  rw [BitVec.toInt_eq_toNat_of_lt (by rw [d.num2_toNat]; omega), d.num2_toNat]

/-- The operator is one of the table. -/
@[simp] theorem Draw.operator_known : Op.ofByte? d.equation.operator = some d.op := by
  obtain ⟨_, op, _, _, _, _⟩ := d
  cases op <;> rfl

theorem structPack_word {size v : Nat} (fits : v < 256 ^ size) :
    structPack size v = some (encode size (BitVec.ofNat (8 * size) v)) := by
  have small : v < 2 ^ (8 * size) := by
    rw [Nat.pow_mul]
    exact fits
  rw [structPack, if_pos fits, encode, BitVec.toNat_ofNat, Nat.mod_eq_of_lt small]

/-- Its bytes are those of the record. -/
theorem Draw.equ_eq : d.equ = some d.equation.toBytes := by
  have small₁ := d.num1_le
  have small₂ := d.num2_small
  unfold Draw.equ
  rw [structPack_word (by omega), structPack_word (by omega)]
  simp only [Option.bind_eq_bind, Option.bind_some, Net.Equation.toBytes, Draw.equation, encode_byte,
    List.append_assoc]

theorem draws_equ (draws : List Draw) :
    draws.mapM Draw.equ = some (draws.map fun d => d.equation.toBytes) := by
  induction draws with
  | nil => rfl
  | cons d draws ih =>
    rw [List.mapM_cons, d.equ_eq, ih]
    rfl

end Draws

/-! ## A file -/

/-- The header of a generated file. -/
def generatedHeader (fileId : BitVec 64) (n : Nat) : Net.FileHeader where
  magic := BitVec.ofNat 32 EQU_HDR_MAGIC
  fileId := fileId
  numEquations := BitVec.ofNat 64 n
  isSolved := 0
  offset := 27
  reserved := 0

/-- The equations behind it. -/
def generatedStream (draws : List Draw) : List Byte := (draws.map fun d => d.equation.toBytes).flatten

section Written
variable {fileId : BitVec 64} {draws : List Draw}

theorem generated_eq (few : draws.length < 2 ^ 64) :
    generated fileId draws = some ((generatedHeader fileId draws.length).toBytes ++ generatedStream draws) := by
  unfold generated EquFile.genEquations
  rw [draws_equ]
  simp only [Option.bind_eq_bind, Option.bind_some]
  unfold EquFile.writeFile EquFile.new EquFile.setFlag
  dsimp only
  rw [structPack_word (by decide), structPack_word (by simpa using few), structPack_word (by decide),
    structPack_word (by decide)]
  simp only [Option.bind_eq_bind, Option.bind_some, generatedStream, Net.FileHeader.toBytes, generatedHeader,
    encode_byte, List.nil_append, List.append_assoc]
  rfl

theorem generatedStream_length (draws : List Draw) :
    (generatedStream draws).length = Net.EQUATION_SIZE * draws.length := by
  rw [generatedStream, List.length_flatten, List.map_map]
  simp [Function.comp_def, Nat.mul_comm]

/-- The `i`-th equation is the `i`-th draw. -/
theorem block_generated {i : Nat} {d : Draw} (here : draws[i]? = some d) :
    block Net.EQUATION_SIZE i (generatedStream draws) = d.equation.toBytes := by
  refine block_flatten (fun record member => ?_) (by rw [List.getElem?_map, here]; rfl)
  obtain ⟨d, _, rfl⟩ := List.mem_map.mp member
  exact d.equation.toBytes_length

theorem equationAt_generated {i : Nat} {d : Draw} (here : draws[i]? = some d) :
    equationAt (generatedStream draws) i = d.equation := by
  rw [equationAt, block_generated here, Net.Equation.ofBytes_toBytes]

end Written

/-! ## Three readers -/

section Readers
variable {fileId : BitVec 64} {draws : List Draw}

/-- The header of a generated file, as the grader unpacks it. -/
def unpackedHeader (fileId : BitVec 64) (n : Nat) : UnpackedHeader :=
  ⟨EQU_HDR_MAGIC, fileId.toNat, n, 0, EQU_HDR_SIZE, 0⟩

/-- An equation as the grader unpacks it. -/
def Draw.unpacked (d : Draw) : Equation := ⟨d.equId.toNat, d.num1, d.op.val.toNat, d.num2, dataCode d.op⟩

theorem ofFile_generated (few : draws.length < 2 ^ 64) :
    UnpackedHeader.ofFile (generatedHeader fileId draws.length) = unpackedHeader fileId draws.length := by
  have count : (BitVec.ofNat 64 draws.length).toNat = draws.length :=
    (BitVec.toNat_ofNat ..).trans (Nat.mod_eq_of_lt few)
  unfold UnpackedHeader.ofFile generatedHeader unpackedHeader
  dsimp only
  rw [count]
  rfl

theorem Draw.unpack_toBytes (d : Draw) : Equation.unpack d.equation.toBytes = some d.unpacked := by
  have known : Op.ofByte? (Net.Equation.ofBytes d.equation.toBytes).operator = some d.op := by
    rw [Net.Equation.ofBytes_toBytes, d.operator_known]
  rw [unpack_equation d.equation.toBytes_length known, Net.Equation.ofBytes_toBytes]
  unfold readAs Draw.unpacked
  split
  · rw [d.num1_toInt, d.num2_toInt]
    rfl
  · rw [d.num1_toNat, d.num2_toNat]
    rfl

/-- **What is drawn is read back, by each of the three.** For every id and
every list of at least one equation: `check_header` of the server, and of the
file calculator, accepts the file and finds the number of equations, and their
records hold the drawn equations; the client counts as many; and the grader
unpacks the same header and the same equations. -/
theorem generated_read_back (e : Inputs) (fileId : BitVec 64) (draws : List Draw) (all : Net.DeliversAll e)
    (some_equations : 1 ≤ draws.length) (few : draws.length < 2 ^ 63) :
    ∃ content, generated fileId draws = some content ∧
      (∀ i : Input, i.rx = content → Net.checkHeader e i = ⟨SUCCESS, draws.length,
        generatedHeader fileId draws.length, ⟨content.drop Net.HEADER_SIZE, i.nread + 1, i.nalloc⟩⟩) ∧
      (∀ (i : Nat) (d : Draw), draws[i]? = some d →
        equationAt (content.drop Net.HEADER_SIZE) i = d.equation) ∧
      Client.getNumEquations content = draws.length ∧
      UnpackedHeader.unpack content = some (unpackedHeader fileId draws.length) ∧
      ∀ (i : Nat) (d : Draw), draws[i]? = some d →
        unsolvedAt content (unpackedHeader fileId draws.length) i = some d.unpacked := by
  have width : (generatedHeader fileId draws.length).toBytes.length = Net.HEADER_SIZE :=
    Net.FileHeader.toBytes_length _
  have fields := Net.FileHeader.ofBytes_toBytes (generatedHeader fileId draws.length)
  have count : (generatedHeader fileId draws.length).numEquations.toNat = draws.length :=
    (BitVec.toNat_ofNat ..).trans (Nat.mod_eq_of_lt (by omega))
  have signed : (generatedHeader fileId draws.length).numEquations.toInt = draws.length := by
    rw [BitVec.toInt_eq_toNat_of_lt (by omega), count]
  have behind : ((generatedHeader fileId draws.length).toBytes ++ generatedStream draws).drop Net.HEADER_SIZE =
      generatedStream draws := List.drop_left' width
  refine ⟨_, generated_eq (by omega), ?_, ?_, ?_, ?_, ?_⟩
  · intro i request
    have whole : (safeRead e i (Net.zeroed Net.HEADER_SIZE) Net.HEADER_SIZE).1 = Net.HEADER_SIZE := by
      have enough : Net.HEADER_SIZE ≤ i.rx.length := by
        rw [request, List.length_append, width]
        omega
      rw [safeRead_all (by decide) (by decide) (all _) enough]
    rw [Net.checkHeader_accepts whole request width (by rw [fields]; rfl) (by rw [fields, signed]; omega), fields,
      signed, behind]
    rfl
  · intro i d here
    rw [behind, equationAt_generated here]
  · rw [Client.getNumEquations_eq width, fields, count]
  · rw [unpack_file width, fields, ofFile_generated (by omega)]
  · intro i d here
    have place : unsolvedAt (_ ++ generatedStream draws) _ i = _ := unsolvedAt_eq width (by rw [fields]; rfl) i
    rw [fields, ofFile_generated (by omega)] at place
    rw [place, block_generated here, d.unpack_toBytes]

/-- One rotation, read back. -/
theorem generated_read_back_rotation : ∃ content,
    generated 7 [⟨1, .ROL64, 65536, 16, by decide, by decide⟩] = some content ∧
      Client.getNumEquations content = 1 ∧
      unsolvedAt content (unpackedHeader 7 1) 0 = some ⟨1, 65536, 11, 16, 2⟩ := by
  obtain ⟨content, made, _, _, counted, _, each⟩ := generated_read_back Env.calm.toInputs 7
    [⟨1, .ROL64, 65536, 16, by decide, by decide⟩] (fun _ => rfl) (by decide) (by decide)
  exact ⟨content, made, counted, each 0 _ rfl⟩

end Readers

/-! ## What is drawn can be solved -/

/-- A quotient or a remainder by zero is drawn. -/
def Draw.ByZero (d : Draw) : Prop := (d.op = .DIV64 ∨ d.op = .MOD64) ∧ d.num2 = 0

instance (d : Draw) : Decidable d.ByZero := inferInstanceAs (Decidable (_ ∧ _))

/-- A shift by the whole width adds nothing to the word that was shifted, as
with hardware that looks at the low six bits of a count only. -/
structure FullShiftsAddNothing (t : Target) : Prop where
  shl : ∀ a : BitVec 64, a ||| t.shl 64 a 64 = a
  shr : ∀ a : BitVec 64, a ||| t.shr 64 a 64 = a

section Solvable
variable {t : Target} (d : Draw)

/-- Small numbers fit. -/
theorem fits_small {x : Int} (low : -2 ^ 40 ≤ x) (high : x ≤ 2 ^ 40) : Fits 64 x := by
  have least : intMin 64 = -2 ^ 63 := rfl
  have most : intMax 64 = 2 ^ 63 - 1 := rfl
  unfold Fits
  omega

theorem Draw.accepts_iff : d.op.accepts d.equation.num1 d.equation.num2 = true ↔ ¬d.ByZero := by
  have small₁ := d.num1_le
  have small₂ := d.num2_small
  have product : d.num1 * d.num2 ≤ 2 ^ 16 * 2 ^ 16 := Nat.mul_le_mul small₁ small₂
  cases chosen : d.op with
  | ADD64 =>
    refine iff_of_true (decide_eq_true (validateAdd_eq_zero_iff.mpr ?_)) (by simp [ByZero, chosen])
    rw [d.num1_toInt, d.num2_toInt]
    exact fits_small (by omega) (by omega)
  | SUB64 =>
    have least : intMin 64 = -2 ^ 63 := rfl
    have most : intMax 64 = 2 ^ 63 - 1 := rfl
    have decides := (validateSub_decides_iff (a := d.equation.num1) (b := d.equation.num2)).mpr
    rw [d.num1_toInt, d.num2_toInt] at decides
    refine iff_of_true (decide_eq_true ((decides (by omega)).mpr ?_)) (by simp [ByZero, chosen])
    exact fits_small (by omega) (by omega)
  | MULT64 =>
    refine iff_of_true (decide_eq_true (validateMulti_eq_zero_iff.mpr ?_)) (by simp [ByZero, chosen])
    rw [d.num1_toInt, d.num2_toInt, ← Nat.cast_mul]
    exact fits_small (by omega) (by omega)
  | DIV64 =>
    have least : intMin 64 = -2 ^ 63 := rfl
    simp only [Op.accepts, decide_eq_true_eq, validateDivide_eq_zero_iff, d.num1_toInt, d.num2_toInt,
      ByZero, chosen]
    simp only [true_or, true_and]
    omega
  | MOD64 => simp [Op.accepts, ByZero, chosen]
  | _ => exact iff_of_true rfl (by simp [ByZero, chosen])

/-- **An equation can be solved unless it divides by zero.** -/
theorem Draw.solvable_iff : Net.Solvable t d.equation.toBytes ↔ ¬d.ByZero := by
  unfold Net.Solvable
  rw [Net.Equation.ofBytes_toBytes, d.operator_known]
  simp only [Option.some.injEq, exists_eq_left', Op.func_ok]
  exact d.accepts_iff

/-- Then its solution is small enough, and positive enough, to be solved alike. -/
theorem Draw.alike (shifts : FullShiftsAddNothing t) (solvable : ¬d.ByZero) :
    Alike t d.op d.equation.num1 d.equation.num2 := by
  have small₁ := d.num1_le
  have small₂ := d.num2_small
  have room : d.num2 ≤ 16 → d.num1 * 2 ^ d.num2 < 2 ^ 64 := fun count =>
    calc d.num1 * 2 ^ d.num2 ≤ 2 ^ 16 * 2 ^ 16 :=
          Nat.mul_le_mul small₁ (Nat.pow_le_pow_right (by decide) count)
      _ < 2 ^ 64 := by decide
  have count : ¬d.op.val ≤ 5 → d.num2 ≤ 16 := fun unsigned => d.num2_le.trans_eq (if_neg unsigned)
  cases chosen : d.op with
  | SUB64 =>
    show d.equation.num1.toInt - d.equation.num2.toInt ≠ 2 ^ 63
    rw [d.num1_toInt, d.num2_toInt]
    omega
  | DIV64 =>
    show _ ∨ (0 ≤ d.equation.num1.toInt ↔ 0 < d.equation.num2.toInt)
    rw [d.num1_toInt, d.num2_toInt]
    have divisor : d.num2 ≠ 0 := by simpa [ByZero, chosen] using solvable
    omega
  | MOD64 =>
    show _ ∨ (0 ≤ d.equation.num1.toInt ↔ 0 < d.equation.num2.toInt)
    rw [d.num1_toInt, d.num2_toInt]
    have divisor : d.num2 ≠ 0 := by simpa [ByZero, chosen] using solvable
    omega
  | SHL64 =>
    show d.equation.num1.toNat * 2 ^ d.equation.num2.toNat < 2 ^ 64
    rw [d.num1_toNat, d.num2_toNat]
    exact room (count (by rw [chosen]; decide))
  | ROL64 =>
    rw [Alike]
    split
    · exact shifts.shr _
    · show d.equation.num1.toNat * 2 ^ d.equation.num2.toNat < 2 ^ 64
      rw [d.num1_toNat, d.num2_toNat]
      exact room (count (by rw [chosen]; decide))
  | ROR64 =>
    rw [Alike]
    split
    · exact shifts.shl _
    · exact trivial
  | _ => exact trivial

end Solvable

end NetCalc.Grader
