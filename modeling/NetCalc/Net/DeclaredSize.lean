import NetCalc.Net.Answers

/-!
# Is the declared size what is delivered?

The reply's net header declares its size before any equation is looked at: 14
bytes for each one announced. The loop stops at the first equation that cannot
be solved. So a reply is as long as it says exactly when the operands of every
equation pass the validator of its operation (`declared_size_delivered_iff`).
-/

namespace NetCalc.Net

set_option autoImplicit false
open NetCalc.Lib

/-- The bytes sent are as many as the net header among them declares, which is
two headers and `n` records; the `i`-th record carries the id of the `i`-th
slice of the stream. -/
def DeliversDeclared (n : Nat) (stream bytes : List Byte) : Prop :=
  ∃ (net head : List Byte) (records : List (List Byte)),
    bytes = net ++ head ++ records.flatten ∧
    net.length = NET_HEADER_SIZE ∧ head.length = HEADER_SIZE ∧ records.length = n ∧
    bytes.length = NET_HEADER_SIZE + HEADER_SIZE + SOLUTION_SIZE * n ∧
    (htobe64 (NetHeader.ofBytes net).fileSize).toNat = bytes.length ∧
    ∀ i record, records[i]? = some record →
      record.length = SOLUTION_SIZE ∧ slice 0 4 record = slice 0 4 (block EQUATION_SIZE i stream)

/-- The operands of an equation pass the validator of its operation. -/
def Validates (equation : Equation) : Prop :=
  ∀ op, Op.ofByte? equation.operator = some op → op.accepts equation.num1 equation.num2 = true

/-- An equation with an operator can be solved exactly when its operands pass. -/
theorem solvable_iff {t : Target} {b : List Byte} {op : Op}
    (known : Op.ofByte? (Equation.ofBytes b).operator = some op) :
    Solvable t b ↔ Validates (Equation.ofBytes b) := by
  constructor
  · rintro ⟨op', known', ok⟩ op'' known''
    rw [known'] at known''
    cases known''
    exact (Op.func_ok ..).mp ok
  · intro validates
    exact ⟨op, known, (Op.func_ok ..).mpr (validates op known)⟩

/-- An answer carries its equation's id. -/
theorem Correct.id_slice {t : Target} {b record : List Byte} (h : Correct t b record)
    (width : b.length = EQUATION_SIZE) : slice 0 4 record = slice 0 4 b := by
  obtain ⟨op, solution, _, _, rfl⟩ := h
  simp only [List.append_assoc]
  rw [slice_here (encode_length _)]
  exact encode_decode _ rfl (slice_length (by rw [width]; decide))

/-- The size that `write_net_header` declares. -/
theorem replyNetHeader_size (header : NetHeader) {n : Nat}
    (fits : NET_HEADER_SIZE + HEADER_SIZE + SOLUTION_SIZE * n < 2 ^ 63) :
    (htobe64 (NetHeader.ofBytes (replyNetHeader header n).toBytes).fileSize).toNat =
      NET_HEADER_SIZE + HEADER_SIZE + SOLUTION_SIZE * n := by
  rw [NetHeader.ofBytes_toBytes (strncpy_length _ _)]
  simp only [replyNetHeader, htobe64]
  rw [byteSwap_byteSwap _ (by decide)]
  unfold NET_HEADER_SIZE HEADER_SIZE SOLUTION_SIZE at *
  rw [BitVec.toNat_ofInt]
  omega

/-- **Declared size equals delivered size, exactly when every equation can be
solved.** For every request of an acceptable file header that announces `n`
equations and `n` records with operators of the table, on a connection whose
reads and writes transfer everything. -/
theorem declared_size_delivered_iff (env : Env) (w : World) (header : NetHeader) {file stream : List Byte}
    {n : Nat} (memory : Allocates env.toInputs) (all : DeliversAll env.toInputs)
    (completes : ∀ k, env.writes k = .all) (request : w.input.rx = file ++ stream)
    (width : file.length = HEADER_SIZE) (unsolved : (FileHeader.ofBytes file).isSolved = 0)
    (announced : (FileHeader.ofBytes file).numEquations.toInt = n) (positive : 0 < n)
    (complete : stream.length = EQUATION_SIZE * n)
    (fits : NET_HEADER_SIZE + HEADER_SIZE + SOLUTION_SIZE * n < 2 ^ 63)
    (operators : ∀ i, i < n → 1 ≤ (Equation.ofBytes (block EQUATION_SIZE i stream)).operator.toNat ∧
      (Equation.ofBytes (block EQUATION_SIZE i stream)).operator.toNat ≤ 12) :
    ∃ log, (parseStream env w header).2.output.log = w.output.log ++ log ∧
      (DeliversDeclared n stream (sent log) ↔
        ∀ i, i < n → Validates (Equation.ofBytes (block EQUATION_SIZE i stream))) := by
  obtain ⟨log, sent_log, arrived⟩ := parseStream_complete w header memory all
    (fun k => by rw [completes]; exact WriteAct.noConfusion) request width unsolved announced positive complete
  refine ⟨log, sent_log, ?_⟩
  have net_length : (replyNetHeader header n).toBytes.length = NET_HEADER_SIZE :=
    NetHeader.toBytes_length (strncpy_length _ _)
  have inOrder : AnswersInOrder env.target n stream (answered (answer env.target) EQUATION_SIZE n stream) :=
    .of_front List.prefix_rfl
  have size : (sent log).length = NET_HEADER_SIZE + HEADER_SIZE +
      SOLUTION_SIZE * (answered (answer env.target) EQUATION_SIZE n stream).length := by
    rw [arrived, List.length_append, List.length_append, net_length, FileHeader.toBytes_length,
      inOrder.flatten_length]
  have full_iff : (answered (answer env.target) EQUATION_SIZE n stream).length = n ↔
      ∀ i, i < n → Validates (Equation.ofBytes (block EQUATION_SIZE i stream)) := by
    rw [answered_all_iff (by omega)]
    apply forall_congr'
    intro i
    apply imp_congr_right
    intro small
    obtain ⟨op, known⟩ := Option.isSome_iff_exists.mp (Op.ofByte?_isSome.mpr (operators i small))
    rw [answer_isSome_iff, solvable_iff known]
  rw [← full_iff]
  constructor
  · rintro ⟨_, _, _, _, _, _, _, exact, _⟩
    rw [size] at exact
    unfold SOLUTION_SIZE at exact
    omega
  · intro full
    refine ⟨_, _, _, arrived, net_length, FileHeader.toBytes_length _, full, by rw [size, full], ?_, ?_⟩
    · rw [replyNetHeader_size header fits, size, full]
    · intro i record here
      obtain ⟨correct, record_length⟩ := inOrder.each i record here
      obtain ⟨inside, _⟩ := List.getElem?_eq_some_iff.mp here
      refine ⟨record_length, correct.id_slice (block_length ?_)⟩
      rw [complete]
      exact Nat.mul_le_mul_left _ (by omega)

/-- Two sums, answered in full. -/
theorem declared_size_delivered_two :
    DeliversDeclared 2 (equationRecords [⟨7, 0, 10, 1, 20⟩, ⟨9, 0, 3, 1, 4⟩])
      (sent (parseStream Env.calm (World.start (unsolvedHeader 2 ++
        equationRecords [⟨7, 0, 10, 1, 20⟩, ⟨9, 0, 3, 1, 4⟩])) ⟨0, 0, 0, []⟩).2.output.log) := by
  have sums : ∀ i, i < 2 → Equation.ofBytes (block EQUATION_SIZE i
      (equationRecords [⟨7, 0, 10, 1, 20⟩, ⟨9, 0, 3, 1, 4⟩])) = ⟨7, 0, 10, 1, 20⟩ ∨
      Equation.ofBytes (block EQUATION_SIZE i
        (equationRecords [⟨7, 0, 10, 1, 20⟩, ⟨9, 0, 3, 1, 4⟩])) = ⟨9, 0, 3, 1, 4⟩ := by
    decide +kernel
  obtain ⟨log, sent_log, delivers⟩ := declared_size_delivered_iff Env.calm (World.start (unsolvedHeader 2 ++
    equationRecords [⟨7, 0, 10, 1, 20⟩, ⟨9, 0, 3, 1, 4⟩])) ⟨0, 0, 0, []⟩ (n := 2) (fun _ _ => rfl) (fun _ => rfl)
    (fun _ => rfl) rfl (FileHeader.toBytes_length _) (by decide +kernel) (by decide +kernel) (by decide)
    (by decide) (by decide) (by decide +kernel)
  rw [sent_log]
  apply delivers.mpr
  intro i small op known
  rcases sums i small with same | same
  all_goals
    rw [same] at known ⊢
    cases known
    decide +kernel

/-- The claimed size is not delivered for a division by zero: 75 bytes arrive
where 89 are declared. -/
theorem division_by_zero_undelivered :
    ¬ DeliversDeclared 1 (equationRecords [⟨7, 0, 10, 4, 0⟩])
      (sent (parseStream Env.calm (World.start (unsolvedHeader 1 ++ equationRecords [⟨7, 0, 10, 4, 0⟩]))
        ⟨0, 0, 0, []⟩).2.output.log) := by
  rintro ⟨_, _, _, _, _, _, _, exact, _⟩
  have short : (sent (parseStream Env.calm (World.start (unsolvedHeader 1 ++
      equationRecords [⟨7, 0, 10, 4, 0⟩])) ⟨0, 0, 0, []⟩).2.output.log).length = 75 := by
    decide +kernel
  rw [short] at exact
  cases exact

end NetCalc.Net
