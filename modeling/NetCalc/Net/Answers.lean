import NetCalc.Lib.Blocks
import NetCalc.Net.Reply

/-!
# Only correct answers, in order

What the records of a reply say about the stream they answer. `Correct` is the
answer to one slice of the stream: the bytes `write_stream` has to send for an
equation, by what the operator's function makes of the operands. The loop of
`parse_stream` keeps one buffer for all equations and a counter that is
narrowed to an `int`; nevertheless it answers a prefix of the slices, each by
itself (`records_prefix`), and with reads that deliver all that is asked for
the longest there is (`records_longest`).
-/

namespace NetCalc.Net

set_option autoImplicit false
open NetCalc.Lib

/-- A slice holds an equation with a known operator, and the operation
succeeds. -/
def Solvable (t : Target) (b : List Byte) : Prop :=
  ∃ op, Op.ofByte? (Equation.ofBytes b).operator = some op ∧
    (op.func t (Equation.ofBytes b).num1 (Equation.ofBytes b).num2 0).1 = 0

/-- A record is the answer to a slice: the id, `is_solved`, the type of the
solution and the solution, which does not depend on the word that was there
before. -/
def Correct (t : Target) (b record : List Byte) : Prop :=
  ∃ op solution, Op.ofByte? (Equation.ofBytes b).operator = some op ∧
    (∀ prior, op.func t (Equation.ofBytes b).num1 (Equation.ofBytes b).num2 prior = (0, solution)) ∧
    record = encode 4 (Equation.ofBytes b).equationId ++ [1] ++ [if op.val ≤ 5 then 1 else 2] ++
      encode 8 solution

/-- Every allocation succeeds. -/
def Allocates (e : Inputs) : Prop := ∀ b k, e.calloc b k = true

/-- Every allocation succeeds but perhaps those of `calc_init`: the blocks that
are read into or written from are there. -/
def HasBuffers (e : Inputs) : Prop := ∀ b k, b ≠ .calcVar → e.calloc b k = true

theorem Allocates.buffers {e : Inputs} (h : Allocates e) : HasBuffers e := fun b k _ => h b k

/-- Every read delivers all it is asked for, as long as there is so much. -/
def DeliversAll (e : Inputs) : Prop := ∀ k, e.reads k = .all

/-! ## One slice -/

section Slice
variable {t : Target} {b record : List Byte}

theorem answer_none (unsolvable : ¬Solvable t b) : answer t b = none := by
  unfold answer
  dsimp only
  cases known : Op.ofByte? (Equation.ofBytes b).operator with
  | none =>
    rw [setCalcFile_unknown known]
    rfl
  | some op =>
    rw [setCalcFile_known known, if_neg (by simp)]
    refine if_pos fun ok => unsolvable ⟨op, known, ?_⟩
    exact ok

/-- The bytes of the record `write_stream` builds. -/
theorem solvedEquation_toBytes (calcResult : Calc) (equation : Equation) :
    (solvedEquation calcResult equation).toBytes =
      encode 4 equation.equationId ++ [1] ++ [if calcResult.oper ≤ 5 then 1 else 2] ++
        encode 8 calcResult.result := by
  simp only [SolvedEquation.toBytes, solvedEquation, encode_byte]
  rfl

/-- The answer to a slice that has one. -/
theorem answer_some (solvable : Solvable t b) : ∃ record, answer t b = some record ∧ Correct t b record := by
  obtain ⟨op, known, ok⟩ := solvable
  have solved : solveFunc (setCalcFile t calcInit (Equation.ofBytes b).num1 (Equation.ofBytes b).num2
      (Equation.ofBytes b).operator).2 =
      (0, ⟨(Equation.ofBytes b).num1, (Equation.ofBytes b).num2,
        (op.func t (Equation.ofBytes b).num1 (Equation.ofBytes b).num2 0).2, op.val, some (op.func t)⟩) := by
    rw [setCalcFile_known known, ← ok]
    rfl
  unfold answer
  dsimp only
  rw [solved, setCalcFile_known known, if_neg (by simp), if_neg (by simp [SUCCESS])]
  refine ⟨_, rfl, op, (op.func t (Equation.ofBytes b).num1 (Equation.ofBytes b).num2 0).2, known,
    fun prior => ?_, solvedEquation_toBytes ..⟩
  rw [← Op.func_prior ok prior]
  exact Prod.ext ok rfl

theorem answer_eq_none_iff : answer t b = none ↔ ¬Solvable t b := by
  constructor
  · intro nothing solvable
    obtain ⟨record, found, _⟩ := answer_some solvable
    rw [nothing] at found
    cases found
  · exact answer_none

theorem answer_correct (found : answer t b = some record) : Correct t b record := by
  by_cases solvable : Solvable t b
  · obtain ⟨record', found', correct⟩ := answer_some solvable
    rw [found] at found'
    cases found'
    exact correct
  · rw [answer_none solvable] at found
    cases found

/-- Every record is as long as the others. -/
theorem answer_length (found : answer t b = some record) : record.length = SOLUTION_SIZE := by
  obtain ⟨op, solution, _, _, same⟩ := answer_correct found
  simp [same, SOLUTION_SIZE]

theorem answer_isSome_iff : (answer t b).isSome ↔ Solvable t b := by
  rw [← not_iff_not, ← answer_eq_none_iff, Option.not_isSome_iff_eq_none]

end Slice

/-! ## The loop -/

/-- At most `m` more slices are answered: so many are left to count, or the
announced number is past what the counter can reach and the stream holds no
more of them. -/
def Budget (equationsRead numEquations : Int) (m len : Nat) : Prop :=
  (0 ≤ equationsRead ∧ equationsRead + m = numEquations ∧ numEquations < 2 ^ 31) ∨
    (equationsRead < 2 ^ 31 ∧ 2 ^ 31 ≤ numEquations ∧ len < EQUATION_SIZE * (m + 1))

theorem countRead_lt (equationsRead : Int) : countRead equationsRead < 2 ^ 31 := by
  have top := narrow_le 32 (equationsRead + 1) (by decide)
  unfold countRead
  unfold intMax at top
  omega

theorem countRead_exact {equationsRead : Int} (low : 0 ≤ equationsRead) (high : equationsRead + 1 < 2 ^ 31) :
    countRead equationsRead = equationsRead + 1 := by
  unfold countRead
  exact narrow_of_fits (by decide) (by omega) (by omega)

/-- The loop goes on while there is something left to answer. -/
theorem Budget.more {equationsRead numEquations : Int} {m len : Nat}
    (h : Budget equationsRead numEquations (m + 1) len) : equationsRead < numEquations := by
  rcases h with ⟨_, exact, _⟩ | ⟨small, large, _⟩ <;> omega

/-- A slice is answered. -/
theorem Budget.spend {equationsRead numEquations : Int} {m len : Nat}
    (h : Budget equationsRead numEquations (m + 1) len) (enough : EQUATION_SIZE ≤ len) :
    Budget (countRead equationsRead) numEquations m (len - EQUATION_SIZE) := by
  rcases h with ⟨low, exact, high⟩ | ⟨_, large, short⟩
  · left
    rw [countRead_exact low (by omega)]
    omega
  · right
    refine ⟨countRead_lt _, large, ?_⟩
    unfold EQUATION_SIZE at enough short ⊢
    omega

/-- With nothing left to answer the loop ends, or finds no slice. -/
theorem Budget.spent {equationsRead numEquations : Int} {len : Nat}
    (h : Budget equationsRead numEquations 0 len) (more : equationsRead < numEquations) :
    len < EQUATION_SIZE := by
  rcases h with ⟨_, exact, _⟩ | ⟨_, _, short⟩
  · omega
  · simpa using short

section Loop
variable {e : Inputs} {i i' : Input} {buf buf' : List Byte} {items : List (List Byte)} {m : Nat}
variable {equationsRead numEquations : Int}

/-- A pass that goes on answers the slice at the front of the stream, whatever
the buffer held before. -/
theorem passReply_some (memory : HasBuffers e) (room : buf.length = EQUATION_SIZE)
    (something : passReply e i buf = some (items, buf', i')) :
    buf'.length = EQUATION_SIZE ∧
      ∃ record, items = [record] ∧ answer e.target (i.rx.take EQUATION_SIZE) = some record := by
  obtain ⟨enough, _, rfl⟩ := passReply_reads something
  have width : (i.rx.take EQUATION_SIZE).length = EQUATION_SIZE := by
    rw [List.length_take]
    omega
  rw [patch_all (room.trans width.symm)] at something ⊢
  refine ⟨width, ?_⟩
  obtain ⟨whole, record, found, same⟩ := passReply_something something
  obtain ⟨_, read⟩ := safeRead_full (by decide) (by decide) whole.2
  rw [read] at found
  dsimp only at found
  rw [calloc_rx, patch_all (room.trans width.symm)] at found
  refine ⟨record, ?_, found⟩
  have allocated : ∀ k : Input, (calloc e .solution k).1 = true :=
    fun k => memory .solution k.nalloc Block.noConfusion
  rw [allocated, if_pos rfl] at same
  exact (congrArg Prod.fst same).symm

/-- With reads that deliver, a pass ends the loop only for want of a slice or
of its answer. -/
theorem passReply_none (memory : Allocates e) (all : DeliversAll e) (room : buf.length = EQUATION_SIZE)
    (nothing : passReply e i buf = none) :
    i.rx.length < EQUATION_SIZE ∨ answer e.target (i.rx.take EQUATION_SIZE) = none := by
  apply or_iff_not_imp_left.mpr
  intro long
  have enough : EQUATION_SIZE ≤ (calloc e .calcVar i).2.rx.length := by
    rw [calloc_rx]
    omega
  have width : (i.rx.take EQUATION_SIZE).length = EQUATION_SIZE := by
    rw [List.length_take]
    omega
  have allocated : (calloc e .calcVar i).1 = true := memory .calcVar i.nalloc
  have read : safeRead e (calloc e .calcVar i).2 buf EQUATION_SIZE = _ :=
    safeRead_all (by decide) (by decide) (all _) enough
  have whole : ReadsWhole e i buf := ⟨allocated, by rw [read]⟩
  rw [passReply_whole whole, read, Option.map_eq_none_iff, calloc_rx, patch_all (room.trans width.symm)] at nothing
  exact nothing

/-- **However the stream is delivered, a prefix of its slices is answered.** -/
theorem records_prefix (memory : HasBuffers e) (room : buf.length = EQUATION_SIZE)
    (budget : Budget equationsRead numEquations m i.rx.length) :
    records e i buf equationsRead numEquations <+: answered (answer e.target) EQUATION_SIZE m i.rx := by
  fun_induction records e i buf equationsRead numEquations generalizing m with
  | case1 => exact List.nil_prefix
  | case2 i buf equationsRead more items buf' i' something ih =>
    obtain ⟨enough, rest, _⟩ := passReply_reads something
    obtain ⟨room', record, rfl, found⟩ := passReply_some memory room something
    cases m with
    | zero => exact absurd enough (Nat.not_le.mpr (budget.spent more))
    | succ m =>
      rw [answered_some enough found, ← rest]
      apply (List.prefix_cons_inj record).mpr
      apply ih room'
      rw [rest, List.length_drop]
      exact budget.spend enough
  | case3 => exact List.nil_prefix

/-- **With reads that deliver, the longest prefix is.** -/
theorem records_longest (memory : Allocates e) (all : DeliversAll e) (room : buf.length = EQUATION_SIZE)
    (budget : Budget equationsRead numEquations m i.rx.length) :
    records e i buf equationsRead numEquations = answered (answer e.target) EQUATION_SIZE m i.rx := by
  fun_induction records e i buf equationsRead numEquations generalizing m with
  | case1 i buf equationsRead more nothing =>
    rcases passReply_none memory all room nothing with short | unanswered
    · exact (answered_incomplete short).symm
    · exact (answered_none unanswered).symm
  | case2 i buf equationsRead more items buf' i' something ih =>
    obtain ⟨enough, rest, _⟩ := passReply_reads something
    obtain ⟨room', record, rfl, found⟩ := passReply_some memory.buffers room something
    cases m with
    | zero => exact absurd enough (Nat.not_le.mpr (budget.spent more))
    | succ m =>
      rw [answered_some enough found, ← rest, ih room' (m := m)]
      · rfl
      · rw [rest, List.length_drop]
        exact budget.spend enough
  | case3 i buf equationsRead stop =>
    cases m with
    | zero => rfl
    | succ m => exact absurd budget.more stop

end Loop

/-! ## The headers -/

section Headers
variable {e : Inputs} {i : Input} {file stream : List Byte}

/-- A file header that is read completely. -/
theorem safeRead_header (whole : (safeRead e i (zeroed HEADER_SIZE) HEADER_SIZE).1 = HEADER_SIZE)
    (request : i.rx = file ++ stream) (width : file.length = HEADER_SIZE) :
    safeRead e i (zeroed HEADER_SIZE) HEADER_SIZE =
      (HEADER_SIZE, file, { i with rx := stream, nread := i.nread + 1 }) := by
  obtain ⟨_, read⟩ := safeRead_full (by decide) (by decide) whole
  rw [read, request, ← width, List.take_left, List.drop_left, patch_all]
  simp [zeroed]

/-- What an accepted file header is. -/
theorem checkHeader_ok (request : i.rx = file ++ stream) (width : file.length = HEADER_SIZE)
    (accepted : (checkHeader e i).err = SUCCESS) :
    (safeRead e i (zeroed HEADER_SIZE) HEADER_SIZE).1 = HEADER_SIZE ∧
      (FileHeader.ofBytes file).isSolved = 0 ∧ 0 < (FileHeader.ofBytes file).numEquations.toInt := by
  unfold checkHeader at accepted
  dsimp only at accepted
  split at accepted
  · cases accepted
  rename_i whole
  rw [ne_eq, not_not] at whole
  rw [safeRead_header whole request width] at accepted
  dsimp only at accepted
  split at accepted
  · cases accepted
  rename_i unsolved
  split at accepted
  · cases accepted
  rename_i some_equations
  exact ⟨whole, not_not.mp unsolved, Int.not_le.mp some_equations⟩

/-- An unsolved file header, read completely, is accepted. -/
theorem checkHeader_accepts (whole : (safeRead e i (zeroed HEADER_SIZE) HEADER_SIZE).1 = HEADER_SIZE)
    (request : i.rx = file ++ stream) (width : file.length = HEADER_SIZE)
    (unsolved : (FileHeader.ofBytes file).isSolved = 0)
    (some_equations : 0 < (FileHeader.ofBytes file).numEquations.toInt) :
    checkHeader e i = ⟨0, (FileHeader.ofBytes file).numEquations.toInt, FileHeader.ofBytes file,
      { i with rx := stream, nread := i.nread + 1 }⟩ := by
  unfold checkHeader
  dsimp only
  rw [safeRead_header whole request width, if_neg (by simp), if_neg (by simp [unsolved]),
    if_neg (Int.not_le.mpr some_equations)]

/-- With reads that deliver, being unsolved is enough. -/
theorem checkHeader_delivered (all : DeliversAll e) (request : i.rx = file ++ stream)
    (width : file.length = HEADER_SIZE) (unsolved : (FileHeader.ofBytes file).isSolved = 0)
    (some_equations : 0 < (FileHeader.ofBytes file).numEquations.toInt) : (checkHeader e i).err = SUCCESS := by
  have enough : HEADER_SIZE ≤ i.rx.length := by
    rw [request, List.length_append]
    omega
  have whole : (safeRead e i (zeroed HEADER_SIZE) HEADER_SIZE).1 = HEADER_SIZE := by
    rw [safeRead_all (by decide) (by decide) (all _) enough]
  rw [checkHeader_accepts whole request width unsolved some_equations]
  rfl

/-- The reply to an accepted file header: two headers and the records. -/
theorem streamReply_accepted (memory : HasBuffers e) (request : i.rx = file ++ stream)
    (width : file.length = HEADER_SIZE) (accepted : (checkHeader e i).err = SUCCESS) (header : NetHeader) :
    0 < (FileHeader.ofBytes file).numEquations.toInt ∧ ∃ i', i'.rx = stream ∧
      streamReply e i header =
        (replyNetHeader header (FileHeader.ofBytes file).numEquations.toInt).written ::
          (replyFileHeader (FileHeader.ofBytes file)).toBytes ::
            records e i' (zeroed EQUATION_SIZE) 0 (FileHeader.ofBytes file).numEquations.toInt := by
  obtain ⟨whole, unsolved, some_equations⟩ := checkHeader_ok request width accepted
  have allocated : ∀ (b : Block) (k : Input), b ≠ .calcVar → (calloc e b k).1 = true :=
    fun b k other => memory b k.nalloc other
  have whole' : (safeRead e (calloc e .fileHeader (calloc e .equation i).2).2 (zeroed HEADER_SIZE)
      HEADER_SIZE).1 = HEADER_SIZE := by
    rw [safeRead_first (by decide) (by decide)] at whole ⊢
    rwa [calloc, calloc, sysRead_nalloc, sysRead_nalloc]
  refine ⟨some_equations, ?_⟩
  unfold streamReply
  dsimp only
  rw [allocated _ _ Block.noConfusion, allocated _ _ Block.noConfusion, if_neg (by simp),
    checkHeader_accepts whole' request width unsolved some_equations, if_neg (by simp [SUCCESS])]
  dsimp only
  rw [allocated _ _ Block.noConfusion, if_neg (by simp), allocated _ _ Block.noConfusion, if_neg (by simp)]
  exact ⟨_, rfl, rfl⟩

@[simp] theorem strncpy_length (src : List Byte) (n : Nat) : (strncpy src n).length = n := by
  have short : ((src.take n).takeWhile (· ≠ 0)).length ≤ n :=
    ((List.takeWhile_prefix _).length_le).trans (by simp)
  simp only [strncpy, zeroed, List.length_append, List.length_replicate]
  omega

/-- The reply's net header is sent whole. -/
theorem replyNetHeader_written (header : NetHeader) (n : Int) :
    (replyNetHeader header n).written = (replyNetHeader header n).toBytes := by
  have width : (replyNetHeader header n).toBytes.length = NET_HEADER_SIZE :=
    NetHeader.toBytes_length (strncpy_length _ _)
  have size : (ntohl (replyNetHeader header n).headerSize).toNat = NET_HEADER_SIZE := by
    simp only [replyNetHeader, ntohl]
    rw [byteSwap_byteSwap _ (by decide)]
    rfl
  rw [NetHeader.written, size, ← width, List.take_length]

end Headers

/-! ## What arrives -/

/-- Without a failing write everything arrives. -/
theorem Sends.complete {env : Env} {w w' : World} {items : List (List Byte)} (h : Sends env w w' items)
    (completes : ∀ k, env.writes k ≠ .fail) :
    ∃ log, w'.output.log = w.output.log ++ log ∧ sent log = items.flatten := by
  obtain ⟨log, attempts, after⟩ := h
  exact ⟨log, after.log_eq, attempts.complete (no_failure after.results completes)⟩

/-- What an accepted file is answered with, over a connection on which nothing
fails and reads deliver: two headers and the answers to its slices. -/
theorem parseStream_delivered {env : Env} (w : World) (header : NetHeader) {file stream : List Byte} {m : Nat}
    (memory : Allocates env.toInputs) (all : DeliversAll env.toInputs) (completes : ∀ k, env.writes k ≠ .fail)
    (request : w.input.rx = file ++ stream) (width : file.length = HEADER_SIZE)
    (accepted : (checkHeader env.toInputs w.input).err = SUCCESS)
    (budget : Budget 0 (FileHeader.ofBytes file).numEquations.toInt m stream.length) :
    ∃ log, (parseStream env w header).2.output.log = w.output.log ++ log ∧
      sent log = (replyNetHeader header (FileHeader.ofBytes file).numEquations.toInt).toBytes ++
        (replyFileHeader (FileHeader.ofBytes file)).toBytes ++
        (answered (answer env.target) EQUATION_SIZE m stream).flatten := by
  obtain ⟨_, i', rest, replied⟩ := streamReply_accepted memory.buffers request width accepted header
  obtain ⟨log, sent_log, arrived⟩ := (parseStream_sends env w header).complete completes
  refine ⟨log, sent_log, ?_⟩
  rw [arrived, replied, records_longest memory all (by simp [zeroed]) (by rw [rest]; exact budget), rest,
    replyNetHeader_written, List.flatten_cons, List.flatten_cons, List.append_assoc]

/-- A request whose file is complete. -/
theorem parseStream_complete {env : Env} (w : World) (header : NetHeader) {file stream : List Byte} {n : Nat}
    (memory : Allocates env.toInputs) (all : DeliversAll env.toInputs) (completes : ∀ k, env.writes k ≠ .fail)
    (request : w.input.rx = file ++ stream) (width : file.length = HEADER_SIZE)
    (unsolved : (FileHeader.ofBytes file).isSolved = 0)
    (announced : (FileHeader.ofBytes file).numEquations.toInt = n) (positive : 0 < n)
    (complete : stream.length = EQUATION_SIZE * n) :
    ∃ log, (parseStream env w header).2.output.log = w.output.log ++ log ∧
      sent log = (replyNetHeader header n).toBytes ++ (replyFileHeader (FileHeader.ofBytes file)).toBytes ++
        (answered (answer env.target) EQUATION_SIZE n stream).flatten := by
  have accepted := checkHeader_delivered all request width unsolved (by omega)
  have budget : Budget 0 n n stream.length := by
    by_cases small : (n : Int) < 2 ^ 31
    · exact .inl ⟨Int.le_refl 0, by omega, small⟩
    · refine .inr ⟨by decide, by omega, ?_⟩
      rw [complete, Nat.mul_succ]
      exact Nat.lt_add_of_pos_right (by decide)
  rw [← announced] at budget ⊢
  exact parseStream_delivered w header memory all completes request width accepted budget

/-- Records answer a prefix of the slices of a stream, at most `n` of them:
each record is the answer to its own slice. -/
structure AnswersInOrder (t : Target) (n : Int) (stream : List Byte) (records : List (List Byte)) : Prop where
  bounded : records.length ≤ n
  present : EQUATION_SIZE * records.length ≤ stream.length
  each : ∀ i record, records[i]? = some record →
    Correct t (block EQUATION_SIZE i stream) record ∧ record.length = SOLUTION_SIZE

/-- What is a prefix of the answers in order is answers in order. -/
theorem AnswersInOrder.of_front {t : Target} {n : Nat} {stream : List Byte} {records : List (List Byte)}
    (front : records <+: answered (answer t) EQUATION_SIZE n stream) : AnswersInOrder t n stream records where
  bounded := by
    have wanted := (answered_length (answer t) EQUATION_SIZE n stream).1
    have shorter := front.length_le
    omega
  present := (Nat.mul_le_mul_left _ front.length_le).trans (answered_length ..).2
  each i record here := by
    obtain ⟨inside, rfl⟩ := List.getElem?_eq_some_iff.mp here
    have found := answered_each (List.prefix_iff_getElem?.mp front i inside)
    exact ⟨answer_correct found, answer_length found⟩

theorem AnswersInOrder.flatten_length {t : Target} {n : Int} {stream : List Byte} {records : List (List Byte)}
    (h : AnswersInOrder t n stream records) : records.flatten.length = SOLUTION_SIZE * records.length := by
  have each : ∀ record ∈ records, record.length = SOLUTION_SIZE := by
    intro record member
    obtain ⟨i, here⟩ := List.mem_iff_getElem?.mp member
    exact (h.each i record here).2
  rw [List.length_flatten, List.map_congr_left each, List.map_const', List.sum_replicate_nat, Nat.mul_comm]

/-- **Only correct answers, in order.** An accepted file header that announces
at most `2 ^ 31 - 1` equations, however the stream after it is delivered:
behind the two headers there are at most so many records, each of them the
answer to its own slice of the stream. Where nothing fails and reads deliver
all they are asked for, no longer prefix of the slices can be answered. -/
theorem only_correct_answers (env : Env) (w : World) (header : NetHeader) {file stream : List Byte}
    (memory : HasBuffers env.toInputs) (completes : ∀ k, env.writes k ≠ .fail)
    (request : w.input.rx = file ++ stream) (width : file.length = HEADER_SIZE)
    (accepted : (checkHeader env.toInputs w.input).err = SUCCESS)
    (small : (FileHeader.ofBytes file).numEquations.toInt ≤ 2 ^ 31 - 1) :
    ∃ (log : List (Event Byte)) (net head : List Byte) (records : List (List Byte)),
      (parseStream env w header).2.output.log = w.output.log ++ log ∧
      sent log = net ++ head ++ records.flatten ∧
      net.length = NET_HEADER_SIZE ∧ head.length = HEADER_SIZE ∧
      AnswersInOrder env.target (FileHeader.ofBytes file).numEquations.toInt stream records ∧
      (Allocates env.toInputs → DeliversAll env.toInputs → ∀ k : Nat,
        k ≤ (FileHeader.ofBytes file).numEquations.toInt → EQUATION_SIZE * k ≤ stream.length →
        (∀ i, i < k → Solvable env.target (block EQUATION_SIZE i stream)) → k ≤ records.length) := by
  obtain ⟨positive, i', rest, replied⟩ := streamReply_accepted memory request width accepted header
  obtain ⟨log, sent_log, arrived⟩ := (parseStream_sends env w header).complete completes
  rw [replied, List.flatten_cons, List.flatten_cons, ← List.append_assoc] at arrived
  obtain ⟨n, count⟩ : ∃ n : Nat, (FileHeader.ofBytes file).numEquations.toInt = n :=
    Int.eq_ofNat_of_zero_le (by omega)
  rw [count] at arrived small ⊢
  have budget : Budget 0 n n i'.rx.length := .inl ⟨Int.le_refl 0, by omega, by omega⟩
  have room : (zeroed EQUATION_SIZE).length = EQUATION_SIZE := by simp [zeroed]
  have front := records_prefix memory room budget
  rw [rest] at front
  refine ⟨log, _, _, _, sent_log, arrived, ?_, FileHeader.toBytes_length _, .of_front front, ?_⟩
  · rw [replyNetHeader_written]
    exact NetHeader.toBytes_length (strncpy_length _ _)
  · intro allocates all k wanted room_for each
    rw [records_longest allocates all room budget, rest]
    exact answered_longest (by omega) room_for fun i before => answer_isSome_iff.mpr (each i before)

/-- The header of an unsolved file of `n` equations. -/
def unsolvedHeader (n : Nat) : List Byte := FileHeader.toBytes ⟨0, 0, BitVec.ofNat 64 n, 0, 0, 0⟩

/-- The records of a file. -/
def equationRecords (equations : List Equation) : List Byte := (equations.map Equation.toBytes).flatten

/-- A sum, a division by zero and another sum: the first is answered. -/
theorem only_correct_answers_first :
    ∃ (log : List (Event Byte)) (net head : List Byte) (records : List (List Byte)),
      (parseStream Env.calm (World.start (unsolvedHeader 3 ++
        equationRecords [⟨7, 0, 10, 1, 20⟩, ⟨8, 0, 10, 4, 0⟩, ⟨9, 0, 3, 1, 4⟩])) ⟨0, 0, 0, []⟩).2.output.log =
          log ∧
      sent log = net ++ head ++ records.flatten ∧ 1 ≤ records.length ∧ records.length ≤ 3 := by
  obtain ⟨log, net, head, records, sent_log, arrived, _, _, inOrder, longest⟩ :=
    only_correct_answers Env.calm (World.start (unsolvedHeader 3 ++ equationRecords
      [⟨7, 0, 10, 1, 20⟩, ⟨8, 0, 10, 4, 0⟩, ⟨9, 0, 3, 1, 4⟩])) ⟨0, 0, 0, []⟩ (fun _ _ _ => rfl)
      (fun _ => WriteAct.noConfusion) rfl (FileHeader.toBytes_length _) (by decide +kernel) (by decide +kernel)
  have three : (FileHeader.ofBytes (unsolvedHeader 3)).numEquations.toInt = 3 := by decide +kernel
  have sum : Solvable Env.calm.target (block EQUATION_SIZE 0 (equationRecords
      [⟨7, 0, 10, 1, 20⟩, ⟨8, 0, 10, 4, 0⟩, ⟨9, 0, 3, 1, 4⟩])) :=
    ⟨.ADD64, by decide +kernel, by decide +kernel⟩
  refine ⟨log, net, head, records, sent_log, arrived,
    longest (fun _ _ => rfl) (fun _ => rfl) 1 (by omega) (by decide) ?_, ?_⟩
  · intro i first
    obtain rfl : i = 0 := by omega
    exact sum
  · have bounded := inOrder.bounded
    omega

end NetCalc.Net
