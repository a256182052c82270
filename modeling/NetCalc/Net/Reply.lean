import NetCalc.Net.Handler

/-!
# What a request is answered with

The replies of a connection, without the channel they go through: `reply` is
the list of messages, headers and records, that `handle_new_connection` hands
to `safe_write`. It depends on what the peer sends and on how `read` delivers
it, and on nothing `write` does, because no result of a write changes what the
program does next. `handleNewConnection_sends` connects it to the code: the
history of the descriptor is an attempt at each of these messages in turn.
-/

namespace NetCalc.Net

set_option autoImplicit false
open NetCalc.Lib

/-- The record that answers a slice of the stream, if its operator is known
and the operation succeeds. -/
def answer (t : Target) (b : List Byte) : Option (List Byte) :=
  let equation := Equation.ofBytes b
  let set := setCalcFile t calcInit equation.num1 equation.num2 equation.operator
  if set.1 ≠ 0 then none
  else
    let solved := solveFunc set.2
    if solved.1 ≠ SUCCESS then none else some (solvedEquation solved.2 equation).toBytes

/-- What a pass of the loop sends when it does not end the loop, the buffer and
the input. -/
def passReply (e : Inputs) (i : Input) (buf : List Byte) : Option (List (List Byte) × List Byte × Input) :=
  let block := calloc e .calcVar i
  if block.1 = false then none
  else
    let r := safeRead e block.2 buf EQUATION_SIZE
    if r.1 ≠ EQUATION_SIZE then none
    else
      (answer e.target r.2.1).map fun record =>
        let solution := calloc e .solution r.2.2
        (if solution.1 then [record] else [], r.2.1, solution.2)

/-- A pass has a block for its equation and reads it completely. -/
def ReadsWhole (e : Inputs) (i : Input) (buf : List Byte) : Prop :=
  (calloc e .calcVar i).1 = true ∧ (safeRead e (calloc e .calcVar i).2 buf EQUATION_SIZE).1 = EQUATION_SIZE

/-- What a pass that reads its equation sends. -/
theorem passReply_whole {e : Inputs} {i : Input} {buf : List Byte} (whole : ReadsWhole e i buf) :
    passReply e i buf =
      (answer e.target (safeRead e (calloc e .calcVar i).2 buf EQUATION_SIZE).2.1).map fun record =>
        (if (calloc e .solution (safeRead e (calloc e .calcVar i).2 buf EQUATION_SIZE).2.2).1 then [record]
            else [],
          (safeRead e (calloc e .calcVar i).2 buf EQUATION_SIZE).2.1,
          (calloc e .solution (safeRead e (calloc e .calcVar i).2 buf EQUATION_SIZE).2.2).2) := by
  unfold passReply
  dsimp only
  rw [if_neg (by rw [whole.1]; simp), if_neg (not_not.mpr whole.2)]

theorem passReply_short {e : Inputs} {i : Input} {buf : List Byte} (short : ¬ReadsWhole e i buf) :
    passReply e i buf = none := by
  unfold passReply
  dsimp only
  split
  · rfl
  split
  · rfl
  · rename_i allocated complete
    exact absurd ⟨by simpa using allocated, not_not.mp complete⟩ short

/-- A pass that sends something has read its equation, and has its answer. -/
theorem passReply_something {e : Inputs} {i i' : Input} {buf buf' : List Byte} {items : List (List Byte)}
    (something : passReply e i buf = some (items, buf', i')) : ReadsWhole e i buf ∧
      ∃ record, answer e.target (safeRead e (calloc e .calcVar i).2 buf EQUATION_SIZE).2.1 = some record ∧
        (if (calloc e .solution (safeRead e (calloc e .calcVar i).2 buf EQUATION_SIZE).2.2).1 then [record]
            else [],
          (safeRead e (calloc e .calcVar i).2 buf EQUATION_SIZE).2.1,
          (calloc e .solution (safeRead e (calloc e .calcVar i).2 buf EQUATION_SIZE).2.2).2) =
            (items, buf', i') := by
  by_cases whole : ReadsWhole e i buf
  · rw [passReply_whole whole] at something
    exact ⟨whole, Option.map_eq_some_iff.mp something⟩
  · rw [passReply_short whole] at something
    cases something

theorem passReply_reads {e : Inputs} {i i' : Input} {buf buf' : List Byte} {items : List (List Byte)}
    (h : passReply e i buf = some (items, buf', i')) :
    EQUATION_SIZE ≤ i.rx.length ∧ i'.rx = i.rx.drop EQUATION_SIZE ∧
      buf' = patch buf 0 (i.rx.take EQUATION_SIZE) := by
  obtain ⟨whole, record, _, same⟩ := passReply_something h
  obtain ⟨enough, read⟩ := safeRead_full (by decide) (by decide) whole.2
  rw [read] at same
  cases same
  exact ⟨enough, rfl, rfl⟩

/-- The records the loop sends. -/
def records (e : Inputs) (i : Input) (buf : List Byte) (equationsRead numEquations : Int) : List (List Byte) :=
  if equationsRead < numEquations then
    match _taken : passReply e i buf with
    | none => []
    | some (items, buf', i') => items ++ records e i' buf' (countRead equationsRead) numEquations
  else []
termination_by i.rx.length
decreasing_by
  obtain ⟨enough, rest, _⟩ := passReply_reads _taken
  rw [rest, List.length_drop]
  unfold EQUATION_SIZE at enough ⊢
  omega

/-- The message of `send_error_header`. -/
def errorReply (e : Inputs) (i : Input) : List (List Byte) :=
  if (calloc e .netHeader i).1 then [errorHeader.written] else []

/-- The messages of `parse_stream`. -/
def streamReply (e : Inputs) (i : Input) (header : NetHeader) : List (List Byte) :=
  let equation := calloc e .equation i
  let fileHeader := calloc e .fileHeader equation.2
  if equation.1 = false ∨ fileHeader.1 = false then []
  else
    let check := checkHeader e fileHeader.2
    if check.err ≠ SUCCESS then errorReply e check.input
    else
      let net := calloc e .netHeader check.input
      if net.1 = false then []
      else
        (replyNetHeader header check.numEquations).written ::
          let file := calloc e .fileHeader net.2
          if file.1 = false then []
          else
            (replyFileHeader check.header).toBytes ::
              records e file.2 (zeroed EQUATION_SIZE) 0 check.numEquations

/-- The messages of `handle_new_connection`, and whether it closes the
descriptor. -/
def reply (e : Inputs) (i : Input) : Option (List (List Byte) × Bool) :=
  let block := calloc e .netHeader i
  if block.1 = false then some ([], false)
  else do
    let (err, mem, i) ← readNetHeader e (zeroed NET_HEADER_SIZE ++ e.heap) block.2
    return (if err ≠ SUCCESS then errorReply e i
      else streamReply e i (NetHeader.ofBytes (slice 0 NET_HEADER_SIZE mem)), true)

/-! ## The code sends its reply -/

/-- `w'` is `w` after attempts at `items`. -/
def Sends (env : Env) (w w' : World) (items : List (List Byte)) : Prop :=
  ∃ log, Attempts items log ∧ Output.After env.writes w.output w'.output log

section Sends
variable {env : Env} {w w' w'' : World} {items others : List (List Byte)}

theorem Sends.refl (same : w'.output = w.output) : Sends env w w' [] :=
  ⟨[], .nil, by rw [same]; exact .refl⟩

theorem Sends.trans (h : Sends env w w' items) (k : Sends env w' w'' others) :
    Sends env w w'' (items ++ others) := by
  obtain ⟨log, attempts, after⟩ := h
  obtain ⟨more, further, later⟩ := k
  exact ⟨log ++ more, attempts.append further, after.trans later⟩

/-- One `safe_write`. -/
theorem Sends.write (item : List Byte) (i i' : Input) (o : Output) :
    Sends env ⟨i, o⟩ ⟨i', (safeWrite env.writes o item).2⟩ [item] := by
  obtain ⟨log, attempt, after, _⟩ := safeWrite_attempt env.writes o item
  exact ⟨log, .single attempt, after⟩

theorem sendErrorHeader_sends (env : Env) (w : World) :
    Sends env w (sendErrorHeader env w).2 (errorReply env.toInputs w.input) := by
  unfold sendErrorHeader errorReply
  dsimp only
  cases (calloc env.toInputs Block.netHeader w.input).1 with
  | false => exact Sends.refl rfl
  | true => exact Sends.write ..

theorem writeNetHeader_ok (header : NetHeader) (n : Int)
    (allocated : (calloc env.toInputs .netHeader w.input).1 = true) :
    (writeNetHeader env w header n).1 = SUCCESS ∧
    (writeNetHeader env w header n).2.input = (calloc env.toInputs .netHeader w.input).2 ∧
    Sends env w (writeNetHeader env w header n).2 [(replyNetHeader header n).written] := by
  unfold writeNetHeader
  dsimp only
  rw [allocated]
  exact ⟨rfl, rfl, Sends.write ..⟩

theorem writeNetHeader_failed (header : NetHeader) (n : Int)
    (failed : (calloc env.toInputs .netHeader w.input).1 = false) :
    (writeNetHeader env w header n).1 ≠ SUCCESS ∧ (writeNetHeader env w header n).2.output = w.output := by
  unfold writeNetHeader
  dsimp only
  rw [failed]
  constructor
  · simp [ERROR, SUCCESS]
  · rfl

theorem writeFileHeader_ok (header : FileHeader)
    (allocated : (calloc env.toInputs .fileHeader w.input).1 = true) :
    (writeFileHeader env w header).1 = SUCCESS ∧
    (writeFileHeader env w header).2.input = (calloc env.toInputs .fileHeader w.input).2 ∧
    Sends env w (writeFileHeader env w header).2 [(replyFileHeader header).toBytes] := by
  have all : (replyFileHeader header).toBytes.take HEADER_SIZE = (replyFileHeader header).toBytes :=
    List.take_of_length_le (by rw [FileHeader.toBytes_length])
  unfold writeFileHeader
  dsimp only
  rw [allocated, all]
  exact ⟨rfl, rfl, Sends.write ..⟩

theorem writeFileHeader_failed (header : FileHeader)
    (failed : (calloc env.toInputs .fileHeader w.input).1 = false) :
    (writeFileHeader env w header).1 ≠ SUCCESS ∧ (writeFileHeader env w header).2.output = w.output := by
  unfold writeFileHeader
  dsimp only
  rw [failed]
  constructor
  · simp [ERROR, SUCCESS]
  · rfl

/-- `write_stream` never returns `0`. -/
theorem writeStream_sends (env : Env) (w : World) (calcResult : Calc) (equation : Equation) :
    (writeStream env w calcResult equation).1 ≠ 0 ∧
    Sends env w (writeStream env w calcResult equation).2
      (if (calloc env.toInputs .solution w.input).1 then [(solvedEquation calcResult equation).toBytes]
        else []) := by
  have all : (solvedEquation calcResult equation).toBytes.take SOLUTION_SIZE =
      (solvedEquation calcResult equation).toBytes :=
    List.take_of_length_le (by rw [SolvedEquation.toBytes_length])
  unfold writeStream
  dsimp only
  cases (calloc env.toInputs Block.solution w.input).1 with
  | false => exact ⟨by simp [SIZE_ERROR], Sends.refl rfl⟩
  | true =>
    rw [all]
    obtain ⟨log, attempt, after, nonzero⟩ := safeWrite_attempt env.writes w.output
      (solvedEquation calcResult equation).toBytes
    exact ⟨nonzero (by rw [SolvedEquation.toBytes_length]; decide), log, .single attempt, after⟩

/-- What a pass can do: it reads no equation, or one that has no answer, or it
hands the answer to `write_stream`. -/
inductive Passed (env : Env) (w : World) (buf : List Byte) (err : Int) (pass : Pass) : Prop where
  | unread (short : ¬ReadsWhole env.toInputs w.input buf) (ends : pass.goEnd = true) (status : pass.err = err)
      (output : pass.world.output = w.output)
  | unsolved (whole : ReadsWhole env.toInputs w.input buf)
      (nothing : answer env.target
        (safeRead env.toInputs (calloc env.toInputs .calcVar w.input).2 buf EQUATION_SIZE).2.1 = none)
      (ends : pass.goEnd = true) (status : pass.err ≠ SUCCESS) (output : pass.world.output = w.output)
  | solved (whole : ReadsWhole env.toInputs w.input buf) (calcResult : Calc) (equation : Equation)
      (found : answer env.target
        (safeRead env.toInputs (calloc env.toInputs .calcVar w.input).2 buf EQUATION_SIZE).2.1 =
          some (solvedEquation calcResult equation).toBytes)
      (same : pass = ⟨false, SUCCESS,
        (safeRead env.toInputs (calloc env.toInputs .calcVar w.input).2 buf EQUATION_SIZE).2.1,
        (writeStream env ⟨(safeRead env.toInputs (calloc env.toInputs .calcVar w.input).2 buf
          EQUATION_SIZE).2.2, w.output⟩ calcResult equation).2⟩)

theorem parsePass_cases (env : Env) (w : World) (buf : List Byte) (err : Int) :
    Passed env w buf err (parsePass env w buf err) := by
  unfold parsePass
  dsimp only
  split
  · rename_i missing
    exact .unread (fun whole => by simp [whole.1] at missing) rfl rfl rfl
  rename_i allocated
  split
  · rename_i ended
    exact .unread (fun whole => by rw [whole.2] at ended; cases ended) rfl rfl rfl
  split
  · rename_i short
    exact .unread (fun whole => short whole.2) rfl rfl rfl
  rename_i complete
  have whole : ReadsWhole env.toInputs w.input buf := ⟨by simpa using allocated, not_not.mp complete⟩
  split
  · rename_i unknown
    exact .unsolved whole (if_pos unknown) rfl unknown rfl
  rename_i known
  split
  · rename_i unsolved
    exact .unsolved whole ((if_neg known).trans (if_pos unsolved)) rfl unsolved rfl
  · rename_i solved
    refine .solved whole _ _ ((if_neg known).trans (if_neg solved)) ?_
    rw [Pass.mk.injEq]
    exact ⟨decide_eq_false (writeStream_sends ..).1, not_not.mp solved, rfl, rfl⟩

/-- A pass that has nothing to send ends the loop. -/
theorem parsePass_none {buf : List Byte} (err : Int) (nothing : passReply env.toInputs w.input buf = none) :
    (parsePass env w buf err).goEnd = true ∧ (parsePass env w buf err).world.output = w.output := by
  cases parsePass_cases env w buf err with
  | unread short ends _ output => exact ⟨ends, output⟩
  | unsolved whole _ ends _ output => exact ⟨ends, output⟩
  | solved whole calcResult equation found same =>
    rw [passReply_whole whole, found] at nothing
    cases nothing

/-- A pass that has something to send goes on, and sends it. -/
theorem parsePass_some {buf buf' : List Byte} {i' : Input} (err : Int)
    (something : passReply env.toInputs w.input buf = some (items, buf', i')) :
    (parsePass env w buf err).goEnd = false ∧ (parsePass env w buf err).buf = buf' ∧
    (parsePass env w buf err).world.input = i' ∧ Sends env w (parsePass env w buf err).world items := by
  cases parsePass_cases env w buf err with
  | unread short =>
    rw [passReply_short short] at something
    cases something
  | unsolved whole nothing =>
    rw [passReply_whole whole, nothing] at something
    cases something
  | solved whole calcResult equation found same =>
    rw [passReply_whole whole, found] at something
    cases something
    rw [same]
    refine ⟨rfl, rfl, writeStream_input .., ?_⟩
    exact (writeStream_sends env ⟨_, w.output⟩ calcResult equation).2

/-- The loop sends its records. -/
theorem parseLoop_sends (buf : List Byte) (equationsRead numEquations err : Int) :
    Sends env w (parseLoop env w buf equationsRead numEquations err).2
      (records env.toInputs w.input buf equationsRead numEquations) := by
  fun_induction parseLoop env w buf equationsRead numEquations err with
  | case1 w buf equationsRead err more ends =>
    unfold records
    rw [if_pos more]
    split
    · rename_i nothing
      exact Sends.refl (parsePass_none err nothing).2
    · rename_i items buf' i' something
      rw [(parsePass_some err something).1] at ends
      cases ends
  | case2 w buf equationsRead err more goes_on ih =>
    unfold records
    rw [if_pos more]
    split
    · rename_i nothing
      exact absurd (parsePass_none err nothing).1 goes_on
    · rename_i items buf' i' something
      obtain ⟨_, rfl, rfl, sends⟩ := parsePass_some err something
      exact sends.trans ih
  | case3 w buf equationsRead err stop =>
    unfold records
    rw [if_neg stop]
    exact Sends.refl rfl

/-- The file header and the loop. -/
theorem fileStage_sends (env : Env) (w : World) (header : FileHeader) (n : Int) :
    Sends env w
      (if (writeFileHeader env w header).1 ≠ SUCCESS then writeFileHeader env w header
        else parseLoop env (writeFileHeader env w header).2 (zeroed EQUATION_SIZE) 0 n
          (writeFileHeader env w header).1).2
      (if (calloc env.toInputs .fileHeader w.input).1 = false then []
        else (replyFileHeader header).toBytes ::
          records env.toInputs (calloc env.toInputs .fileHeader w.input).2 (zeroed EQUATION_SIZE) 0 n) := by
  cases block : (calloc env.toInputs Block.fileHeader w.input).1 with
  | false =>
    obtain ⟨failed, same⟩ := writeFileHeader_failed header block
    rw [if_pos failed, if_pos rfl]
    exact Sends.refl same
  | true =>
    obtain ⟨ok, input, sends⟩ := writeFileHeader_ok header block
    rw [if_neg (not_not.mpr ok), if_neg (by simp), ← input]
    exact sends.trans (parseLoop_sends ..)

/-- **`parse_stream` sends its reply.** -/
theorem parseStream_sends (env : Env) (w : World) (header : NetHeader) :
    Sends env w (parseStream env w header).2 (streamReply env.toInputs w.input header) := by
  unfold parseStream streamReply
  dsimp only
  split
  · exact Sends.refl rfl
  split
  · exact sendErrorHeader_sends env ⟨_, w.output⟩
  generalize checkHeader env.toInputs (calloc env.toInputs Block.fileHeader (calloc env.toInputs Block.equation
    w.input).2).2 = check
  cases block : (calloc env.toInputs Block.netHeader check.input).1 with
  | false =>
    obtain ⟨failed, same⟩ := writeNetHeader_failed (w := ⟨check.input, w.output⟩) header check.numEquations block
    rw [if_pos failed, if_pos rfl]
    exact Sends.refl same
  | true =>
    obtain ⟨ok, input, sends⟩ := writeNetHeader_ok (w := ⟨check.input, w.output⟩) header check.numEquations block
    have rest := fileStage_sends env
      (writeNetHeader env ⟨check.input, w.output⟩ header check.numEquations).2 check.header check.numEquations
    rw [input] at rest
    rw [if_neg (not_not.mpr ok)]
    simp only [Bool.true_eq_false, if_false]
    exact sends.trans rest

/-- A connection is served: attempts at its messages, and the descriptor
closed after them if `closes`. -/
structure Serves (env : Env) (w w' : World) (items : List (List Byte)) (closes : Bool)
    (log : List (Event Byte)) : Prop where
  attempts : Attempts items log
  log_eq : w'.output.log = w.output.log ++ (log ++ if closes then [.closed] else [])
  calls : w'.output.nwrite = w.output.nwrite + log.length
  results : log.map Event.isFailed =
    (List.range' w.output.nwrite log.length).map fun k => (env.writes k).isFail

theorem Sends.closes {i : Input} (h : Sends env { w with input := i } w' items) :
    ∃ log, Serves env w (closeSocket w') items true log := by
  obtain ⟨log, attempts, after⟩ := h
  refine ⟨log, attempts, ?_, after.nwrite_eq, after.results⟩
  rw [closeSocket, after.log_eq, List.append_assoc]
  rfl

/-- **The server sends its reply.** A connection that stays in its memory is
answered with attempts at the messages of `reply`, after which the descriptor
is closed; and one that does not, neither does `reply`. -/
theorem handleNewConnection_sends (env : Env) (w : World) :
    match reply env.toInputs w.input with
    | none => handleNewConnection env w = none
    | some (items, closes) =>
      ∃ w' log, handleNewConnection env w = some w' ∧ Serves env w w' items closes log := by
  unfold reply handleNewConnection
  dsimp only
  cases block : (calloc env.toInputs Block.netHeader w.input).1 with
  | false =>
    rw [if_pos rfl]
    exact ⟨{ w with input := (calloc env.toInputs Block.netHeader w.input).2 }, [], rfl, .nil, by simp, rfl, rfl⟩
  | true =>
    simp only [Bool.true_eq_false, if_false]
    cases read : readNetHeader env.toInputs (zeroed NET_HEADER_SIZE ++ env.heap)
        (calloc env.toInputs Block.netHeader w.input).2 with
    | none => rfl
    | some found =>
      obtain ⟨err, mem, i⟩ := found
      by_cases ok : err = SUCCESS
      · subst ok
        obtain ⟨log, serves⟩ := (parseStream_sends env ⟨i, w.output⟩
          (NetHeader.ofBytes (slice 0 NET_HEADER_SIZE mem))).closes
        exact ⟨_, log, rfl, serves⟩
      · obtain ⟨log, serves⟩ := (sendErrorHeader_sends env ⟨i, w.output⟩).closes
        refine ⟨closeSocket (sendErrorHeader env ⟨i, w.output⟩).2, log, ?_, ?_⟩
        · simp [ok]
        · simpa [ok] using serves

/-- Where there is a reply, it is sent. -/
theorem handleNewConnection_replied {closes : Bool} (replied : reply env.toInputs w.input = some (items, closes)) :
    ∃ w' log, handleNewConnection env w = some w' ∧ Serves env w w' items closes log := by
  have code := handleNewConnection_sends env w
  rw [replied] at code
  exact code

/-- A connection that comes to its end has sent its reply. -/
theorem handleNewConnection_served (served : handleNewConnection env w = some w') :
    ∃ items closes log, reply env.toInputs w.input = some (items, closes) ∧
      Serves env w w' items closes log := by
  cases replied : reply env.toInputs w.input with
  | none =>
    have code := handleNewConnection_sends env w
    rw [replied] at code
    rw [code] at served
    cases served
  | some answered =>
    obtain ⟨_, log, found, serves⟩ := handleNewConnection_replied replied
    rw [served] at found
    cases found
    exact ⟨_, _, log, rfl, serves⟩

end Sends

end NetCalc.Net
