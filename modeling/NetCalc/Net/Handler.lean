import NetCalc.Common.CalcHandle
import NetCalc.Common.FileIo
import NetCalc.Net.Formats

/-!
# Serving one connection (`net_handler.c`)

`handle_new_connection` reads a net header, has `parse_stream` answer the
equation file that follows it, and closes the descriptor. A `World` is the two
sides of the connection; the functions take it and give it back.

The net header is received into a block of `NET_HEADER_SIZE` bytes, but
`read_net_header` advances a `net_header_t *` by the number of bytes it
received, so that the next chunk goes, and the checks look, that many blocks
further on. The memory it works in is therefore the block and what is mapped
behind it; leaving that memory is `none`.

What the functions allocate is not given back here: `free` has no part in what
is sent.
-/

namespace NetCalc.Net

set_option autoImplicit false
open NetCalc.Lib

/-- The two sides of a connection. -/
structure World where
  input : Input
  output : Output
  deriving Repr

/-- `n` bytes from `calloc`. -/
def zeroed (n : Nat) : List Byte := List.replicate n 0

/-- The length of the C string in a block, if it ends there. -/
def strlen : List Byte → Option Nat
  | [] => none
  | b :: bs => if b = 0 then some 0 else (strlen bs).map (· + 1)

/-- `strncpy` into a block of `n` zero bytes. -/
def strncpy (src : List Byte) (n : Nat) : List Byte :=
  let text := (src.take n).takeWhile (· ≠ 0)
  text ++ zeroed (n - text.length)

/-- Bytes stored at an address, if they stay in the mapped memory. -/
def store (mem : List Byte) (addr : Nat) (bs : List Byte) : Option (List Byte) :=
  if addr + bs.length ≤ mem.length then some (patch mem addr bs) else none

/-- A `uint32_t` loaded from an address, if it lies in the mapped memory. -/
def load32 (mem : List Byte) (addr : Nat) : Option (BitVec 32) :=
  if addr + 4 ≤ mem.length then some (decode 32 (slice addr 4 mem)) else none

/-- The loop of `read_net_header`: the memory, where `buf` points at the end,
and the input. -/
def recvLoop (e : Inputs) (mem : List Byte) (buf total : Nat) (i : Input) : Option (List Byte × Nat × Input) :=
  match _found : sysRead e i (NET_HEADER_SIZE - total) with
  | (.error _, i') => some (mem, buf, i')
  | (.ok bs, i') =>
    match store mem buf bs with
    | none => none
    | some mem' =>
      if _done : bs.length = 0 ∨ bs.length = NET_HEADER_SIZE ∨ total = NET_HEADER_SIZE then some (mem', buf, i')
      else recvLoop e mem' (buf + bs.length * NET_HEADER_SIZE) (total + bs.length) i'
termination_by NET_HEADER_SIZE - total
decreasing_by
  have bound := (sysRead_ok _found).1
  omega

/-- `read_net_header`: the status, the memory from the block on, and the input. -/
def readNetHeader (e : Inputs) (mem : List Byte) (i : Input) : Option (Int × List Byte × Input) := do
  let (mem, buf, i) ← recvLoop e mem 0 0 i
  let headerSize ← load32 mem buf
  if ntohl headerSize ≠ BitVec.ofNat 32 NET_HEADER_SIZE then
    return (ERROR, mem, i)
  let fileNameLen ← load32 mem (buf + 4)
  if MAX_FILENAME_SIZE < (ntohl fileNameLen).toNat then
    return (ERROR, mem, i)
  let len ← strlen (mem.drop (buf + 16))
  if MAX_FILENAME_SIZE < len then
    return (ERROR, mem, i)
  return (SUCCESS, mem, i)

/-- What `check_header` returns: its status, `*p_num_equations` and `*p_header`
when it succeeds, and the input. -/
structure Checked where
  err : Int
  numEquations : Int
  header : FileHeader
  input : Input

/-- `check_header`. -/
def checkHeader (e : Inputs) (i : Input) : Checked :=
  let r := safeRead e i (zeroed HEADER_SIZE) HEADER_SIZE
  let header := FileHeader.ofBytes r.2.1
  if r.1 ≠ HEADER_SIZE then ⟨-1, 0, header, r.2.2⟩
  else if header.isSolved ≠ 0 then ⟨-1, 0, header, r.2.2⟩
  else if header.numEquations.toInt ≤ 0 then ⟨-1, 0, header, r.2.2⟩
  else ⟨0, header.numEquations.toInt, header, r.2.2⟩

/-- The header `send_error_header` builds. -/
def errorHeader : NetHeader where
  headerSize := ntohl (BitVec.ofNat 32 NET_HEADER_SIZE)
  fileNameLen := ntohl 0
  fileSize := htobe64 48
  filename := strncpy [] MAX_FILENAME_LEN

/-- The header `write_net_header` builds. -/
def replyNetHeader (header : NetHeader) (numEquations : Int) : NetHeader where
  headerSize := ntohl (BitVec.ofNat 32 NET_HEADER_SIZE)
  fileNameLen := ntohl (ntohl header.fileNameLen)
  fileSize := htobe64 (BitVec.ofInt 64 (NET_HEADER_SIZE + HEADER_SIZE + SOLUTION_SIZE * numEquations))
  filename := strncpy header.filename MAX_FILENAME_LEN

/-- The header `write_file_header` builds. -/
def replyFileHeader (header : FileHeader) : FileHeader := { header with isSolved := 1 }

/-- The header bytes `safe_write` is given: as many as the header says. -/
def NetHeader.written (h : NetHeader) : List Byte := h.toBytes.take (ntohl h.headerSize).toNat

/-- `send_error_header`. -/
def sendErrorHeader (env : Env) (w : World) : Int × World :=
  let block := calloc env.toInputs .netHeader w.input
  if block.1 = false then (ERROR, { w with input := block.2 })
  else (SUCCESS, ⟨block.2, (safeWrite env.writes w.output errorHeader.written).2⟩)

/-- `write_net_header`. -/
def writeNetHeader (env : Env) (w : World) (header : NetHeader) (numEquations : Int) : Int × World :=
  let block := calloc env.toInputs .netHeader w.input
  if block.1 = false then (ERROR, { w with input := block.2 })
  else
    let newHeader := replyNetHeader header numEquations
    (SUCCESS, ⟨block.2, (safeWrite env.writes w.output newHeader.written).2⟩)

/-- `write_file_header`. -/
def writeFileHeader (env : Env) (w : World) (header : FileHeader) : Int × World :=
  let block := calloc env.toInputs .fileHeader w.input
  if block.1 = false then (ERROR, { w with input := block.2 })
  else (SUCCESS, ⟨block.2, (safeWrite env.writes w.output ((replyFileHeader header).toBytes.take HEADER_SIZE)).2⟩)

/-- `INT` and `UINT` of `threadpool.h`. -/
def INT : BitVec 8 := 1

@[inherit_doc INT] def UINT : BitVec 8 := 2

/-- The record `write_stream` builds. -/
def solvedEquation (calcResult : Calc) (equation : Equation) : SolvedEquation where
  equationId := equation.equationId
  isSolved := 1
  solutionType := if Op.MOD64.val ≥ calcResult.oper then INT else UINT
  solution := calcResult.result

/-- `write_stream`. -/
def writeStream (env : Env) (w : World) (calcResult : Calc) (equation : Equation) : Nat × World :=
  let block := calloc env.toInputs .solution w.input
  if block.1 = false then (SIZE_ERROR, { w with input := block.2 })
  else
    let written := safeWrite env.writes w.output ((solvedEquation calcResult equation).toBytes.take SOLUTION_SIZE)
    (written.1, ⟨block.2, written.2⟩)

theorem calloc_rx (e : Inputs) (b : Block) (i : Input) : (calloc e b i).2.rx = i.rx := rfl

/-- Writing does not touch the stream that is read. -/
theorem writeStream_input (env : Env) (w : World) (calcResult : Calc) (equation : Equation) :
    (writeStream env w calcResult equation).2.input = (calloc env.toInputs .solution w.input).2 := by
  unfold writeStream
  dsimp only
  split <;> rfl

/-- How one pass of the loop of `parse_stream` ends: whether it goes to `END`,
`err`, `*p_current_equation` and the world. -/
structure Pass where
  goEnd : Bool
  err : Int
  buf : List Byte
  world : World

/-- One pass of the loop of `parse_stream`. -/
def parsePass (env : Env) (w : World) (buf : List Byte) (err : Int) : Pass :=
  let block := calloc env.toInputs .calcVar w.input
  if block.1 = false then ⟨true, err, buf, { w with input := block.2 }⟩
  else
    let r := safeRead env.toInputs block.2 buf EQUATION_SIZE
    let w : World := { w with input := r.2.2 }
    if r.1 = 0 then ⟨true, err, r.2.1, w⟩
    else if r.1 ≠ EQUATION_SIZE then ⟨true, err, r.2.1, w⟩
    else
      let equation := Equation.ofBytes r.2.1
      let set := setCalcFile env.target calcInit equation.num1 equation.num2 equation.operator
      if set.1 ≠ 0 then ⟨true, set.1, r.2.1, w⟩
      else
        let solved := solveFunc set.2
        if solved.1 ≠ SUCCESS then ⟨true, solved.1, r.2.1, w⟩
        else
          let written := writeStream env w solved.2 equation
          ⟨written.1 = 0, solved.1, r.2.1, written.2⟩

/-- `equations_read++`. -/
@[irreducible] def countRead (equationsRead : Int) : Int := narrow 32 (equationsRead + 1)

/-- A pass that does not end the loop has read an equation. -/
theorem parsePass_reads {env : Env} {w : World} {buf : List Byte} {err : Int}
    (goes_on : (parsePass env w buf err).goEnd = false) :
    EQUATION_SIZE ≤ w.input.rx.length ∧
      (parsePass env w buf err).world.input.rx = w.input.rx.drop EQUATION_SIZE := by
  unfold parsePass at goes_on ⊢
  dsimp only at goes_on ⊢
  split at goes_on
  · cases goes_on
  split at goes_on
  · cases goes_on
  split at goes_on
  · cases goes_on
  rename_i allocated nonzero whole
  rw [ne_eq, not_not] at whole
  obtain ⟨enough, read⟩ := safeRead_full (by decide) (by decide) whole
  refine ⟨enough, ?_⟩
  rw [if_neg allocated, if_neg nonzero, if_neg (by rw [whole]; simp)]
  split at goes_on
  · cases goes_on
  split at goes_on
  · cases goes_on
  rename_i known solved
  rw [if_neg known, if_neg solved]
  rw [writeStream_input, calloc_rx, read]
  rfl

/-- The loop of `parse_stream`. -/
def parseLoop (env : Env) (w : World) (buf : List Byte) (equationsRead numEquations err : Int) : Int × World :=
  if equationsRead < numEquations then
    if _ends : (parsePass env w buf err).goEnd = true then
      ((parsePass env w buf err).err, (parsePass env w buf err).world)
    else
      parseLoop env (parsePass env w buf err).world (parsePass env w buf err).buf (countRead equationsRead)
        numEquations (parsePass env w buf err).err
  else (err, w)
termination_by w.input.rx.length
decreasing_by
  obtain ⟨enough, rest⟩ := parsePass_reads (by simpa using _ends)
  rw [rest, List.length_drop]
  unfold EQUATION_SIZE at enough ⊢
  omega

/-- `parse_stream`. -/
def parseStream (env : Env) (w : World) (header : NetHeader) : Int × World :=
  let equation := calloc env.toInputs .equation w.input
  let fileHeader := calloc env.toInputs .fileHeader equation.2
  if equation.1 = false ∨ fileHeader.1 = false then (ERROR, { w with input := fileHeader.2 })
  else
    let check := checkHeader env.toInputs fileHeader.2
    let w : World := { w with input := check.input }
    if check.err ≠ SUCCESS then (check.err, (sendErrorHeader env w).2)
    else
      let net := writeNetHeader env w header check.numEquations
      if net.1 ≠ SUCCESS then net
      else
        let file := writeFileHeader env net.2 check.header
        if file.1 ≠ SUCCESS then file
        else parseLoop env file.2 (zeroed EQUATION_SIZE) 0 check.numEquations file.1

/-- `close`. -/
def closeSocket (w : World) : World := { w with output := { w.output with log := w.output.log ++ [.closed] } }

/-- `handle_new_connection`. -/
def handleNewConnection (env : Env) (w : World) : Option World :=
  let block := calloc env.toInputs .netHeader w.input
  if block.1 = false then some { w with input := block.2 }
  else do
    let (err, mem, i) ← readNetHeader env.toInputs (zeroed NET_HEADER_SIZE ++ env.heap) block.2
    let w : World := { w with input := i }
    let w := if err ≠ SUCCESS then (sendErrorHeader env w).2 else w
    let w := if err = SUCCESS then (parseStream env w (NetHeader.ofBytes (slice 0 NET_HEADER_SIZE mem))).2 else w
    return closeSocket w

/-- A connection that has just been accepted, with the bytes its peer sends. -/
def World.start (rx : List Byte) : World := ⟨⟨rx, 0, 0⟩, ⟨0, []⟩⟩

end NetCalc.Net
