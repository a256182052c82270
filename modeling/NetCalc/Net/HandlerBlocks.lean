import NetCalc.Lib.Scopes
import NetCalc.Net.Answers
import NetCalc.Net.HeaderMemory

/-!
# The blocks of the connections (`net_handler.c`)

Each function of the handler allocates what it works in and frees it before it
returns, on its way through and on every way out. Here is what it does with its
blocks, call by call: `addr` gives the address that a connection's `calloc`
returns, by the number of the call, and the ways through the functions are those
of `handleNewConnection` (`handleNewConnectionBlocks_run`).

The connections run side by side and share one allocator. As long as it gives
out only what is free, no block is used or freed that its connection does not
have, no connection has more than five, and what was allocated has been freed
exactly once when the handlers have returned (`blocks_freed_once`).

A connection whose header leads `read_net_header` out of its block is not
spoken of: its ledger is `none`.
-/

namespace NetCalc.Net

set_option autoImplicit false
open NetCalc.Lib

/-- An entry for a pointer, if it is not `NULL`. -/
def unlessNull (given : Bool) (entry : Nat × Deed Block) : Ledger Nat Block :=
  if given = true then [entry] else []

section Blocks
variable (env : Env) (addr : Nat → Nat)

/-- A block that a function allocates at its start and frees at its end; without
one it does nothing. -/
def onBlock (b : Block) (i : Input) (uses : Nat → Input → Ledger Nat Block) : Ledger Nat Block :=
  let block := calloc env.toInputs b i
  if block.1 = false then []
  else (addr i.nalloc, .opened b) :: (uses (addr i.nalloc) block.2 ++ [(addr i.nalloc, .closed)])

/-- `send_error_header`. -/
def sendErrorHeaderBlocks (i : Input) : Ledger Nat Block :=
  onBlock env addr .netHeader i fun header _ => [(header, .used)]

/-- `write_net_header`. -/
def writeNetHeaderBlocks (i : Input) (header : Nat) : Ledger Nat Block :=
  onBlock env addr .netHeader i fun newHeader _ => [(header, .used), (newHeader, .used)]

/-- `write_file_header`. -/
def writeFileHeaderBlocks (i : Input) (fileHeader : Nat) : Ledger Nat Block :=
  onBlock env addr .fileHeader i fun newHeader _ => [(fileHeader, .used), (newHeader, .used)]

/-- `write_stream`. -/
def writeStreamBlocks (i : Input) (calcResult equation : Nat) : Ledger Nat Block :=
  onBlock env addr .solution i fun solution _ => [(equation, .used), (calcResult, .used), (solution, .used)]

/-- One pass of the loop of `parse_stream`. -/
def parsePassBlocks (i : Input) (buf : List Byte) (currentEquation : Nat) : Ledger Nat Block :=
  onBlock env addr .calcVar i fun newCalc i =>
    let r := safeRead env.toInputs i buf EQUATION_SIZE
    (currentEquation, .used) ::
      if r.1 = 0 then []
      else if r.1 ≠ EQUATION_SIZE then []
      else
        let equation := Equation.ofBytes r.2.1
        let set := setCalcFile env.target calcInit equation.num1 equation.num2 equation.operator
        (currentEquation, .used) :: (newCalc, .used) ::
          if set.1 ≠ 0 then []
          else
            let solved := solveFunc set.2
            (newCalc, .used) ::
              if solved.1 ≠ SUCCESS then [] else writeStreamBlocks env addr r.2.2 newCalc currentEquation

/-- The loop of `parse_stream`. -/
def parseLoopBlocks (w : World) (buf : List Byte) (currentEquation : Nat)
    (equationsRead numEquations err : Int) : Ledger Nat Block :=
  if equationsRead < numEquations then
    if _ends : (parsePass env w buf err).goEnd = true then parsePassBlocks env addr w.input buf currentEquation
    else
      parsePassBlocks env addr w.input buf currentEquation ++
        parseLoopBlocks (parsePass env w buf err).world (parsePass env w buf err).buf currentEquation
          (countRead equationsRead) numEquations (parsePass env w buf err).err
  else []
termination_by w.input.rx.length
decreasing_by
  obtain ⟨enough, rest⟩ := parsePass_reads (by simpa using _ends)
  rw [rest, List.length_drop]
  unfold EQUATION_SIZE at enough ⊢
  omega

/-- `parse_stream`, between the allocations and the label `END`. -/
def parseStreamUses (w : World) (header : NetHeader) (netHeader fileHeader currentEquation : Nat) :
    Ledger Nat Block :=
  let check := checkHeader env.toInputs w.input
  let w : World := { w with input := check.input }
  (fileHeader, .used) ::
    if check.err ≠ SUCCESS then sendErrorHeaderBlocks env addr w.input
    else
      let net := writeNetHeader env w header check.numEquations
      writeNetHeaderBlocks env addr w.input netHeader ++
        if net.1 ≠ SUCCESS then []
        else
          let file := writeFileHeader env net.2 check.header
          writeFileHeaderBlocks env addr net.2.input fileHeader ++
            if file.1 ≠ SUCCESS then []
            else parseLoopBlocks env addr file.2 (zeroed EQUATION_SIZE) currentEquation 0
              check.numEquations file.1

/-- `parse_stream`. -/
def parseStreamBlocks (w : World) (header : NetHeader) (netHeader : Nat) : Ledger Nat Block :=
  let equation := calloc env.toInputs .equation w.input
  let fileHeader := calloc env.toInputs .fileHeader equation.2
  let pEquation := addr w.input.nalloc
  let pHeader := addr equation.2.nalloc
  unlessNull equation.1 (pEquation, .opened .equation) ++
    (unlessNull fileHeader.1 (pHeader, .opened .fileHeader) ++
      ((if equation.1 = false ∨ fileHeader.1 = false then []
        else parseStreamUses env addr { w with input := fileHeader.2 } header netHeader pHeader pEquation) ++
          unlessNull fileHeader.1 (pHeader, .closed)) ++
    unlessNull equation.1 (pEquation, .closed))

/-- `handle_new_connection`, where nothing is mapped behind its block. -/
def handleNewConnectionBlocks (w : World) : Option (Ledger Nat Block) :=
  let block := calloc env.toInputs .netHeader w.input
  if block.1 = false then some []
  else do
    let (err, mem, i) ← readNetHeader env.toInputs (zeroed NET_HEADER_SIZE) block.2
    let w' : World := { w with input := i }
    return onBlock env addr .netHeader w.input fun header _ =>
      (header, .used) ::
        if err ≠ SUCCESS then sendErrorHeaderBlocks env addr i
        else parseStreamBlocks env addr w' (NetHeader.ofBytes (slice 0 NET_HEADER_SIZE mem)) header

end Blocks

/-! ## Brackets -/

section Brackets
variable {env : Env} {addr : Nat → Nat} {own : List Nat} {n : Nat} {i : Input} {w : World} {buf : List Byte}

theorem onBlock_nested {b : Block} {uses : Nat → Input → Ledger Nat Block}
    (inside : ∀ k i, Nested (k :: own) n (uses k i)) : Nested own (n + 1) (onBlock env addr b i uses) := by
  unfold onBlock
  dsimp only
  split
  · exact .nil
  · exact .bracket (inside _ _)

theorem sendErrorHeaderBlocks_nested : Nested own 1 (sendErrorHeaderBlocks env addr i) :=
  onBlock_nested fun _ _ => .use List.mem_cons_self .nil

theorem writeNetHeaderBlocks_nested {header : Nat} (around : header ∈ own) :
    Nested own 1 (writeNetHeaderBlocks env addr i header) :=
  onBlock_nested fun _ _ => .use (List.mem_cons_of_mem _ around) (.use List.mem_cons_self .nil)

theorem writeFileHeaderBlocks_nested {fileHeader : Nat} (around : fileHeader ∈ own) :
    Nested own 1 (writeFileHeaderBlocks env addr i fileHeader) :=
  onBlock_nested fun _ _ => .use (List.mem_cons_of_mem _ around) (.use List.mem_cons_self .nil)

theorem writeStreamBlocks_nested {calcResult equation : Nat} (result : calcResult ∈ own)
    (given : equation ∈ own) :
    Nested own 1 (writeStreamBlocks env addr i calcResult equation) :=
  onBlock_nested fun _ _ => .use (List.mem_cons_of_mem _ given)
    (.use (List.mem_cons_of_mem _ result) (.use List.mem_cons_self .nil))

theorem parsePassBlocks_nested {currentEquation : Nat} (around : currentEquation ∈ own) :
    Nested own 2 (parsePassBlocks env addr i buf currentEquation) := by
  refine onBlock_nested fun newCalc i => ?_
  have equation : currentEquation ∈ newCalc :: own := List.mem_cons_of_mem _ around
  have calc_var : newCalc ∈ newCalc :: own := List.mem_cons_self
  dsimp only
  refine .use equation ?_
  split
  · exact .nil
  split
  · exact .nil
  refine .use equation (.use calc_var ?_)
  split
  · exact .nil
  refine .use calc_var ?_
  split
  · exact .nil
  · exact writeStreamBlocks_nested calc_var equation

theorem parseLoopBlocks_nested {currentEquation : Nat} (around : currentEquation ∈ own)
    (equationsRead numEquations err : Int) :
    Nested own 2 (parseLoopBlocks env addr w buf currentEquation equationsRead numEquations err) := by
  fun_induction parseLoopBlocks env addr w buf currentEquation equationsRead numEquations err with
  | case1 => exact parsePassBlocks_nested around
  | case2 w buf equationsRead err more goes_on ih => exact (parsePassBlocks_nested around).append ih
  | case3 => exact .nil

theorem parseStreamUses_nested {header : NetHeader} {netHeader fileHeader currentEquation : Nat}
    (net : netHeader ∈ own) (file : fileHeader ∈ own) (equation : currentEquation ∈ own) :
    Nested own 2 (parseStreamUses env addr w header netHeader fileHeader currentEquation) := by
  unfold parseStreamUses
  refine .use file ?_
  split
  · exact sendErrorHeaderBlocks_nested.mono (by decide)
  refine ((writeNetHeaderBlocks_nested net).mono (by decide)).append ?_
  split
  · exact .nil
  refine ((writeFileHeaderBlocks_nested file).mono (by decide)).append ?_
  split
  · exact .nil
  · exact parseLoopBlocks_nested equation 0 _ _

/-- Both blocks are freed, or the one that was allocated. -/
theorem parseStreamBlocks_nested {header : NetHeader} {netHeader : Nat} (around : netHeader ∈ own) :
    Nested own 4 (parseStreamBlocks env addr w header netHeader) := by
  unfold parseStreamBlocks
  dsimp only
  cases equation : (calloc env.toInputs .equation w.input).1 with
  | false =>
    cases fileHeader : (calloc env.toInputs .fileHeader (calloc env.toInputs .equation w.input).2).1 with
    | false => exact .nil
    | true => exact .bracket .nil
  | true =>
    refine .bracket ?_
    cases fileHeader : (calloc env.toInputs .fileHeader (calloc env.toInputs .equation w.input).2).1 with
    | false => exact .nil
    | true =>
      refine .bracket (parseStreamUses_nested ?_ List.mem_cons_self ?_)
      · exact List.mem_cons_of_mem _ (List.mem_cons_of_mem _ around)
      · exact List.mem_cons_of_mem _ List.mem_cons_self

/-- **A handler closes its brackets**, and they are not deeper than five. -/
theorem handleNewConnectionBlocks_nested {es : Ledger Nat Block}
    (runs : handleNewConnectionBlocks env addr w = some es) : Nested [] 5 es := by
  unfold handleNewConnectionBlocks at runs
  dsimp only at runs
  split at runs
  · cases runs
    exact .nil
  · obtain ⟨⟨err, mem, i⟩, _, returned⟩ := Option.bind_eq_some_iff.mp runs
    cases returned
    refine onBlock_nested fun header _ => .use List.mem_cons_self ?_
    dsimp only
    split
    · exact sendErrorHeaderBlocks_nested.mono (by decide)
    · exact parseStreamBlocks_nested List.mem_cons_self

end Brackets

/-! ## What is allocated

The ledger has an entry for each `calloc` that the handler makes on its way and
that returns a block, in their order. -/

section Allocated
variable {env : Env} {addr : Nat → Nat} {i i' i'' : Input} {w : World} {buf : List Byte}
  {es fs : Ledger Nat Block}

/-- From `i` to `i'` the blocks `kinds` are asked for, and the ledger has those
that `calloc` returns. -/
def Listed (env : Env) (addr : Nat → Nat) (i i' : Input) (es : Ledger Nat Block) : Prop :=
  ∃ kinds : List Block, i'.nalloc = i.nalloc + kinds.length ∧
    opened es = (kinds.zipIdx i.nalloc).filterMap fun x =>
      if env.calloc x.1 x.2 = true then some (addr x.2, x.1) else none

theorem listed_nothing (same : i'.nalloc = i.nalloc) (none_opened : opened es = []) :
    Listed env addr i i' es :=
  ⟨[], same, none_opened⟩

theorem Listed.append (first : Listed env addr i i' es) (second : Listed env addr i' i'' fs) :
    Listed env addr i i'' (es ++ fs) := by
  obtain ⟨kinds, counted, same⟩ := first
  obtain ⟨kinds', counted', same'⟩ := second
  refine ⟨kinds ++ kinds', by rw [counted', counted, List.length_append]; omega, ?_⟩
  rw [opened_append, same, same', List.zipIdx_append, List.filterMap_append, counted]

/-- An entry that opens nothing. -/
theorem Listed.behind_entry {e : Nat × Deed Block} (later : Listed env addr i i' fs)
    (none_opened : opened [e] = []) :
    Listed env addr i i' (e :: fs) :=
  (listed_nothing rfl none_opened).append later

/-- Before, nothing was asked for. -/
theorem Listed.later (same : i'.nalloc = i.nalloc) (listed : Listed env addr i' i'' es) :
    Listed env addr i i'' es := by
  unfold Listed at listed ⊢
  rwa [same] at listed

theorem listed_calloc (b : Block) :
    Listed env addr i (calloc env.toInputs b i).2
      (unlessNull (calloc env.toInputs b i).1 (addr i.nalloc, .opened b)) := by
  refine ⟨[b], rfl, ?_⟩
  unfold unlessNull calloc
  cases given : env.calloc b i.nalloc with
  | false => simp [opened, given]
  | true => simp [opened, given]

theorem onBlock_listed {b : Block} {uses : Nat → Input → Ledger Nat Block}
    (without : (calloc env.toInputs b i).1 = false → i'.nalloc = (calloc env.toInputs b i).2.nalloc)
    (inside : (calloc env.toInputs b i).1 ≠ false →
      Listed env addr (calloc env.toInputs b i).2 i' (uses (addr i.nalloc) (calloc env.toInputs b i).2)) :
    Listed env addr i i' (onBlock env addr b i uses) := by
  have asked : Listed env addr i _ _ := listed_calloc b
  unfold onBlock
  dsimp only
  split
  · rename_i null
    rw [null] at asked
    exact asked.append (listed_nothing (without null) rfl)
  · rename_i given
    rw [Bool.eq_true_of_not_eq_false given] at asked
    exact asked.append ((inside given).append (listed_nothing rfl rfl))

/-! ### Reading -/

theorem sysRead_keeps_nalloc (e : Inputs) (i : Input) (len : Nat) : (sysRead e i len).2.nalloc = i.nalloc := by
  unfold sysRead
  dsimp only
  split <;> rfl

theorem safeRead_keeps_nalloc (e : Inputs) (i : Input) (buf : List Byte) (len : Nat) :
    (safeRead e i buf len).2.2.nalloc = i.nalloc := by
  unfold safeRead
  fun_induction safeReadLoop e len i buf 0 0 with
  | case1 i buf total last more i' found =>
    have same := sysRead_keeps_nalloc e i (len - total)
    rwa [found] at same
  | case2 i buf total last more bs i' found none_came ih =>
    have same := sysRead_keeps_nalloc e i (len - total)
    rw [found] at same
    exact ih.trans same
  | case3 i buf total last more errno i' found =>
    have same := sysRead_keeps_nalloc e i (len - total)
    rwa [found] at same
  | case4 => rfl

theorem checkHeader_keeps_nalloc (e : Inputs) (i : Input) : (checkHeader e i).input.nalloc = i.nalloc := by
  have same := safeRead_keeps_nalloc e i (zeroed HEADER_SIZE) HEADER_SIZE
  unfold checkHeader
  dsimp only
  split
  · exact same
  split
  · exact same
  split <;> exact same

/-! ### The functions -/

theorem sendErrorHeader_listed :
    Listed env addr w.input (sendErrorHeader env w).2.input (sendErrorHeaderBlocks env addr w.input) := by
  have reached : (sendErrorHeader env w).2.input = (calloc env.toInputs .netHeader w.input).2 := by
    unfold sendErrorHeader
    dsimp only
    split <;> rfl
  rw [reached]
  exact onBlock_listed (fun _ => rfl) fun _ => listed_nothing rfl rfl

theorem writeNetHeader_listed (header : NetHeader) (numEquations : Int) {netHeader : Nat} :
    Listed env addr w.input (writeNetHeader env w header numEquations).2.input
      (writeNetHeaderBlocks env addr w.input netHeader) := by
  have reached : (writeNetHeader env w header numEquations).2.input =
      (calloc env.toInputs .netHeader w.input).2 := by
    unfold writeNetHeader
    dsimp only
    split <;> rfl
  rw [reached]
  exact onBlock_listed (fun _ => rfl) fun _ => listed_nothing rfl rfl

theorem writeFileHeader_listed (header : FileHeader) {fileHeader : Nat} :
    Listed env addr w.input (writeFileHeader env w header).2.input
      (writeFileHeaderBlocks env addr w.input fileHeader) := by
  have reached : (writeFileHeader env w header).2.input = (calloc env.toInputs .fileHeader w.input).2 := by
    unfold writeFileHeader
    dsimp only
    split <;> rfl
  rw [reached]
  exact onBlock_listed (fun _ => rfl) fun _ => listed_nothing rfl rfl

theorem writeStream_listed {calcResult : Calc} {equation : Equation} {pCalc pEquation : Nat} :
    Listed env addr w.input (writeStream env w calcResult equation).2.input
      (writeStreamBlocks env addr w.input pCalc pEquation) := by
  rw [writeStream_input]
  exact onBlock_listed (fun _ => rfl) fun _ => listed_nothing rfl rfl

theorem parsePass_listed {err : Int} {currentEquation : Nat} :
    Listed env addr w.input (parsePass env w buf err).world.input
      (parsePassBlocks env addr w.input buf currentEquation) := by
  refine onBlock_listed (fun null => ?_) fun given => ?_
  · unfold parsePass
    rw [if_pos null]
  · have read := safeRead_keeps_nalloc env.toInputs (calloc env.toInputs .calcVar w.input).2 buf EQUATION_SIZE
    unfold parsePass
    dsimp only
    rw [if_neg given]
    refine Listed.behind_entry ?_ rfl
    split
    · exact listed_nothing read rfl
    split
    · exact listed_nothing read rfl
    refine Listed.behind_entry (Listed.behind_entry ?_ rfl) rfl
    split
    · exact listed_nothing read rfl
    refine Listed.behind_entry ?_ rfl
    split
    · exact listed_nothing read rfl
    · exact writeStream_listed.later read

theorem parseLoop_listed {currentEquation : Nat} (equationsRead numEquations err : Int) :
    Listed env addr w.input (parseLoop env w buf equationsRead numEquations err).2.input
      (parseLoopBlocks env addr w buf currentEquation equationsRead numEquations err) := by
  fun_induction parseLoop env w buf equationsRead numEquations err with
  | case1 w buf equationsRead err more ends =>
    rw [parseLoopBlocks, if_pos more, dif_pos ends]
    exact parsePass_listed
  | case2 w buf equationsRead err more goes_on ih =>
    rw [parseLoopBlocks, if_pos more, dif_neg goes_on]
    exact parsePass_listed.append ih
  | case3 w buf equationsRead err done =>
    rw [parseLoopBlocks, if_neg done]
    exact listed_nothing rfl rfl

theorem unlessNull_closed (given : Bool) (k : Nat) : opened (unlessNull given (k, .closed)) = [] := by
  cases given <;> rfl

theorem parseStream_listed {header : NetHeader} {netHeader : Nat} :
    Listed env addr w.input (parseStream env w header).2.input
      (parseStreamBlocks env addr w header netHeader) := by
  have first : Listed env addr w.input _ _ := listed_calloc .equation
  have second : Listed env addr (calloc env.toInputs .equation w.input).2 _ _ := listed_calloc .fileHeader
  have closing : ∀ (i : Input) (given : Bool) (k : Nat), Listed env addr i i (unlessNull given (k, .closed)) :=
    fun _ given k => listed_nothing rfl (unlessNull_closed given k)
  unfold parseStreamBlocks parseStream parseStreamUses
  dsimp only
  refine first.append (Listed.append (second.append (Listed.append ?_ (closing ..))) (closing ..))
  split
  · exact listed_nothing rfl rfl
  refine .behind_entry ?_ rfl
  refine .later (checkHeader_keeps_nalloc env.toInputs _) ?_
  generalize checkHeader env.toInputs _ = check
  generalize entered : ({ input := check.input, output := w.output } : World) = w
  have reached : check.input = w.input := by rw [← entered]
  rw [reached]
  split
  · exact sendErrorHeader_listed
  have net : Listed env addr w.input _ (writeNetHeaderBlocks env addr w.input netHeader) :=
    writeNetHeader_listed header check.numEquations
  split
  · rw [List.append_nil]
    exact net
  refine net.append ?_
  split
  · rw [List.append_nil]
    exact writeFileHeader_listed check.header
  · exact (writeFileHeader_listed check.header).append (parseLoop_listed 0 _ _)

/-! ### What is behind the block -/

section Behind
variable {e : Inputs} {mem mem' more bs : List Byte} {at' : Nat}

theorem store_behind (stored : store mem at' bs = some mem') :
    store (mem ++ more) at' bs = some (mem' ++ more) := by
  unfold store at stored ⊢
  split at stored
  · rename_i room
    cases stored
    rw [if_pos (by rw [List.length_append]; omega)]
    simp only [patch, List.append_assoc, List.take_append_of_le_length (Nat.le_of_add_right_le room),
      List.drop_append_of_le_length room]
  · cases stored

theorem load32_behind_block {word : BitVec 32} (loaded : load32 mem at' = some word) :
    load32 (mem ++ more) at' = some word := by
  unfold load32 at loaded ⊢
  split at loaded
  · rename_i room
    rw [if_pos (by rw [List.length_append]; omega), ← loaded]
    simp only [slice, List.drop_append_of_le_length (Nat.le_of_add_right_le room)]
    rw [List.take_append_of_le_length (by rw [List.length_drop]; omega)]
  · cases loaded

theorem strlen_behind {len : Nat} (ends : strlen mem = some len) : strlen (mem ++ more) = some len := by
  induction mem generalizing len with
  | nil => cases ends
  | cons b mem ih =>
    rw [strlen] at ends
    rw [List.cons_append, strlen]
    split at ends
    · rename_i zero
      rw [if_pos zero, ends]
    · rename_i nonzero
      obtain ⟨len, inner, rfl⟩ := Option.map_eq_some_iff.mp ends
      rw [if_neg nonzero, ih inner]
      rfl

/-- What stays in a block does not see what is behind it. -/
theorem recvLoop_behind {buf total buf' : Nat} {i' : Input}
    (found : recvLoop e mem buf total i = some (mem', buf', i')) :
    recvLoop e (mem ++ more) buf total i = some (mem' ++ more, buf', i') := by
  fun_induction recvLoop e mem buf total i with
  | case1 mem buf total i errno i₁ read =>
    cases found
    rw [recvLoop]
    split
    · rename_i same
      rw [read] at same
      cases same
      rfl
    · rename_i same
      rw [read] at same
      cases same
  | case2 => cases found
  | case3 mem buf total i bs i₁ read mem₁ stored done =>
    cases found
    rw [recvLoop]
    split
    · rename_i same
      rw [read] at same
      cases same
    · rename_i same
      rw [read] at same
      cases same
      simp only [store_behind stored, dif_pos done]
  | case4 mem buf total i bs i₁ read mem₁ stored goes_on ih =>
    rw [recvLoop]
    split
    · rename_i same
      rw [read] at same
      cases same
    · rename_i same
      rw [read] at same
      cases same
      simp only [store_behind stored, dif_neg goes_on]
      exact ih found

theorem recvLoop_keeps_nalloc {buf total buf' : Nat} {i' : Input}
    (found : recvLoop e mem buf total i = some (mem', buf', i')) : i'.nalloc = i.nalloc := by
  fun_induction recvLoop e mem buf total i with
  | case1 mem buf total i errno i₁ read =>
    cases found
    have same := sysRead_keeps_nalloc e i (NET_HEADER_SIZE - total)
    rwa [read] at same
  | case2 => cases found
  | case3 mem buf total i bs i₁ read mem₁ stored done =>
    cases found
    have same := sysRead_keeps_nalloc e i (NET_HEADER_SIZE - total)
    rwa [read] at same
  | case4 mem buf total i bs i₁ read mem₁ stored goes_on ih =>
    have same := sysRead_keeps_nalloc e i (NET_HEADER_SIZE - total)
    rw [read] at same
    exact (ih found).trans same

/-- **Where `read_net_header` stays in its block**, it makes no difference what
is mapped behind it. -/
theorem readNetHeader_behind {err : Int} {i' : Input} (found : readNetHeader e mem i = some (err, mem', i')) :
    readNetHeader e (mem ++ more) i = some (err, mem' ++ more, i') ∧ mem'.length = mem.length ∧
      i'.nalloc = i.nalloc := by
  unfold readNetHeader at found ⊢
  obtain ⟨⟨mem₁, buf, i₁⟩, looped, found⟩ := Option.bind_eq_some_iff.mp found
  obtain ⟨headerSize, size, found⟩ := Option.bind_eq_some_iff.mp found
  have width := (recvLoop_forward looped).2
  have same := recvLoop_keeps_nalloc looped
  simp only [recvLoop_behind looped, load32_behind_block size, Option.bind_eq_bind, Option.bind_some]
  split at found
  · rename_i wrong_size
    cases found
    exact ⟨if_pos wrong_size, width, same⟩
  rename_i right_size
  obtain ⟨fileNameLen, length, found⟩ := Option.bind_eq_some_iff.mp found
  simp only [if_neg right_size, load32_behind_block length, Option.bind_some]
  split at found
  · rename_i too_long
    cases found
    exact ⟨if_pos too_long, width, same⟩
  rename_i short
  obtain ⟨len, ends, found⟩ := Option.bind_eq_some_iff.mp found
  simp only [if_neg short, List.drop_append, strlen_behind ends, Option.bind_some]
  split at found
  · rename_i too_long
    cases found
    exact ⟨if_pos too_long, width, same⟩
  · rename_i fits
    cases found
    exact ⟨if_neg fits, width, same⟩

end Behind

/-- **The ledger is the handler's.** Where the handler stays in its block, it
comes to its end, and of each block it asks for on the way the ledger has the
opening, if it got one. -/
theorem handleNewConnectionBlocks_run (runs : handleNewConnectionBlocks env addr w = some es) :
    ∃ w', handleNewConnection env w = some w' ∧ Listed env addr w.input w'.input es := by
  unfold handleNewConnectionBlocks at runs
  unfold handleNewConnection
  dsimp only at runs ⊢
  split at runs
  · rename_i null
    cases runs
    rw [if_pos null]
    refine ⟨_, rfl, ?_⟩
    have asked : Listed env addr w.input _ _ := listed_calloc .netHeader
    rwa [null] at asked
  · rename_i given
    rw [if_neg given]
    obtain ⟨⟨err, mem, i⟩, found, returned⟩ := Option.bind_eq_some_iff.mp runs
    cases returned
    obtain ⟨behind, width, same⟩ := (readNetHeader_behind found : _ = some (err, mem ++ env.heap, i) ∧ _)
    have front : slice 0 NET_HEADER_SIZE (mem ++ env.heap) = slice 0 NET_HEADER_SIZE mem := by
      have block : mem.length = NET_HEADER_SIZE := width.trans List.length_replicate
      simp only [slice, List.drop_zero]
      rw [List.take_append_of_le_length (by omega)]
    simp only [behind, front, Option.bind_eq_bind, Option.bind_some]
    refine ⟨_, rfl, ?_⟩
    refine onBlock_listed (fun null => absurd null given) fun _ => .behind_entry ?_ rfl
    refine .later same ?_
    by_cases refused : err ≠ SUCCESS
    · rw [if_pos refused, if_pos refused, if_neg refused]
      exact sendErrorHeader_listed (w := { w with input := i })
    · rw [if_neg refused, if_neg refused, if_pos (not_not.mp refused)]
      exact parseStream_listed (w := { w with input := i })

end Allocated

/-! ## Connections side by side -/

/-- **Every block is freed once.** Take any connections whose handlers stay in
the blocks of their headers, under whatever reads, writes and allocations, and
what they have done with blocks up to any moment, merged in any way (`ms`). If
`calloc` has never returned an address that was in use, then no address was
used or freed that was not in use, nor one by a connection that does not have
it; no handler has more than five blocks, and once all have returned each block
they got has been freed exactly once and not been used after that. -/
theorem blocks_freed_once {ο : Type} [DecidableEq ο] (env : ο → Env) (addr : ο → Nat → Nat) (w : ο → World)
    (es : ο → Ledger Nat Block) (ms : List (ο × Nat × Deed Block))
    (runs : ∀ o, handleNewConnectionBlocks (env o) (addr o) (w o) = some (es o))
    (so_far : ∀ o, entriesOf o ms <+: es o) (fresh : FreshlyOpened nobody (ms.map Prod.snd)) :
    (∀ o, ∃ w', handleNewConnection (env o) (w o) = some w' ∧
      Listed (env o) (addr o) (w o).input w'.input (es o)) ∧
      Proper nobody (ms.map Prod.snd) ∧ (∀ o, Proper nobody (entriesOf o ms)) ∧
        (∀ o, opens (entriesOf o ms) ≤ closes (entriesOf o ms) + 5) ∧
        ((∀ o, entriesOf o ms = es o) → Balanced (ms.map Prod.snd)) := by
  have nested : ∀ o, Nested [] 5 (es o) := fun o => handleNewConnectionBlocks_nested (runs o)
  obtain ⟨proper, proper_each⟩ := merged_proper (fun o => ⟨es o, (nested o).scoped, so_far o⟩) fresh
  refine ⟨fun o => handleNewConnectionBlocks_run (runs o), proper, proper_each,
    fun o => (nested o).standing_le (so_far o), ?_⟩
  intro returned
  refine merged_balanced (fun o => ?_) fresh
  rw [returned o]
  exact (nested o).scoped

/-- A request with one sum. -/
def sumRequest : List Byte := namedHeader ++ unsolvedHeader 1 ++ equationRecords [⟨7, 0, 10, 1, 20⟩]

/-- What is done with blocks to answer it. -/
def sumBlocks (addr : Nat → Nat) : Ledger Nat Block :=
  [(addr 0, .opened .netHeader), (addr 0, .used), (addr 1, .opened .equation), (addr 2, .opened .fileHeader),
    (addr 2, .used), (addr 3, .opened .netHeader), (addr 0, .used), (addr 3, .used), (addr 3, .closed),
    (addr 4, .opened .fileHeader), (addr 2, .used), (addr 4, .used), (addr 4, .closed),
    (addr 5, .opened .calcVar), (addr 1, .used), (addr 1, .used), (addr 5, .used), (addr 5, .used),
    (addr 6, .opened .solution), (addr 1, .used), (addr 5, .used), (addr 6, .used), (addr 6, .closed),
    (addr 5, .closed), (addr 2, .closed), (addr 1, .closed), (addr 0, .closed)]

/-- Two such connections, which take turns after each entry. -/
theorem blocks_freed_once_two : ∃ ms : List (Bool × Nat × Deed Block),
    (∀ o : Bool, entriesOf o ms = sumBlocks fun k => 2 * k + o.toNat) ∧
      (∀ o : Bool, Proper nobody (entriesOf o ms)) ∧ Balanced (ms.map Prod.snd) := by
  let addr : Bool → Nat → Nat := fun o k => 2 * k + o.toNat
  let ms : List (Bool × Nat × Deed Block) :=
    ((sumBlocks (addr false)).zip (sumBlocks (addr true))).flatMap fun e => [(false, e.1), (true, e.2)]
  have runs : ∀ o : Bool, handleNewConnectionBlocks Env.calm (addr o) (World.start sumRequest) =
      some (sumBlocks (addr o)) := by decide +kernel
  have returned : ∀ o : Bool, entriesOf o ms = sumBlocks (addr o) := by decide
  have fresh : FreshlyOpened nobody (ms.map Prod.snd) := by decide
  obtain ⟨_, _, each, _, freed⟩ := blocks_freed_once (fun _ => Env.calm) addr (fun _ => World.start sumRequest)
    (fun o => sumBlocks (addr o)) ms runs (fun o => returned o ▸ List.prefix_rfl) fresh
  exact ⟨ms, returned, each, freed returned⟩

end NetCalc.Net
