import NetCalc.Net.Client
import NetCalc.Net.Verdict

/-!
# A session from end to end

The client's request goes through the server and the reply through the client,
on a connection that transfers all it is asked to. The net header the client
packs is one the server accepts (`requestHeader_accepted`), and what the client
writes to its output directory is the file it read, marked as solved, with the
answer to each equation in its place (`session_solves_file`).
-/

namespace NetCalc.Net

set_option autoImplicit false
open NetCalc.Lib NetCalc.Client

/-- The characters before the first NUL of a text. -/
theorem text_takeWhile {name pad : List Byte} (printable : ∀ b ∈ name, b ≠ 0) :
    (name ++ 0 :: pad).takeWhile (· ≠ 0) = name := by
  rw [List.takeWhile_append_of_pos (by simpa using printable)]
  simp

/-- Copying a text that ends with its first NUL. -/
theorem strncpy_text {name pad : List Byte} {n : Nat} (printable : ∀ b ∈ name, b ≠ 0) (room : name.length < n) :
    strncpy (name ++ 0 :: pad) n = name ++ zeroed (n - name.length) := by
  have front : ((name ++ 0 :: pad).take n).takeWhile (· ≠ 0) = name := by
    rw [List.take_append, List.take_of_length_le (by omega)]
    obtain ⟨k, left⟩ : ∃ k, n - name.length = k + 1 := ⟨n - name.length - 1, by omega⟩
    rw [left, List.take_succ_cons]
    exact text_takeWhile printable
  rw [strncpy, front]

/-- A text of ASCII characters, as bytes. -/
theorem ascii_text {filename : String} (characters : ∀ c ∈ filename.toList, 0 < c.toNat ∧ c.toNat < 128) :
    ∃ name, ascii filename = some name ∧ name.length = filename.length ∧ ∀ b ∈ name, b ≠ 0 := by
  refine ⟨filename.toList.map fun c => BitVec.ofNat 8 c.toNat, ?_,
    by rw [List.length_map, String.length_toList], ?_⟩
  · rw [ascii, if_pos]
    simpa using fun c member => (characters c member).2
  · intro b member zero
    obtain ⟨c, here, rfl⟩ := List.mem_map.mp member
    obtain ⟨positive, small⟩ := characters c here
    have value : c.toNat % 256 = 0 := by simpa using congrArg BitVec.toNat zero
    omega

/-- A name that leaves room in its field ends there. -/
theorem fixed_text {name : List Byte} (room : name.length < MAX_FILENAME_LEN) :
    fixed name = name ++ 0 :: List.replicate (31 - name.length) 0 := by
  unfold MAX_FILENAME_LEN at room
  rw [fixed, List.take_of_length_le (by omega), ← List.replicate_succ,
    show 32 - name.length = 31 - name.length + 1 by omega]

/-- The net header the client packs, in the server's memory. -/
def requestHeader (name : List Byte) (numEquations : Nat) : NetHeader where
  headerSize := ntohl (BitVec.ofNat 32 netHeaderSize)
  fileNameLen := ntohl (BitVec.ofNat 32 name.length)
  fileSize := htobe64 (BitVec.ofNat 64 (name.length + equHeaderLen + equationLength * numEquations))
  filename := fixed name

/-- The client's request. -/
theorem totalMessage_eq {filename : String} {name buffer : List Byte} (text : ascii filename = some name)
    (length : name.length = filename.length) (short : name.length ≤ MAX_FILENAME_SIZE)
    (counted : getNumEquations buffer ≤ 2 ^ 31 - 1) :
    totalMessage filename buffer =
      some ((requestHeader name (getNumEquations buffer)).toBytes ++ buffer) := by
  unfold MAX_FILENAME_SIZE at short
  unfold totalMessage createHeader
  simp only [text, ← length, Option.bind_eq_bind, Option.bind_some]
  rw [pack_eq (by decide) (by omega) (by unfold equHeaderLen equationLength; omega)]
  rfl

/-- The client's reading of the net header it is answered with. -/
theorem unpack_reply {name : List Byte} (m n : Nat) (printable : ∀ b ∈ name, b ≠ 0)
    (short : name.length ≤ MAX_FILENAME_SIZE) (counted : n ≤ 2 ^ 31 - 1) :
    unpack (replyNetHeader (requestHeader name m) n).toBytes =
      some (48, name.length, 75 + 14 * n, name ++ zeroed (32 - name.length)) := by
  unfold MAX_FILENAME_SIZE at short
  have room : name.length < MAX_FILENAME_LEN := by
    unfold MAX_FILENAME_LEN
    omega
  rw [unpack_toBytes _ (strncpy_length _ _)]
  simp only [replyNetHeader, requestHeader, ntohl, htobe64]
  rw [byteSwap_byteSwap _ (by decide), byteSwap_byteSwap _ (by decide), byteSwap_byteSwap _ (by decide),
    byteSwap_byteSwap _ (by decide), fixed_text room, strncpy_text printable room, BitVec.toNat_ofNat,
    BitVec.toNat_ofNat, BitVec.toNat_ofInt]
  unfold NET_HEADER_SIZE HEADER_SIZE SOLUTION_SIZE MAX_FILENAME_LEN
  congr 3
  · omega
  · congr 1
    omega

/-- **The request is accepted** by `read_net_header`. -/
theorem requestHeader_accepted {e : Inputs} {name rest : List Byte} (n : Nat) (all : DeliversAll e)
    (printable : ∀ b ∈ name, b ≠ 0) (short : name.length ≤ MAX_FILENAME_SIZE) :
    readNetHeader e (zeroed NET_HEADER_SIZE ++ e.heap) ⟨(requestHeader name n).toBytes ++ rest, 0, 1⟩ =
      some (SUCCESS, (requestHeader name n).toBytes ++ e.heap, ⟨rest, 1, 1⟩) := by
  have fields : NetHeader.ofBytes (requestHeader name n).toBytes = requestHeader name n :=
    NetHeader.ofBytes_toBytes (fixed_length _)
  have width : (requestHeader name n).toBytes.length = NET_HEADER_SIZE := NetHeader.toBytes_length (fixed_length _)
  have text : (requestHeader name n).filename = name ++ 0 :: List.replicate (31 - name.length) 0 :=
    fixed_text (Nat.lt_of_le_of_lt short (by decide))
  have accepted : ¬(requestHeader name n).Refused := by
    rintro (size | length | long)
    · exact size (byteSwap_byteSwap _ (by decide))
    · simp only [requestHeader, ntohl] at length
      rw [byteSwap_byteSwap _ (by decide), BitVec.toNat_ofNat] at length
      exact absurd ((Nat.mod_le _ _).trans short) (Nat.not_le.mpr length)
    · rw [NetHeader.name, text, text_takeWhile printable] at long
      exact absurd short (Nat.not_le.mpr long)
  have ends : (0 : Byte) ∈ (NetHeader.ofBytes (requestHeader name n).toBytes).filename := by
    rw [fields, text]
    simp
  rw [readNetHeader_verdict e.heap width (all.arrives _ rest 0 1) ends, fields, if_neg accepted, ← width]
  dsimp only
  rw [List.drop_left]

/-- A connection whose net header is accepted is served by `parse_stream`. -/
theorem handleNewConnection_accepted {env : Env} {w : World} {mem : List Byte} {i : Input}
    (memory : Allocates env.toInputs)
    (accepted : readNetHeader env.toInputs (zeroed NET_HEADER_SIZE ++ env.heap)
      (calloc env.toInputs .netHeader w.input).2 = some (SUCCESS, mem, i)) :
    handleNewConnection env w = some (closeSocket (parseStream env ⟨i, w.output⟩
      (NetHeader.ofBytes (slice 0 NET_HEADER_SIZE mem))).2) := by
  have allocated : (calloc env.toInputs .netHeader w.input).1 = true := memory _ _
  unfold handleNewConnection
  dsimp only
  rw [allocated, if_neg (by simp), accepted]
  rfl

/-- The server's reply to the client's request. -/
theorem session_reply {env : Env} {name file stream : List Byte} {n : Nat} (memory : Allocates env.toInputs)
    (all : DeliversAll env.toInputs) (completes : ∀ k, env.writes k = .all) (printable : ∀ b ∈ name, b ≠ 0)
    (short : name.length ≤ MAX_FILENAME_SIZE) (width : file.length = HEADER_SIZE)
    (unsolved : (FileHeader.ofBytes file).isSolved = 0)
    (announced : (FileHeader.ofBytes file).numEquations.toInt = n) (some_equations : 1 ≤ n)
    (complete : stream.length = EQUATION_SIZE * n) :
    ∃ w', handleNewConnection env (World.start ((requestHeader name n).toBytes ++ (file ++ stream))) = some w' ∧
      sent w'.output.log = (replyNetHeader (requestHeader name n) n).toBytes ++
        (file.set 20 1 ++ (answered (answer env.target) EQUATION_SIZE n stream).flatten) := by
  have request : readNetHeader env.toInputs _ ⟨_ ++ (file ++ stream), 0, 1⟩ = _ :=
    requestHeader_accepted n all printable short
  have served := handleNewConnection_accepted (w := World.start ((requestHeader name n).toBytes ++
    (file ++ stream))) memory request
  rw [slice_here (NetHeader.toBytes_length (fixed_length _)),
    NetHeader.ofBytes_toBytes (fixed_length _)] at served
  obtain ⟨log, log_eq, arrived⟩ := parseStream_complete ⟨⟨file ++ stream, 1, 1⟩, ⟨0, []⟩⟩ (requestHeader name n)
    memory all (fun k => by rw [completes]; exact WriteAct.noConfusion) rfl width unsolved announced
    some_equations complete
  refine ⟨_, served, ?_⟩
  have solved : (replyFileHeader (FileHeader.ofBytes file)).toBytes = file.set 20 1 :=
    FileHeader.solved_toBytes width 1
  have closed : sent (log ++ [Event.closed]) = sent log := by
    rw [sent_append]
    exact List.append_nil _
  rw [List.append_assoc, solved] at arrived
  rw [← arrived, ← closed]
  exact congrArg (fun l => sent (l ++ [Event.closed])) log_eq

/-- **A session from end to end.** For every ASCII name of 1 to 24 characters
and every unsolved file of equations that can be solved, on a connection that
transfers all it is asked to: the server accepts the client's request, the
client reads the size and the name it expects, and it writes the file with
`is_solved` set and, in order, the answer to each equation. -/
theorem session_solves_file (env : Env) (filename : String) {file stream : List Byte} {n : Nat}
    (memory : Allocates env.toInputs) (all : DeliversAll env.toInputs) (completes : ∀ k, env.writes k = .all)
    (characters : ∀ c ∈ filename.toList, 0 < c.toNat ∧ c.toNat < 128)
    (some_name : 1 ≤ filename.length) (short_name : filename.length ≤ 24)
    (width : file.length = HEADER_SIZE) (unsolved : (FileHeader.ofBytes file).isSolved = 0)
    (announced : (FileHeader.ofBytes file).numEquations.toNat = n) (some_equations : 1 ≤ n)
    (counted : n ≤ 2 ^ 31 - 1) (complete : stream.length = EQUATION_SIZE * n)
    (solvable : ∀ i, i < n → Solvable env.target (block EQUATION_SIZE i stream)) :
    ∃ (message name mem : List Byte) (i : Input) (w' : World) (records : List (List Byte)),
      totalMessage filename (file ++ stream) = some message ∧ ascii filename = some name ∧
      readNetHeader env.toInputs (zeroed NET_HEADER_SIZE ++ env.heap) ⟨message, 0, 1⟩ = some (SUCCESS, mem, i) ∧
      (checkHeader env.toInputs i).err = SUCCESS ∧
      handleNewConnection env (World.start message) = some w' ∧
      unpack ((sent w'.output.log).take netHeaderSize) =
        some (48, filename.length, 75 + 14 * n, name ++ zeroed (32 - filename.length)) ∧
      records.length = n ∧
      (∀ i record, records[i]? = some record → Correct env.target (block EQUATION_SIZE i stream) record) ∧
      writeIntoDir (fun _ => .all) ⟨sent w'.output.log, 0⟩ (getNumEquations (file ++ stream)) =
        ⟨false, some (file.set 20 1 ++ records.flatten)⟩ := by
  obtain ⟨name, text, length, printable⟩ := ascii_text characters
  have short : name.length ≤ MAX_FILENAME_SIZE := by
    unfold MAX_FILENAME_SIZE
    omega
  have same_count : getNumEquations (file ++ stream) = n := by
    rw [getNumEquations_eq width, announced]
  have message := totalMessage_eq text length short (by omega : getNumEquations (file ++ stream) ≤ 2 ^ 31 - 1)
  rw [same_count] at message
  have signed : (FileHeader.ofBytes file).numEquations.toInt = n := by
    rw [BitVec.toInt_eq_toNat_of_lt (by omega), announced]
  have accepted : (checkHeader env.toInputs ⟨file ++ stream, 1, 1⟩).err = SUCCESS :=
    checkHeader_delivered all rfl width unsolved (by omega)
  obtain ⟨w', served, reply⟩ :=
    session_reply memory all completes printable short width unsolved signed some_equations complete
  have inOrder : AnswersInOrder env.target n stream (answered (answer env.target) EQUATION_SIZE n stream) :=
    .of_front List.prefix_rfl
  have full : (answered (answer env.target) EQUATION_SIZE n stream).length = n :=
    (answered_all_iff (by omega)).mpr fun i small => answer_isSome_iff.mpr (solvable i small)
  have net_length : (replyNetHeader (requestHeader name n) n).toBytes.length = netHeaderSize :=
    NetHeader.toBytes_length (strncpy_length _ _)
  have unpacked := unpack_reply n n printable short counted
  have received : (file.set 20 1 ++ (answered (answer env.target) EQUATION_SIZE n stream).flatten).length =
      fileHeaderSize + equationSize * n := by
    rw [List.length_append, List.length_set, width, inOrder.flatten_length, full]
    rfl
  refine ⟨_, name, _, _, w', _, message, text, requestHeader_accepted n all printable short, accepted, served,
    ?_, full, fun i record here => (inOrder.each i record here).1, ?_⟩
  · rw [reply, List.take_left' net_length, unpacked, length]
  · rw [reply, same_count]
    refine writeIntoDir_whole unpacked net_length ?_ received
    dsimp only
    omega

/-- A file of two sums. -/
theorem session_solves_file_two :
    ∃ (message : List Byte) (w' : World) (records : List (List Byte)),
      totalMessage "a.equ" (unsolvedHeader 2 ++ equationRecords [⟨7, 0, 10, 1, 20⟩, ⟨9, 0, 3, 1, 4⟩]) =
        some message ∧
      handleNewConnection Env.calm (World.start message) = some w' ∧ records.length = 2 ∧
      writeIntoDir (fun _ => .all) ⟨sent w'.output.log, 0⟩ (getNumEquations (unsolvedHeader 2 ++
        equationRecords [⟨7, 0, 10, 1, 20⟩, ⟨9, 0, 3, 1, 4⟩])) =
          ⟨false, some ((unsolvedHeader 2).set 20 1 ++ records.flatten)⟩ := by
  have first : Solvable Env.calm.target (block EQUATION_SIZE 0
      (equationRecords [⟨7, 0, 10, 1, 20⟩, ⟨9, 0, 3, 1, 4⟩])) :=
    ⟨.ADD64, by decide +kernel, by decide +kernel⟩
  have second : Solvable Env.calm.target (block EQUATION_SIZE 1
      (equationRecords [⟨7, 0, 10, 1, 20⟩, ⟨9, 0, 3, 1, 4⟩])) :=
    ⟨.ADD64, by decide +kernel, by decide +kernel⟩
  have characters : ("a.equ".toList.all fun c => 0 < c.toNat ∧ c.toNat < 128) = true := by decide +kernel
  have complete : (equationRecords [⟨7, 0, 10, 1, 20⟩, ⟨9, 0, 3, 1, 4⟩]).length = EQUATION_SIZE * 2 := by decide
  have announced : (FileHeader.ofBytes (unsolvedHeader 2)).numEquations.toNat = 2 := by decide +kernel
  obtain ⟨message, _, _, _, w', records, request, _, _, _, served, _, two, _, written⟩ :=
    session_solves_file Env.calm "a.equ" (fun _ _ => rfl) (fun _ => rfl) (fun _ => rfl)
      (fun c member => of_decide_eq_true (List.all_eq_true.mp characters c member)) (by decide +kernel)
      (by decide +kernel) (FileHeader.toBytes_length _) (by decide +kernel) announced (by decide) (by decide)
      complete fun i small => by
        rcases (by omega : i = 0 ∨ i = 1) with rfl | rfl
        · exact first
        · exact second
  exact ⟨message, w', records, request, served, two, written⟩

end NetCalc.Net
