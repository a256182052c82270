import NetCalc.Net.Rejection

/-!
# One error, or none

An error header may come from `handle_new_connection` or from `parse_stream`,
and the client sees one stream of bytes. A request that is rejected gets the 48
bytes of one error header and nothing else; in the reply to any other request
these 48 bytes do not occur, not even across the borders of its messages
(`Unmistakable.no_error`). The descriptor is closed once, at the end.

An error header ends in 32 zeros. The reply to an accepted request has a one in
its file header, in every record, and a name that has no character behind its
first NUL, which leaves no place for it.
-/

namespace NetCalc.Net

set_option autoImplicit false
open NetCalc.Lib

/-- 48, 0 and 48 as the fields of a net header, most significant byte first,
and a name of zeros. -/
def errorBytes : List Byte := [0, 0, 0, 48] ++ [0, 0, 0, 0] ++ [0, 0, 0, 0, 0, 0, 0, 48] ++ zeroed 32

/-- The server has to reject a request: a field of its net header or of its
file header says so, or it ends before its file header does. -/
def BadRequest (net rest : List Byte) : Prop :=
  (NetHeader.ofBytes net).Refused ∨ rest.length < HEADER_SIZE ∨
    (FileHeader.ofBytes (rest.take HEADER_SIZE)).Refused

/-- What a reply has at the places where an error header would have to be
different. -/
structure Unmistakable (bs : List Byte) : Prop where
  size_low : bs[3]? = some 48
  length_low : ∃ b, bs[7]? = some b ∧ b.toNat ≤ MAX_FILENAME_SIZE
  total_odd : ∃ b, bs[15]? = some b ∧ b.toNat % 2 = 1
  name : ∀ j k, j < k → k < MAX_FILENAME_LEN → bs[16 + j]? = some 0 → bs[16 + k]? = some 0
  file_solved : bs[68]? = some 1
  record_solved : ∀ i, 79 + SOLUTION_SIZE * i < bs.length → bs[79 + SOLUTION_SIZE * i]? = some 1

/-! ## No error header in a reply -/

section Unmistakable
variable {bs : List Byte}

theorem errorHeader_bytes : errorHeader.written = errorBytes := by decide

/-- Where an infix is. -/
theorem infix_at {xs ys : List Byte} (occurs : xs <:+: ys) :
    ∃ o, o + xs.length ≤ ys.length ∧ ∀ j, j < xs.length → ys[o + j]? = xs[j]? := by
  obtain ⟨before, after, rfl⟩ := occurs
  refine ⟨before.length, by simp, ?_⟩
  intro j small
  rw [List.append_assoc, List.getElem?_append_right (by omega), Nat.add_sub_cancel_left,
    List.getElem?_append_left small]

/-- The zeros of an error header. -/
theorem errorBytes_zero {j : Nat} (small : j < 48) (low : j ≠ 3) (total : j ≠ 15) : errorBytes[j]? = some 0 := by
  have each : ((List.range 48).all fun j => j = 3 || j = 15 || errorBytes[j]? = some 0) = true := by decide
  have here := List.all_eq_true.mp each j (List.mem_range.mpr small)
  simpa [low, total] using here

/-- **No error header occurs in an unmistakable reply.** -/
theorem Unmistakable.no_error (shape : Unmistakable bs) : ¬ errorBytes <:+: bs := by
  intro occurs
  obtain ⟨o, inside, same⟩ := infix_at occurs
  have long : errorBytes.length = 48 := by decide
  rw [long] at inside same
  have zero : ∀ j, j < 48 → j ≠ 3 → j ≠ 15 → bs[o + j]? = some 0 := by
    intro j small low total
    rw [same j small, errorBytes_zero small low total]
  have low : bs[o + 3]? = some 48 := same 3 (by decide)
  have total : bs[o + 15]? = some 48 := same 15 (by decide)
  -- the zeros of its name hold no one
  have no_one : ∀ k, o + 16 ≤ k → k < o + 48 → bs[k]? ≠ some 1 := by
    intro k start stop one
    obtain ⟨j, rfl⟩ := Nat.exists_eq_add_of_le start
    have here := zero (16 + j) (by omega) (by omega) (by omega)
    rw [← Nat.add_assoc, one] at here
    cases here
  by_cases late : 53 ≤ o
  · have place : 79 + SOLUTION_SIZE * ((o - 49) / 14) < o + 48 ∧
        o + 16 ≤ 79 + SOLUTION_SIZE * ((o - 49) / 14) := by
      unfold SOLUTION_SIZE
      omega
    exact no_one _ place.2 place.1 (shape.record_solved _ (by omega))
  · have early : o ≤ 20 := by
      by_contra behind
      exact no_one 68 (by omega) (by omega) shape.file_solved
    by_cases front : o ≤ 4
    · rcases (by omega : o = 0 ∨ o = 1 ∨ o = 2 ∨ o = 3 ∨ o = 4) with rfl | rfl | rfl | rfl | rfl
      · obtain ⟨b, here, odd⟩ := shape.total_odd
        rw [Nat.zero_add, here] at total
        cases total
        cases odd
      · exact absurd ((shape.size_low).symm.trans (zero 2 (by decide) (by decide) (by decide))) (by decide)
      · exact absurd ((shape.size_low).symm.trans (zero 1 (by decide) (by decide) (by decide))) (by decide)
      · exact absurd ((shape.size_low).symm.trans (zero 0 (by decide) (by decide) (by decide))) (by decide)
      · obtain ⟨b, here, small⟩ := shape.length_low
        rw [here] at low
        cases low
        exact absurd small (by decide)
    · -- the second 48 would be a character of the name behind a NUL
      have nul : bs[16 + (o - 2)]? = some 0 := by
        have here := zero 14 (by decide) (by decide) (by decide)
        rwa [show o + 14 = 16 + (o - 2) by omega] at here
      have later := shape.name (o - 2) (o - 1) (by omega) (by unfold MAX_FILENAME_LEN; omega) nul
      rw [show 16 + (o - 1) = o + 15 by omega, total] at later
      cases later

end Unmistakable

/-! ## The reply to an accepted request -/

section Accepted
variable {h : NetHeader} {file : FileHeader} {records : List (List Byte)} {n : Int}

/-- The field behind what comes before it. -/
theorem getElem?_behind {a b : List Byte} {k j : Nat} (width : a.length = k) : (a ++ b)[k + j]? = b[j]? := by
  rw [List.getElem?_append_right (by omega), width, Nat.add_sub_cancel_left]

/-- The sizes of a net header that were swapped into their fields: the last
byte of each is its lowest. -/
theorem netHeader_low (rest : List Byte) (size length : BitVec 32) (total : BitVec 64) (name : List Byte) :
    ((NetHeader.toBytes ⟨ntohl size, ntohl length, htobe64 total, name⟩ ++ rest)[3]? =
        some (BitVec.ofNat 8 size.toNat)) ∧
      (NetHeader.toBytes ⟨ntohl size, ntohl length, htobe64 total, name⟩ ++ rest)[7]? =
        some (BitVec.ofNat 8 length.toNat) ∧
      (NetHeader.toBytes ⟨ntohl size, ntohl length, htobe64 total, name⟩ ++ rest)[15]? =
        some (BitVec.ofNat 8 total.toNat) ∧
      ∀ j, j < name.length →
        (NetHeader.toBytes ⟨ntohl size, ntohl length, htobe64 total, name⟩ ++ rest)[16 + j]? =
        name[j]? := by
  simp only [NetHeader.toBytes, List.append_assoc]
  have first : (encode 4 (ntohl size)).length = 4 := encode_length _
  have second : (encode 4 (ntohl length)).length = 4 := encode_length _
  have third : (encode 8 (htobe64 total)).length = 8 := encode_length _
  refine ⟨?_, ?_, ?_, ?_⟩
  · rw [List.getElem?_append_left (by omega)]
    exact encode_byteSwap_last size rfl
  · rw [show 7 = 4 + 3 by rfl, getElem?_behind first, List.getElem?_append_left (by omega)]
    exact encode_byteSwap_last length rfl
  · rw [show 15 = 4 + (4 + 7) by rfl, getElem?_behind first, getElem?_behind second,
      List.getElem?_append_left (by omega)]
    exact encode_byteSwap_last total rfl
  · intro j small
    rw [show 16 + j = 4 + (4 + (8 + j)) by omega, getElem?_behind first, getElem?_behind second,
      getElem?_behind third, List.getElem?_append_left small]

/-- A copied name has no character behind its first NUL. -/
theorem strncpy_zeros {src : List Byte} {len j k : Nat} (later : j < k) (inside : k < len)
    (nul : (strncpy src len)[j]? = some 0) : (strncpy src len)[k]? = some 0 := by
  unfold strncpy at nul ⊢
  dsimp only at nul ⊢
  have behind : ((src.take len).takeWhile (· ≠ 0)).length ≤ j := by
    by_contra before
    rw [List.getElem?_append_left (by omega)] at nul
    have member := List.mem_of_getElem? nul
    have nonzero := List.mem_takeWhile_imp member
    simp at nonzero
  rw [List.getElem?_append_right (by omega), zeroed, List.getElem?_replicate, if_pos]
  omega

/-- **The reply to an accepted request is unmistakable.** -/
theorem reply_unmistakable (length : (ntohl h.fileNameLen).toNat ≤ MAX_FILENAME_SIZE)
    (each : ∀ record ∈ records, record.length = SOLUTION_SIZE ∧ record[4]? = some 1) :
    Unmistakable ((replyNetHeader h n).toBytes ++ ((replyFileHeader file).toBytes ++ records.flatten)) := by
  obtain ⟨size_at, length_at, total_at, name_at⟩ := netHeader_low
    ((replyFileHeader file).toBytes ++ records.flatten) (BitVec.ofNat 32 NET_HEADER_SIZE)
    (ntohl h.fileNameLen) (BitVec.ofInt 64 (NET_HEADER_SIZE + HEADER_SIZE + SOLUTION_SIZE * n))
    (strncpy h.filename MAX_FILENAME_LEN)
  have net : (replyNetHeader h n).toBytes.length = 48 := NetHeader.toBytes_length (strncpy_length _ _)
  have header : (replyFileHeader file).toBytes.length = 27 := FileHeader.toBytes_length _
  constructor
  · exact size_at
  · refine ⟨_, length_at, ?_⟩
    rw [BitVec.toNat_ofNat]
    exact (Nat.mod_le _ _).trans length
  · refine ⟨_, total_at, ?_⟩
    rw [BitVec.toNat_ofNat, BitVec.toNat_ofInt]
    unfold NET_HEADER_SIZE HEADER_SIZE SOLUTION_SIZE
    omega
  · intro j k later inside nul
    have same : ∀ i, i < MAX_FILENAME_LEN → ((replyNetHeader h n).toBytes ++
        ((replyFileHeader file).toBytes ++ records.flatten))[16 + i]? =
          (strncpy h.filename MAX_FILENAME_LEN)[i]? :=
      fun i small => name_at i (by rw [strncpy_length]; exact small)
    rw [same j (by omega)] at nul
    rw [same k inside]
    exact strncpy_zeros later inside nul
  · rw [show 68 = 48 + 20 by rfl, getElem?_behind net, List.getElem?_append_left (by omega)]
    simp only [FileHeader.toBytes, List.append_assoc]
    rw [show 20 = 4 + (8 + (8 + 0)) by rfl, getElem?_behind (encode_length _), getElem?_behind (encode_length _),
      getElem?_behind (encode_length _), encode_byte]
    rfl
  · intro i inside
    have widths : records.flatten.length = SOLUTION_SIZE * records.length := by
      rw [List.length_flatten, List.map_congr_left fun record member => (each record member).1, List.map_const',
        List.sum_replicate_nat, Nat.mul_comm]
    rw [List.length_append, List.length_append, net, header, widths] at inside
    have there : i < records.length := by
      unfold SOLUTION_SIZE at inside
      omega
    rw [show 79 + SOLUTION_SIZE * i = 48 + (27 + (SOLUTION_SIZE * i + 4)) by omega, getElem?_behind net,
      getElem?_behind header, flatten_getElem? (fun record member => (each record member).1) (by decide),
      List.getElem?_eq_getElem there]
    exact (each _ (List.getElem_mem there)).2

end Accepted

/-- Every record of a reply is marked as solved. -/
theorem records_each {e : Inputs} {i : Input} {buf : List Byte} {equationsRead numEquations : Int}
    (memory : HasBuffers e) (room : buf.length = EQUATION_SIZE) :
    ∀ record ∈ records e i buf equationsRead numEquations,
      record.length = SOLUTION_SIZE ∧ record[4]? = some 1 := by
  fun_induction records e i buf equationsRead numEquations with
  | case1 => exact List.forall_mem_nil _
  | case2 i buf equationsRead more items buf' i' something ih =>
    obtain ⟨room', record, rfl, found⟩ := passReply_some memory room something
    obtain ⟨op, solution, _, _, rfl⟩ := answer_correct found
    intro record member
    rcases List.mem_append.mp member with here | later
    · obtain rfl := List.mem_singleton.mp here
      simp [SOLUTION_SIZE]
    · exact ih room' record later
  | case3 => exact List.forall_mem_nil _

/-! ## Every request -/

section Delivered
variable {e : Inputs}

/-- With reads that deliver, a file header comes whenever there are bytes for it. -/
theorem hasFile_delivered (all : DeliversAll e) (rest : List Byte) (nread nalloc : Nat) :
    HasFile e ⟨rest, nread, nalloc⟩ ↔
      HEADER_SIZE ≤ rest.length ∧ ¬(FileHeader.ofBytes (rest.take HEADER_SIZE)).Refused :=
  hasFile_iff.trans (checkHeader_delivered_iff all rest nread nalloc)

theorem badRequest_iff (all : DeliversAll e) {net rest : List Byte} (nread nalloc : Nat) :
    BadRequest net rest ↔ (NetHeader.ofBytes net).Refused ∨ ¬HasFile e ⟨rest, nread, nalloc⟩ := by
  rw [hasFile_delivered all, not_and_or, not_le, not_not]
  rfl

/-- With memory for it an error header is sent. -/
theorem errorReply_allocated (memory : Allocates e) (i : Input) : errorReply e i = [errorHeader.written] :=
  if_pos (memory _ _)

theorem streamReply_error (memory : Allocates e) {i : Input} (refused : ¬HasFile e i) (header : NetHeader) :
    streamReply e i header = [errorHeader.written] := by
  have rejected : ¬(checkHeader e (calloc e .fileHeader (calloc e .equation i).2).2).err = SUCCESS := by
    intro accepted
    exact refused ((hasFile_nalloc _).mp (hasFile_iff.mpr accepted))
  have blocks : ¬((calloc e .equation i).1 = false ∨
      (calloc e .fileHeader (calloc e .equation i).2).1 = false) := by
    have allocated : ∀ b k, e.calloc b k = true := memory
    simp [calloc, allocated]
  unfold streamReply
  dsimp only
  rw [if_neg blocks, if_pos rejected]
  exact errorReply_allocated memory _

end Delivered

/-- **A request that is rejected gets one error header, and no other request
gets any.** For every net header with a NUL in its name and every stream behind
it, on a connection that delivers all it is asked for: the server answers and
closes the descriptor once, after the last byte. A request that has to be
rejected is answered with the 48 bytes of an error header. Any other is answered
with the two headers of success and what follows them, and an error header
occurs nowhere in that. -/
theorem one_error_or_none (env : Env) (net rest : List Byte) (width : net.length = NET_HEADER_SIZE)
    (ends : (0 : Byte) ∈ (NetHeader.ofBytes net).filename) (memory : Allocates env.toInputs)
    (all : DeliversAll env.toInputs) (completes : ∀ k, env.writes k ≠ .fail) :
    ∃ w' log, handleNewConnection env (World.start (net ++ rest)) = some w' ∧
      w'.output.log = log ++ [.closed] ∧ (∀ e ∈ log, ∃ xs, e = .wrote xs ∧ xs ≠ []) ∧
      (BadRequest net rest → sent log = errorBytes) ∧
      (¬BadRequest net rest →
        (∃ records, sent log = (replyNetHeader (NetHeader.ofBytes net)
            (FileHeader.ofBytes (rest.take HEADER_SIZE)).numEquations.toInt).toBytes ++
          (replyFileHeader (FileHeader.ofBytes (rest.take HEADER_SIZE))).toBytes ++ records) ∧
        ¬ errorBytes <:+: sent log) := by
  have arrives : Arrives env.toInputs ⟨net ++ rest, 0, 1⟩ net := all.arrives ..
  have verdict := readNetHeader_verdict env.heap width arrives ends
  have replied := reply_allocated (net ++ rest) (memory .netHeader 0)
  rw [verdict, Option.map_some, slice_left (by omega), slice_all width] at replied
  obtain ⟨w', _, served, _⟩ := handleNewConnection_replied (w := World.start (net ++ rest)) replied
  obtain ⟨items, closes, log, replied', log_eq, arrived, written⟩ := handleNewConnection_arrives completes served
  cases replied.symm.trans replied'
  have rest_next : (net ++ rest).drop NET_HEADER_SIZE = rest := by rw [← width, List.drop_left]
  rw [rest_next] at arrived
  refine ⟨w', log, served, by rw [log_eq]; rfl, written, ?_, ?_⟩
  · rw [badRequest_iff all 1 1]
    intro bad
    rw [arrived]
    by_cases refused : (NetHeader.ofBytes net).Refused
    · rw [if_pos refused, if_pos (by simp [ERROR, SUCCESS]), errorReply_allocated memory]
      exact (List.append_nil _).trans errorHeader_bytes
    · rw [if_neg refused, if_neg (by simp), streamReply_error memory (bad.resolve_left refused)]
      exact (List.append_nil _).trans errorHeader_bytes
  · rw [badRequest_iff all 1 1]
    intro good
    obtain ⟨valid, file⟩ := not_or.mp good
    obtain ⟨enough, _⟩ := (hasFile_delivered all rest 1 1).mp (not_not.mp file)
    have size : (rest.take HEADER_SIZE).length = HEADER_SIZE := by
      rw [List.length_take]
      omega
    obtain ⟨_, i', _, starts⟩ := streamReply_accepted (i := ⟨rest, 1, 1⟩) memory.buffers
      (List.take_append_drop ..).symm size (hasFile_iff.mp (not_not.mp file)) (NetHeader.ofBytes net)
    have each : ∀ record ∈ records env.toInputs i' (zeroed EQUATION_SIZE) 0
        (FileHeader.ofBytes (rest.take HEADER_SIZE)).numEquations.toInt, _ :=
      records_each memory.buffers (by simp [zeroed])
    rw [if_neg valid, if_neg (by simp), show streamReply env.toInputs _ _ = _ from starts,
      List.flatten_cons, List.flatten_cons, replyNetHeader_written] at arrived
    rw [arrived]
    constructor
    · exact ⟨_, (List.append_assoc ..).symm⟩
    · apply Unmistakable.no_error
      apply reply_unmistakable _ each
      exact not_lt.mp (not_or.mp (not_or.mp valid).2).1

/-- A request for two sums, and one whose file header announces none. -/
theorem one_error_or_none_named :
    (∃ w' log, handleNewConnection Env.calm (World.start (namedHeader ++ twoSumsFile)) = some w' ∧
        w'.output.log = log ++ [.closed] ∧ ¬ errorBytes <:+: sent log) ∧
      ∃ w' log, handleNewConnection Env.calm (World.start (namedHeader ++ unsolvedHeader 0)) = some w' ∧
        w'.output.log = log ++ [.closed] ∧ sent log = errorBytes := by
  constructor
  · obtain ⟨w', log, served, closed, _, _, good⟩ := one_error_or_none Env.calm namedHeader
      twoSumsFile (by decide) (by decide) (fun _ _ => rfl) (fun _ => rfl) fun _ => WriteAct.noConfusion
    have valid : ¬BadRequest namedHeader twoSumsFile := by
      rintro (refused | short | refused)
      · exact absurd refused (by decide)
      · exact absurd short (by decide)
      · exact absurd refused (by decide)
    exact ⟨w', log, served, closed, (good valid).2⟩
  · obtain ⟨w', log, served, closed, _, bad, _⟩ := one_error_or_none Env.calm namedHeader
      (unsolvedHeader 0) (by decide) (by decide) (fun _ _ => rfl) (fun _ => rfl) fun _ => WriteAct.noConfusion
    exact ⟨w', log, served, closed, bad (.inr (.inr (by decide)))⟩

end NetCalc.Net
