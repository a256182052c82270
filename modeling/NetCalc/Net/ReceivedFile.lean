import NetCalc.Common.ReadChunks
import NetCalc.Net.Client

/-!
# Does the client's file depend on how the reply is split?

`write_into_dir` takes the net header from one `recv` and the file from a loop
of them. The loop receives the file however it is split (`receiveLoop_chunks`);
the header is unpacked from what its one `recv` delivered, and `struct.unpack`
raises unless that is all of it (`received_iff`).
-/

namespace NetCalc.Client

set_option autoImplicit false
open NetCalc.Lib

/-- `recv` delivers a positive number of bytes at each call, and nothing else happens to it. -/
def Chunked (reads : Nat → ReadAct) : Prop := ∀ k, reads k = .all ∨ ∃ n, reads k = .chunk n

/-- A complete reply to a request of `numEquations`: a net header that names a
file, and the file. -/
structure CompleteReply (net file : List Byte) (numEquations : Nat) : Prop where
  header : ∃ res, unpack net = some res ∧ res.2.1 ≠ 0
  complete : file.length = fileHeaderSize + equationSize * numEquations

variable {reads : Nat → ReadAct} {s : Sock} {len : Nat} {net file : List Byte} {numEquations : Nat}

/-- One call delivers what its chunk holds. -/
theorem Chunked.recv (chunks : Chunked reads) (s : Sock) (len : Nat) :
    recv reads s len = (some (s.rx.take ((reads s.nrecv).upTo len)),
      ⟨s.rx.drop ((reads s.nrecv).upTo len), s.nrecv + 1⟩) := by
  unfold Client.recv
  rcases chunks s.nrecv with act | ⟨k, act⟩
  · rw [act]
    rfl
  · rw [act]
    rfl

/-- A chunk of what is asked for is not empty. -/
theorem Chunked.upTo_pos (chunks : Chunked reads) (k : Nat) (pos : 0 < len) : 0 < (reads k).upTo len := by
  rcases chunks k with act | ⟨n, act⟩
  · rw [act]
    exact pos
  · rw [act]
    exact Nat.lt_min.mpr ⟨pos, Nat.le_max_right _ _⟩

/-- **The loop receives the rest of the stream**, in whatever chunks it comes. -/
theorem receiveLoop_chunks (chunks : Chunked reads) {expected received : Nat} {out : List Byte}
    (rest : received + s.rx.length = expected) :
    receiveLoop reads expected received s out = ⟨false, some (out ++ s.rx)⟩ := by
  fun_induction receiveLoop reads expected received s out with
  | case1 received s out more s' failed =>
    rw [chunks.recv] at failed
    cases failed
  | case2 received s out more s' delivered =>
    have some_left : s.rx ≠ [] := List.length_pos_iff.mp (by omega)
    have some_came := chunks.upTo_pos s.nrecv (Nat.zero_lt_of_lt more)
    have none_came : s.rx.take ((reads s.nrecv).upTo expected) = [] := by
      rw [chunks.recv] at delivered
      exact (Option.some.inj (congrArg Prod.fst delivered))
    rcases List.take_eq_nil_iff.mp none_came with zero | empty
    · omega
    · exact absurd empty some_left
  | case3 received s out more data s' delivered some_bytes ih =>
    rw [chunks.recv] at delivered
    cases delivered
    have left : received + (s.rx.take ((reads s.nrecv).upTo expected)).length +
        (s.rx.drop ((reads s.nrecv).upTo expected)).length = expected := by
      rw [Nat.add_assoc, ← List.length_append, List.take_append_drop]
      exact rest
    rw [ih left, List.append_assoc, List.take_append_drop]
  | case4 received s out stop =>
    have none_left : s.rx = [] := List.length_eq_zero_iff.mp (by omega)
    rw [none_left, List.append_nil]

/-- `struct.unpack` takes 48 bytes. -/
theorem unpack_length {res : Nat × Nat × Nat × List Byte} (unpacked : unpack net = some res) :
    net.length = netHeaderSize := by
  unfold unpack at unpacked
  split at unpacked
  · assumption
  · cases unpacked

/-- A first chunk that is shorter than the header makes the client raise. -/
theorem writeIntoDir_short (chunks : Chunked reads) (short : (reads s.nrecv).upTo netHeaderSize < netHeaderSize) :
    writeIntoDir reads s numEquations = ⟨true, none⟩ := by
  have refused : unpack (s.rx.take ((reads s.nrecv).upTo netHeaderSize)) = none := by
    refine if_neg fun full => ?_
    have bound := List.length_take_le ((reads s.nrecv).upTo netHeaderSize) s.rx
    unfold netHeaderSize at short full bound
    omega
  rw [writeIntoDir, chunks.recv]
  dsimp only
  rw [refused]

/-- One that is not lets it receive the file. -/
theorem writeIntoDir_full (chunks : Chunked reads) (reply : CompleteReply net file numEquations)
    (full : (reads 0).upTo netHeaderSize = netHeaderSize) :
    writeIntoDir reads ⟨net ++ file, 0⟩ numEquations = ⟨false, some file⟩ := by
  obtain ⟨res, unpacked, named⟩ := reply.header
  have size := unpack_length unpacked
  have delivered : recv reads ⟨net ++ file, 0⟩ netHeaderSize = (some net, ⟨file, 1⟩) := by
    rw [chunks.recv, full, ← size]
    simp
  rw [writeIntoDir, delivered]
  dsimp only
  rw [unpacked]
  dsimp only
  rw [if_neg named, receiveLoop_chunks chunks (by rw [Nat.zero_add]; exact reply.complete)]
  rfl

/-- **The received file does not depend on the chunks exactly when the header
comes in one.** For every complete reply, of however many equations, and every
way to deliver it in chunks: the client writes the bytes behind the net header,
all of them and nothing else, and returns without an exception, if and only if
its first `recv` delivers the 48 bytes of the header. -/
theorem received_iff (reads : Nat → ReadAct) (net file : List Byte) (numEquations : Nat)
    (chunks : Chunked reads) (reply : CompleteReply net file numEquations) :
    writeIntoDir reads ⟨net ++ file, 0⟩ numEquations = ⟨false, some file⟩ ↔
      (reads 0).upTo netHeaderSize = netHeaderSize := by
  constructor
  · intro received
    by_contra other
    have short := Nat.lt_of_le_of_ne ((reads 0).upTo_le netHeaderSize) other
    rw [writeIntoDir_short chunks short] at received
    cases received
  · exact writeIntoDir_full chunks reply

/-- So many bytes of `0`. -/
def zeros (n : Nat) : List Byte := List.replicate n 0

/-- A net header with a file name of one character. -/
def oneCharHeader : List Byte := zeros 7 ++ (1 : Byte) :: zeros 40

/-- A file of two records behind it is a complete reply. -/
theorem oneChar_complete : CompleteReply oneCharHeader (zeros 55) 2 where
  header := ⟨(0, 1, 0, zeros 32), by decide, by decide⟩
  complete := rfl

/-- The header in one chunk, the file in chunks of one byte: it is received. -/
theorem received_byte_by_byte :
    Chunked (fun k => if k = 0 then .all else .chunk 1) ∧ CompleteReply oneCharHeader (zeros 55) 2 ∧
      writeIntoDir (fun k => if k = 0 then .all else .chunk 1) ⟨oneCharHeader ++ zeros 55, 0⟩ 2 =
        ⟨false, some (zeros 55)⟩ := by
  have chunks : Chunked (fun k => if k = 0 then .all else .chunk 1) := by
    intro k
    by_cases first : k = 0
    · exact .inl (if_pos first)
    · exact .inr ⟨1, if_neg first⟩
  exact ⟨chunks, oneChar_complete,
    (received_iff _ oneCharHeader (zeros 55) 2 chunks oneChar_complete).mpr rfl⟩

/-- The header in two chunks of 24 bytes: `struct.unpack` raises and no file is opened. -/
theorem header_split :
    Chunked (fun _ => .chunk 24) ∧ CompleteReply oneCharHeader (zeros 55) 2 ∧
      writeIntoDir (fun _ => .chunk 24) ⟨oneCharHeader ++ zeros 55, 0⟩ 2 = ⟨true, none⟩ := by
  have chunks : Chunked (fun _ => .chunk 24) := fun _ => .inr ⟨24, rfl⟩
  exact ⟨chunks, oneChar_complete, writeIntoDir_short chunks (by decide)⟩

end NetCalc.Client
