import NetCalc.Common.FileIo

/-!
# A stream in chunks (`safe_read`)

A pipe or a socket may deliver what is asked for in several chunks. The loop of
`safe_read` goes on while its latest chunk is shorter than `len`, so a chunk
that completes a total of `len` bytes does not end it: the next `read` is asked
for nothing, delivers nothing, and counts as end of file. A split stream is
thus read as an empty one (`safeRead_split`), and chunks make no difference
only where there is a single one (`safeRead_whole_iff`).
-/

namespace NetCalc

set_option autoImplicit false
open NetCalc.Lib

/-- How many of `len` bytes one `read` delivers from a stream that has so many. -/
def ReadAct.upTo (len : Nat) : ReadAct → Nat
  | .all => len
  | .chunk k => min len (max k 1)
  | .eof => 0
  | .fail _ => 0

/-- The stream comes in positive chunks, and nothing else happens to it. -/
def InChunks (e : Inputs) : Prop := ∀ k, e.reads k = .all ∨ ∃ n, e.reads k = .chunk n

/-- Chunks make no difference: a stream that holds `len` bytes is read as far
as these, and a shorter one is not taken for one of `len` bytes. -/
structure ReadsWhole (e : Inputs) (i : Input) (buf : List Byte) (len : Nat) : Prop where
  whole : len ≤ i.rx.length → (safeRead e i buf len).1 = len ∧
    (safeRead e i buf len).2.1 = i.rx.take len ∧ (safeRead e i buf len).2.2.rx = i.rx.drop len
  short : i.rx.length < len → (safeRead e i buf len).1 ≠ len

section Chunks
variable {e : Inputs} {i : Input} {buf : List Byte} {len total : Nat} {last : Int}

theorem ReadAct.upTo_le (act : ReadAct) (len : Nat) : act.upTo len ≤ len := by
  cases act with
  | all => exact Nat.le_refl len
  | chunk k => exact Nat.min_le_left _ _
  | eof => exact Nat.zero_le len
  | fail errno => exact Nat.zero_le len

/-- One `read` of a stream in chunks. -/
theorem InChunks.read (chunks : InChunks e) (i : Input) (len : Nat) :
    sysRead e i len = (.ok (i.rx.take ((e.reads i.nread).upTo len)),
      { i with rx := i.rx.drop ((e.reads i.nread).upTo len), nread := i.nread + 1 }) := by
  unfold sysRead
  rcases chunks i.nread with act | ⟨k, act⟩
  · rw [act]
    rfl
  · rw [act]
    rfl

/-- After a short chunk the loop ends with an empty one, and returns `0`. -/
theorem InChunks.loop_zero (chunks : InChunks e) (pos : 0 < len) (small : len < 2 ^ 31)
    (some_read : 0 < total) (short : last < len) : (safeReadLoop e len i buf total last).1 = 0 := by
  fun_induction safeReadLoop e len i buf total last with
  | case1 i buf total last more i' found => rfl
  | case2 i buf total last more bs i' found none_came ih =>
    have bound := (sysRead_ok found).1
    apply ih
    · omega
    · omega
  | case3 i buf total last more errno i' found =>
    rw [chunks.read] at found
    cases found
  | case4 i buf total last stop => exact absurd ((readMore_iff small).mpr short) stop

/-- **A split stream reads as an empty one.** -/
theorem safeRead_split (chunks : InChunks e) (pos : 0 < len) (small : len < 2 ^ 31)
    (split_there : (e.reads i.nread).upTo len < len) : (safeRead e i buf len).1 = 0 := by
  have more : readMore 0 len = true := (readMore_iff small).mpr (by omega)
  unfold safeRead
  rw [safeReadLoop_ok more (chunks.read i _)]
  split
  · rfl
  · rename_i some_came
    have some_bytes := List.length_pos_iff.mpr some_came
    have bound := List.length_take_le ((e.reads i.nread).upTo (len - 0)) i.rx
    rw [Nat.sub_zero] at bound some_bytes ⊢
    apply chunks.loop_zero pos small
    · omega
    · omega

/-- **Chunks make no difference exactly when there is only one.** For a buffer
of `len` bytes and a stream in chunks: it is read as if it came in one piece if
and only if it ends before `len` bytes, or the first `read` delivers them all. -/
theorem safeRead_whole_iff (chunks : InChunks e) (pos : 1 ≤ len) (small : len ≤ 2 ^ 31 - 1)
    (room : buf.length = len) :
    ReadsWhole e i buf len ↔ i.rx.length < len ∨ (e.reads i.nread).upTo len = len := by
  have fits : len < 2 ^ 31 := by omega
  constructor
  · intro whole
    by_contra neither
    obtain ⟨long, split_there⟩ := not_or.mp neither
    have limit := (e.reads i.nread).upTo_le len
    have full := (whole.whole (by omega)).1
    rw [safeRead_split chunks pos fits (by omega)] at full
    omega
  · intro either
    constructor
    · intro enough
      rcases either with ends | first
      · omega
      · have found := chunks.read i len
        rw [first] at found
        have width : (i.rx.take len).length = len := by
          rw [List.length_take]
          omega
        rw [safeRead_of_chunk pos fits found width, patch_all (room.trans width.symm)]
        exact ⟨rfl, rfl, rfl⟩
    · intro ends
      exact safeRead_short pos fits ends

end Chunks

/-- Chunks of one byte each. -/
def Env.byteByByte : Env := { Env.calm with reads := fun _ => .chunk 1 }

theorem byteByByte_inChunks : InChunks Env.byteByByte.toInputs := fun _ => .inr ⟨1, rfl⟩

/-- Two bytes in one chunk of two, of a stream of three; and a stream of two,
byte by byte, that ends before three. -/
theorem safeRead_whole_two :
    ReadsWhole { Env.calm.toInputs with reads := fun _ => .chunk 2 } ⟨[7, 8, 9], 0, 0⟩ [0, 0] 2 ∧
      ReadsWhole Env.byteByByte.toInputs ⟨[7, 8], 0, 0⟩ [0, 0, 0] 3 := by
  have twos : InChunks { Env.calm.toInputs with reads := fun _ => .chunk 2 } := fun _ => .inr ⟨2, rfl⟩
  exact ⟨(safeRead_whole_iff twos (by decide) (by decide) rfl).mpr (.inr rfl),
    (safeRead_whole_iff byteByByte_inChunks (by decide) (by decide) rfl).mpr (.inl (by decide))⟩

/-- Two bytes in chunks of one byte: `safe_read` returns `0`. -/
theorem two_bytes_in_two_chunks :
    InChunks Env.byteByByte.toInputs ∧ (safeRead Env.byteByByte.toInputs ⟨[7, 8], 0, 0⟩ [0, 0] 2).1 = 0 ∧
      ¬ ReadsWhole Env.byteByByte.toInputs ⟨[7, 8], 0, 0⟩ [0, 0] 2 := by
  have nothing : (safeRead Env.byteByByte.toInputs ⟨[7, 8], 0, 0⟩ [0, 0] 2).1 = 0 :=
    safeRead_split byteByByte_inChunks (by decide) (by decide) (by decide)
  refine ⟨byteByByte_inChunks, nothing, ?_⟩
  intro whole
  have two := (whole.whole (by decide)).1
  rw [nothing] at two
  cases two

end NetCalc
