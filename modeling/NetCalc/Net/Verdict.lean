import Mathlib.Data.List.TakeWhile
import NetCalc.Net.Answers

/-!
# What the two checks refuse

`read_net_header` and `check_header` decide about a request. Here their
verdicts are told by the bytes of the two headers alone: `Refused` for the
fields of a header, `Arrives` for a header that one `read` delivers whole.

The name of a net header is text up to its first NUL. A name without a NUL
fills its field of 32 bytes: it counts as too long, but `strlen` looks for its
end behind the header (`readNetHeader_whole`).
-/

namespace NetCalc.Net

set_option autoImplicit false
open NetCalc.Lib

/-- The characters before the first NUL. -/
def NetHeader.name (h : NetHeader) : List Byte := h.filename.takeWhile (· ≠ 0)

/-- What `read_net_header` refuses: another size, an announced length or a name
of more than 24. -/
def NetHeader.Refused (h : NetHeader) : Prop :=
  ntohl h.headerSize ≠ BitVec.ofNat 32 NET_HEADER_SIZE ∨ MAX_FILENAME_SIZE < (ntohl h.fileNameLen).toNat ∨
    MAX_FILENAME_SIZE < h.name.length

instance (h : NetHeader) : Decidable h.Refused :=
  inferInstanceAs (Decidable (_ ∨ _ ∨ _))

/-- What `check_header` refuses: a solved file, and one without equations. -/
def FileHeader.Refused (h : FileHeader) : Prop := h.isSolved ≠ 0 ∨ h.numEquations.toInt ≤ 0

instance (h : FileHeader) : Decidable h.Refused :=
  inferInstanceAs (Decidable (_ ∨ _))

/-- The next `read` or `recv` delivers all of `bs`, and no more was asked for. -/
def Arrives (e : Inputs) (i : Input) (bs : List Byte) : Prop := (sysRead e i bs.length).1 = .ok bs

/-! ## Names -/

section Names
variable {a : List Byte}

/-- A block that holds a NUL is a string. -/
theorem strlen_of_mem (rest : List Byte) (ends : (0 : Byte) ∈ a) :
    strlen (a ++ rest) = some (a.takeWhile (· ≠ 0)).length := by
  induction a with
  | nil => cases ends
  | cons b a ih =>
    rw [List.cons_append, strlen]
    by_cases zero : b = 0
    · simp [zero]
    · have later : (0 : Byte) ∈ a := by
        rcases List.mem_cons.mp ends with here | later
        · exact absurd here.symm zero
        · exact later
      rw [if_neg zero, ih later, List.takeWhile_cons_of_pos (by simpa using zero)]
      rfl

/-- One that does not goes on behind its end. -/
theorem strlen_of_not_mem (rest : List Byte) (endless : (0 : Byte) ∉ a) :
    strlen (a ++ rest) = (strlen rest).map (· + a.length) := by
  induction a with
  | nil => simp
  | cons b a ih =>
    obtain ⟨nonzero, later⟩ := not_or.mp (mt List.mem_cons.mpr endless)
    rw [List.cons_append, strlen, if_neg (Ne.symm nonzero), ih later, Option.map_map, List.length_cons]
    rfl

/-- A name without a NUL is its whole field. -/
theorem NetHeader.name_of_not_mem {h : NetHeader} (endless : (0 : Byte) ∉ h.filename) : h.name = h.filename := by
  apply List.takeWhile_eq_self_iff.mpr
  intro b member
  have nonzero : b ≠ 0 := fun zero => endless (zero ▸ member)
  simpa using nonzero

end Names

/-! ## The net header -/

section NetHeader
variable {e : Inputs} {i : Input} {bs : List Byte}

/-- A read that delivers leaves what follows. -/
theorem Arrives.read (arrives : Arrives e i bs) :
    sysRead e i bs.length = (.ok bs, { i with rx := i.rx.drop bs.length, nread := i.nread + 1 }) := by
  have found : sysRead e i bs.length = (.ok bs, (sysRead e i bs.length).2) := Prod.ext arrives rfl
  obtain ⟨_, after, _⟩ := sysRead_ok found
  exact found.trans (by rw [after])

/-- What arrives is the front of the stream. -/
theorem Arrives.front (arrives : Arrives e i bs) : i.rx = bs ++ i.rx.drop bs.length :=
  sysRead_stream arrives.read

/-- With reads that deliver, the front of a stream arrives. -/
theorem DeliversAll.arrives (all : DeliversAll e) (bs rest : List Byte) (nread nalloc : Nat) :
    Arrives e ⟨bs ++ rest, nread, nalloc⟩ bs := by
  unfold Arrives sysRead
  rw [all nread]
  exact congrArg Except.ok List.take_left

/-- A net header that arrives in one piece lies in its block. -/
theorem recvLoop_arrives (heap : List Byte) (width : bs.length = NET_HEADER_SIZE) (arrives : Arrives e i bs) :
    recvLoop e (zeroed NET_HEADER_SIZE ++ heap) 0 0 i =
      some (bs ++ heap, 0, { i with rx := i.rx.drop NET_HEADER_SIZE, nread := i.nread + 1 }) := by
  have delivered := arrives.read
  rw [width] at delivered
  have stored : store (zeroed NET_HEADER_SIZE ++ heap) 0 bs = some (bs ++ heap) := by
    rw [store, if_pos (by simp [width, zeroed])]
    simp [patch, width, zeroed]
  rw [recvLoop]
  split
  · rename_i same
    rw [Nat.sub_zero, delivered] at same
    cases same
  · rename_i same
    rw [Nat.sub_zero, delivered] at same
    cases same
    rw [stored]
    dsimp only
    rw [dif_pos (.inr (.inl width))]

/-- **The verdict on a net header that arrives in one piece.** Its sizes are
checked first; then the scan for the end of its name starts in the field and
goes on in the memory behind the header. -/
theorem readNetHeader_whole (heap : List Byte) (width : bs.length = NET_HEADER_SIZE) (arrives : Arrives e i bs) :
    readNetHeader e (zeroed NET_HEADER_SIZE ++ heap) i =
      if ntohl (NetHeader.ofBytes bs).headerSize ≠ BitVec.ofNat 32 NET_HEADER_SIZE ∨
          MAX_FILENAME_SIZE < (ntohl (NetHeader.ofBytes bs).fileNameLen).toNat then
        some (ERROR, bs ++ heap, { i with rx := i.rx.drop NET_HEADER_SIZE, nread := i.nread + 1 })
      else
        (strlen ((NetHeader.ofBytes bs).filename ++ heap)).map fun n =>
          (if MAX_FILENAME_SIZE < n then ERROR else SUCCESS, bs ++ heap,
            { i with rx := i.rx.drop NET_HEADER_SIZE, nread := i.nread + 1 }) := by
  have long : 48 = bs.length := width.symm
  have first : load32 (bs ++ heap) 0 = some (NetHeader.ofBytes bs).headerSize := by
    rw [load32, if_pos (by rw [List.length_append]; omega), slice_left (by omega)]
    rfl
  have second : load32 (bs ++ heap) (0 + 4) = some (NetHeader.ofBytes bs).fileNameLen := by
    rw [load32, if_pos (by rw [List.length_append]; omega), slice_left (by omega)]
    rfl
  have name_at : (bs ++ heap).drop (0 + 16) = (NetHeader.ofBytes bs).filename ++ heap := by
    have tail : slice 16 MAX_FILENAME_LEN bs = bs.drop 16 :=
      List.take_of_length_le (by rw [List.length_drop, ← long]; decide)
    rw [List.drop_append_of_le_length (by omega)]
    exact congrArg (· ++ heap) tail.symm
  unfold readNetHeader
  rw [recvLoop_arrives heap width arrives]
  simp only [Option.bind_eq_bind, Option.bind_some, first, second, name_at]
  by_cases size : ntohl (NetHeader.ofBytes bs).headerSize = BitVec.ofNat 32 NET_HEADER_SIZE
  · rw [if_neg (not_not.mpr size)]
    by_cases length : MAX_FILENAME_SIZE < (ntohl (NetHeader.ofBytes bs).fileNameLen).toNat
    · rw [if_pos length, if_pos (.inr length)]
      rfl
    · rw [if_neg length, if_neg (not_or.mpr ⟨not_not.mpr size, length⟩)]
      cases strlen ((NetHeader.ofBytes bs).filename ++ heap) with
      | none => rfl
      | some n =>
        by_cases large : MAX_FILENAME_SIZE < n
        · simp [large]
        · simp [large]
  · rw [if_pos size, if_pos (.inl size)]
    rfl

/-- **With a NUL in its name, a header decides alone.** -/
theorem readNetHeader_verdict (heap : List Byte) (width : bs.length = NET_HEADER_SIZE) (arrives : Arrives e i bs)
    (ends : (0 : Byte) ∈ (NetHeader.ofBytes bs).filename) :
    readNetHeader e (zeroed NET_HEADER_SIZE ++ heap) i =
      some (if (NetHeader.ofBytes bs).Refused then ERROR else SUCCESS, bs ++ heap,
        { i with rx := i.rx.drop NET_HEADER_SIZE, nread := i.nread + 1 }) := by
  rw [readNetHeader_whole heap width arrives, strlen_of_mem heap ends]
  have refused : (NetHeader.ofBytes bs).Refused ↔
      (ntohl (NetHeader.ofBytes bs).headerSize ≠ BitVec.ofNat 32 NET_HEADER_SIZE ∨
        MAX_FILENAME_SIZE < (ntohl (NetHeader.ofBytes bs).fileNameLen).toNat) ∨
      MAX_FILENAME_SIZE < (NetHeader.ofBytes bs).name.length := or_assoc.symm
  by_cases sizes : ntohl (NetHeader.ofBytes bs).headerSize ≠ BitVec.ofNat 32 NET_HEADER_SIZE ∨
      MAX_FILENAME_SIZE < (ntohl (NetHeader.ofBytes bs).fileNameLen).toNat
  · rw [if_pos sizes, if_pos (refused.mpr (.inl sizes))]
  · rw [if_neg sizes, Option.map_some]
    by_cases long : MAX_FILENAME_SIZE < (NetHeader.ofBytes bs).name.length
    · rw [if_pos (refused.mpr (.inr long))]
      exact congrArg (fun err => some (err, _, _)) (if_pos long)
    · rw [if_neg (mt refused.mp (not_or.mpr ⟨sizes, long⟩))]
      exact congrArg (fun err => some (err, _, _)) (if_neg long)

/-- A name without an end is too long. -/
theorem refused_of_endless (width : bs.length = NET_HEADER_SIZE)
    (endless : (0 : Byte) ∉ (NetHeader.ofBytes bs).filename) : (NetHeader.ofBytes bs).Refused := by
  have field : (NetHeader.ofBytes bs).filename.length = MAX_FILENAME_LEN := slice_length (by rw [width]; decide)
  right
  right
  rw [NetHeader.name_of_not_mem endless, field]
  decide

/-- **A verdict is about the header**, wherever the scan for the end of the name
went. -/
theorem readNetHeader_refuses_iff {heap : List Byte} (width : bs.length = NET_HEADER_SIZE)
    (arrives : Arrives e i bs)
    {err : Int} {mem : List Byte} {i' : Input}
    (found : readNetHeader e (zeroed NET_HEADER_SIZE ++ heap) i = some (err, mem, i')) :
    (err ≠ SUCCESS ↔ (NetHeader.ofBytes bs).Refused) ∧ mem = bs ++ heap ∧
      i' = { i with rx := i.rx.drop NET_HEADER_SIZE, nread := i.nread + 1 } := by
  by_cases ends : (0 : Byte) ∈ (NetHeader.ofBytes bs).filename
  · rw [readNetHeader_verdict heap width arrives ends] at found
    cases found
    refine ⟨?_, rfl, rfl⟩
    by_cases refused : (NetHeader.ofBytes bs).Refused
    · simp [refused, ERROR, SUCCESS]
    · simp [refused]
  · have field : (NetHeader.ofBytes bs).filename.length = MAX_FILENAME_LEN :=
      slice_length (by rw [width]; decide)
    have refused := refused_of_endless width ends
    rw [readNetHeader_whole heap width arrives, strlen_of_not_mem heap ends, field] at found
    split at found
    · cases found
      exact ⟨by simp [refused, ERROR, SUCCESS], rfl, rfl⟩
    · obtain ⟨n, there, same⟩ := Option.map_eq_some_iff.mp found
      obtain ⟨m, _, rfl⟩ := Option.map_eq_some_iff.mp there
      rw [if_pos (by unfold MAX_FILENAME_SIZE MAX_FILENAME_LEN; omega)] at same
      cases same
      exact ⟨by simp [refused, ERROR, SUCCESS], rfl, rfl⟩

end NetHeader

/-! ## The file header -/

section FileHeader
variable {e : Inputs} {i : Input}

/-- A file header that one `read` delivers and that its fields do not refuse. -/
theorem checkHeader_arrives {file : List Byte} (width : file.length = HEADER_SIZE) (arrives : Arrives e i file)
    (fields : ¬(FileHeader.ofBytes file).Refused) :
    checkHeader e i = ⟨0, (FileHeader.ofBytes file).numEquations.toInt, FileHeader.ofBytes file,
      { i with rx := i.rx.drop file.length, nread := i.nread + 1 }⟩ := by
  have whole : (safeRead e i (zeroed HEADER_SIZE) HEADER_SIZE).1 = HEADER_SIZE := by
    apply (safeRead_first (by decide) (by decide)).mpr
    exact ⟨file, by rw [← width]; exact arrives, width⟩
  obtain ⟨unsolved, some_equations⟩ := not_or.mp fields
  exact checkHeader_accepts whole arrives.front width (not_not.mp unsolved) (not_le.mp some_equations)

/-- **What `check_header` accepts**: a header that one `read` delivers and that
its fields do not refuse. -/
theorem checkHeader_accepts_iff : (checkHeader e i).err = SUCCESS ↔
    ∃ file, file.length = HEADER_SIZE ∧ Arrives e i file ∧ ¬(FileHeader.ofBytes file).Refused := by
  constructor
  · intro accepted
    have whole : (safeRead e i (zeroed HEADER_SIZE) HEADER_SIZE).1 = HEADER_SIZE := by
      unfold checkHeader at accepted
      dsimp only at accepted
      by_contra other
      rw [if_pos other] at accepted
      cases accepted
    obtain ⟨file, found, width⟩ := (safeRead_first (by decide) (by decide)).mp whole
    have arrives : Arrives e i file := by
      unfold Arrives
      rw [width]
      exact found
    obtain ⟨_, unsolved, some_equations⟩ := checkHeader_ok arrives.front width accepted
    refine ⟨file, width, arrives, ?_⟩
    rintro (solved | none_announced)
    · exact solved unsolved
    · omega
  · rintro ⟨file, width, arrives, fields⟩
    rw [checkHeader_arrives width arrives fields]
    rfl

/-- With reads that deliver, it accepts whenever there are bytes for a header. -/
theorem checkHeader_delivered_iff (all : DeliversAll e) (rest : List Byte) (nread nalloc : Nat) :
    (checkHeader e ⟨rest, nread, nalloc⟩).err = SUCCESS ↔
      HEADER_SIZE ≤ rest.length ∧ ¬(FileHeader.ofBytes (rest.take HEADER_SIZE)).Refused := by
  rw [checkHeader_accepts_iff]
  constructor
  · rintro ⟨file, width, arrives, fields⟩
    have front : rest = file ++ rest.drop file.length := arrives.front
    have same : rest.take HEADER_SIZE = file := by rw [front, ← width, List.take_left]
    rw [same]
    refine ⟨?_, fields⟩
    rw [front, List.length_append]
    omega
  · rintro ⟨enough, fields⟩
    refine ⟨rest.take HEADER_SIZE, by rw [List.length_take]; omega, ?_, fields⟩
    have arrives := all.arrives (rest.take HEADER_SIZE) (rest.drop HEADER_SIZE) nread nalloc
    rwa [List.take_append_drop] at arrives

end FileHeader

/-- A header of 48 bytes that is named `a`. -/
def namedHeader : List Byte := NetHeader.toBytes ⟨ntohl 48, ntohl 1, 0, strncpy [97] MAX_FILENAME_LEN⟩

end NetCalc.Net
