import NetCalc.Lib.Words

/-!
# The four records (`net_handler.h`, `net_handler.c`)

Each `struct` is its fields in the order of their declaration. The three
packed ones have no holes, and `net_header_t` needs none. A field holds the
word as it lies in memory on a machine that stores the least significant byte
first: the fields of a net header are therefore swapped where they are used
(`ntohl`, `htonl`, `htobe32`, `htobe64`).
-/

namespace NetCalc.Net

set_option autoImplicit false
open NetCalc.Lib

/-- `MAX_FILENAME_LEN`. -/
def MAX_FILENAME_LEN : Nat := 32

/-- `NET_HEADER_SIZE`. -/
def NET_HEADER_SIZE : Nat := 48

/-- `MAX_FILENAME_SIZE`. -/
def MAX_FILENAME_SIZE : Nat := 24

/-- `EQUATION_SIZE`. -/
def EQUATION_SIZE : Nat := 32

/-- `SOLUTION_SIZE`. -/
def SOLUTION_SIZE : Nat := 14

/-- `HEADER_SIZE`. -/
def HEADER_SIZE : Nat := 27

/-- `ntohl`, `htonl` and `htobe32` of a little-endian machine. -/
def ntohl (x : BitVec 32) : BitVec 32 := byteSwap 4 x

/-- `htobe64` of a little-endian machine. -/
def htobe64 (x : BitVec 64) : BitVec 64 := byteSwap 8 x

/-- `net_header_t`. -/
structure NetHeader where
  headerSize : BitVec 32
  fileNameLen : BitVec 32
  fileSize : BitVec 64
  filename : List Byte
  deriving DecidableEq, Repr

/-- `file_header_t`. -/
structure FileHeader where
  magic : BitVec 32
  fileId : BitVec 64
  numEquations : BitVec 64
  isSolved : BitVec 8
  offset : BitVec 32
  reserved : BitVec 16
  deriving DecidableEq, Repr

/-- `equation_t`, without the padding nobody reads. -/
structure Equation where
  equationId : BitVec 32
  reserved : BitVec 8
  num1 : BitVec 64
  operator : BitVec 8
  num2 : BitVec 64
  deriving DecidableEq, Repr

/-- `solve_equation_t`. -/
structure SolvedEquation where
  equationId : BitVec 32
  isSolved : BitVec 8
  solutionType : BitVec 8
  solution : BitVec 64
  deriving DecidableEq, Repr

/-- A net header in memory. -/
def NetHeader.ofBytes (b : List Byte) : NetHeader where
  headerSize := decode 32 (slice 0 4 b)
  fileNameLen := decode 32 (slice 4 4 b)
  fileSize := decode 64 (slice 8 8 b)
  filename := slice 16 MAX_FILENAME_LEN b

/-- The bytes of a net header. -/
def NetHeader.toBytes (h : NetHeader) : List Byte :=
  encode 4 h.headerSize ++ encode 4 h.fileNameLen ++ encode 8 h.fileSize ++ h.filename

/-- A file header in memory. -/
def FileHeader.ofBytes (b : List Byte) : FileHeader where
  magic := decode 32 (slice 0 4 b)
  fileId := decode 64 (slice 4 8 b)
  numEquations := decode 64 (slice 12 8 b)
  isSolved := decode 8 (slice 20 1 b)
  offset := decode 32 (slice 21 4 b)
  reserved := decode 16 (slice 25 2 b)

/-- The bytes of a file header. -/
def FileHeader.toBytes (h : FileHeader) : List Byte :=
  encode 4 h.magic ++ encode 8 h.fileId ++ encode 8 h.numEquations ++ encode 1 h.isSolved ++
    encode 4 h.offset ++ encode 2 h.reserved

/-- An equation in memory. -/
def Equation.ofBytes (b : List Byte) : Equation where
  equationId := decode 32 (slice 0 4 b)
  reserved := decode 8 (slice 4 1 b)
  num1 := decode 64 (slice 5 8 b)
  operator := decode 8 (slice 13 1 b)
  num2 := decode 64 (slice 14 8 b)

/-- The bytes of an equation, its padding filled with zeros. -/
def Equation.toBytes (e : Equation) : List Byte :=
  encode 4 e.equationId ++ encode 1 e.reserved ++ encode 8 e.num1 ++ encode 1 e.operator ++ encode 8 e.num2 ++
    List.replicate 10 0

/-- The bytes of a solved equation. -/
def SolvedEquation.toBytes (s : SolvedEquation) : List Byte :=
  encode 4 s.equationId ++ encode 1 s.isSolved ++ encode 1 s.solutionType ++ encode 8 s.solution

@[simp] theorem NetHeader.toBytes_length {h : NetHeader} (name : h.filename.length = MAX_FILENAME_LEN) :
    h.toBytes.length = NET_HEADER_SIZE := by
  simp [NetHeader.toBytes, name, MAX_FILENAME_LEN, NET_HEADER_SIZE]

@[simp] theorem FileHeader.toBytes_length (h : FileHeader) : h.toBytes.length = HEADER_SIZE := by
  simp [FileHeader.toBytes, HEADER_SIZE]

@[simp] theorem Equation.toBytes_length (e : Equation) : e.toBytes.length = EQUATION_SIZE := by
  simp [Equation.toBytes, EQUATION_SIZE]

@[simp] theorem SolvedEquation.toBytes_length (s : SolvedEquation) : s.toBytes.length = SOLUTION_SIZE := by
  simp [SolvedEquation.toBytes, SOLUTION_SIZE]

/-- A net header survives its layout. -/
theorem NetHeader.ofBytes_toBytes {h : NetHeader} (name : h.filename.length = MAX_FILENAME_LEN) :
    NetHeader.ofBytes h.toBytes = h := by
  simp only [NetHeader.ofBytes, NetHeader.toBytes, List.append_assoc]
  rw [slice_here (encode_length _), slice_past (encode_length _) (by decide), slice_here (encode_length _),
    slice_past (encode_length _) (by decide), slice_past (encode_length _) (by decide),
    slice_here (encode_length _), slice_past (encode_length _) (by decide),
    slice_past (encode_length _) (by decide), slice_past (encode_length _) (by decide), slice_all name,
    decode_encode (k := 4) h.headerSize rfl, decode_encode (k := 4) h.fileNameLen rfl,
    decode_encode (k := 8) h.fileSize rfl]

/-- An equation survives its layout. -/
theorem Equation.ofBytes_toBytes (e : Equation) : Equation.ofBytes e.toBytes = e := by
  simp only [Equation.ofBytes, Equation.toBytes, List.append_assoc]
  rw [slice_here (encode_length _), slice_past (encode_length _) (by decide), slice_here (encode_length _),
    slice_past (encode_length _) (by decide), slice_past (encode_length _) (by decide),
    slice_here (encode_length _), slice_past (encode_length _) (by decide),
    slice_past (encode_length _) (by decide), slice_past (encode_length _) (by decide),
    slice_here (encode_length _), slice_past (encode_length _) (by decide),
    slice_past (encode_length _) (by decide), slice_past (encode_length _) (by decide),
    slice_past (encode_length _) (by decide), slice_here (encode_length _),
    decode_encode (k := 4) e.equationId rfl, decode_encode (k := 1) e.reserved rfl,
    decode_encode (k := 8) e.num1 rfl, decode_encode (k := 1) e.operator rfl, decode_encode (k := 8) e.num2 rfl]

/-- A file header survives its layout. -/
theorem FileHeader.ofBytes_toBytes (h : FileHeader) : FileHeader.ofBytes h.toBytes = h := by
  simp only [FileHeader.ofBytes, FileHeader.toBytes, List.append_assoc]
  rw [slice_here (encode_length _), slice_past (encode_length _) (by decide), slice_here (encode_length _),
    slice_past (encode_length _) (by decide), slice_past (encode_length _) (by decide),
    slice_here (encode_length _), slice_past (encode_length _) (by decide),
    slice_past (encode_length _) (by decide), slice_past (encode_length _) (by decide),
    slice_here (encode_length _), slice_past (encode_length _) (by decide),
    slice_past (encode_length _) (by decide), slice_past (encode_length _) (by decide),
    slice_past (encode_length _) (by decide), slice_here (encode_length _),
    slice_past (encode_length _) (by decide), slice_past (encode_length _) (by decide),
    slice_past (encode_length _) (by decide), slice_past (encode_length _) (by decide),
    slice_past (encode_length _) (by decide), slice_all (encode_length _),
    decode_encode (k := 4) h.magic rfl, decode_encode (k := 8) h.fileId rfl,
    decode_encode (k := 8) h.numEquations rfl, decode_encode (k := 1) h.isSolved rfl,
    decode_encode (k := 4) h.offset rfl, decode_encode (k := 2) h.reserved rfl]

/-- A block of `HEADER_SIZE` bytes is a file header. -/
theorem FileHeader.toBytes_ofBytes {b : List Byte} (len : b.length = HEADER_SIZE) :
    (FileHeader.ofBytes b).toBytes = b := by
  unfold HEADER_SIZE at len
  simp only [FileHeader.ofBytes, FileHeader.toBytes]
  rw [encode_decode _ rfl (slice_length (by omega)), encode_decode _ rfl (slice_length (by omega)),
    encode_decode _ rfl (slice_length (by omega)), encode_decode _ rfl (slice_length (by omega)),
    encode_decode _ rfl (slice_length (by omega)), encode_decode _ rfl (slice_length (by omega)),
    slice_append_slice, slice_append_slice, slice_append_slice, slice_append_slice, slice_append_slice]
  exact slice_all len

/-- Marking a file header as solved changes the byte of `is_solved`. -/
theorem FileHeader.solved_toBytes {b : List Byte} (len : b.length = HEADER_SIZE) (mark : BitVec 8) :
    ({ FileHeader.ofBytes b with isSolved := mark } : FileHeader).toBytes = b.set 20 mark := by
  unfold HEADER_SIZE at len
  simp only [FileHeader.ofBytes, FileHeader.toBytes]
  rw [encode_decode _ rfl (slice_length (by omega)), encode_decode _ rfl (slice_length (by omega)),
    encode_decode _ rfl (slice_length (by omega)), encode_decode _ rfl (slice_length (by omega)),
    encode_decode _ rfl (slice_length (by omega)), slice_append_slice, slice_append_slice, encode_byte,
    List.append_assoc, slice_append_slice, List.set_eq_take_append_cons_drop, if_pos (by omega)]
  have tail : slice 21 6 b = b.drop 21 := List.take_of_length_le (by rw [List.length_drop]; omega)
  rw [tail, List.append_assoc]
  rfl

end NetCalc.Net
