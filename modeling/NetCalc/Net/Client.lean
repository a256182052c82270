import NetCalc.Lib.Words
import NetCalc.Common.FileIo
import NetCalc.Net.Formats

/-!
# The client (`client.py`, `constants.py`)

The client packs a net header with `struct`, sends it with the whole file, and
writes what comes back, the net header apart, to its output directory.
Numbers are unbounded here; packing one that does not fit its field raises
(`none`). A socket delivers what the environment lets it, as for the server.
-/

namespace NetCalc.Client

set_option autoImplicit false
open NetCalc.Lib

/-- `equation_size`. -/
def equationSize : Nat := 14

/-- `file_header_size`. -/
def fileHeaderSize : Nat := 27

/-- `net_header_size`. -/
def netHeaderSize : Nat := 48

/-- `equ_header_len`. -/
def equHeaderLen : Nat := 27

/-- `equation_length`. -/
def equationLength : Nat := 32

/-- `necessary_bytes`. -/
def necessaryBytes : Nat := 20

/-- The format `32s`: cut off, or filled with NULs. -/
def fixed (s : List Byte) : List Byte := s.take 32 ++ List.replicate (32 - s.length) 0

/-- `struct.pack` with `net_format`, `>IIQ32s`. -/
def pack (headerSize filenameLength totalLength : Nat) (filename : List Byte) : Option (List Byte) :=
  if headerSize < 2 ^ 32 ∧ filenameLength < 2 ^ 32 ∧ totalLength < 2 ^ 64 then
    some ((bytesOf 4 headerSize).reverse ++ (bytesOf 4 filenameLength).reverse ++
      (bytesOf 8 totalLength).reverse ++ fixed filename)
  else none

/-- `struct.unpack` with `net_format`, which takes 48 bytes and no other number
of them. -/
def unpack (data : List Byte) : Option (Nat × Nat × Nat × List Byte) :=
  if data.length = 48 then
    some (valueOf (slice 0 4 data).reverse, valueOf (slice 4 4 data).reverse,
      valueOf (slice 8 8 data).reverse, slice 16 32 data)
  else none

/-- `bytes(filename, 'ascii')`. -/
def ascii (filename : String) : Option (List Byte) :=
  if filename.toList.all fun c => c.toNat < 128 then
    some (filename.toList.map fun c => BitVec.ofNat 8 c.toNat)
  else none

/-- `Client.get_num_equations`: the last eight bytes of the first twenty. -/
def getNumEquations (file : List Byte) : Nat :=
  let chunk := file.take necessaryBytes
  valueOf (chunk.drop (chunk.length - 8))

/-- `Client.create_header`. -/
def createHeader (filename : String) (file : List Byte) : Option (List Byte) := do
  let filenameLength := filename.length
  let numEquations := getNumEquations file
  let totalLength := filenameLength + equHeaderLen + equationLength * numEquations
  pack netHeaderSize filenameLength totalLength (← ascii filename)

/-- What `Client.manage_files` sends for a file. -/
def totalMessage (filename : String) (buffer : List Byte) : Option (List Byte) := do
  return (← createHeader filename buffer) ++ buffer

/-- The client's side of a socket. -/
structure Sock where
  rx : List Byte
  nrecv : Nat
  deriving Repr

/-- `sock.recv`, unless it raises. -/
def recv (reads : Nat → ReadAct) (s : Sock) (len : Nat) : Option (List Byte) × Sock :=
  let deliver (n : Nat) : Option (List Byte) × Sock := (some (s.rx.take n), ⟨s.rx.drop n, s.nrecv + 1⟩)
  match reads s.nrecv with
  | .all => deliver len
  | .chunk k => deliver (min len (max k 1))
  | .eof => deliver 0
  | .fail _ => (none, ⟨s.rx, s.nrecv + 1⟩)

/-- How a method ends: whether it raises, and what is in the output file if it
was opened. -/
structure Outcome where
  raised : Bool
  file : Option (List Byte)
  deriving DecidableEq, Repr

/-- The loop of `Client.write_into_dir`. -/
def receiveLoop (reads : Nat → ReadAct) (amountExpected amountReceived : Nat) (s : Sock) (out : List Byte) :
    Outcome :=
  if amountReceived < amountExpected then
    match recv reads s amountExpected with
    | (none, _) => ⟨true, some out⟩
    | (some data, s') =>
      if _closed : data = [] then ⟨false, some out⟩
      else receiveLoop reads amountExpected (amountReceived + data.length) s' (out ++ data)
  else ⟨false, some out⟩
termination_by amountExpected - amountReceived
decreasing_by
  have pos := List.length_pos_iff.mpr _closed
  omega

/-- `Client.write_into_dir`. -/
def writeIntoDir (reads : Nat → ReadAct) (s : Sock) (numEquations : Nat) : Outcome :=
  match recv reads s netHeaderSize with
  | (none, _) => ⟨true, none⟩
  | (some data, s') =>
    match unpack data with
    | none => ⟨true, none⟩
    | some res =>
      if res.2.1 = 0 then ⟨false, none⟩
      else receiveLoop reads (fileHeaderSize + equationSize * numEquations) 0 s' []

/-! ## A reply that arrives whole -/

/-- One `recv` that delivers all that is expected ends the loop. -/
theorem receiveLoop_whole {s : Sock} {amountExpected : Nat} (positive : 0 < amountExpected)
    (rest : s.rx.length = amountExpected) :
    receiveLoop (fun _ => .all) amountExpected 0 s [] = ⟨false, some s.rx⟩ := by
  have delivered : recv (fun _ => .all) s amountExpected = (some s.rx, ⟨[], s.nrecv + 1⟩) := by
    simp [recv, ← rest]
  have some_bytes : s.rx ≠ [] := List.length_pos_iff.mp (by omega)
  rw [receiveLoop, if_pos positive, delivered]
  dsimp only
  rw [dif_neg some_bytes, receiveLoop, if_neg (by omega)]
  rfl

/-- Everything behind a net header that names a file is written. -/
theorem writeIntoDir_whole {net rest : List Byte} {res : Nat × Nat × Nat × List Byte} {numEquations : Nat}
    (header : unpack net = some res) (size : net.length = netHeaderSize) (named : res.2.1 ≠ 0)
    (complete : rest.length = fileHeaderSize + equationSize * numEquations) :
    writeIntoDir (fun _ => .all) ⟨net ++ rest, 0⟩ numEquations = ⟨false, some rest⟩ := by
  have delivered : recv (fun _ => .all) ⟨net ++ rest, 0⟩ netHeaderSize = (some net, ⟨rest, 1⟩) := by
    simp [recv, ← size]
  rw [writeIntoDir, delivered]
  dsimp only
  rw [header]
  dsimp only
  rw [if_neg named]
  refine receiveLoop_whole ?_ complete
  unfold fileHeaderSize
  omega

/-! ## The formats agree -/

section Formats
open NetCalc.Net

/-- What the client packs is a net header in the server's memory. -/
theorem pack_eq {headerSize filenameLength totalLength : Nat} {filename : List Byte}
    (size : headerSize < 2 ^ 32) (length : filenameLength < 2 ^ 32) (total : totalLength < 2 ^ 64) :
    pack headerSize filenameLength totalLength filename =
      some (NetHeader.toBytes ⟨ntohl (BitVec.ofNat 32 headerSize), ntohl (BitVec.ofNat 32 filenameLength),
        htobe64 (BitVec.ofNat 64 totalLength), fixed filename⟩) := by
  rw [pack, if_pos ⟨size, length, total⟩, bytesOf_reverse (by simpa using size),
    bytesOf_reverse (by simpa using length), bytesOf_reverse (by simpa using total)]
  rfl

theorem fixed_length (s : List Byte) : (fixed s).length = MAX_FILENAME_LEN := by
  simp only [fixed, List.length_append, List.length_take, List.length_replicate, MAX_FILENAME_LEN]
  omega

/-- The client unpacks the fields that the server reads, in its own byte order. -/
theorem unpack_eq {data : List Byte} (size : data.length = 48) :
    unpack data = some ((ntohl (NetHeader.ofBytes data).headerSize).toNat,
      (ntohl (NetHeader.ofBytes data).fileNameLen).toNat, (htobe64 (NetHeader.ofBytes data).fileSize).toNat,
      (NetHeader.ofBytes data).filename) := by
  rw [unpack, if_pos size]
  simp only [NetHeader.ofBytes, ntohl, htobe64]
  rw [valueOf_reverse (k := 4) _ rfl (slice_length (by omega)),
    valueOf_reverse (k := 4) _ rfl (slice_length (by omega)),
    valueOf_reverse (k := 8) _ rfl (slice_length (by omega))]
  rfl

/-- What the client unpacks from a net header of the server. -/
theorem unpack_toBytes (header : NetHeader) (name : header.filename.length = MAX_FILENAME_LEN) :
    unpack header.toBytes = some ((ntohl header.headerSize).toNat, (ntohl header.fileNameLen).toNat,
      (htobe64 header.fileSize).toNat, header.filename) := by
  rw [unpack_eq (NetHeader.toBytes_length name), NetHeader.ofBytes_toBytes name]

/-- The client counts the equations as the server does. -/
theorem getNumEquations_eq {file stream : List Byte} (width : file.length = HEADER_SIZE) :
    getNumEquations (file ++ stream) = (FileHeader.ofBytes file).numEquations.toNat := by
  unfold HEADER_SIZE at width
  have chunk : (file ++ stream).take necessaryBytes = file.take necessaryBytes :=
    List.take_append_of_le_length (by rw [width]; decide)
  have twenty : (file.take necessaryBytes).length = 20 := by
    rw [List.length_take, width]
    rfl
  have bytes : (file.take necessaryBytes).drop 12 = slice 12 8 file := by
    rw [slice, necessaryBytes, List.drop_take]
  rw [getNumEquations, chunk, twenty, bytes, ← valueOf_encode (k := 8) _ rfl, FileHeader.ofBytes,
    encode_decode _ rfl (slice_length (by omega))]

end Formats

end NetCalc.Client
