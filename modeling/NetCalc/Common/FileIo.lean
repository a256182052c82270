import NetCalc.Lib.CInt
import NetCalc.Lib.Channel
import NetCalc.Lib.Words
import NetCalc.Common.MathFuncs

/-!
# Reading and writing a descriptor (`file_io.c`)

What the environment decides is data: for each `read` how much of the stream
it delivers, for each `write` how much it accepts, for each `calloc` whether
it succeeds. `Input` is the side of a connection that reads move, `Output` the
side that writes move; `Output.log` is everything that was put on the
descriptor.

`safe_read` and `safe_write` return a `size_t`, in which `-1` is `SIZE_ERROR`.
The loop of `safe_read` is controlled by the length of its latest chunk, not
by its total, so it returns `len` only when one `read` delivers everything
(`safeRead_full`). `safe_write` accumulates (`safeWrite_attempt`).
-/

namespace NetCalc

set_option autoImplicit false
open NetCalc.Lib

/-- The values of `errno` that are told apart, and the others. -/
inductive Errno where
  | EISDIR
  | EINTR
  | other (code : Nat)
  deriving DecidableEq, Repr

/-- What one `read` or `recv` does: all it is asked for, at most `k` bytes (and
at least one), end of file, or an error. -/
inductive ReadAct where
  | all
  | chunk (k : Nat)
  | eof
  | fail (errno : Errno)
  deriving DecidableEq, Repr

/-- What one `write` does: all it is given, at most `k` bytes (and at least
one), or an error. -/
inductive WriteAct where
  | all
  | part (k : Nat)
  | fail
  deriving DecidableEq, Repr

/-- The blocks that are allocated while a connection is served. -/
inductive Block where
  | netHeader
  | equation
  | fileHeader
  | calcVar
  | solution
  deriving DecidableEq, Repr

/-- What the environment decides, the results of `write` apart: `heap` is what
is mapped behind the block of a net header. -/
structure Inputs where
  reads : Nat → ReadAct
  calloc : Block → Nat → Bool
  heap : List Byte
  target : Target

/-- What the environment decides. -/
structure Env extends Inputs where
  writes : Nat → WriteAct

/-- An environment in which nothing fails and nothing is split. -/
def Env.calm : Env where
  reads _ := .all
  calloc _ _ := true
  heap := []
  target := ⟨fun _ _ _ => 0, fun _ _ _ => 0⟩
  writes _ := .all

/-- The receiving side: the bytes still to come, and how many calls were made. -/
structure Input where
  rx : List Byte
  nread : Nat
  nalloc : Nat
  deriving Repr

/-- The sending side. -/
structure Output where
  nwrite : Nat
  log : List (Event Byte)
  deriving Repr

/-- `(size_t)-1`. -/
def SIZE_ERROR : Nat := 2 ^ 64 - 1

/-- What `safe_read` returns for a failed `read`: a directory counts as empty. -/
def readError (errno : Errno) : Nat := if errno = .EISDIR then 0 else SIZE_ERROR

/-- `calloc`: whether it returns a block. -/
def calloc (e : Inputs) (b : Block) (i : Input) : Bool × Input :=
  (e.calloc b i.nalloc, { i with nalloc := i.nalloc + 1 })

/-- `read` and `recv`. -/
def sysRead (e : Inputs) (i : Input) (len : Nat) : Except Errno (List Byte) × Input :=
  let deliver (n : Nat) : Except Errno (List Byte) × Input :=
    (.ok (i.rx.take n), { i with rx := i.rx.drop n, nread := i.nread + 1 })
  match e.reads i.nread with
  | .all => deliver len
  | .chunk k => deliver (min len (max k 1))
  | .eof => deliver 0
  | .fail errno => (.error errno, { i with nread := i.nread + 1 })

/-- `write`: how much it accepts. -/
def sysWrite (writes : Nat → WriteAct) (o : Output) (bs : List Byte) : Option Nat × Output :=
  let accept (n : Nat) : Option Nat × Output :=
    (some n, { o with nwrite := o.nwrite + 1, log := o.log ++ [.wrote (bs.take n)] })
  match writes o.nwrite with
  | .all => accept bs.length
  | .part k => accept (min bs.length (max k 1))
  | .fail => (none, { o with nwrite := o.nwrite + 1, log := o.log ++ [.failed] })

/-- Bytes stored into a block from an offset on. -/
def patch (buf : List Byte) (off : Nat) (bs : List Byte) : List Byte :=
  buf.take off ++ bs ++ buf.drop (off + bs.length)

theorem sysRead_ok {e : Inputs} {i i' : Input} {len : Nat} {bs : List Byte}
    (h : sysRead e i len = (.ok bs, i')) :
    bs.length ≤ len ∧ i' = { i with rx := i.rx.drop bs.length, nread := i.nread + 1 } ∧
      bs = i.rx.take bs.length := by
  have delivered : ∀ n, n ≤ len →
      ((Except.ok (i.rx.take n) : Except Errno (List Byte)),
        ({ i with rx := i.rx.drop n, nread := i.nread + 1 } : Input)) = (.ok bs, i') →
      bs.length ≤ len ∧ i' = { i with rx := i.rx.drop bs.length, nread := i.nread + 1 } ∧
        bs = i.rx.take bs.length := by
    rintro n small same
    obtain ⟨rfl, rfl⟩ := by simpa using same
    rw [List.length_take]
    refine ⟨by omega, ?_, ?_⟩
    · congr 1
      by_cases enough : n ≤ i.rx.length
      · rw [Nat.min_eq_left enough]
      · rw [Nat.min_eq_right (by omega), List.drop_eq_nil_of_le (by omega), List.drop_eq_nil_of_le (by omega)]
    · by_cases enough : n ≤ i.rx.length
      · rw [Nat.min_eq_left enough]
      · rw [Nat.min_eq_right (by omega), List.take_of_length_le (by omega), List.take_of_length_le (by omega)]
  unfold sysRead at h
  dsimp only at h
  split at h
  · exact delivered _ (Nat.le_refl _) h
  · exact delivered _ (Nat.min_le_left _ _) h
  · exact delivered _ (Nat.zero_le _) h
  · cases h

/-- What a read delivers is the front of the stream. -/
theorem sysRead_stream {e : Inputs} {i i' : Input} {len : Nat} {bs : List Byte}
    (h : sysRead e i len = (.ok bs, i')) : i.rx = bs ++ i'.rx := by
  obtain ⟨_, after, taken⟩ := sysRead_ok h
  calc i.rx = i.rx.take bs.length ++ i.rx.drop bs.length := (List.take_append_drop ..).symm
    _ = bs ++ i.rx.drop bs.length := by rw [← taken]
    _ = bs ++ i'.rx := by rw [after]

/-- Allocations have no part in what is read. -/
theorem sysRead_nalloc (e : Inputs) (i : Input) (len k : Nat) :
    (sysRead e { i with nalloc := k } len).1 = (sysRead e i len).1 := by
  unfold sysRead
  dsimp only
  split <;> rfl

theorem sysWrite_some {writes : Nat → WriteAct} {o o' : Output} {bs : List Byte} {k : Nat}
    (some_left : bs ≠ []) (h : sysWrite writes o bs = (some k, o')) : 0 < k ∧ k ≤ bs.length := by
  have pos := List.length_pos_iff.mpr some_left
  unfold sysWrite at h
  dsimp only at h
  split at h
  · cases h; omega
  · cases h; omega
  · cases h

/-- The condition of that loop: `bytes_read < (int)len`. -/
@[irreducible] def readMore (last : Int) (len : Nat) : Bool := last < narrow 32 len

/-- The loop of `safe_read`: `last` is the C variable `bytes_read`. -/
def safeReadLoop (e : Inputs) (len : Nat) (i : Input) (buf : List Byte) (total : Nat) (last : Int) :
    Nat × List Byte × Input :=
  if readMore last len then
    match _found : sysRead e i (len - total) with
    | (.ok bs, i') =>
      if _none_came : bs = [] then (0, buf, i')
      else safeReadLoop e len i' (patch buf total bs) (total + bs.length) bs.length
    | (.error errno, i') => (readError errno, buf, i')
  else (total, buf, i)
termination_by len - total
decreasing_by
  have bound := (sysRead_ok _found).1
  have pos := List.length_pos_iff.mpr _none_came
  omega

/-- `safe_read`: the returned `size_t`, the buffer and the input. -/
def safeRead (e : Inputs) (i : Input) (buf : List Byte) (len : Nat) : Nat × List Byte × Input :=
  safeReadLoop e len i buf 0 0

/-- The loop of `safe_write`. -/
def safeWriteLoop (writes : Nat → WriteAct) (buf : List Byte) (total : Nat) (o : Output) : Nat × Output :=
  if _more : total < buf.length then
    match _found : sysWrite writes o (buf.drop total) with
    | (none, o') => (SIZE_ERROR, o')
    | (some k, o') =>
      if total = buf.length then (total, o') else safeWriteLoop writes buf (total + k) o'
  else (total, o)
termination_by buf.length - total
decreasing_by
  have left : buf.drop total ≠ [] := by
    intro none_left
    have short := List.drop_eq_nil_iff.mp none_left
    omega
  have pos := (sysWrite_some left _found).1
  omega

/-- `safe_write`. -/
def safeWrite (writes : Nat → WriteAct) (o : Output) (buf : List Byte) : Nat × Output :=
  safeWriteLoop writes buf 0 o

/-! ## `safe_read` -/

section Read
variable {e : Inputs} {i : Input} {buf : List Byte} {len total : Nat} {last : Int}

theorem readError_ne (pos : 0 < len) (small : len < 2 ^ 31) (errno : Errno) : readError errno ≠ len := by
  unfold readError SIZE_ERROR
  split <;> omega

theorem readMore_iff (small : len < 2 ^ 31) : readMore last len = true ↔ last < len := by
  have fits : narrow 32 (len : Int) = len := narrow_of_fits (by decide) (by omega) (by omega)
  unfold readMore
  rw [fits, decide_eq_true_iff]

/-- After a first short chunk the loop never returns `len`: it ends with end of
file or with an error. -/
theorem safeReadLoop_short (pos : 0 < len) (small : len < 2 ^ 31) (some_read : 0 < total)
    (short : last < len) : (safeReadLoop e len i buf total last).1 ≠ len := by
  fun_induction safeReadLoop e len i buf total last with
  | case1 i buf total last more i' found => omega
  | case2 i buf total last more bs i' found none_came ih =>
    have bound := (sysRead_ok found).1
    exact ih (by omega) (by omega)
  | case3 i buf total last more errno i' found => exact readError_ne pos small errno
  | case4 i buf total last stop =>
    exact absurd ((readMore_iff small).mpr short) stop

/-- One pass of the loop, for a `read` that delivers. -/
theorem safeReadLoop_ok {bs : List Byte} {i' : Input} (more : readMore last len = true)
    (found : sysRead e i (len - total) = (.ok bs, i')) :
    safeReadLoop e len i buf total last =
      if bs = [] then (0, buf, i')
      else safeReadLoop e len i' (patch buf total bs) (total + bs.length) bs.length := by
  rw [safeReadLoop, if_pos more]
  split
  · rename_i same
    rw [found] at same
    cases same
    split <;> rfl
  · rename_i same
    rw [found] at same
    cases same

/-- One pass of the loop, for a `read` that fails. -/
theorem safeReadLoop_error {errno : Errno} {i' : Input} (more : readMore last len = true)
    (found : sysRead e i (len - total) = (.error errno, i')) :
    safeReadLoop e len i buf total last = (readError errno, buf, i') := by
  rw [safeReadLoop, if_pos more]
  split
  · rename_i same
    rw [found] at same
    cases same
  · rename_i same
    rw [found] at same
    cases same
    rfl

/-- The loop ends when the latest chunk is as long as the whole. -/
theorem safeReadLoop_stop (stop : ¬readMore last len = true) :
    safeReadLoop e len i buf total last = (total, buf, i) := by
  rw [safeReadLoop, if_neg stop]

/-- A block that is overwritten from its start to its end. -/
theorem patch_all {bs : List Byte} (room : buf.length = bs.length) : patch buf 0 bs = bs := by
  simp [patch, room]

/-- A first chunk of `len` bytes is a complete read. -/
theorem safeRead_of_chunk {bs : List Byte} {i' : Input} (pos : 0 < len) (small : len < 2 ^ 31)
    (found : sysRead e i len = (.ok bs, i')) (whole : bs.length = len) :
    safeRead e i buf len = (len, patch buf 0 bs, i') := by
  have some_came : bs ≠ [] := List.length_pos_iff.mp (by omega)
  unfold safeRead
  rw [safeReadLoop_ok ((readMore_iff small).mpr (by omega)) found, if_neg some_came,
    safeReadLoop_stop (by rw [readMore_iff small]; omega), Nat.zero_add, whole]

/-- A complete read is a first chunk of `len` bytes. -/
theorem safeRead_first (pos : 0 < len) (small : len < 2 ^ 31) : (safeRead e i buf len).1 = len ↔
    ∃ bs, (sysRead e i len).1 = .ok bs ∧ bs.length = len := by
  constructor
  · intro full
    have more : readMore 0 len = true := (readMore_iff small).mpr (by omega)
    rcases found : sysRead e i len with ⟨errno | bs, i'⟩
    · unfold safeRead at full
      rw [safeReadLoop_error more found] at full
      exact absurd full (readError_ne pos small errno)
    · refine ⟨bs, rfl, ?_⟩
      by_contra whole
      have bound := (sysRead_ok found).1
      unfold safeRead at full
      rw [safeReadLoop_ok more found] at full
      split at full
      · dsimp only at full
        omega
      · rename_i some_came
        have some_bytes := List.length_pos_iff.mpr some_came
        exact absurd full (safeReadLoop_short pos small (by omega) (by omega))
  · rintro ⟨bs, found, whole⟩
    rw [safeRead_of_chunk pos small (Prod.ext found rfl) whole]

/-- **A complete read.** `safe_read` returns `len` only when its first `read`
delivers `len` bytes; then these are in the buffer and gone from the stream. -/
theorem safeRead_full (pos : 0 < len) (small : len < 2 ^ 31) (full : (safeRead e i buf len).1 = len) :
    len ≤ i.rx.length ∧ safeRead e i buf len =
      (len, patch buf 0 (i.rx.take len), { i with rx := i.rx.drop len, nread := i.nread + 1 }) := by
  obtain ⟨bs, found, whole⟩ := (safeRead_first pos small).mp full
  obtain ⟨_, after, taken⟩ := sysRead_ok (Prod.ext found rfl)
  rw [safeRead_of_chunk pos small (Prod.ext found rfl) whole, after, ← whole, ← taken]
  constructor
  · rw [taken, List.length_take]
    omega
  · rfl

/-- With every byte asked for delivered, a stream that holds `len` bytes is
read completely. -/
theorem safeRead_all (pos : 0 < len) (small : len < 2 ^ 31) (all : e.reads i.nread = .all)
    (enough : len ≤ i.rx.length) : safeRead e i buf len =
      (len, patch buf 0 (i.rx.take len), { i with rx := i.rx.drop len, nread := i.nread + 1 }) := by
  have delivered : sysRead e i len =
      (.ok (i.rx.take len), { i with rx := i.rx.drop len, nread := i.nread + 1 }) := by
    simp [sysRead, all]
  exact safeRead_of_chunk pos small delivered (by rw [List.length_take]; omega)

/-- A stream that ends before `len` bytes is never read completely. -/
theorem safeRead_short (pos : 0 < len) (small : len < 2 ^ 31) (short : i.rx.length < len) :
    (safeRead e i buf len).1 ≠ len := by
  intro full
  have enough := (safeRead_full pos small full).1
  omega

end Read

/-! ## `safe_write` -/

section Write
variable {writes : Nat → WriteAct} {o : Output} {buf : List Byte} {total : Nat}

/-- The error of a `write` call. -/
def WriteAct.isFail : WriteAct → Bool
  | .fail => true
  | _ => false

/-- `o'` is `o` after the calls whose history is `log`: one event a call, a
failure where the environment refused. -/
structure Output.After (writes : Nat → WriteAct) (o o' : Output) (log : List (Event Byte)) : Prop where
  log_eq : o'.log = o.log ++ log
  nwrite_eq : o'.nwrite = o.nwrite + log.length
  results : log.map Event.isFailed = (List.range' o.nwrite log.length).map fun k => (writes k).isFail

theorem Output.After.refl : Output.After writes o o [] := ⟨by simp, rfl, rfl⟩

theorem Output.After.trans {o' o'' : Output} {log more : List (Event Byte)} (h : Output.After writes o o' log)
    (k : Output.After writes o' o'' more) : Output.After writes o o'' (log ++ more) where
  log_eq := by rw [k.log_eq, h.log_eq, List.append_assoc]
  nwrite_eq := by rw [k.nwrite_eq, h.nwrite_eq, List.length_append, Nat.add_assoc]
  results := by
    rw [List.map_append, h.results, k.results, h.nwrite_eq, List.length_append, ← List.range'_append_1,
      List.map_append]

/-- Where no call is refused, no event is a failure. -/
theorem no_failure {log : List (Event Byte)} {start : Nat}
    (results : log.map Event.isFailed = (List.range' start log.length).map fun k => (writes k).isFail)
    (completes : ∀ k, writes k ≠ .fail) : ∀ e ∈ log, e.isFailed = false := by
  intro e member
  have result : e.isFailed ∈ log.map Event.isFailed := List.mem_map_of_mem member
  rw [results] at result
  obtain ⟨k, _, same⟩ := List.mem_map.mp result
  rw [← same]
  cases act : writes k with
  | fail => exact absurd act (completes k)
  | _ => rfl

/-- One call, one event. -/
theorem sysWrite_after {bs : List Byte} {result : Option Nat} {o' : Output}
    (found : sysWrite writes o bs = (result, o')) :
    Output.After writes o o' [result.elim .failed fun k => .wrote (bs.take k)] := by
  unfold sysWrite at found
  dsimp only at found
  split at found
  · rename_i act
    cases found
    exact ⟨rfl, rfl, by simp [act, Event.isFailed, WriteAct.isFail]⟩
  · rename_i act
    cases found
    exact ⟨rfl, rfl, by simp [act, Event.isFailed, WriteAct.isFail]⟩
  · rename_i act
    cases found
    exact ⟨rfl, rfl, by simp [act, Event.isFailed, WriteAct.isFail]⟩

/-- **The calls of `safe_write` are an attempt at its buffer**, and it never
returns `0` for a buffer that is not empty. -/
theorem safeWriteLoop_attempt (inside : total ≤ buf.length) :
    ∃ log, Attempt (buf.drop total) log ∧
      Output.After writes o (safeWriteLoop writes buf total o).2 log ∧
      (0 < buf.length → (safeWriteLoop writes buf total o).1 ≠ 0) := by
  fun_induction safeWriteLoop writes buf total o with
  | case1 total o more o' found =>
    have left : buf.drop total ≠ [] := by simpa using more
    exact ⟨_, .failed left, sysWrite_after found, fun _ => by simp [SIZE_ERROR]⟩
  | case2 => omega
  | case3 total o more k o' found full ih =>
    have left : buf.drop total ≠ [] := by simpa using more
    obtain ⟨pos, bound⟩ := sysWrite_some left found
    rw [List.length_drop] at bound
    obtain ⟨log, attempt, later, nonzero⟩ := ih (by omega)
    have some_sent : (buf.drop total).take k ≠ [] := by
      intro nothing
      have short := congrArg List.length nothing
      rw [List.length_take, List.length_drop, List.length_nil] at short
      omega
    have step := Attempt.wrote some_sent attempt
    rw [← List.drop_drop, List.take_append_drop] at step
    exact ⟨_, step, (sysWrite_after found).trans later, nonzero⟩
  | case4 total o stop =>
    have finished : total = buf.length := by omega
    subst finished
    rw [List.drop_length]
    exact ⟨[], .done, Output.After.refl, fun pos => by omega⟩

theorem safeWrite_attempt (writes : Nat → WriteAct) (o : Output) (buf : List Byte) :
    ∃ log, Attempt buf log ∧ Output.After writes o (safeWrite writes o buf).2 log ∧
      (0 < buf.length → (safeWrite writes o buf).1 ≠ 0) :=
  safeWriteLoop_attempt (Nat.zero_le _)

end Write

end NetCalc
