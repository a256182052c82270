import NetCalc.Common.WriteCalls

/-!
# `safe_write` in machine words

The loop of `safe_write` with its variables as they are: `total_bytes` and
`len` are unsigned words of 64 bits, what `write` returns is a signed one, and
its `-1` is stored in `total_bytes`. `len - total_bytes` and the address
`buf + total_bytes` are computed before each call. The number of iterations is
bounded by `fuel`, and `none` is a loop that did not end within it.

With a buffer of less than `2 ^ 63` bytes the loop ends, the subtraction never
wraps, and what the calls emit, one after the other, is a prefix of the buffer
(`safe_write_once`). What it computes is `safeWrite` (`safeWriteWords_eq`).
-/

namespace NetCalc

set_option autoImplicit false
open NetCalc.Lib

/-- What `write` returns to the call of a number that passes a count: how many
bytes it accepted, at least one and not more than the count, or `-1`. -/
structure WriteReplies where
  reply : Nat → BitVec 64 → BitVec 64
  permitted : ∀ call count, 0 < count.toNat → reply call count = -1 ∨
    0 < (reply call count).toNat ∧ (reply call count).toNat ≤ count.toNat

/-- What acts reply. -/
def WriteAct.replies (writes : Nat → WriteAct) : WriteReplies where
  reply call count := ((writes call).upTo count.toNat).elim (-1) (BitVec.ofNat 64)
  permitted := by
    intro call count pos
    cases takes : (writes call).upTo count.toNat with
    | none => exact .inl rfl
    | some k =>
      obtain ⟨some_taken, bound⟩ := WriteAct.upTo_some pos takes
      have same : (BitVec.ofNat 64 k).toNat = k := by
        rw [BitVec.toNat_ofNat, Nat.mod_eq_of_lt (by have := count.isLt; omega)]
      rw [Option.elim_some, same]
      exact .inr ⟨some_taken, bound⟩

/-- A call of `write`: where in the buffer it begins, how many bytes it passes,
and what it returns. -/
structure WriteCall where
  total : BitVec 64
  count : BitVec 64
  result : BitVec 64
  deriving DecidableEq, Repr

/-- What a call does on the descriptor. -/
def WriteCall.event (buf : List Byte) (call : WriteCall) : Event Byte :=
  if call.result.slt 0 then .failed else .wrote (slice call.total.toNat call.result.toNat buf)

/-- What `safe_write` returns, the calls it made, and the descriptor then. -/
structure Written where
  total : BitVec 64
  calls : List WriteCall
  output : Output
  deriving Repr

/-- One call more, before the others. -/
def Written.after (call : WriteCall) (r : Written) : Written := { r with calls := call :: r.calls }

/-- The loop of `safe_write`. -/
def safeWriteWordsLoop (w : WriteReplies) (buf : List Byte) (len : BitVec 64) :
    Nat → BitVec 64 → Output → Option Written
  | 0, _, _ => none
  | fuel + 1, total, o =>
    if total.ult len then
      let count := len - total
      let bytesRead := w.reply o.nwrite count
      let call : WriteCall := ⟨total, count, bytesRead⟩
      let o' : Output := { nwrite := o.nwrite + 1, log := o.log ++ [call.event buf] }
      if bytesRead.slt 0 then some ⟨bytesRead, [call], o'⟩
      else if total = len then some ⟨total, [call], o'⟩
      else (safeWriteWordsLoop w buf len fuel (total + bytesRead) o').map (Written.after call)
    else some ⟨total, [], o⟩

/-- `safe_write`; a buffer that is `NULL` is refused before the first call. -/
def safeWriteWords (w : WriteReplies) (o : Output) (buf : Option (List Byte)) (len : BitVec 64) (fuel : Nat) :
    Option Written :=
  match buf with
  | none => some ⟨0, [], o⟩
  | some bytes => safeWriteWordsLoop w bytes len fuel 0 o

/-- A call's arguments are in the buffer: it begins before the end, what it
passes is what is left, and neither that subtraction nor the addition that
follows the call wraps. -/
structure WriteCall.InBounds (len : Nat) (call : WriteCall) : Prop where
  begins : call.total.toNat < len
  passes : call.count.toNat = len - call.total.toNat
  replied : call.result = -1 ∨ 0 < call.result.toNat ∧ call.result.toNat ≤ call.count.toNat ∧
    (call.total + call.result).toNat = call.total.toNat + call.result.toNat

/-- The bytes that a result's calls emitted, in the order of the calls. -/
def Written.emitted (buf : List Byte) (r : Written) : List Byte := sent (r.calls.map (WriteCall.event buf))

/-- A buffer is emitted once: all of it where no call fails, and up to the call
that fails otherwise; in its order, nothing twice and nothing left out before
the end of what was emitted; and the value returned tells the outcome. -/
structure WrittenOnce (buf : List Byte) (o : Output) (r : Written) : Prop where
  log_eq : r.output.log = o.log ++ r.calls.map (WriteCall.event buf)
  emitted_prefix : r.emitted buf <+: buf
  emitted_iff : r.emitted buf = buf ↔ ∀ call ∈ r.calls, call.result ≠ -1
  returned : r.total = BitVec.ofNat 64 buf.length ∧ (∀ call ∈ r.calls, call.result ≠ -1) ∨
    r.total = -1 ∧ ∃ call ∈ r.calls, call.result = -1
  whole_iff : r.total = BitVec.ofNat 64 buf.length ↔ r.emitted buf = buf
  failed_iff : r.total = -1 ↔ ∃ call ∈ r.calls, call.result = -1
  in_bounds : ∀ call ∈ r.calls, call.InBounds buf.length
  calls_le : r.calls.length ≤ buf.length

/-- What the loop does from a place of the buffer on. -/
structure Emits (buf : List Byte) (total : Nat) (o : Output) (r : Written) : Prop where
  log_eq : r.output.log = o.log ++ r.calls.map (WriteCall.event buf)
  attempt : Attempt (buf.drop total) (r.calls.map (WriteCall.event buf))
  returned : r.total = BitVec.ofNat 64 buf.length ∧ (∀ call ∈ r.calls, call.result ≠ -1) ∨
    r.total = -1 ∧ ∃ call ∈ r.calls, call.result = -1
  in_bounds : ∀ call ∈ r.calls, call.InBounds buf.length
  calls_le : r.calls.length ≤ buf.length - total

section Loop
variable {w : WriteReplies} {buf : List Byte} {len total : BitVec 64} {o : Output} {fuel : Nat}

/-! ## One iteration -/

/-- The test of the result: a number of bytes is not negative. -/
theorem not_negative {result : BitVec 64} (small : result.toNat < 2 ^ 63) : ¬result.slt 0 = true := by
  rw [BitVec.slt_eq_decide, decide_eq_true_iff, BitVec.toInt_eq_toNat_of_lt (by omega)]
  exact Int.not_lt.mpr (Int.natCast_nonneg _)

/-- Of what `write` may return only `-1` is. -/
theorem negative_iff {result : BitVec 64} (small : result = -1 ∨ result.toNat < 2 ^ 63) :
    result.slt 0 = true ↔ result = -1 := by
  constructor
  · intro negative
    exact small.resolve_right fun small => not_negative small negative
  · rintro rfl
    decide

/-- `len - total_bytes`, where the loop goes on. -/
theorem count_eq (more : total.toNat < len.toNat) : (len - total).toNat = len.toNat - total.toNat :=
  BitVec.toNat_sub_of_le (BitVec.le_def.mpr (Nat.le_of_lt more))

theorem safeWriteWordsLoop_done (done : total = len) :
    safeWriteWordsLoop w buf len (fuel + 1) total o = some ⟨total, [], o⟩ := by
  have stop : ¬total.ult len = true := by simp [BitVec.ult, done]
  rw [safeWriteWordsLoop, if_neg stop]

theorem safeWriteWordsLoop_failed (more : total.toNat < len.toNat)
    (failed : w.reply o.nwrite (len - total) = -1) :
    safeWriteWordsLoop w buf len (fuel + 1) total o =
      some ⟨-1, [⟨total, len - total, -1⟩], ⟨o.nwrite + 1, o.log ++ [.failed]⟩⟩ := by
  have goes : total.ult len = true := by simpa [BitVec.ult] using more
  have negative : BitVec.slt (-1 : BitVec 64) 0 = true := by decide
  rw [safeWriteWordsLoop, if_pos goes]
  simp only [failed, WriteCall.event, if_pos negative]

theorem safeWriteWordsLoop_wrote {result : BitVec 64} (more : total.toNat < len.toNat)
    (found : w.reply o.nwrite (len - total) = result) (accepted : ¬result.slt 0 = true) :
    safeWriteWordsLoop w buf len (fuel + 1) total o =
      (safeWriteWordsLoop w buf len fuel (total + result)
        ⟨o.nwrite + 1, o.log ++ [.wrote (slice total.toNat result.toNat buf)]⟩).map
        (Written.after ⟨total, len - total, result⟩) := by
  have goes : total.ult len = true := by simpa [BitVec.ult] using more
  have before_end : total ≠ len := by
    rintro rfl
    exact absurd more (Nat.lt_irrefl _)
  rw [safeWriteWordsLoop, if_pos goes]
  simp only [found, WriteCall.event, if_neg accepted, if_neg before_end]

/-! ## Every iteration -/

/-- Nothing is left to write. -/
theorem Emits.done (whole : total = BitVec.ofNat 64 buf.length) (at_end : total.toNat = buf.length) :
    Emits buf total.toNat o ⟨total, [], o⟩ where
  log_eq := (List.append_nil _).symm
  attempt := by
    rw [at_end, List.drop_length]
    exact .done
  returned := .inl ⟨whole, fun call member => absurd member List.not_mem_nil⟩
  in_bounds call member := absurd member List.not_mem_nil
  calls_le := Nat.zero_le _

/-- The call fails. -/
theorem Emits.failed (width : len.toNat = buf.length) (more : total.toNat < len.toNat) :
    Emits buf total.toNat o
      ⟨-1, [⟨total, len - total, -1⟩], ⟨o.nwrite + 1, o.log ++ [.failed]⟩⟩ where
  log_eq := rfl
  attempt := by
    refine .failed fun nothing => ?_
    have short := List.drop_eq_nil_iff.mp nothing
    omega
  returned := .inr ⟨rfl, _, List.mem_singleton_self _, rfl⟩
  in_bounds call member := by
    rw [List.mem_singleton.mp member]
    exact
      { begins := by rw [← width]; exact more
        passes := by rw [count_eq more, width]
        replied := .inl rfl }
  calls_le := by
    rw [List.length_singleton]
    omega

/-- The call writes, and the loop goes on behind what it wrote. -/
theorem Emits.wrote {result : BitVec 64} {r : Written} (width : len.toNat = buf.length)
    (more : total.toNat < len.toNat) (accepted : ¬result.slt 0 = true) (pos : 0 < result.toNat)
    (fits : total.toNat + result.toNat ≤ buf.length)
    (sum : (total + result).toNat = total.toNat + result.toNat)
    (rest : Emits buf (total + result).toNat
      ⟨o.nwrite + 1, o.log ++ [.wrote (slice total.toNat result.toNat buf)]⟩ r) :
    Emits buf total.toNat o (r.after ⟨total, len - total, result⟩) := by
  have event : WriteCall.event buf ⟨total, len - total, result⟩ =
      .wrote (slice total.toNat result.toNat buf) := if_neg accepted
  have kept : result ≠ -1 := by
    rintro rfl
    exact accepted (by decide)
  have bound : result.toNat ≤ (len - total).toNat := by
    rw [count_eq more, width]
    omega
  exact
    { log_eq := by
        rw [Written.after, List.map_cons, event, rest.log_eq, List.append_assoc]
        rfl
      attempt := by
        have some_sent : slice total.toNat result.toNat buf ≠ [] := by
          rw [← List.length_pos_iff, slice_length fits]
          exact pos
        have step := Attempt.wrote some_sent rest.attempt
        rw [sum, ← List.drop_drop, slice, List.take_append_drop] at step
        rw [Written.after, List.map_cons, event]
        exact step
      returned := by
        rcases rest.returned with ⟨whole, fine⟩ | ⟨failed, call, member, lost⟩
        · exact .inl ⟨whole, List.forall_mem_cons.mpr ⟨kept, fine⟩⟩
        · exact .inr ⟨failed, call, List.mem_cons_of_mem _ member, lost⟩
      in_bounds := by
        refine List.forall_mem_cons.mpr ⟨?_, rest.in_bounds⟩
        exact
          { begins := by rw [← width]; exact more
            passes := by rw [count_eq more, width]
            replied := .inr ⟨pos, bound, sum⟩ }
      calls_le := by
        have before := rest.calls_le
        rw [sum] at before
        rw [Written.after, List.length_cons]
        omega }

/-- **The loop ends**, within as many iterations as bytes are left and one. -/
theorem safeWriteWordsLoop_emits (small : buf.length < 2 ^ 63) (inside : total.toNat ≤ buf.length) :
    ∃ r, (∀ fuel, buf.length - total.toNat < fuel →
      safeWriteWordsLoop w buf (BitVec.ofNat 64 buf.length) fuel total o = some r) ∧
      Emits buf total.toNat o r := by
  have width : (BitVec.ofNat 64 buf.length).toNat = buf.length := by
    rw [BitVec.toNat_ofNat, Nat.mod_eq_of_lt (by omega)]
  generalize len_eq : BitVec.ofNat 64 buf.length = len at width ⊢
  -- Each call that writes makes what is left shorter.
  induction left : buf.length - total.toNat using Nat.strongRecOn generalizing total o with
  | ind left ih =>
    have unfolds : ∀ fuel, buf.length - total.toNat < fuel → ∃ f, fuel = f + 1 :=
      fun fuel enough => ⟨fuel - 1, by omega⟩
    by_cases at_end : total.toNat = buf.length
    · have whole : total = len := BitVec.eq_of_toNat_eq (at_end.trans width.symm)
      refine ⟨_, fun fuel enough => ?_, Emits.done (whole.trans len_eq.symm) at_end⟩
      obtain ⟨f, rfl⟩ := unfolds fuel (by omega)
      exact safeWriteWordsLoop_done whole
    · have more : total.toNat < len.toNat := by omega
      have count := count_eq more
      rcases w.permitted o.nwrite (len - total) (by omega) with failed | ⟨pos, bound⟩
      · refine ⟨_, fun fuel enough => ?_, Emits.failed width more⟩
        obtain ⟨f, rfl⟩ := unfolds fuel (by omega)
        exact safeWriteWordsLoop_failed more failed
      · generalize found : w.reply o.nwrite (len - total) = result at pos bound
        have accepted : ¬result.slt 0 = true := not_negative (by omega)
        have sum : (total + result).toNat = total.toNat + result.toNat :=
          BitVec.toNat_add_of_lt (by omega)
        obtain ⟨r, ends, rest⟩ := ih (buf.length - (total + result).toNat) (by omega)
          (o := ⟨o.nwrite + 1, o.log ++ [.wrote (slice total.toNat result.toNat buf)]⟩) (by omega) rfl
        refine ⟨_, fun fuel enough => ?_, rest.wrote width more accepted pos (by omega) sum⟩
        obtain ⟨f, rfl⟩ := unfolds fuel (by omega)
        rw [safeWriteWordsLoop_wrote more found accepted, ends f (by omega)]
        rfl

end Loop

/-! ## The whole buffer -/

section Whole
variable {buf : List Byte} {o : Output} {r : Written}

/-- The calls that fail are those that return `-1`. -/
theorem WriteCall.InBounds.isFailed_iff {call : WriteCall} {len : Nat} (h : call.InBounds len)
    (small : len < 2 ^ 63) : (call.event buf).isFailed = true ↔ call.result = -1 := by
  have range : call.result = -1 ∨ call.result.toNat < 2 ^ 63 := by
    have passes := h.passes
    rcases h.replied with failed | ⟨_, bound, _⟩
    · exact .inl failed
    · exact .inr (by omega)
  rw [← negative_iff range, WriteCall.event]
  split
  · rename_i negative
    exact iff_of_true rfl negative
  · rename_i accepted
    exact iff_of_false Bool.false_ne_true accepted

/-- Everything is emitted if and only if no call failed. -/
theorem Emits.whole_iff (h : Emits buf 0 o r) (small : buf.length < 2 ^ 63) :
    r.emitted buf = buf ↔ ∀ call ∈ r.calls, call.result ≠ -1 := by
  have attempt : Attempt buf (r.calls.map (WriteCall.event buf)) := h.attempt
  rw [Written.emitted, attempt.complete_iff, List.forall_mem_map]
  refine forall₂_congr fun call member => ?_
  rw [← Bool.not_eq_true, (h.in_bounds call member).isFailed_iff small]

theorem Emits.writtenOnce (h : Emits buf 0 o r) (small : buf.length < 2 ^ 63) : WrittenOnce buf o r := by
  have apart : BitVec.ofNat 64 buf.length ≠ -1 := by
    intro same
    have length := congrArg BitVec.toNat same
    rw [BitVec.toNat_ofNat, Nat.mod_eq_of_lt (by omega)] at length
    simp at length
    omega
  exact
    { log_eq := h.log_eq
      emitted_prefix := h.attempt.sent_prefix
      emitted_iff := h.whole_iff small
      returned := h.returned
      whole_iff := by
        rw [h.whole_iff small]
        rcases h.returned with ⟨whole, fine⟩ | ⟨failed, call, member, lost⟩
        · exact iff_of_true whole fine
        · refine iff_of_false (fun whole => apart ?_) fun fine => fine call member lost
          rw [← whole, failed]
      failed_iff := by
        rcases h.returned with ⟨whole, fine⟩ | ⟨failed, lost⟩
        · refine iff_of_false (fun failed => apart ?_) fun ⟨call, member, lost⟩ => fine call member lost
          rw [← whole, failed]
        · exact iff_of_true failed lost
      in_bounds := h.in_bounds
      calls_le := h.calls_le }

/-- **`safe_write` emits its buffer once.** For every buffer of less than
`2 ^ 63` bytes and whatever `write` returns: it ends; what its calls emit is a
prefix of the buffer, and the whole of it if and only if no call failed; it then
returns `len`, and `-1` otherwise; and `len - total_bytes` never wraps. -/
theorem safe_write_once (w : WriteReplies) (o : Output) (buf : List Byte) (small : buf.length < 2 ^ 63) :
    ∃ r, (∀ fuel, buf.length < fuel →
      safeWriteWords w o (some buf) (BitVec.ofNat 64 buf.length) fuel = some r) ∧ WrittenOnce buf o r := by
  have start : (0 : BitVec 64).toNat ≤ buf.length := Nat.zero_le _
  obtain ⟨r, ends, emits⟩ := safeWriteWordsLoop_emits small start
  exact ⟨r, ends, Emits.writtenOnce emits small⟩

/-- Five bytes, of which two are accepted, then one, and then the rest, unless
that call fails. -/
theorem safe_write_once_five :
    (∃ r, WrittenOnce [10, 11, 12, 13, 14] ⟨0, []⟩ r ∧ r.emitted [10, 11, 12, 13, 14] = [10, 11, 12, 13, 14] ∧
      r.calls.length = 3 ∧ r.total = 5) ∧
    ∃ r, WrittenOnce [10, 11, 12, 13, 14] ⟨0, []⟩ r ∧ r.emitted [10, 11, 12, 13, 14] = [10, 11, 12] ∧
      r.calls.length = 3 ∧ r.total = -1 := by
  constructor
  · obtain ⟨r, ends, once⟩ := safe_write_once
      (WriteAct.replies fun call => if call = 0 then .part 2 else if call = 1 then .part 1 else .all) ⟨0, []⟩
      [10, 11, 12, 13, 14] (by decide)
    have run := ends 6 (by decide)
    refine ⟨r, once, ?_⟩
    rw [← Option.some.inj run]
    exact ⟨rfl, rfl, rfl⟩
  · obtain ⟨r, ends, once⟩ := safe_write_once
      (WriteAct.replies fun call => if call = 0 then .part 2 else if call = 1 then .part 1 else .fail) ⟨0, []⟩
      [10, 11, 12, 13, 14] (by decide)
    have run := ends 6 (by decide)
    refine ⟨r, once, ?_⟩
    rw [← Option.some.inj run]
    exact ⟨rfl, rfl, rfl⟩

end Whole

/-! ## The same function -/

section Naturals
variable {writes : Nat → WriteAct} {o : Output} {buf : List Byte}

/-- The loop in words is the loop in naturals. -/
theorem safeWriteWordsLoop_eq (small : buf.length < 2 ^ 63) {total : Nat} (inside : total ≤ buf.length)
    {fuel : Nat} (enough : buf.length - total < fuel) :
    ∃ r, safeWriteWordsLoop (WriteAct.replies writes) buf (BitVec.ofNat 64 buf.length) fuel
        (BitVec.ofNat 64 total) o = some r ∧
      r.total.toNat = (safeWriteLoop writes buf total o).1 ∧ r.output = (safeWriteLoop writes buf total o).2 := by
  have width : ∀ n, n ≤ buf.length → (BitVec.ofNat 64 n).toNat = n := fun n bound => by
    rw [BitVec.toNat_ofNat, Nat.mod_eq_of_lt (by omega)]
  obtain ⟨fuel, rfl⟩ : ∃ f, fuel = f + 1 := ⟨fuel - 1, by omega⟩
  have len := width _ (Nat.le_refl _)
  fun_induction safeWriteLoop writes buf total o generalizing fuel with
  | case1 total o more o' found =>
    obtain ⟨takes, rfl⟩ := sysWrite_inv found
    rw [List.length_drop] at takes
    have here := width total inside
    have goes : (BitVec.ofNat 64 total).toNat < (BitVec.ofNat 64 buf.length).toNat := by omega
    have failed : (WriteAct.replies writes).reply o.nwrite
        (BitVec.ofNat 64 buf.length - BitVec.ofNat 64 total) = -1 := by
      simp only [WriteAct.replies, count_eq goes, len, here, takes, Option.elim]
    exact ⟨_, safeWriteWordsLoop_failed goes failed, rfl, rfl⟩
  | case2 => omega
  | case3 total o more k o' found not_all ih =>
    obtain ⟨takes, rfl⟩ := sysWrite_inv found
    rw [List.length_drop] at takes
    have here := width total inside
    have goes : (BitVec.ofNat 64 total).toNat < (BitVec.ofNat 64 buf.length).toNat := by omega
    have replied : (WriteAct.replies writes).reply o.nwrite
        (BitVec.ofNat 64 buf.length - BitVec.ofNat 64 total) = BitVec.ofNat 64 k := by
      simp only [WriteAct.replies, count_eq goes, len, here, takes, Option.elim]
    obtain ⟨pos, bound⟩ := WriteAct.upTo_some (by omega) takes
    have result := width k (by omega)
    have accepted : ¬(BitVec.ofNat 64 k).slt 0 = true := not_negative (by omega)
    obtain ⟨fuel, rfl⟩ : ∃ f, fuel = f + 1 := ⟨fuel - 1, by omega⟩
    simp only [Option.elim_some] at ih ⊢
    obtain ⟨r, ends, returned, after⟩ := ih (by omega) fuel (by omega)
    refine ⟨r.after ⟨BitVec.ofNat 64 total, BitVec.ofNat 64 buf.length - BitVec.ofNat 64 total,
      BitVec.ofNat 64 k⟩, ?_, returned, after⟩
    rw [safeWriteWordsLoop_wrote goes replied accepted, here, result, ← BitVec.ofNat_add, slice, ends]
    rfl
  | case4 total o stop =>
    obtain rfl : total = buf.length := by omega
    exact ⟨_, safeWriteWordsLoop_done rfl, len, rfl⟩

/-- **`safeWrite` is the function in words**: the same value and the same calls. -/
theorem safeWriteWords_eq (writes : Nat → WriteAct) (o : Output) (buf : List Byte) (small : buf.length < 2 ^ 63)
    {fuel : Nat} (enough : buf.length < fuel) :
    ∃ r, safeWriteWords (WriteAct.replies writes) o (some buf) (BitVec.ofNat 64 buf.length) fuel = some r ∧
      r.total.toNat = (safeWrite writes o buf).1 ∧ r.output = (safeWrite writes o buf).2 :=
  safeWriteWordsLoop_eq small (Nat.zero_le _) enough

end Naturals

end NetCalc
