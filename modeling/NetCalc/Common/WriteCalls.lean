import NetCalc.Common.FileIo

/-!
# How far a record gets (`safe_write`)

`safe_write` calls `write` until everything is accepted or a call fails. What
its calls do decides whether it gets there, and at which call the next one
begins (`callsFor`). Everything is on the descriptor exactly when no call on
the way fails (`safeWrite_whole_iff`).
-/

namespace NetCalc

set_option autoImplicit false
open NetCalc.Lib

/-- How many of `len` bytes one `write` accepts, if it does not fail. -/
def WriteAct.upTo (len : Nat) : WriteAct → Option Nat
  | .all => some len
  | .part k => some (min len (max k 1))
  | .fail => none

theorem WriteAct.upTo_some {act : WriteAct} {len k : Nat} (pos : 0 < len) (takes : act.upTo len = some k) :
    0 < k ∧ k ≤ len := by
  cases act with
  | all =>
    cases takes
    exact ⟨pos, Nat.le_refl _⟩
  | part k =>
    cases takes
    omega
  | fail => cases takes

/-- The number of the call after those that have `left` bytes accepted, the
first of them being `call`, if none fails. -/
def callsFor (writes : Nat → WriteAct) (left call : Nat) : Option Nat :=
  if _done : left = 0 then some call
  else
    match _takes : (writes call).upTo left with
    | none => none
    | some k => callsFor writes (left - k) (call + 1)
termination_by left
decreasing_by
  have accepted := WriteAct.upTo_some (by omega) _takes
  omega

/-- The same for `n` records of `width` bytes each. -/
def recordCalls (writes : Nat → WriteAct) (width : Nat) : Nat → Nat → Option Nat
  | 0, call => some call
  | n + 1, call => (callsFor writes width call).bind (recordCalls writes width n)

section Calls
variable {writes : Nat → WriteAct} {o : Output} {buf : List Byte} {total left call k : Nat}

@[simp] theorem callsFor_zero (writes : Nat → WriteAct) (call : Nat) : callsFor writes 0 call = some call := by
  rw [callsFor, dif_pos rfl]

theorem callsFor_none (some_left : left ≠ 0) (fails : (writes call).upTo left = none) :
    callsFor writes left call = none := by
  rw [callsFor, dif_neg some_left]
  split
  · rfl
  · rename_i takes
    rw [fails] at takes
    cases takes

theorem callsFor_some (some_left : left ≠ 0) (takes : (writes call).upTo left = some k) :
    callsFor writes left call = callsFor writes (left - k) (call + 1) := by
  rw [callsFor, dif_neg some_left]
  split
  · rename_i fails
    rw [fails] at takes
    cases takes
  · rename_i same
    rw [takes] at same
    cases same
    rfl

/-- **One `write`**: what it returns, and what it leaves. -/
theorem sysWrite_inv {bs : List Byte} {result : Option Nat} {o' : Output}
    (found : sysWrite writes o bs = (result, o')) : (writes o.nwrite).upTo bs.length = result ∧
      o' = ⟨o.nwrite + 1, o.log ++ [result.elim .failed fun k => .wrote (bs.take k)]⟩ := by
  unfold sysWrite at found
  cases act : writes o.nwrite with
  | all =>
    rw [act] at found
    cases found
    exact ⟨rfl, rfl⟩
  | part k =>
    rw [act] at found
    cases found
    exact ⟨rfl, rfl⟩
  | fail =>
    rw [act] at found
    cases found
    exact ⟨rfl, rfl⟩

/-- **What is on the descriptor after `safe_write`**: everything, and so many
calls were made, or less than that. -/
theorem safeWriteLoop_calls (writes : Nat → WriteAct) (o : Output) (inside : total ≤ buf.length) :
    match callsFor writes (buf.length - total) o.nwrite with
    | some next => (safeWriteLoop writes buf total o).2.nwrite = next ∧
        sent (safeWriteLoop writes buf total o).2.log = sent o.log ++ buf.drop total
    | none => (sent (safeWriteLoop writes buf total o).2.log).length <
        (sent o.log).length + (buf.length - total) := by
  fun_induction safeWriteLoop writes buf total o with
  | case1 total o more o' found =>
    obtain ⟨takes, rfl⟩ := sysWrite_inv found
    rw [List.length_drop] at takes
    rw [callsFor_none (by omega) takes, sent_append, List.length_append]
    have rest : 0 < buf.length - total := by omega
    simpa [Event.sent] using rest
  | case2 => omega
  | case3 total o more k o' found not_all ih =>
    obtain ⟨takes, rfl⟩ := sysWrite_inv found
    rw [List.length_drop] at takes
    have accepted := WriteAct.upTo_some (by omega) takes
    simp only [Option.elim_some] at ih ⊢
    have rest := ih (by omega)
    rw [callsFor_some (by omega) takes, Nat.sub_sub]
    cases goes : callsFor writes (buf.length - (total + k)) (o.nwrite + 1) with
    | none =>
      have here : (sent [Event.wrote ((buf.drop total).take k)]).length = k := by
        simp [Event.sent, accepted.2]
      rw [goes, sent_append, List.length_append, here] at rest
      dsimp only at rest ⊢
      omega
    | some next =>
      rw [goes] at rest
      refine ⟨rest.1, ?_⟩
      have here : sent [Event.wrote ((buf.drop total).take k)] = (buf.drop total).take k := List.append_nil _
      rw [rest.2, sent_append, List.append_assoc, here, ← List.drop_drop, List.take_append_drop]
  | case4 total o stop =>
    obtain rfl : total = buf.length := by omega
    simp

/-- **Everything is written exactly when no call on the way fails.** -/
theorem safeWrite_whole_iff (writes : Nat → WriteAct) (o : Output) (buf : List Byte) :
    sent (safeWrite writes o buf).2.log = sent o.log ++ buf ↔ (callsFor writes buf.length o.nwrite).isSome := by
  have calls := safeWriteLoop_calls writes o (Nat.zero_le buf.length)
  rw [Nat.sub_zero] at calls
  cases goes : callsFor writes buf.length o.nwrite with
  | none =>
    rw [goes] at calls
    simp only [Option.isSome_none, Bool.false_eq_true, iff_false]
    intro whole
    rw [safeWrite] at whole
    rw [whole, List.length_append] at calls
    exact absurd calls (Nat.lt_irrefl _)
  | some next =>
    rw [goes] at calls
    simp only [Option.isSome_some, iff_true]
    exact calls.2

/-- Where the next `safe_write` begins. -/
theorem safeWrite_calls {next : Nat} (goes : callsFor writes buf.length o.nwrite = some next) :
    (safeWrite writes o buf).2.nwrite = next := by
  have calls := safeWriteLoop_calls writes o (Nat.zero_le buf.length)
  rw [Nat.sub_zero, goes] at calls
  exact calls.1

end Calls

end NetCalc
