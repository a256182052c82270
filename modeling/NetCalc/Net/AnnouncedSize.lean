import NetCalc.Lib.CArith
import NetCalc.Net.DeclaredSize

/-!
# Does the announced size overflow?

`write_net_header` announces `48 + 27 + 14 * num_equations` bytes, computed in
the type `int64_t`. `check_header` lets every positive number of equations
pass, and it is the peer who chooses it. The size is announced exactly for the
numbers that leave room for the two headers (`announced_size_iff`); beyond them
the computation overflows.
-/

namespace NetCalc.Net

set_option autoImplicit false
open NetCalc.Lib

/-- `NET_HEADER_SIZE + HEADER_SIZE + (SOLUTION_SIZE * num_equations)` by the
rules of the language: the sizes are `int`, the number is an `int64_t`. -/
def announcedSize (numEquations : Int) : Option Int := do
  let headers ← C.add 32 NET_HEADER_SIZE HEADER_SIZE
  let solutions ← C.mul 64 SOLUTION_SIZE numEquations
  C.add 64 headers solutions

/-- The `file_size` field of the header that `write_net_header` sends. -/
def fileSizeField (header : NetHeader) (numEquations : Int) : Nat :=
  (htobe64 (NetHeader.ofBytes (replyNetHeader header numEquations).written).fileSize).toNat

/-- The size is computed without overflow, and the exact size is announced. -/
structure AnnouncesExactly (header : NetHeader) (numEquations : Int) : Prop where
  defined : (announcedSize numEquations).isSome
  exact : (fileSizeField header numEquations : Int) =
    NET_HEADER_SIZE + HEADER_SIZE + SOLUTION_SIZE * numEquations

/-- An accepted number of equations is positive. -/
theorem checkHeader_positive {e : Inputs} {i : Input} (accepted : (checkHeader e i).err = SUCCESS) :
    0 < (checkHeader e i).numEquations := by
  unfold checkHeader at accepted ⊢
  dsimp only at accepted ⊢
  split at accepted
  · cases accepted
  split at accepted
  · cases accepted
  split at accepted
  · cases accepted
  rename_i whole unsolved positive
  rw [if_neg whole, if_neg unsolved, if_neg positive]
  exact not_le.mp positive

/-- The computation is defined as long as its value fits. -/
theorem announcedSize_isSome_iff {n : Int} (positive : 0 < n) :
    (announcedSize n).isSome ↔ NET_HEADER_SIZE + HEADER_SIZE + SOLUTION_SIZE * n < 2 ^ 63 := by
  have headers : C.add 32 NET_HEADER_SIZE HEADER_SIZE = some 75 := by decide
  unfold announcedSize
  rw [headers, Option.bind_eq_bind, Option.bind_some, C.mul, C.value_bind_isSome_iff, C.add,
    C.value_isSome_iff]
  unfold Fits intMin intMax NET_HEADER_SIZE HEADER_SIZE SOLUTION_SIZE
  omega

theorem announcesExactly_iff (header : NetHeader) {n : Int} (positive : 0 < n) :
    AnnouncesExactly header n ↔ NET_HEADER_SIZE + HEADER_SIZE + SOLUTION_SIZE * n < 2 ^ 63 := by
  constructor
  · intro announces
    exact (announcedSize_isSome_iff positive).mp announces.defined
  · intro fits
    obtain ⟨k, rfl⟩ := Int.eq_ofNat_of_zero_le positive.le
    refine ⟨(announcedSize_isSome_iff positive).mpr fits, ?_⟩
    rw [fileSizeField, replyNetHeader_written, replyNetHeader_size header (by exact_mod_cast fits)]
    push_cast
    rfl

/-- **The announced size is exact, exactly when it fits a signed word of 64
bits.** For every file header `check_header` accepts, whatever delivered it. -/
theorem announced_size_iff (e : Inputs) (i : Input) (header : NetHeader)
    (accepted : (checkHeader e i).err = SUCCESS) :
    AnnouncesExactly header (checkHeader e i).numEquations ↔
      NET_HEADER_SIZE + HEADER_SIZE + SOLUTION_SIZE * (checkHeader e i).numEquations < 2 ^ 63 :=
  announcesExactly_iff header (checkHeader_positive accepted)

/-- Three equations. -/
theorem announced_size_three : AnnouncesExactly ⟨0, 0, 0, []⟩
    (checkHeader Env.calm.toInputs (World.start (unsolvedHeader 3)).input).numEquations :=
  (announced_size_iff Env.calm.toInputs (World.start (unsolvedHeader 3)).input ⟨0, 0, 0, []⟩
    (by decide +kernel)).mpr (by decide +kernel)

/-- The greatest number of equations is accepted, and `61` bytes are announced. -/
theorem sixty_one_bytes_announced :
    (checkHeader Env.calm.toInputs (World.start (unsolvedHeader (2 ^ 63 - 1))).input).err = SUCCESS ∧
      fileSizeField ⟨0, 0, 0, []⟩
        (checkHeader Env.calm.toInputs (World.start (unsolvedHeader (2 ^ 63 - 1))).input).numEquations = 61 ∧
      ¬AnnouncesExactly ⟨0, 0, 0, []⟩
        (checkHeader Env.calm.toInputs (World.start (unsolvedHeader (2 ^ 63 - 1))).input).numEquations := by
  have announced : fileSizeField ⟨0, 0, 0, []⟩
      (checkHeader Env.calm.toInputs (World.start (unsolvedHeader (2 ^ 63 - 1))).input).numEquations = 61 := by
    decide +kernel
  have count : (checkHeader Env.calm.toInputs
      (World.start (unsolvedHeader (2 ^ 63 - 1))).input).numEquations = 2 ^ 63 - 1 := by
    decide +kernel
  refine ⟨by decide +kernel, announced, ?_⟩
  intro announces
  have exact := announces.exact
  rw [announced, count] at exact
  revert exact
  decide

end NetCalc.Net
