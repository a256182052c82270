import Mathlib.Data.Nat.ModEq

/-!
# Rotating a word

A rotation moves the bits of a word around a circle: bit `i` of a rotation to
the right is bit `i + n` modulo the width, and that is all there is to know.
The laws follow by arithmetic on the places.
-/

namespace NetCalc.Lib

set_option autoImplicit false

variable {w : Nat} {x : BitVec w} {i m n : Nat}

/-- Where a bit of a rotation to the right comes from. -/
theorem rotateRight_bit (inside : i < w) : (x.rotateRight n).getLsbD i = x.getLsbD ((i + n) % w) := by
  have small : n % w < w := Nat.mod_lt _ (by omega)
  rw [BitVec.getLsbD_rotateRight, ← Nat.add_mod_mod]
  generalize n % w = r at small ⊢
  by_cases low : i < w - r
  · rw [decide_eq_true low, cond_true, Nat.mod_eq_of_lt (by omega), Nat.add_comm]
  · rw [decide_eq_false low, cond_false, decide_eq_true inside, Bool.true_and,
      Nat.mod_eq_sub_mod (by omega), Nat.mod_eq_of_lt (by omega)]
    congr 1
    omega

/-- Where a bit of a rotation to the left comes from. -/
theorem rotateLeft_bit (inside : i < w) :
    (x.rotateLeft n).getLsbD i = x.getLsbD ((i + (w - n % w)) % w) := by
  have small : n % w < w := Nat.mod_lt _ (by omega)
  rw [BitVec.getLsbD_rotateLeft]
  generalize n % w = r at small ⊢
  by_cases low : i < r
  · rw [decide_eq_true low, cond_true, Nat.mod_eq_of_lt (by omega), Nat.add_comm]
  · rw [decide_eq_false low, cond_false, decide_eq_true inside, Bool.true_and,
      Nat.mod_eq_sub_mod (by omega), Nat.mod_eq_of_lt (by omega)]
    congr 1
    omega

/-- Once around the circle. -/
theorem around (inside : i < w) : (i + n % w + (w - n % w)) % w = i := by
  have small : n % w < w := Nat.mod_lt _ (by omega)
  rw [Nat.add_assoc, Nat.add_sub_cancel' small.le, Nat.add_mod_right, Nat.mod_eq_of_lt inside]

/-- **Where a bit goes.** -/
theorem rotateLeft_bit_at (inside : i < w) : (x.rotateLeft n).getLsbD ((i + n) % w) = x.getLsbD i := by
  rw [rotateLeft_bit (Nat.mod_lt _ (by omega)), ← Nat.add_mod_mod i n, Nat.mod_add_mod, around inside]

/-- A rotation by the whole width moves nothing. -/
theorem rotateLeft_width : x.rotateLeft w = x := by
  apply BitVec.eq_of_getLsbD_eq
  intro i inside
  rw [rotateLeft_bit inside, Nat.mod_self, Nat.sub_zero, Nat.add_mod_right, Nat.mod_eq_of_lt inside]

/-- **A rotation to the right undoes one to the left.** -/
theorem rotateRight_rotateLeft : (x.rotateLeft n).rotateRight n = x := by
  apply BitVec.eq_of_getLsbD_eq
  intro i inside
  rw [rotateRight_bit inside, rotateLeft_bit_at inside]

/-- And conversely. -/
theorem rotateLeft_rotateRight : (x.rotateRight n).rotateLeft n = x := by
  apply BitVec.eq_of_getLsbD_eq
  intro i inside
  rw [rotateLeft_bit inside, rotateRight_bit (Nat.mod_lt _ (by omega)), Nat.mod_add_mod, ← Nat.add_mod_mod,
    Nat.add_right_comm, around inside]

/-- A rotation to the left is one to the right by the rest of the circle. -/
theorem rotateLeft_eq_rotateRight (small : n < w) : x.rotateLeft n = x.rotateRight (w - n) := by
  apply BitVec.eq_of_getLsbD_eq
  intro i inside
  rw [rotateLeft_bit inside, rotateRight_bit inside, Nat.mod_eq_of_lt small]

/-- **Rotations add up.** -/
theorem rotateLeft_rotateLeft : (x.rotateLeft m).rotateLeft n = x.rotateLeft (m + n) := by
  have undone : ((x.rotateLeft m).rotateLeft n).rotateRight (m + n) = x := by
    apply BitVec.eq_of_getLsbD_eq
    intro i inside
    rw [rotateRight_bit inside, ← Nat.add_assoc, ← Nat.mod_add_mod, rotateLeft_bit_at (Nat.mod_lt _ (by omega)),
      rotateLeft_bit_at inside]
  rw [← undone, rotateLeft_rotateRight, undone]

end NetCalc.Lib
