import NetCalc.Lib.Rotate
import NetCalc.Common.SignedMath

/-!
# Are the shifts and rotations defined?

The count of a shift or a rotation is the second operand, a whole word, and
nobody looks at it. A shift by the width or more is undefined, and a rotation
is two shifts whose counts add up to the width, so that the count `0` is
undefined too. Each function therefore does what its name says exactly for the
counts below the width, the rotations for `0` not (`shifts_defined_iff`). For
the others the rotations obey the laws they should (`rotation_algebra`).
-/

namespace NetCalc

set_option autoImplicit false
open NetCalc.Lib

/-- `shift_l_func_32`. -/
def shiftLFunc32 (t : Target) : MathFunc32 := silent (shiftLFunc t)

/-- `shift_r_func_32`. -/
def shiftRFunc32 (t : Target) : MathFunc32 := silent (shiftRFunc t)

/-- `rotate_l_func_32`. -/
def rotateLFunc32 (t : Target) : MathFunc32 := silent (rotateLFunc t)

/-- `rotate_r_func_32`. -/
def rotateRFunc32 (t : Target) : MathFunc32 := silent (rotateRFunc t)

section Counts
variable {w : Nat}

/-- When `func` returns `0` for `x` and `n`, it has evaluated no undefined
shift, and its result is `value`. `strict` is `func` by the rules of the
language. -/
def Computes (func : MathFunc w) (strict : BitVec w → BitVec w → BitVec w → Option (Int × BitVec w))
    (x n value : BitVec w) : Prop :=
  ∀ result, (func x n result).1 = 0 → (strict x n result).isSome ∧ (func x n result).2 = value

/-- `x * 2 ^ n` modulo `2 ^ w`. -/
def ShiftsLeft (func : MathFunc w) (x n : BitVec w) : Prop :=
  Computes func Strict.shiftLFunc x n (BitVec.ofNat w (x.toNat * 2 ^ n.toNat))

/-- `x / 2 ^ n`, rounded down. -/
def ShiftsRight (func : MathFunc w) (x n : BitVec w) : Prop :=
  Computes func Strict.shiftRFunc x n (BitVec.ofNat w (x.toNat / 2 ^ n.toNat))

/-- `x` rotated left by `n` modulo `w`. -/
def RotatesLeft (func : MathFunc w) (x n : BitVec w) : Prop :=
  Computes func Strict.rotateLFunc x n (x.rotateLeft (n.toNat % w))

/-- `x` rotated right by `n` modulo `w`. -/
def RotatesRight (func : MathFunc w) (x n : BitVec w) : Prop :=
  Computes func Strict.rotateRFunc x n (x.rotateRight (n.toNat % w))

/-- The counts on which the four functions do what they are for. -/
structure DefinedBelowWidth (shl shr rol ror : MathFunc w) (x n : BitVec w) : Prop where
  shift_l : ShiftsLeft shl x n ↔ n.toNat < w
  shift_r : ShiftsRight shr x n ↔ n.toNat < w
  rotate_l : RotatesLeft rol x n ↔ 0 < n.toNat ∧ n.toNat < w
  rotate_r : RotatesRight ror x n ↔ 0 < n.toNat ∧ n.toNat < w

/-- What rotations should obey, for counts between `1` and `w - 1`. -/
structure RotationLaws (rol ror : MathFunc w) : Prop where
  right_undoes_left : ∀ x n result result' : BitVec w, 0 < n.toNat → n.toNat < w →
    (ror (rol x n result).2 n result').2 = x
  left_undoes_right : ∀ x n result result' : BitVec w, 0 < n.toNat → n.toNat < w →
    (rol (ror x n result).2 n result').2 = x
  left_is_right : ∀ x n result result' : BitVec w, 0 < n.toNat → n.toNat < w →
    (rol x n result).2 = (ror x (BitVec.ofNat w (w - n.toNat)) result').2
  composition : ∀ x m n result result' result'' : BitVec w, 0 < m.toNat → m.toNat < w → 0 < n.toNat →
    n.toNat < w → (rol (rol x m result).2 n result').2 =
      if m.toNat + n.toNat = w then x
      else (rol x (BitVec.ofNat w ((m.toNat + n.toNat) % w)) result'').2
  bits : ∀ x n result : BitVec w, 0 < n.toNat → n.toNat < w → ∀ i, i < w →
    (rol x n result).2.getLsbD ((i + n.toNat) % w) = x.getLsbD i

variable {x n result : BitVec w}

/-! ## Which shifts are evaluated -/

theorem shl_isSome_iff {c : Nat} : (C.shl x c).isSome ↔ c < w := by
  unfold C.shl
  split <;> simp_all

theorem shr_isSome_iff {c : Nat} : (C.shr x c).isSome ↔ c < w := by
  unfold C.shr
  split <;> simp_all

/-- The complementary count is below the width for the counts it completes, and
for those beyond it the count itself is not. -/
theorem complement_toNat (small : n.toNat ≤ w) : (complement n).toNat = w - n.toNat := by
  have wide : w % 2 ^ w = w := Nat.mod_eq_of_lt Nat.lt_two_pow_self
  have below : n ≤ BitVec.ofNat w w := by
    rw [BitVec.le_def, BitVec.toNat_ofNat, wide]
    exact small
  rw [complement, BitVec.toNat_sub_of_le below, BitVec.toNat_ofNat, wide]

/-- A count and its complement are both below the width when the count is not
`0` and is below the width. -/
theorem both_below_iff : (n.toNat < w ∧ (complement n).toNat < w) ↔ 0 < n.toNat ∧ n.toNat < w := by
  constructor
  · rintro ⟨below, rest⟩
    rw [complement_toNat below.le] at rest
    omega
  · rintro ⟨positive, below⟩
    rw [complement_toNat below.le]
    omega

theorem rotateLFunc_isSome_iff : (Strict.rotateLFunc x n result).isSome ↔ 0 < n.toNat ∧ n.toNat < w := by
  rw [← both_below_iff]
  unfold Strict.rotateLFunc C.shl C.shr
  split <;> split <;> simp_all

theorem rotateRFunc_isSome_iff : (Strict.rotateRFunc x n result).isSome ↔ 0 < n.toNat ∧ n.toNat < w := by
  rw [← both_below_iff]
  unfold Strict.rotateRFunc C.shl C.shr
  split <;> split <;> simp_all

/-! ## What they compute -/

theorem shiftLFunc_value (t : Target) (small : n.toNat < w) :
    (shiftLFunc t x n result).2 = BitVec.ofNat w (x.toNat * 2 ^ n.toNat) := by
  apply BitVec.eq_of_toNat_eq
  rw [shiftLFunc, shiftLeft, if_pos small, BitVec.toNat_shiftLeft, Nat.shiftLeft_eq, BitVec.toNat_ofNat]

theorem shiftRFunc_value (t : Target) (small : n.toNat < w) :
    (shiftRFunc t x n result).2 = BitVec.ofNat w (x.toNat / 2 ^ n.toNat) := by
  have fits : x.toNat / 2 ^ n.toNat < 2 ^ w := lt_of_le_of_lt (Nat.div_le_self ..) x.isLt
  apply BitVec.eq_of_toNat_eq
  rw [shiftRFunc, shiftRight, if_pos small, BitVec.toNat_ushiftRight, Nat.shiftRight_eq_div_pow,
    BitVec.toNat_ofNat, Nat.mod_eq_of_lt fits]

theorem rotateLFunc_value (t : Target) (positive : 0 < n.toNat) (small : n.toNat < w) :
    (rotateLFunc t x n result).2 = x.rotateLeft n.toNat := by
  have rest := complement_toNat small.le
  rw [rotateLFunc, shiftLeft, if_pos small, shiftRight, if_pos (by omega), rest, BitVec.rotateLeft_def,
    Nat.mod_eq_of_lt small]

theorem rotateRFunc_value (t : Target) (positive : 0 < n.toNat) (small : n.toNat < w) :
    (rotateRFunc t x n result).2 = x.rotateRight n.toNat := by
  have rest := complement_toNat small.le
  rw [rotateRFunc, shiftRight, if_pos small, shiftLeft, if_pos (by omega), rest, BitVec.rotateRight_def,
    Nat.mod_eq_of_lt small]

/-- A function that always returns `0` computes a value on the counts on which
its evaluation is defined. -/
theorem computes_iff {func : MathFunc w} {strict : BitVec w → BitVec w → BitVec w → Option (Int × BitVec w)}
    {value : BitVec w} {p : Prop} (always : ∀ result, (func x n result).1 = 0)
    (defined : ∀ result, (strict x n result).isSome ↔ p) (right : p → ∀ result, (func x n result).2 = value) :
    Computes func strict x n value ↔ p := by
  constructor
  · intro computes
    exact (defined 0).mp (computes 0 (always 0)).1
  · intro holds result _
    exact ⟨(defined result).mpr holds, right holds result⟩

theorem definedBelowWidth (t : Target) (x n : BitVec w) :
    DefinedBelowWidth (shiftLFunc t) (shiftRFunc t) (rotateLFunc t) (rotateRFunc t) x n where
  shift_l := by
    refine computes_iff (fun _ => rfl) (fun _ => ?_) fun small _ => shiftLFunc_value t small
    rw [Strict.shiftLFunc, Option.isSome_map, shl_isSome_iff]
  shift_r := by
    refine computes_iff (fun _ => rfl) (fun _ => ?_) fun small _ => shiftRFunc_value t small
    rw [Strict.shiftRFunc, Option.isSome_map, shr_isSome_iff]
  rotate_l := by
    refine computes_iff (fun _ => rfl) (fun _ => rotateLFunc_isSome_iff) fun inside _ => ?_
    rw [rotateLFunc_value t inside.1 inside.2, Nat.mod_eq_of_lt inside.2]
  rotate_r := by
    refine computes_iff (fun _ => rfl) (fun _ => rotateRFunc_isSome_iff) fun inside _ => ?_
    rw [rotateRFunc_value t inside.1 inside.2, Nat.mod_eq_of_lt inside.2]

/-- Places of a word are words. -/
theorem toNat_place {c : Nat} (small : c < w) : (BitVec.ofNat w c).toNat = c := by
  rw [BitVec.toNat_ofNat, Nat.mod_eq_of_lt (small.trans Nat.lt_two_pow_self)]

theorem rotationLaws (t : Target) : RotationLaws (rotateLFunc t : MathFunc w) (rotateRFunc t) where
  right_undoes_left x n result result' positive small := by
    rw [rotateLFunc_value t positive small, rotateRFunc_value t positive small, rotateRight_rotateLeft]
  left_undoes_right x n result result' positive small := by
    rw [rotateRFunc_value t positive small, rotateLFunc_value t positive small, rotateLeft_rotateRight]
  left_is_right x n result result' positive small := by
    have rest : (BitVec.ofNat w (w - n.toNat)).toNat = w - n.toNat := toNat_place (by omega)
    rw [rotateLFunc_value t positive small, rotateRFunc_value t (by omega) (by omega), rest,
      rotateLeft_eq_rotateRight small]
  composition x m n result result' result'' pos_m small_m pos_n small_n := by
    rw [rotateLFunc_value t pos_m small_m, rotateLFunc_value t pos_n small_n, rotateLeft_rotateLeft]
    split
    · rename_i whole
      rw [whole, rotateLeft_width]
    · rename_i partly
      have inside : (m.toNat + n.toNat) % w < w := Nat.mod_lt _ (by omega)
      have left : 0 < (m.toNat + n.toNat) % w := by
        rcases Nat.lt_or_ge (m.toNat + n.toNat) w with low | high
        · rw [Nat.mod_eq_of_lt low]
          omega
        · rw [Nat.mod_eq_sub_mod high, Nat.mod_eq_of_lt (by omega)]
          omega
      rw [rotateLFunc_value t (by rw [toNat_place inside]; exact left) (by rw [toNat_place inside]; exact inside),
        toNat_place inside, BitVec.rotateLeft_mod_eq_rotateLeft]
  bits x n result positive small i inside := by
    rw [rotateLFunc_value t positive small, rotateLeft_bit_at inside]

end Counts

/-- **The shifts and rotations are defined exactly below the width**, the
rotations by `0` not. For every pair of words at both widths, whatever the
target makes of an undefined shift. -/
theorem shifts_defined_iff (t : Target) :
    (∀ x n : BitVec 64,
      DefinedBelowWidth (shiftLFunc t) (shiftRFunc t) (rotateLFunc t) (rotateRFunc t) x n) ∧
    ∀ x n : BitVec 32, DefinedBelowWidth (shiftLFunc32 t).outcome (shiftRFunc32 t).outcome
      (rotateLFunc32 t).outcome (rotateRFunc32 t).outcome x n :=
  ⟨definedBelowWidth t, definedBelowWidth t⟩

/-- Hardware that looks at the low bits of a count only shifts `1` by `64` to
`1`; and a rotation by `0` shifts by `64`. -/
theorem full_width_count :
    ¬ShiftsLeft (shiftLFunc ⟨fun w x n => x <<< (n % w), fun w x n => x >>> (n % w)⟩) (1 : BitVec 64) 64 ∧
      ¬RotatesLeft (rotateLFunc ⟨fun w x n => x <<< (n % w), fun w x n => x >>> (n % w)⟩) (1 : BitVec 64) 0 := by
  constructor
  · intro shifts
    have value := (shifts 0 rfl).2
    revert value
    decide
  · intro rotates
    have defined := (rotates 0 rfl).1
    revert defined
    decide

/-- **The algebra of rotations**, at both widths. -/
theorem rotation_algebra (t : Target) : RotationLaws (rotateLFunc t : MathFunc 64) (rotateRFunc t) ∧
    RotationLaws (rotateLFunc32 t).outcome (rotateRFunc32 t).outcome :=
  ⟨rotationLaws t, rotationLaws t⟩

end NetCalc
