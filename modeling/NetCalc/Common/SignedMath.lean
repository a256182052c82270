import NetCalc.Common.StrictMath

/-!
# Are the signed operations exact?

`+`, `-`, `*`, `/` and `%` compute in a machine word what is defined on the
integers. `ExactOrRefused` says what the validators are for: an operation
answers with the integer result when a word can hold it, and otherwise refuses
and leaves its output alone.

Addition and multiplication do (`add_exact`, `multiplication_exact`).
`validate_sub` is off by one at both ends of the range, and looks at no operand
that is zero: a difference of `2 ^ (w - 1)` is wrapped around, and a difference
of `-2 ^ (w - 1)` is refused although it fits (`sub_exact_iff`). Division and
remainder belong together (`division_fits`); the least value, which has no
absolute value, does no harm as a divisor.
-/

namespace NetCalc

set_option autoImplicit false
open NetCalc.Lib

/-- What an operation at the width 32 leaves, without what it prints. -/
def MathFunc32.outcome (func : MathFunc32) : MathFunc 32 := fun num1 num2 result =>
  ((func num1 num2 result).err, (func num1 num2 result).value)

section Exact
variable {w : Nat}

/-- An operation whose result on `a` and `b` is `exact` answers with it, or
refuses because it does not fit. -/
structure ExactOrRefused (func : MathFunc w) (a b : BitVec w) (exact : Int) : Prop where
  accepts : ∀ result, (func a b result).1 = 0 ↔ Fits w exact
  answers : ∀ result, Fits w exact → (func a b result).2.toInt = exact
  refuses : ∀ result, ¬Fits w exact → (func a b result).2 = result

/-- Addition and subtraction are exact or refused on `a` and `b`, and no
expression of their validators overflows. -/
structure AddSubExact (add sub : MathFunc w) (a b : BitVec w) : Prop where
  add_exact : ExactOrRefused add a b (a.toInt + b.toInt)
  sub_exact : ExactOrRefused sub a b (a.toInt - b.toInt)
  add_defined : (Strict.validateAdd a b).isSome
  sub_defined : (Strict.validateSub a b).isSome

/-- Multiplication is exact or refused on `a` and `b`, and no division of its
validator divides by zero or overflows. -/
structure MultExact (mult : MathFunc w) (a b : BitVec w) : Prop where
  exact : ExactOrRefused mult a b (a.toInt * b.toInt)
  defined : (Strict.validateMulti a b).isSome

/-- Division and remainder fit together on `a` and `b`. -/
structure DivModFit (div mod : MathFunc w) (a b : BitVec w) : Prop where
  div_accepts : ∀ result, (div a b result).1 = 0 ↔ b.toInt ≠ 0 ∧ ¬(a.toInt = intMin w ∧ b.toInt = -1)
  mod_accepts : ∀ result, (mod a b result).1 = 0 ↔ b.toInt ≠ 0
  div_refuses : ∀ result, (div a b result).1 ≠ 0 → (div a b result).2 = result
  mod_refuses : ∀ result, (mod a b result).1 ≠ 0 → (mod a b result).2 = result
  identity : ∀ result result', (div a b result).1 = 0 → (mod a b result').1 = 0 →
    a.toInt = (div a b result).2.toInt * b.toInt + (mod a b result').2.toInt
  remainder : ∀ result, (mod a b result).1 = 0 →
    (mod a b result).2.toInt.natAbs < b.toInt.natAbs ∧
      ((mod a b result).2.toInt = 0 ∨ (mod a b result).2.toInt.sign = a.toInt.sign)
  least : ∀ result, a.toInt = intMin w → b.toInt = -1 → (mod a b result).2.toInt = 0
  div_defined : ∀ result, (Strict.divFunc a b result).isSome
  mod_defined : ∀ result, (Strict.modFunc a b result).isSome

variable {a b : BitVec w}

/-- An operation behind a validator is exact when the validator decides whether
the result fits. -/
theorem exact_iff_validator {func : MathFunc w} {err exact : Int} (pos : 0 < w)
    (computes : ∀ result, func a b result = if err ≠ 0 then (err, result) else (0, BitVec.ofInt w exact)) :
    ExactOrRefused func a b exact ↔ (err = 0 ↔ Fits w exact) := by
  have status : ∀ result, (func a b result).1 = 0 ↔ err = 0 := by
    intro result
    rw [computes]
    split
    · exact Iff.rfl
    · exact iff_of_true rfl (not_not.mp ‹_›)
  constructor
  · intro h
    exact (status 0).symm.trans (h.accepts 0)
  · intro decides
    refine ⟨fun result => (status result).trans decides, ?_, ?_⟩
    · intro result fits
      rw [computes, if_neg (not_not.mpr (decides.mpr fits))]
      exact toInt_ofInt_of_fits pos fits
    · intro result unfit
      rw [computes, if_pos (mt decides.mp unfit)]

/-! ## Addition and subtraction -/

theorem validateAdd_eq_zero_iff : validateAdd a b = 0 ↔ Fits w (a.toInt + b.toInt) := by
  have one := fits_toInt a
  have two := fits_toInt b
  unfold Fits at *
  unfold validateAdd
  split
  · simp
    omega
  split
  · simp
    omega
  · simp
    omega

/-- Where the validator of the subtraction decides rightly. -/
theorem validateSub_decides_iff : (validateSub a b = 0 ↔ Fits w (a.toInt - b.toInt)) ↔
    a.toInt - b.toInt ≠ intMax w + 1 ∧ a.toInt - b.toInt ≠ intMin w := by
  have one := fits_toInt a
  have two := fits_toInt b
  have low := intMin_eq w
  unfold Fits at *
  unfold validateSub
  split
  · simp
    omega
  split
  · simp
    omega
  · simp
    omega

theorem addFunc_computes (result : BitVec w) : addFunc a b result =
    if validateAdd a b ≠ 0 then (validateAdd a b, result) else (0, BitVec.ofInt w (a.toInt + b.toInt)) := by
  unfold addFunc
  dsimp only
  split
  · rfl
  · rename_i fits
    rw [not_not.mp fits]

/-- **Addition is exact or refused.** -/
theorem add_exact (pos : 0 < w) (a b : BitVec w) : ExactOrRefused addFunc a b (a.toInt + b.toInt) :=
  (exact_iff_validator pos addFunc_computes).mpr validateAdd_eq_zero_iff

/-- **Subtraction is exact or refused, except for a difference of `2 ^ (w - 1)`
or its negative.** -/
theorem sub_exact_iff (pos : 0 < w) (a b : BitVec w) :
    ExactOrRefused subFunc a b (a.toInt - b.toInt) ↔
      a.toInt - b.toInt ≠ intMax w + 1 ∧ a.toInt - b.toInt ≠ intMin w :=
  (exact_iff_validator pos fun _ => rfl).trans validateSub_decides_iff

theorem addSubExact_iff (pos : 0 < w) (a b : BitVec w) :
    AddSubExact addFunc subFunc a b ↔ (a.toInt - b.toInt).natAbs ≠ 2 ^ (w - 1) := by
  have outside : (a.toInt - b.toInt ≠ intMax w + 1 ∧ a.toInt - b.toInt ≠ intMin w) ↔
      (a.toInt - b.toInt).natAbs ≠ 2 ^ (w - 1) := by
    rw [Ne, Ne, Ne, Int.natAbs_eq_iff, not_or, Nat.cast_pow, Nat.cast_ofNat, intMax, intMin, sub_add_cancel]
  rw [← outside, ← sub_exact_iff pos]
  constructor
  · exact AddSubExact.sub_exact
  · intro exact
    refine ⟨add_exact pos a b, exact, ?_, ?_⟩
    · rw [Strict.validateAdd_defined]
      rfl
    · rw [Strict.validateSub_defined]
      rfl

/-! ## Multiplication -/

section Quotient
variable {c v n : Int}

/-- A quotient rounded down is compared with by multiplying. -/
theorem tdiv_lt_iff (pos : 0 < c) (nonneg : 0 ≤ n) : n.tdiv c < v ↔ n < v * c := by
  rw [Int.tdiv_eq_ediv_of_nonneg nonneg, Int.ediv_lt_iff_lt_mul pos]

/-- So is one rounded up. -/
theorem lt_tdiv_iff (pos : 0 < c) (nonpos : n ≤ 0) : v < n.tdiv c ↔ v * c < n := by
  have rounded : n.tdiv c = -((-n).tdiv c) := by rw [Int.neg_tdiv, Int.neg_neg]
  have mirrored := tdiv_lt_iff (v := -v) pos (Int.neg_nonneg_of_nonpos nonpos)
  rw [Int.neg_mul] at mirrored
  omega

end Quotient

/-- The test for overflow. -/
theorem overflows_iff {x y : Int} : ((x > 0 ∧ y > 0 ∧ x > (intMax w).tdiv y) ∨
    (x < 0 ∧ y < 0 ∧ x < (intMax w).tdiv y)) ↔ intMax w < x * y := by
  have nonneg := intMax_nonneg w
  have both_negative : y < 0 → (x < (intMax w).tdiv y ↔ intMax w < x * y) := by
    intro negative
    rw [← Int.neg_tdiv_neg, lt_tdiv_iff (Int.neg_pos_of_neg negative) (by omega), Int.mul_neg]
    omega
  constructor
  · rintro (⟨_, pos, large⟩ | ⟨_, neg, large⟩)
    · exact (tdiv_lt_iff pos nonneg).mp large
    · exact (both_negative neg).mp large
  · intro large
    rcases mul_pos_iff.mp (lt_of_le_of_lt nonneg large) with ⟨pos1, pos2⟩ | ⟨neg1, neg2⟩
    · exact .inl ⟨pos1, pos2, (tdiv_lt_iff pos2 nonneg).mpr large⟩
    · exact .inr ⟨neg1, neg2, (both_negative neg2).mpr large⟩

/-- The test for underflow. -/
theorem underflows_iff {x y : Int} : ((x < 0 ∧ y > 0 ∧ x < (intMin w).tdiv y) ∨
    (x > 0 ∧ y < 0 ∧ y < (intMin w).tdiv x)) ↔ x * y < intMin w := by
  have nonneg := intMax_nonneg w
  have low := intMin_eq w
  constructor
  · rintro (⟨_, pos, small⟩ | ⟨pos, _, small⟩)
    · exact (lt_tdiv_iff pos (by omega)).mp small
    · rw [Int.mul_comm]
      exact (lt_tdiv_iff pos (by omega)).mp small
  · intro small
    rcases mul_neg_iff.mp (lt_trans small (by omega)) with ⟨pos, neg⟩ | ⟨neg, pos⟩
    · rw [Int.mul_comm] at small
      exact .inr ⟨pos, neg, (lt_tdiv_iff pos (by omega)).mpr small⟩
    · exact .inl ⟨neg, pos, (lt_tdiv_iff pos (by omega)).mpr small⟩

/-- `validate_multi` decides whether the product fits. -/
theorem validateMulti_eq_zero_iff : validateMulti a b = 0 ↔ Fits w (a.toInt * b.toInt) := by
  unfold validateMulti Fits
  rw [if_congr overflows_iff rfl (if_congr underflows_iff rfl rfl)]
  split
  · simp
    omega
  split
  · simp
    omega
  · simp
    omega

theorem multExact (pos : 0 < w) (a b : BitVec w) : MultExact multFunc a b where
  exact := (exact_iff_validator pos fun _ => rfl).mpr validateMulti_eq_zero_iff
  defined := by
    rw [Strict.validateMulti_defined]
    rfl

/-! ## Division and remainder -/

theorem validateDivide_eq_zero_iff :
    validateDivide a b = 0 ↔ b.toInt ≠ 0 ∧ ¬(a.toInt = intMin w ∧ b.toInt = -1) := by
  unfold validateDivide
  split
  · simp_all
  split
  · simp_all
  · exact iff_of_true rfl ⟨‹_›, ‹_›⟩

/-- `llabs` gives the absolute value where there is one. -/
theorem llabs_eq (pos : 0 < w) (b : BitVec w) :
    llabs b = if b.toInt = intMin w then intMin w else (b.toInt.natAbs : Int) := by
  have fits := fits_toInt b
  have low := intMin_eq w
  have nonneg := intMax_nonneg w
  unfold llabs
  split
  · rename_i least
    have wrapped : narrow w (-intMin w) = narrow w (intMin w) := by
      have double : -intMin w = intMin w + ((2 ^ w : Nat) : Int) := by
        obtain ⟨k, rfl⟩ : ∃ k, w = k + 1 := ⟨w - 1, by omega⟩
        rw [intMin, Nat.add_sub_cancel, Nat.pow_succ]
        push_cast
        omega
      rw [narrow, narrow, double, Int.add_bmod_right]
    have magnitude : (b.toInt.natAbs : Int) = -intMin w := by omega
    rw [magnitude, wrapped]
    exact (narrow_eq_iff pos _).mpr (by unfold Fits; omega)
  · unfold Fits at fits
    exact (narrow_eq_iff pos _).mpr (by unfold Fits; omega)

/-- **Taking the absolute value of the divisor does not change the remainder.** -/
theorem tmod_llabs (pos : 0 < w) (a : Int) (b : BitVec w) : a.tmod (llabs b) = a.tmod b.toInt := by
  rw [llabs_eq pos]
  split
  · rename_i least
    rw [least]
  · rcases Int.natAbs_eq b.toInt with same | negated
    · rw [← same]
    · rw [negated, Int.natAbs_neg, Int.natAbs_natCast, Int.tmod_neg]

/-- The remainder's division is defined for every divisor but `0`. -/
theorem rem_defined (wide : 1 < w) (nonzero : b.toInt ≠ 0) :
    C.rem w a.toInt (llabs b) = some (a.toInt.tmod (llabs b)) := by
  have least : intMin w ≤ -2 := by
    obtain ⟨k, rfl⟩ : ∃ k, w = k + 2 := ⟨w - 2, by omega⟩
    have grows : (0 : Int) < 2 ^ k := Int.pow_pos (by decide)
    show -2 ^ (k + 1) ≤ -2
    rw [Int.pow_succ]
    omega
  have divided : C.div w a.toInt (llabs b) = some (a.toInt.tdiv (llabs b)) := by
    rw [llabs_eq (by omega)]
    apply C.div_of_fits (fits_toInt a)
    · split <;> omega
    · split <;> omega
  rw [C.rem, divided]
  rfl

/-- A remainder has the sign of the dividend, and is smaller than both operands. -/
theorem tmod_bounds (x : Int) {y : Int} (nonzero : y ≠ 0) :
    (x.tmod y).natAbs < y.natAbs ∧ (x.tmod y).natAbs ≤ x.natAbs ∧ (x.tmod y = 0 ∨ (x.tmod y).sign = x.sign) := by
  have size := Int.natAbs_tmod x y
  have smaller := Nat.mod_le x.natAbs y.natAbs
  have below := Nat.mod_lt x.natAbs (Int.natAbs_pos.mpr nonzero)
  refine ⟨by omega, by omega, ?_⟩
  rw [Int.sign_tmod]
  split
  · rename_i divides
    exact .inl (Int.tmod_eq_zero_of_dvd divides)
  · exact .inr rfl

theorem fits_tmod {x y : Int} (fits : Fits w x) (nonzero : y ≠ 0) : Fits w (x.tmod y) := by
  obtain ⟨_, smaller, sign⟩ := tmod_bounds x nonzero
  have zero : Fits w 0 := fits_zero
  unfold Fits at *
  rcases sign with none_left | same
  · omega
  · rcases Int.lt_trichotomy x 0 with neg | rfl | pos
    · rw [Int.sign_eq_neg_one_of_neg neg, Int.sign_eq_neg_one_iff_neg] at same
      omega
    · omega
    · rw [Int.sign_eq_one_of_pos pos, Int.sign_eq_one_iff_pos] at same
      omega

theorem divFunc_computes (pos : 0 < w) (result : BitVec w) (ok : (divFunc a b result).1 = 0) :
    b.toInt ≠ 0 ∧ (divFunc a b result).2.toInt = a.toInt.tdiv b.toInt := by
  have valid := divFunc_ok.mp ok
  obtain ⟨nonzero, room⟩ := validateDivide_eq_zero_iff.mp valid
  unfold divFunc
  dsimp only
  rw [if_neg (not_not.mpr valid)]
  exact ⟨nonzero, toInt_ofInt_of_fits pos (fits_tdiv (fits_toInt a) room)⟩

theorem modFunc_computes (pos : 0 < w) (result : BitVec w) (nonzero : b.toInt ≠ 0) :
    (modFunc a b result).2.toInt = a.toInt.tmod b.toInt := by
  unfold modFunc
  rw [if_neg nonzero, tmod_llabs pos]
  exact toInt_ofInt_of_fits pos (fits_tmod (fits_toInt a) nonzero)

theorem divModFit (wide : 1 < w) (a b : BitVec w) : DivModFit divFunc modFunc a b where
  div_accepts _ := divFunc_ok.trans validateDivide_eq_zero_iff
  mod_accepts _ := modFunc_ok
  div_refuses result refused := by
    unfold divFunc
    exact congrArg Prod.snd (if_pos (mt divFunc_ok.mpr refused))
  mod_refuses result refused := by
    unfold modFunc
    rw [if_pos (not_not.mp (mt modFunc_ok.mpr refused))]
  identity result result' divided taken := by
    obtain ⟨nonzero, quotient⟩ := divFunc_computes (by omega) result divided
    rw [quotient, modFunc_computes (by omega) result' nonzero]
    exact (Int.tdiv_mul_add_tmod ..).symm
  remainder result taken := by
    have nonzero := modFunc_ok.mp taken
    obtain ⟨below, _, sign⟩ := tmod_bounds a.toInt nonzero
    rw [modFunc_computes (by omega) result nonzero]
    exact ⟨below, sign⟩
  least result _ minus := by
    rw [modFunc_computes (by omega) result (by omega), minus, Int.tmod_neg, Int.tmod_one]
  div_defined result := by
    unfold Strict.divFunc
    dsimp only
    split
    · rfl
    · rename_i valid
      obtain ⟨nonzero, room⟩ := validateDivide_eq_zero_iff.mp (not_not.mp valid)
      rw [C.div_of_fits (fits_toInt a) nonzero room]
      rfl
  mod_defined result := by
    unfold Strict.modFunc
    split
    · rfl
    · rw [rem_defined wide ‹_›]
      rfl

end Exact

/-- **Addition and subtraction are exact or refused, except where the
difference is the power of two that a word cannot hold, or its negative.** For
every pair of operands at both widths. -/
theorem add_sub_exact_iff (a b : BitVec 64) (c d : BitVec 32) :
    (AddSubExact addFunc subFunc a b ↔ (a.toInt - b.toInt).natAbs ≠ 2 ^ 63) ∧
      (AddSubExact addFunc32.outcome subFunc32.outcome c d ↔ (c.toInt - d.toInt).natAbs ≠ 2 ^ 31) :=
  ⟨addSubExact_iff (by decide) a b, addSubExact_iff (by decide) c d⟩

/-- `0 - INT64_MIN` is answered with `INT64_MIN`. -/
theorem least_subtracted_from_zero :
    ¬AddSubExact addFunc subFunc (0 : BitVec 64) (BitVec.intMin 64) := by
  intro h
  have fits := (h.sub_exact.accepts 0).mp (by decide)
  revert fits
  decide

/-- **Multiplication is exact or refused**, for every pair of operands at both
widths. -/
theorem multiplication_exact : (∀ a b : BitVec 64, MultExact multFunc a b) ∧
    ∀ a b : BitVec 32, MultExact multFunc32.outcome a b :=
  ⟨multExact (by decide), multExact (by decide)⟩

/-- **Division and remainder fit together**, for every pair of operands at both
widths. -/
theorem division_fits : (∀ a b : BitVec 64, DivModFit divFunc modFunc a b) ∧
    ∀ a b : BitVec 32, DivModFit divFunc32.outcome modFunc32.outcome a b :=
  ⟨divModFit (by decide), divModFit (by decide)⟩

end NetCalc
