import NetCalc.Lib.CInt

/-!
# C expressions that may be undefined

An operation of the language is a partial function of its operands: signed
arithmetic whose value does not fit its type, a division by zero and a shift by
the width or more are `none`. `C.and` and `C.or` leave out their second operand
where C does. An expression written with these is `some` exactly when its
evaluation meets nothing undefined.
-/

namespace NetCalc.Lib

set_option autoImplicit false

/-- A signed object of `w` bits can hold `v`. -/
def Fits (w : Nat) (v : Int) : Prop := intMin w ≤ v ∧ v ≤ intMax w

instance (w : Nat) (v : Int) : Decidable (Fits w v) := inferInstanceAs (Decidable (_ ∧ _))

namespace C

/-- The value of a signed expression of `w` bits. -/
def value (w : Nat) (v : Int) : Option Int := if Fits w v then some v else none

/-- `a + b`. -/
def add (w : Nat) (a b : Int) : Option Int := value w (a + b)

/-- `a - b`. -/
def sub (w : Nat) (a b : Int) : Option Int := value w (a - b)

/-- `a * b`. -/
def mul (w : Nat) (a b : Int) : Option Int := value w (a * b)

/-- `a / b`. -/
def div (w : Nat) (a b : Int) : Option Int := if b = 0 then none else value w (a.tdiv b)

/-- `a % b`, which is undefined where `a / b` is. -/
def rem (w : Nat) (a b : Int) : Option Int := (div w a b).map fun _ => a.tmod b

/-- `x << n`, unsigned. -/
def shl {w : Nat} (x : BitVec w) (n : Nat) : Option (BitVec w) := if n < w then some (x <<< n) else none

/-- `x >> n`, unsigned. -/
def shr {w : Nat} (x : BitVec w) (n : Nat) : Option (BitVec w) := if n < w then some (x >>> n) else none

/-- `p && q`. -/
def and (p : Bool) (q : Option Bool) : Option Bool := if p then q else some false

/-- `p || q`. -/
def or (p q : Option Bool) : Option Bool := p.bind fun p => if p then some true else q

end C

variable {w : Nat}

theorem intMin_eq (w : Nat) : intMin w = -intMax w - 1 := by
  unfold intMin intMax
  omega

theorem intMax_nonneg (w : Nat) : 0 ≤ intMax w := by
  have pos : (0 : Int) < 2 ^ (w - 1) := Int.pow_pos (by decide)
  unfold intMax
  omega

theorem fits_zero : Fits w 0 := by
  have nonneg := intMax_nonneg w
  have low := intMin_eq w
  unfold Fits
  omega

/-- The signed value of a word fits. -/
theorem fits_toInt (x : BitVec w) : Fits w x.toInt := by
  have low := x.le_toInt
  have high := x.toInt_lt
  unfold Fits intMin intMax
  omega

/-- A word holds a value that fits. -/
theorem toInt_ofInt_of_fits (pos : 0 < w) {v : Int} (fits : Fits w v) : (BitVec.ofInt w v).toInt = v := by
  unfold Fits intMin intMax at fits
  exact BitVec.toInt_ofInt_eq_self pos fits.1 (by omega)

/-- No other value comes out of a word. -/
theorem toInt_ofInt_iff (pos : 0 < w) (v : Int) : (BitVec.ofInt w v).toInt = v ↔ Fits w v := by
  constructor
  · intro same
    rw [← same]
    exact fits_toInt _
  · exact toInt_ofInt_of_fits pos

/-- What fits is stored unchanged. -/
theorem narrow_eq_iff (pos : 0 < w) (v : Int) : narrow w v = v ↔ Fits w v := by
  rw [narrow, ← BitVec.toInt_ofInt]
  exact toInt_ofInt_iff pos v

/-- A quotient of a value that fits does, the least by `-1` apart. -/
theorem fits_tdiv {a b : Int} (fits : Fits w a) (room : ¬(a = intMin w ∧ b = -1)) : Fits w (a.tdiv b) := by
  have smaller : (a.tdiv b).natAbs ≤ a.natAbs := by
    rw [Int.natAbs_tdiv]
    exact Nat.div_le_self ..
  have low := intMin_eq w
  have nonneg := intMax_nonneg w
  unfold Fits at *
  -- only the least value has an absolute value that does not fit
  by_cases least : a = intMin w
  · by_cases one : b = 1
    · rw [one, Int.tdiv_one]
      exact fits
    by_cases zero : b = 0
    · rw [zero, Int.tdiv_zero]
      omega
    · have half : (a.tdiv b).natAbs ≤ a.natAbs / 2 := by
        rw [Int.natAbs_tdiv]
        exact Nat.div_le_div_left (by omega) (by decide)
      omega
  · omega

namespace C

theorem value_of_fits {v : Int} (fits : Fits w v) : value w v = some v := if_pos fits

theorem value_eq_some_iff {v r : Int} : value w v = some r ↔ Fits w v ∧ v = r := by
  unfold value
  split <;> simp_all

theorem value_isSome_iff {v : Int} : (value w v).isSome ↔ Fits w v := by
  unfold value
  split <;> simp_all

/-- An expression around a signed one is defined where both are. -/
theorem value_bind_isSome_iff {β : Type} {v : Int} {f : Int → Option β} :
    ((value w v).bind f).isSome ↔ Fits w v ∧ (f v).isSome := by
  unfold value
  split <;> simp_all

theorem div_value {a b q : Int} (h : div w a b = some q) : a.tdiv b = q := by
  unfold div at h
  split at h
  · cases h
  · exact (value_eq_some_iff.mp h).2

theorem div_of_fits {a b : Int} (fits : Fits w a) (nonzero : b ≠ 0) (room : ¬(a = intMin w ∧ b = -1)) :
    div w a b = some (a.tdiv b) := by
  rw [div, if_neg nonzero]
  exact value_of_fits (fits_tdiv fits room)

end C

end NetCalc.Lib
