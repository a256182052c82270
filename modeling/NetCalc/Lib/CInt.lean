import Mathlib.Tactic.NormNum

/-!
# C integers as values

A C integer object of `bits` bits holds an `Int` between `-2^(bits-1)` and
`2^(bits-1) - 1`. `narrow bits` is what a conversion to that type stores: the
value itself when it fits, and its residue when it does not.
-/

namespace NetCalc.Lib

set_option autoImplicit false

/-- The value a signed object of `bits` bits holds after `v` is stored in it. -/
def narrow (bits : Nat) (v : Int) : Int := v.bmod (2 ^ bits)

/-- The largest value of a signed type of `bits` bits. -/
def intMax (bits : Nat) : Int := 2 ^ (bits - 1) - 1

/-- The least value of a signed type of `bits` bits. -/
def intMin (bits : Nat) : Int := -2 ^ (bits - 1)

/-- A value that fits is stored unchanged. -/
theorem narrow_of_fits {bits : Nat} {v : Int} (pos : 0 < bits) (low : -2 ^ (bits - 1) ≤ v)
    (high : v < 2 ^ (bits - 1)) : narrow bits v = v := by
  obtain ⟨k, rfl⟩ : ∃ k, bits = k + 1 := ⟨bits - 1, by omega⟩
  simp only [Nat.add_sub_cancel] at low high
  have double : ((2 ^ (k + 1) : Nat) : Int) = 2 ^ k * 2 := by
    rw [Nat.pow_succ]; push_cast; rfl
  unfold narrow
  apply Int.bmod_eq_of_le
  · rw [double]; omega
  · rw [double]; omega

/-- What is stored never exceeds the type's largest value. -/
theorem narrow_le (bits : Nat) (v : Int) (pos : 0 < bits) : narrow bits v ≤ intMax bits := by
  obtain ⟨k, rfl⟩ : ∃ k, bits = k + 1 := ⟨bits - 1, by omega⟩
  have double : ((2 ^ (k + 1) : Nat) : Int) = 2 ^ k * 2 := by
    rw [Nat.pow_succ]; push_cast; rfl
  have hp : 0 < 2 ^ (k + 1) := Nat.pow_pos (by decide)
  have h := Int.bmod_lt (x := v) hp
  unfold narrow intMax
  rw [Nat.add_sub_cancel]
  rw [double] at h
  omega

end NetCalc.Lib
