import Mathlib.Algebra.BigOperators.Fin
import Mathlib.Algebra.Order.BigOperators.Group.Finset

/-!
# Counting the parties of a machine

A machine of finitely many parties keeps one local state for each. `tally f p`
is how many of the local states `f` satisfy the test `p`. One party's step is a
`Function.update`, and `tally_update` is its effect on a count.
-/

namespace NetCalc.Lib

set_option autoImplicit false

variable {ι α : Type} [Fintype ι]

/-- How many parties have a local state that passes `p`. -/
def tally (f : ι → α) (p : α → Bool) : Nat := ∑ i, if p (f i) then 1 else 0

/-- One party's contribution is exchanged for its new one. -/
theorem tally_update [DecidableEq ι] (f : ι → α) (p : α → Bool) (i : ι) (a : α) :
    tally (Function.update f i a) p + (if p (f i) then 1 else 0) =
      tally f p + (if p a then 1 else 0) := by
  unfold tally
  rw [← Finset.add_sum_erase _ _ (Finset.mem_univ i), ← Finset.add_sum_erase _ _ (Finset.mem_univ i)]
  have others : ∀ j ∈ Finset.univ.erase i,
      (if p (Function.update f i a j) then 1 else 0) = if p (f j) then 1 else 0 := by
    intro j hj
    rw [Function.update_of_ne (Finset.ne_of_mem_erase hj)]
  rw [Finset.sum_congr rfl others, Function.update_self]
  omega

/-- An update that keeps the test keeps the count. -/
theorem tally_update_same [DecidableEq ι] (f : ι → α) (p : α → Bool) (i : ι) (a : α)
    (same : p a = p (f i)) : tally (Function.update f i a) p = tally f p := by
  have h := tally_update f p i a
  rw [same] at h
  omega

/-- Local states that pass alike count alike. -/
theorem tally_congr {f g : ι → α} {p : α → Bool} (same : ∀ i, p (f i) = p (g i)) :
    tally f p = tally g p := by
  unfold tally
  simp only [same]

/-- A party that comes to pass adds one. -/
theorem tally_gain [DecidableEq ι] {f : ι → α} {p : α → Bool} {i : ι} {a : α}
    (before : p (f i) = false) (after : p a = true) :
    tally (Function.update f i a) p = tally f p + 1 := by
  have h := tally_update f p i a
  simp only [before, after, Bool.false_eq_true, if_false, if_true] at h
  omega

/-- A party that ceases to pass takes one away. -/
theorem tally_loss [DecidableEq ι] {f : ι → α} {p : α → Bool} {i : ι} {a : α}
    (before : p (f i) = true) (after : p a = false) :
    tally f p = tally (Function.update f i a) p + 1 := by
  have h := tally_update f p i a
  simp only [before, after, Bool.false_eq_true, if_false, if_true] at h
  omega

/-- One party can take away one at most. -/
theorem tally_le_update [DecidableEq ι] (f : ι → α) (p : α → Bool) (i : ι) (a : α) :
    tally f p ≤ tally (Function.update f i a) p + 1 := by
  have h := tally_update f p i a
  have one : (if p (f i) = true then 1 else 0) ≤ 1 := by split <;> omega
  omega

theorem tally_eq_zero {f : ι → α} {p : α → Bool} : tally f p = 0 ↔ ∀ i, p (f i) = false := by
  simp [tally]

theorem tally_pos {f : ι → α} {p : α → Bool} : 0 < tally f p ↔ ∃ i, p (f i) = true := by
  rw [Nat.pos_iff_ne_zero, ne_eq, tally_eq_zero]
  simp

/-- More parties pass, strictly when one is new. -/
theorem tally_lt {f g : ι → α} {p : α → Bool} (more : ∀ i, p (f i) = true → p (g i) = true)
    (fresh : ∃ i, p (f i) = false ∧ p (g i) = true) : tally f p < tally g p := by
  obtain ⟨i, before, after⟩ := fresh
  apply Finset.sum_lt_sum
  · intro j _
    by_cases hj : p (f j) = true
    · simp [hj, more j hj]
    · simp [hj]
  · exact ⟨i, Finset.mem_univ i, by simp [before, after]⟩

end NetCalc.Lib
