import Mathlib.Algebra.BigOperators.Group.List.Basic
import Mathlib.Algebra.Order.BigOperators.Group.Finset
import NetCalc.Lib.Lts
import NetCalc.Lib.Tally

/-!
# Runs that are paid for

A machine whose parties take turns need not stop, but what it does can be
charged to somebody: each state is worth something, each label has a price, and
a step costs one more than it brings. `total` is the worth of finitely many
parties with a local state each, `bill` the prices of a run. `AtRest` is where a
machine is when some of its labels have nothing left to do.
-/

namespace NetCalc.Lib

set_option autoImplicit false

section Total
variable {ι α : Type} [Fintype ι]

/-- What the local states are worth together. -/
def total (f : ι → α) (worth : α → Nat) : Nat := ∑ i, worth (f i)

/-- One party's worth is exchanged for its new one. -/
theorem total_update [DecidableEq ι] (f : ι → α) (worth : α → Nat) (i : ι) (a : α) :
    total (Function.update f i a) worth + worth (f i) = total f worth + worth a := by
  unfold total
  rw [← Finset.add_sum_erase _ _ (Finset.mem_univ i), ← Finset.add_sum_erase _ _ (Finset.mem_univ i)]
  have others : ∀ j ∈ Finset.univ.erase i, worth (Function.update f i a j) = worth (f j) := by
    intro j hj
    rw [Function.update_of_ne (Finset.ne_of_mem_erase hj)]
  rw [Finset.sum_congr rfl others, Function.update_self]
  omega

/-- Parties that each gain `c` at most gain that often together. -/
theorem total_le {f g : ι → α} {worth worth' : α → Nat} (c : Nat)
    (each : ∀ i, worth' (g i) ≤ worth (f i) + c) : total g worth' ≤ total f worth + Fintype.card ι * c := by
  unfold total
  calc ∑ i, worth' (g i) ≤ ∑ i, (worth (f i) + c) := Finset.sum_le_sum fun i _ => each i
    _ = ∑ i, worth (f i) + Fintype.card ι * c := by
      rw [Finset.sum_add_distrib, Finset.sum_const, Finset.card_univ, smul_eq_mul]

/-- Parties that gain nothing. -/
theorem total_mono {f g : ι → α} {worth worth' : α → Nat} (each : ∀ i, worth' (g i) ≤ worth (f i)) :
    total g worth' ≤ total f worth :=
  Finset.sum_le_sum fun i _ => each i

end Total

namespace Lts
variable {S L : Type} {M : Lts S L}

/-- The prices of the labels of a run. -/
def bill (price : L → Nat) (ls : List L) : Nat := (ls.map price).sum

theorem bill_cons (price : L → Nat) (l : L) (ls : List L) : bill price (l :: ls) = price l + bill price ls :=
  List.sum_cons

/-- A run of free labels costs nothing. -/
theorem bill_free {price : L → Nat} {ls : List L} (free : ∀ l ∈ ls, price l = 0) : bill price ls = 0 := by
  apply List.sum_eq_zero
  intro c member
  obtain ⟨l, mem, rfl⟩ := List.mem_map.mp member
  exact free l mem

section Rules
variable {P : S → Prop}

/-- **Run rule for some labels.** What each of them keeps, a run of them keeps. -/
theorem run_induction_of_own {own : L → Prop} (keeps : ∀ s l t, own l → P s → M.step s l = some t → P t)
    {ls : List L} {s t : S} (start : P s) (alone : ∀ l ∈ ls, own l) (h : M.run s ls = some t) : P t := by
  induction ls generalizing s with
  | nil =>
    cases h
    exact start
  | cons l ls ih =>
    obtain ⟨u, taken, rest⟩ := run_cons_inv h
    obtain ⟨first, later⟩ := List.forall_mem_cons.mp alone
    exact ih (keeps s l u first start taken) later rest

variable (M) in
/-- None of the labels `own` is enabled. -/
def AtRest (own : L → Prop) (s : S) : Prop := ∀ l, own l → M.step s l = none

end Rules

end Lts

end NetCalc.Lib
