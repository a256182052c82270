import Mathlib.Data.List.Basic
import Mathlib.Data.List.Perm.Basic

/-!
# Loops whose body may raise

A body that may raise is a function to `Option`: `none` is the exception. A
loop that meets one raises itself, whatever it has gathered by then. `collected`
appends for each number of a range, `summed` adds up and `chosen` keeps some of
a list. Each is characterised without its order of evaluation, which matters
for what is gathered and not for whether the loop raises.
-/

namespace NetCalc.Lib

set_option autoImplicit false

/-! ## Appending -/

section Collected
variable {α : Type} {f : Nat → Option α} {n : Nat} {xs : List α}

/-- A loop over the numbers below `n` that appends. -/
def collected (f : Nat → Option α) : Nat → Option (List α)
  | 0 => some []
  | n + 1 => do
    let xs ← collected f n
    let x ← f n
    some (xs ++ [x])

theorem collected_some_iff : collected f n = some xs ↔ xs.length = n ∧ ∀ i, i < n → f i = xs[i]? := by
  induction n generalizing xs with
  | zero =>
    rw [collected, Option.some.injEq]
    constructor
    · rintro rfl
      exact ⟨rfl, fun i small => absurd small (Nat.not_lt_zero i)⟩
    · rintro ⟨nothing, _⟩
      exact (List.length_eq_zero_iff.mp nothing).symm
  | succ n ih =>
    rw [collected]
    constructor
    · intro found
      obtain ⟨front, before, found⟩ := Option.bind_eq_some_iff.mp found
      obtain ⟨x, last, same⟩ := Option.bind_eq_some_iff.mp found
      obtain rfl := Option.some.inj same
      obtain ⟨length, each⟩ := ih.mp before
      refine ⟨by simp [length], fun i small => ?_⟩
      rcases Nat.lt_succ_iff_lt_or_eq.mp small with earlier | rfl
      · rw [List.getElem?_append_left (by omega)]
        exact each i earlier
      · rw [List.getElem?_append_right (by omega), length, Nat.sub_self, last]
        rfl
    · rintro ⟨length, each⟩
      have before : collected f n = some (xs.take n) := by
        refine ih.mpr ⟨by simp [length], fun i small => ?_⟩
        rw [List.getElem?_take_of_lt small]
        exact each i (by omega)
      have size : n < xs.length := by omega
      have last : f n = some xs[n] := by
        rw [each n (Nat.lt_succ_self n), List.getElem?_eq_getElem size]
      have whole : xs.take n ++ [xs[n]] = xs := by
        rw [← List.take_succ_eq_append_getElem size, List.take_of_length_le (by omega)]
      rw [before, last]
      exact congrArg some whole

theorem collected_none_iff : collected f n = none ↔ ∃ i, i < n ∧ f i = none := by
  induction n with
  | zero => simp [collected]
  | succ n ih =>
    rw [collected]
    cases before : collected f n with
    | none =>
      obtain ⟨i, small, raises⟩ := ih.mp before
      exact iff_of_true rfl ⟨i, by omega, raises⟩
    | some front =>
      have passed : ∀ i, i < n → f i ≠ none := fun i small raises => by
        rw [ih.mpr ⟨i, small, raises⟩] at before
        cases before
      cases last : f n with
      | none => exact iff_of_true rfl ⟨n, Nat.lt_succ_self n, last⟩
      | some x =>
        refine iff_of_false (by simp) ?_
        rintro ⟨i, small, raises⟩
        rcases Nat.lt_succ_iff_lt_or_eq.mp small with earlier | rfl
        · exact passed i earlier raises
        · rw [last] at raises
          cases raises

/-- A loop that does not raise collects something. -/
theorem collected_isSome_iff : (∃ xs, collected f n = some xs) ↔ ∀ i, i < n → (f i).isSome := by
  rw [← Option.isSome_iff_exists, Option.isSome_iff_ne_none, ne_eq, collected_none_iff]
  simp [Option.isSome_iff_ne_none]

end Collected

/-! ## Adding up -/

section Summed
variable {α β : Type} {f : α → Option Nat} {xs ys : List α}

/-- A loop that adds up. -/
def summed (f : α → Option Nat) : List α → Option Nat
  | [] => some 0
  | x :: xs => do
    let here ← f x
    let more ← summed f xs
    some (here + more)

theorem summed_cons (f : α → Option Nat) (x : α) (xs : List α) :
    summed f (x :: xs) = (f x).bind fun here => (summed f xs).map (here + ·) := by
  rw [summed]
  cases f x <;> cases summed f xs <;> rfl

theorem summed_map (g : β → α) (zs : List β) : summed f (zs.map g) = summed (fun z => f (g z)) zs := by
  induction zs with
  | nil => rfl
  | cons z zs ih => rw [List.map_cons, summed_cons, summed_cons, ih]

theorem summed_congr {g : α → Option Nat} (same : ∀ x ∈ xs, f x = g x) : summed f xs = summed g xs := by
  induction xs with
  | nil => rfl
  | cons x xs ih =>
    rw [summed_cons, summed_cons, same x List.mem_cons_self,
      ih fun y member => same y (List.mem_cons_of_mem x member)]

/-- It raises where the body does. -/
theorem summed_none_iff : summed f xs = none ↔ ∃ x ∈ xs, f x = none := by
  induction xs with
  | nil => simp [summed]
  | cons x xs ih =>
    rw [summed_cons]
    cases here : f x with
    | none => exact iff_of_true rfl ⟨x, List.mem_cons_self, here⟩
    | some a => simp [ih, here]

/-- It comes to nothing where the body does. -/
theorem summed_zero_iff : summed f xs = some 0 ↔ ∀ x ∈ xs, f x = some 0 := by
  induction xs with
  | nil => simp [summed]
  | cons x xs ih =>
    rw [summed_cons, List.forall_mem_cons, ← ih]
    cases f x with
    | none => simp
    | some a => cases summed f xs <;> simp

/-- What comes to nothing can be left out. -/
theorem summed_append_zero (nothing : summed f ys = some 0) : summed f (xs ++ ys) = summed f xs := by
  induction xs with
  | nil => exact nothing
  | cons x xs ih => rw [List.cons_append, summed_cons, summed_cons, ih]

/-- The order does not matter. -/
theorem summed_perm (order : xs.Perm ys) : summed f xs = summed f ys := by
  induction order with
  | nil => rfl
  | cons x _ ih => rw [summed_cons, summed_cons, ih]
  | swap x y xs =>
    rw [summed_cons, summed_cons, summed_cons, summed_cons]
    cases f x with
    | none => cases f y <;> rfl
    | some a =>
      cases f y with
      | none => rfl
      | some b =>
        cases summed f xs with
        | none => rfl
        | some c => exact congrArg some (Nat.add_left_comm b a c)
  | trans _ _ ih₁ ih₂ => rw [ih₁, ih₂]

/-- Where the body comes to nothing but for one element, it is what the body is there. -/
theorem summed_only {x : α} (distinct : xs.Nodup) (member : x ∈ xs) (others : ∀ y ∈ xs, y ≠ x → f y = some 0) :
    summed f xs = f x := by
  obtain ⟨ys, zs, rfl⟩ := List.append_of_mem member
  have first : (ys ++ x :: zs).Perm (x :: (ys ++ zs)) := List.perm_middle
  have absent : x ∉ ys ++ zs := (List.nodup_cons.mp (first.nodup_iff.mp distinct)).1
  have nothing : summed f (ys ++ zs) = some 0 := summed_zero_iff.mpr fun y inside =>
    others y (first.mem_iff.mpr (List.mem_cons_of_mem x inside)) fun same => absent (same ▸ inside)
  rw [summed_perm first, summed_cons, nothing]
  cases f x <;> rfl

end Summed

/-! ## Choosing -/

section Chosen
variable {α : Type} {p : α → Option Bool} {xs : List α}

/-- A loop that keeps the elements that pass a test. -/
def chosen (p : α → Option Bool) : List α → Option (List α)
  | [] => some []
  | x :: xs => do
    let passes ← p x
    let more ← chosen p xs
    some (if passes then x :: more else more)

/-- Elements that all pass are all kept. -/
theorem chosen_all (pass : ∀ x ∈ xs, p x = some true) : chosen p xs = some xs := by
  induction xs with
  | nil => rfl
  | cons x xs ih =>
    rw [chosen, pass x List.mem_cons_self, ih fun y member => pass y (List.mem_cons_of_mem x member)]
    rfl

end Chosen

end NetCalc.Lib
