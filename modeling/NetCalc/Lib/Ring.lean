import Mathlib.Data.List.Basic

/-!
# Circular buffers as windows

A ring of `c` cells read from `front` for `n` places: place `i` is cell
`slot c front i = (front + i) % c`. `Window c front xs cells` says that the
ring's cells hold exactly the list `xs` from `front` on and nothing else; it
is kept by appending at the far end, by taking the first element, and by
clearing the places one after the other, which finds the elements of the list
in their order (`Window.drain_all`). Nothing is assumed about where the
window stands, so every statement covers the wrapped and the unwrapped case.
-/

namespace NetCalc.Lib

set_option autoImplicit false

/-- The cell of place `i` of a ring of `c` cells read from `front`. -/
def slot (c front i : Nat) : Nat := (front + i) % c

section Slots
variable {c front i j : Nat}

theorem slot_lt (hc : 0 < c) : slot c front i < c := Nat.mod_lt _ hc

theorem slot_zero (hf : front < c) : slot c front 0 = front := by
  simp [slot, Nat.mod_eq_of_lt hf]

/-- Two places of one lap are two cells. -/
theorem slot_inj (hi : i < c) (hj : j < c) (h : slot c front i = slot c front j) : i = j := by
  unfold slot at h
  rcases Nat.le_total i j with hle | hle
  · have hd := Nat.sub_mod_eq_zero_of_mod_eq h.symm
    rw [Nat.mod_eq_of_lt (by omega)] at hd
    omega
  · have hd := Nat.sub_mod_eq_zero_of_mod_eq h
    rw [Nat.mod_eq_of_lt (by omega)] at hd
    omega

/-- Reading from the next cell is reading one place further. -/
theorem slot_next : slot c (slot c front 1) i = slot c front (i + 1) := by
  simp only [slot, Nat.mod_add_mod]
  congr 1
  omega

/-- The last place but one is followed by the last. -/
theorem slot_succ : slot c (slot c front i) 1 = slot c front (i + 1) := by
  simp only [slot, Nat.mod_add_mod, Nat.add_assoc]

end Slots

section Windows
variable {α : Type} {c front : Nat} {xs : List α} {cells : List (Option α)}

/-- The `c` cells hold `xs` from `front` on and are empty elsewhere. -/
structure Window (c front : Nat) (xs : List α) (cells : List (Option α)) : Prop where
  length : cells.length = c
  front_lt : front < c
  fits : xs.length ≤ c
  held : ∀ i (hi : i < xs.length), cells[slot c front i]? = some (some xs[i])
  empty : ∀ j, j < c → (∀ i, i < xs.length → slot c front i ≠ j) → cells[j]? = some none

theorem Window.pos (h : Window c front xs cells) : 0 < c := by
  have := h.front_lt
  omega

/-- An empty ring is an empty window, wherever it is read from. -/
theorem window_replicate (hf : front < c) : Window c front ([] : List α) (List.replicate c none) where
  length := List.length_replicate
  front_lt := hf
  fits := by simp
  held := by intro i hi; simp at hi
  empty := by intro j hj _; simp [hj]

/-- An empty window may be read from any cell. -/
theorem Window.move (h : Window c front ([] : List α) cells) {front' : Nat} (hf : front' < c) :
    Window c front' [] cells where
  length := h.length
  front_lt := hf
  fits := h.fits
  held := by intro i hi; simp at hi
  empty := by intro j hj _; exact h.empty j hj (by intro i hi; simp at hi)

/-- Writing the first free place appends. -/
theorem Window.push (h : Window c front xs cells) (room : xs.length < c) (x : α) :
    Window c front (xs ++ [x]) (cells.set (slot c front xs.length) (some x)) where
  length := by rw [List.length_set]; exact h.length
  front_lt := h.front_lt
  fits := by simp; omega
  held := by
    intro i hi
    rw [List.length_append, List.length_singleton] at hi
    rw [List.getElem?_set]
    by_cases old : i < xs.length
    · have apart : slot c front xs.length ≠ slot c front i := by
        intro same
        have := slot_inj room (by omega) same
        omega
      rw [if_neg apart, h.held i old, List.getElem_append_left old]
    · have last : i = xs.length := by omega
      subst last
      have inside : slot c front xs.length < cells.length := by rw [h.length]; exact slot_lt h.pos
      simp [inside]
  empty := by
    intro j hj free
    rw [List.length_append, List.length_singleton] at free
    rw [List.getElem?_set, if_neg (free xs.length (by omega))]
    exact h.empty j hj fun i hi => free i (by omega)

/-- Emptying the first place removes the head. -/
theorem Window.pop {x : α} (h : Window c front (x :: xs) cells) :
    Window c (slot c front 1) xs (cells.set front none) where
  length := by rw [List.length_set]; exact h.length
  front_lt := slot_lt h.pos
  fits := by have := h.fits; simp at this; omega
  held := by
    intro i hi
    have fits := h.fits
    rw [List.length_cons] at fits
    have apart : front ≠ slot c front (i + 1) := by
      intro same
      have first : slot c front 0 = slot c front (i + 1) := by rwa [slot_zero h.front_lt]
      have := slot_inj h.pos (by omega : i + 1 < c) first
      omega
    rw [slot_next, List.getElem?_set, if_neg apart, h.held (i + 1) (by simpa using hi)]
    simp
  empty := by
    intro j hj free
    rw [List.getElem?_set]
    by_cases head : front = j
    · subst head
      simp [h.length, h.front_lt]
    · rw [if_neg head]
      apply h.empty j hj
      intro i hi
      cases i with
      | zero => rw [slot_zero h.front_lt]; exact head
      | succ i => rw [← slot_next]; exact free i (by simpa using hi)

/-- The head of a non-empty window stands at `front`. -/
theorem Window.head {x : α} (h : Window c front (x :: xs) cells) : cells[front]? = some (some x) := by
  have := h.held 0 (by simp)
  rwa [slot_zero h.front_lt] at this

theorem filterMap_getElem?_range (xs : List α) :
    (List.range xs.length).filterMap (fun i => xs[i]?) = xs := by
  induction xs with
  | nil => rfl
  | cons x xs ih =>
    rw [List.length_cons, List.range_succ_eq_map, List.filterMap_cons, List.filterMap_map]
    simpa [Function.comp_def] using ih

/-- Reading the places one after the other gives the list. -/
theorem Window.read (h : Window c front xs cells) :
    (List.range xs.length).filterMap (fun i => (cells[slot c front i]?).join) = xs := by
  have each : ∀ i ∈ List.range xs.length, (cells[slot c front i]?).join = xs[i]? := by
    intro i hi
    have bound := List.mem_range.mp hi
    rw [h.held i bound, List.getElem?_eq_getElem bound]
    rfl
  rw [List.filterMap_congr each]
  exact filterMap_getElem?_range xs

/-- Writing the same value in the places of `is`, one after the other. -/
def wipe (c front : Nat) (is : List Nat) (cells : List (Option α)) : List (Option α) :=
  is.foldl (fun cells i => cells.set (slot c front i) none) cells

theorem wipe_length (is : List Nat) (cells : List (Option α)) :
    (wipe c front is cells).length = cells.length := by
  induction is generalizing cells with
  | nil => rfl
  | cons i is ih => simpa [wipe] using ih (cells.set (slot c front i) none)

theorem wipe_cell (is : List Nat) (cells : List (Option α)) (j : Nat) (hj : j < cells.length) :
    (wipe c front is cells)[j]? = if j ∈ is.map (slot c front) then some none else cells[j]? := by
  induction is generalizing cells with
  | nil => simp [wipe]
  | cons i is ih =>
    have step := ih (cells.set (slot c front i) none) (by rwa [List.length_set])
    simp only [wipe, List.foldl_cons] at step ⊢
    rw [step, List.map_cons, List.getElem?_set]
    by_cases later : j ∈ is.map (slot c front)
    · simp [later]
    · by_cases here : slot c front i = j
      · subst here
        simp [hj]
      · have away : j ≠ slot c front i := fun same => here same.symm
        simp [later, here, away]

/-- Wiping every place of a window leaves every cell empty. -/
theorem Window.wipe_all (h : Window c front xs cells) :
    wipe c front (List.range xs.length) cells = List.replicate c none := by
  apply List.ext_getElem?
  intro j
  by_cases hj : j < c
  · rw [wipe_cell _ _ _ (by rw [h.length]; exact hj), List.getElem?_replicate, if_pos hj]
    split
    · rfl
    · rename_i unwiped
      apply h.empty j hj
      intro i hi same
      apply unwiped
      exact List.mem_map.mpr ⟨i, List.mem_range.mpr hi, same⟩
  · have out : (wipe c front (List.range xs.length) cells).length ≤ j := by
      rw [wipe_length, h.length]; omega
    rw [List.getElem?_eq_none out, List.getElem?_eq_none (by simp; omega)]

/-- An empty window leaves nothing open about its cells. -/
theorem Window.eq_replicate (h : Window c front ([] : List α) cells) : cells = List.replicate c none :=
  h.wipe_all

/-- Emptying a place, and keeping what was found in it. -/
def drain (c front : Nat) (s : List (Option α) × List α) (i : Nat) : List (Option α) × List α :=
  (s.1.set (slot c front i) none, s.2 ++ (s.1[slot c front i]?).join.toList)

/-- Draining leaves what wiping leaves. -/
theorem drain_cells (is : List Nat) (s : List (Option α) × List α) :
    (is.foldl (drain c front) s).1 = wipe c front is s.1 := by
  induction is generalizing s with
  | nil => rfl
  | cons i is ih => exact ih (drain c front s i)

/-- Draining the places of a window one after the other finds each element
once, in its order. -/
theorem Window.drain_all {k : Nat} (h : Window c (slot c front k) xs cells) (found : List α) :
    ((List.range' k xs.length).foldl (drain c front) (cells, found)).2 = found ++ xs := by
  induction xs generalizing k cells found with
  | nil => simp
  | cons x xs ih =>
    have next := h.pop
    rw [slot_succ] at next
    have here : drain c front (cells, found) k = (cells.set (slot c front k) none, found ++ [x]) := by
      rw [drain, h.head]
      rfl
    rw [List.length_cons, List.range'_succ, List.foldl_cons, here, ih next, List.append_assoc]
    rfl

end Windows

end NetCalc.Lib
