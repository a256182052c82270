/-!
# Answering a stream block by block

A reader cuts a stream into blocks of one width and answers them in turn. It
stops at the first block that is incomplete or that has no answer, or after
so many blocks. `answered` is what it has answered by then: the answer to
every block of a prefix of the stream (`answered_each`), and to no shorter a
prefix than there is (`answered_longest`).
-/

namespace NetCalc.Lib

set_option autoImplicit false

section Blocks
variable {α β : Type}

/-- The `i`-th block of a stream. -/
def block (width i : Nat) (xs : List α) : List α := (xs.drop (width * i)).take width

/-- The answers to the blocks of a stream, at most `n` of them, up to the first
that has none. -/
def answered (f : List α → Option β) (width : Nat) : Nat → List α → List β
  | 0, _ => []
  | n + 1, xs =>
    if width ≤ xs.length then
      match f (xs.take width) with
      | none => []
      | some y => y :: answered f width n (xs.drop width)
    else []

variable {f : List α → Option β} {width n k : Nat} {xs : List α}

theorem block_zero (width : Nat) (xs : List α) : block width 0 xs = xs.take width := rfl

theorem block_succ (width i : Nat) (xs : List α) : block width (i + 1) xs = block width i (xs.drop width) := by
  rw [block, block, List.drop_drop, Nat.mul_succ, Nat.add_comm]

/-- A complete block is as wide as the others. -/
theorem block_length (room : width * (k + 1) ≤ xs.length) : (block width k xs).length = width := by
  rw [Nat.mul_succ] at room
  rw [block, List.length_take, List.length_drop]
  omega

theorem answered_incomplete (short : xs.length < width) : answered f width n xs = [] := by
  cases n with
  | zero => rfl
  | succ n => rw [answered, if_neg (by omega)]

theorem answered_none (nothing : f (xs.take width) = none) : answered f width n xs = [] := by
  cases n with
  | zero => rfl
  | succ n =>
    rw [answered, nothing]
    split <;> rfl

theorem answered_some {y : β} (enough : width ≤ xs.length) (here : f (xs.take width) = some y) :
    answered f width (n + 1) xs = y :: answered f width n (xs.drop width) := by
  rw [answered, if_pos enough, here]

/-- Where two functions have the same answers to the blocks, the stream has. -/
theorem answered_congr {g : List α → Option β}
    (same : ∀ i, i < n → width * (i + 1) ≤ xs.length → f (block width i xs) = g (block width i xs)) :
    answered f width n xs = answered g width n xs := by
  induction n generalizing xs with
  | zero => rfl
  | succ n ih =>
    rw [answered, answered]
    by_cases enough : width ≤ xs.length
    · have first := same 0 (Nat.succ_pos n) (by rwa [Nat.zero_add, Nat.mul_one])
      rw [block_zero] at first
      have rest : answered f width n (xs.drop width) = answered g width n (xs.drop width) := by
        refine ih fun i small present => ?_
        rw [List.length_drop] at present
        have later := same (i + 1) (Nat.succ_lt_succ small) (by rw [Nat.mul_succ]; omega)
        rwa [block_succ] at later
      rw [first, rest]
    · rw [if_neg enough, if_neg enough]

/-- As many blocks as were answered are there, and no more than were wanted. -/
theorem answered_length (f : List α → Option β) (width n : Nat) (xs : List α) :
    (answered f width n xs).length ≤ n ∧ width * (answered f width n xs).length ≤ xs.length := by
  induction n generalizing xs with
  | zero => exact ⟨Nat.le_refl _, Nat.zero_le _⟩
  | succ n ih =>
    rw [answered]
    split
    · split
      · exact ⟨Nat.zero_le _, Nat.zero_le _⟩
      · rename_i enough y here
        obtain ⟨wanted, present⟩ := ih (xs.drop width)
        rw [List.length_drop] at present
        rw [List.length_cons, Nat.mul_succ]
        omega
    · exact ⟨Nat.zero_le _, Nat.zero_le _⟩

/-- Each answer is the answer to its own block. -/
theorem answered_each {i : Nat} {y : β} (here : (answered f width n xs)[i]? = some y) :
    f (block width i xs) = some y := by
  induction n generalizing xs i with
  | zero => cases here
  | succ n ih =>
    rw [answered] at here
    split at here
    · split at here
      · cases here
      · rename_i enough z found
        cases i with
        | zero =>
          rw [List.getElem?_cons_zero] at here
          rw [block_zero, found, here]
        | succ i =>
          rw [List.getElem?_cons_succ] at here
          rw [block_succ]
          exact ih here
    · cases here

/-- A prefix of complete blocks that all have an answer is answered. -/
theorem answered_longest (wanted : k ≤ n) (present : width * k ≤ xs.length)
    (each : ∀ i, i < k → (f (block width i xs)).isSome) : k ≤ (answered f width n xs).length := by
  induction n generalizing xs k with
  | zero => omega
  | succ n ih =>
    cases k with
    | zero => exact Nat.zero_le _
    | succ k =>
      rw [Nat.mul_succ] at present
      obtain ⟨y, here⟩ := Option.isSome_iff_exists.mp (each 0 (by omega))
      rw [block_zero] at here
      rw [answered_some (by omega) here, List.length_cons]
      refine Nat.succ_le_succ (ih (by omega) (by rw [List.length_drop]; omega) fun i small => ?_)
      rw [← block_succ]
      exact each (i + 1) (by omega)

/-- So many blocks are answered exactly when they are there and have answers. -/
theorem answered_reaches_iff (wanted : k ≤ n) : k ≤ (answered f width n xs).length ↔
    width * k ≤ xs.length ∧ ∀ i, i < k → (f (block width i xs)).isSome := by
  constructor
  · intro reached
    constructor
    · exact Nat.le_trans (Nat.mul_le_mul_left width reached) (answered_length ..).2
    · intro i small
      rw [answered_each (List.getElem?_eq_getElem (Nat.lt_of_lt_of_le small reached))]
      rfl
  · rintro ⟨present, each⟩
    exact answered_longest wanted present each

/-- All blocks are answered exactly when each has an answer. -/
theorem answered_all_iff (present : width * n ≤ xs.length) :
    (answered f width n xs).length = n ↔ ∀ i, i < n → (f (block width i xs)).isSome := by
  have bounded := (answered_length f width n xs).1
  rw [Nat.le_antisymm_iff, answered_reaches_iff (Nat.le_refl n)]
  simp only [bounded, present, true_and]

/-- To want fewer answers is to take the first of them. -/
theorem answered_take (f : List α → Option β) (width : Nat) (fewer : k ≤ n) (xs : List α) :
    (answered f width n xs).take k = answered f width k xs := by
  induction n generalizing k xs with
  | zero =>
    obtain rfl : k = 0 := by omega
    rfl
  | succ n ih =>
    cases k with
    | zero => rfl
    | succ k =>
      rw [answered, answered]
      split
      · cases f (xs.take width) with
        | none => rfl
        | some y => rw [List.take_succ_cons, ih (by omega)]
      · rfl

/-- A place in a sequence of blocks, each as wide as the others. -/
theorem flatten_getElem? {blocks : List (List α)} {i r : Nat} (each : ∀ b ∈ blocks, b.length = width)
    (small : r < width) : blocks.flatten[width * i + r]? = blocks[i]?.bind fun b => b[r]? := by
  induction blocks generalizing i with
  | nil => simp
  | cons b blocks ih =>
    have here : b.length = width := each b List.mem_cons_self
    rw [List.flatten_cons]
    cases i with
    | zero =>
      rw [Nat.mul_zero, Nat.zero_add, List.getElem?_append_left (by omega)]
      rfl
    | succ i =>
      rw [Nat.mul_succ, List.getElem?_append_right (by omega), List.getElem?_cons_succ,
        ← ih fun c member => each c (List.mem_cons_of_mem _ member), here]
      congr 1
      omega

/-- The blocks come out of their sequence again. -/
theorem block_flatten {blocks : List (List α)} {i : Nat} {b : List α} (each : ∀ b ∈ blocks, b.length = width)
    (here : blocks[i]? = some b) : block width i blocks.flatten = b := by
  induction blocks generalizing i with
  | nil => cases here
  | cons c blocks ih =>
    have first : c.length = width := each c List.mem_cons_self
    rw [List.flatten_cons]
    cases i with
    | zero =>
      cases here
      rw [block_zero, ← first, List.take_left]
    | succ i =>
      rw [block_succ, ← first, List.drop_left, first]
      exact ih (fun d member => each d (List.mem_cons_of_mem _ member)) here

end Blocks

end NetCalc.Lib
