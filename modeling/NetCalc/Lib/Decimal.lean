import NetCalc.Lib.Numeral

/-!
# Numbers written in decimal

`decimal` is what `printf` makes of a number for `%d`: a `-` if it is negative,
and its digits without leading zeros. What is written so is a numeral, and read
back it is the number that was written (`denotes_decimal`).
-/

namespace NetCalc.Lib

set_option autoImplicit false

/-- The digits of a number. -/
def digits (n : Nat) : List Byte :=
  if n < 10 then [BitVec.ofNat 8 (48 + n)] else digits (n / 10) ++ [BitVec.ofNat 8 (48 + n % 10)]

/-- A number as `%d` prints it, and `%u` where it is not negative. -/
def decimal (v : Int) : List Byte := if v < 0 then 45 :: digits v.natAbs else digits v.natAbs

section Digits
variable {n : Nat}

theorem toNat_digit (small : n < 10) : (BitVec.ofNat 8 (48 + n)).toNat = 48 + n := by
  rw [BitVec.toNat_ofNat]
  omega

theorem isDigit_digit (small : n < 10) : isDigit (BitVec.ofNat 8 (48 + n)) = true := by
  simp only [isDigit, toNat_digit small, decide_eq_true_eq]
  omega

theorem digits_isDigit : ∀ c ∈ digits n, isDigit c = true := by
  fun_induction digits n with
  | case1 n small =>
    intro c member
    rw [List.mem_singleton.mp member]
    exact isDigit_digit small
  | case2 n large ih =>
    intro c member
    rcases List.mem_append.mp member with front | last
    · exact ih c front
    · rw [List.mem_singleton.mp last]
      exact isDigit_digit (Nat.mod_lt _ (by decide))

theorem digits_ne_nil : digits n ≠ [] := by
  rw [digits]
  split
  · exact List.cons_ne_nil _ _
  · exact List.append_ne_nil_of_right_ne_nil _ (List.cons_ne_nil _ _)

/-- The digits denote the number. -/
theorem digitsValue_digits : digitsValue (digits n) = n := by
  fun_induction digits n with
  | case1 n small =>
    have digit := toNat_digit small
    simp only [digitsValue, List.foldl_cons, List.foldl_nil, digit]
    omega
  | case2 n large ih =>
    have digit := toNat_digit (Nat.mod_lt n (by decide : 0 < 10))
    rw [digitsValue, List.foldl_append, ← digitsValue, ih]
    simp only [List.foldl_cons, List.foldl_nil, digit]
    omega

end Digits

/-- **What is written is read back.** -/
theorem denotes_decimal (v : Int) : Denotes (decimal v) v := by
  have numeral : ∀ sign : Sign, Numeral [] sign (digits v.natAbs) [] (sign.chars ++ digits v.natAbs) := by
    intro sign
    refine ⟨by simp, ?_, digits_isDigit, digits_ne_nil, ?_⟩
    · exact List.forall_mem_nil _
    · simp
  unfold decimal
  split
  · refine ⟨[], .minus, _, numeral .minus, ?_⟩
    rw [digitsValue_digits, Sign.apply, if_pos rfl]
    omega
  · refine ⟨[], .absent, _, numeral .absent, ?_⟩
    rw [digitsValue_digits, Sign.apply, if_neg (by decide)]
    omega

/-- The first character is a digit where the number is not negative. -/
theorem decimal_head (v : Int) : ∃ c cs, decimal v = c :: cs ∧ (isDigit c = true ↔ 0 ≤ v) := by
  unfold decimal
  split
  · rename_i negative
    exact ⟨45, _, rfl, iff_of_false (by decide) (by omega)⟩
  · rename_i nonneg
    obtain ⟨c, cs, same⟩ := List.exists_cons_of_ne_nil (digits_ne_nil (n := v.natAbs))
    have member : c ∈ digits v.natAbs := by
      rw [same]
      exact List.mem_cons_self
    exact ⟨c, cs, same, iff_of_true (digits_isDigit c member) (by omega)⟩

/-- A `-` and digits have no NUL among them. -/
theorem decimal_chars (v : Int) : ∀ c ∈ decimal v, c = 45 ∨ isDigit c = true := by
  intro c member
  unfold decimal at member
  split at member
  · exact (List.mem_cons.mp member).imp_right (digits_isDigit c)
  · exact .inr (digits_isDigit c member)

/-- A number as a string. -/
def decimalString (v : Int) : CString where
  chars := decimal v
  ended member := absurd (decimal_chars v 0 member) (by decide)

end NetCalc.Lib
