import NetCalc.Lib.Numeral
import NetCalc.Simple.Operators

/-!
# Which operands are accepted?

The end pointer tells the two conversions whether something follows the
number, and nothing else tells them whether there was a number: the empty
string is taken for `0` (`exactlyNumerals_iff`). The bit operators look for a
`-` at the first character, `strtoul` behind the white space, and there it
negates modulo `2^64` before the range of 32 bits is tested
(`neverNegative_iff`).
-/

namespace NetCalc.Simple

set_option autoImplicit false
open NetCalc.Lib

/-- `convert_from_string` takes the numerals of 32 bits and nothing else,
stores their value and otherwise leaves what was there. -/
structure ExactlyNumerals (s : CString) (prior : BitVec 32) : Prop where
  accepts : (convertFromString s prior).err = 0 ↔ ∃ v, Denotes s.chars v ∧ Fits 32 v
  stores : (convertFromString s prior).err = 0 →
    ∃ v, Denotes s.chars v ∧ (convertFromString s prior).value.toInt = v
  keeps : (convertFromString s prior).err ≠ 0 → (convertFromString s prior).value = prior

/-- `parse_args` refuses a negative operand of a bit operator, on either side;
and an operand with a digit that it accepts denotes the word it stores. -/
structure NeverNegative (s : CString) : Prop where
  refused : ∀ v, Denotes s.chars v → v < 0 → ∀ op, isSigned op = false → ∀ program other args,
    (parseArgs [program, s, symbol op, other] args).err ≠ 0 ∧
      (parseArgs [program, other, symbol op, s] args).err ≠ 0
  first : (∃ c ∈ s.chars, isDigit c = true) → ∀ op, isSigned op = false → ∀ program other args,
    (parseArgs [program, s, symbol op, other] args).err = 0 →
      ∃ v, Denotes s.chars v ∧ 0 ≤ v ∧ v ≤ UINT32_MAX ∧
        ((parseArgs [program, s, symbol op, other] args).value.num1.toNat : Int) = v
  second : (∃ c ∈ s.chars, isDigit c = true) → ∀ op, isSigned op = false → ∀ program other args,
    (parseArgs [program, other, symbol op, s] args).err = 0 →
      ∃ v, Denotes s.chars v ∧ 0 ≤ v ∧ v ≤ UINT32_MAX ∧
        ((parseArgs [program, other, symbol op, s] args).value.num2.toNat : Int) = v

/-- White space, `-` and a number less than `2^32` below `2^64`. -/
def WrapsAround (s : CString) : Prop :=
  ∃ blanks digits, blanks ≠ [] ∧ Numeral blanks .minus digits [] s.chars ∧
    2 ^ 64 - 2 ^ 32 < digitsValue digits ∧ digitsValue digits < 2 ^ 64

variable {s : CString} {v : Int}

/-! ## The signed operands -/

/-- What `convert_from_string` takes are the numerals of 32 bits and the empty string. -/
theorem signedOperand_iff : SignedOperand s ↔ s.chars = [] ∨ ∃ v, Denotes s.chars v ∧ Fits 32 v := by
  unfold SignedOperand endChar
  rw [strtol_headD_eq_zero]
  constructor
  · rintro ⟨errno, empty | ⟨v, denotes⟩, low, high⟩
    · exact .inl empty
    · rw [strtol_of_begins denotes] at errno low high
      split at errno
      · rename_i fits
        rw [if_pos fits] at low high
        exact .inr ⟨v, denotes, low, high⟩
      · cases errno
  · rintro (empty | ⟨v, denotes, low, high⟩)
    · rw [strtol_of_not_begins (by rw [empty]; exact fun _ _ => not_begins_nil)]
      exact ⟨rfl, .inl empty, (by decide : INT32_MIN ≤ 0), (by decide : 0 ≤ INT32_MAX)⟩
    · rw [strtol_of_begins denotes, if_pos (fits_long ⟨low, high⟩)]
      exact ⟨rfl, .inr ⟨v, denotes⟩, low, high⟩

/-- Where it returns an error, it has stored nothing. -/
theorem convertFromString_keeps (s : CString) (prior : BitVec 32)
    (failed : (convertFromString s prior).err ≠ 0) : (convertFromString s prior).value = prior := by
  unfold convertFromString at failed ⊢
  dsimp only at failed ⊢
  split
  · rfl
  split
  · rfl
  split
  · rfl
  split
  · rfl
  · rename_i errno range digits whole
    rw [if_neg errno, if_neg range, if_neg digits, if_neg whole] at failed
    exact absurd rfl failed

/-- **Exactly the numerals, but for the empty string.** For every string and
every number there before: `convert_from_string` returns `0` just for optional
white space, an optional sign and at least one digit with a value of 32 bits,
stores that value and otherwise nothing, if and only if the string is not
empty. -/
theorem exactlyNumerals_iff (s : CString) (prior : BitVec 32) : ExactlyNumerals s prior ↔ s.chars ≠ [] := by
  have decides := convertFromString_decides s prior
  constructor
  · rintro exactly empty
    have accepted : SignedOperand s := signedOperand_iff.mpr (.inl empty)
    rcases decides with ⟨_, same⟩ | ⟨refused, _⟩
    · obtain ⟨v, denotes, _⟩ := exactly.accepts.mp (by rw [same])
      exact not_begins_nil (empty ▸ denotes)
    · exact refused accepted
  · intro some_char
    have accepts : SignedOperand s ↔ ∃ v, Denotes s.chars v ∧ Fits 32 v :=
      signedOperand_iff.trans (or_iff_right some_char)
    refine ⟨?_, ?_, convertFromString_keeps s prior⟩
    · rw [← accepts]
      rcases decides with ⟨accepted, same⟩ | ⟨refused, failed, _⟩
      · rw [same]
        exact iff_of_true rfl accepted
      · rw [failed]
        exact iff_of_false (by decide) refused
    · intro ok
      rcases decides with ⟨accepted, same⟩ | ⟨_, failed, _⟩
      · obtain ⟨v, denotes, fits⟩ := accepts.mp accepted
        refine ⟨v, denotes, ?_⟩
        rw [same]
        dsimp only
        rw [readAs_signed accepted, strtol_of_begins denotes, if_pos (fits_long fits)]
      · rw [failed] at ok
        cases ok

/-- The empty string is taken for the number `0`. -/
theorem empty_operand_accepted : ¬ExactlyNumerals (.ofChars []) 7 := by
  intro exactly
  obtain ⟨v, denotes, _⟩ := exactly.accepts.mp (by decide)
  exact not_begins_nil denotes

/-! ## The operands of the bit operators -/

/-- What `convert_from_string_unsigned` takes are the numerals that are 32 bits
after their reduction, and the empty string. -/
theorem unsignedOperand_iff : UnsignedOperand s ↔
    s.chars = [] ∨ ∃ v, Denotes s.chars v ∧ v.natAbs < 2 ^ 64 ∧ v % 2 ^ 64 ≤ UINT32_MAX := by
  unfold UnsignedOperand endChar
  rw [strtoul_headD_eq_zero]
  constructor
  · rintro ⟨errno, empty | ⟨v, denotes⟩, high⟩
    · exact .inl empty
    · rw [strtoul_of_begins denotes] at errno high
      split at errno
      · rename_i fits
        rw [if_pos fits] at high
        exact .inr ⟨v, denotes, fits, high⟩
      · cases errno
  · rintro (empty | ⟨v, denotes, fits, high⟩)
    · rw [strtoul_of_not_begins (by rw [empty]; exact fun _ _ => not_begins_nil)]
      exact ⟨rfl, .inl empty, (by decide : (0 : Int) ≤ UINT32_MAX)⟩
    · rw [strtoul_of_begins denotes, if_pos fits]
      exact ⟨rfl, .inr ⟨v, denotes⟩, high⟩

/-- Which negative integers come through: those that are less than `2^32` below `2^64`. -/
theorem wraps_iff (negative : v < 0) :
    (v.natAbs < 2 ^ 64 ∧ v % 2 ^ 64 ≤ UINT32_MAX) ↔ 2 ^ 64 - 2 ^ 32 < v.natAbs ∧ v.natAbs < 2 ^ 64 := by
  unfold UINT32_MAX
  omega

/-- A `-` is the first character of a numeral, or there is white space before it. -/
theorem at_zero_eq_minus {blanks digits : List Byte} (numeral : Numeral blanks .minus digits [] s.chars) :
    s.at 0 = 45 ↔ blanks = [] := by
  unfold CString.at
  rw [numeral.parts]
  cases blanks with
  | nil => exact iff_of_true rfl rfl
  | cons c blanks =>
    have blank := numeral.blank c List.mem_cons_self
    refine iff_of_false ?_ (List.cons_ne_nil _ _)
    intro minus
    have same : c = 45 := minus
    rw [same] at blank
    exact absurd blank (by decide)

/-- The negative numerals that no test refuses. -/
theorem wrapsAround_iff : WrapsAround s ↔
    s.at 0 ≠ 45 ∧ UnsignedOperand s ∧ ∃ v, Denotes s.chars v ∧ v < 0 := by
  constructor
  · rintro ⟨blanks, digits, some_blank, numeral, large, small⟩
    have denotes : Denotes s.chars (-(digitsValue digits : Int)) := ⟨blanks, .minus, digits, numeral, rfl⟩
    have negative : -(digitsValue digits : Int) < 0 := by omega
    refine ⟨mt (at_zero_eq_minus numeral).mp some_blank, ?_, _, denotes, negative⟩
    refine unsignedOperand_iff.mpr (.inr ⟨_, denotes, (wraps_iff negative).mpr ?_⟩)
    rw [Int.natAbs_neg, Int.natAbs_natCast]
    exact ⟨large, small⟩
  · rintro ⟨start, accepted, v, denotes, negative⟩
    rcases unsignedOperand_iff.mp accepted with empty | ⟨v', denotes', range⟩
    · exact absurd (empty ▸ denotes) not_begins_nil
    obtain rfl := (denotes.unique denotes').1
    obtain ⟨large, small⟩ := (wraps_iff negative).mp range
    obtain ⟨blanks, sign, digits, numeral, value⟩ := denotes
    cases sign with
    | absent => exact absurd negative (by rw [value]; simp [Sign.apply])
    | plus => exact absurd negative (by rw [value]; simp [Sign.apply])
    | minus =>
      have size : v.natAbs = digitsValue digits := by simp [value, Sign.apply]
      rw [size] at large small
      exact ⟨blanks, digits, mt (at_zero_eq_minus numeral).mpr start, numeral, large, small⟩

/-- `parse_args` with a bit operator. -/
theorem parseArgs_unsigned {op : Op} (unsigned : isSigned op = false) (program arg1 arg3 : CString)
    (args : Args) : Decides (parseArgs [program, arg1, symbol op, arg3] args) (UnsignedOperands arg1 arg3)
      ⟨BitVec.ofInt 32 (strtoul arg1).value, BitVec.ofInt 32 (strtoul arg3).value, some (symbol op)⟩ := by
  have decides := parseArgs_symbol op program arg1 arg3 args
  unfold Operands operand at decides
  rw [unsigned] at decides
  exact decides

/-- A negative operand that does not wrap around is refused, behind white space too. -/
theorem negative_refused (safe : ¬WrapsAround s) (denotes : Denotes s.chars v) (negative : v < 0)
    (start : s.at 0 ≠ 45) : ¬UnsignedOperand s :=
  fun accepted => safe (wrapsAround_iff.mpr ⟨start, accepted, v, denotes, negative⟩)

/-- An accepted operand with a digit denotes its word, unless it wraps around. -/
theorem word_denoted (safe : ¬WrapsAround s) (digit : ∃ c ∈ s.chars, isDigit c = true) (start : s.at 0 ≠ 45)
    (accepted : UnsignedOperand s) :
    ∃ v, Denotes s.chars v ∧ 0 ≤ v ∧ v ≤ UINT32_MAX ∧
      ((BitVec.ofInt 32 (strtoul s).value).toNat : Int) = v := by
  rcases unsignedOperand_iff.mp accepted with empty | ⟨v, denotes, fits, high⟩
  · obtain ⟨c, member, _⟩ := digit
    rw [empty] at member
    cases member
  have nonneg : 0 ≤ v := Int.not_lt.mp fun negative => negative_refused safe denotes negative start accepted
  have reduced : v % 2 ^ 64 = v := Int.emod_eq_of_lt nonneg (by omega)
  refine ⟨v, denotes, nonneg, reduced ▸ high, ?_⟩
  rw [readAs_unsigned accepted, strtoul_of_begins denotes, if_pos fits]
  exact reduced

/-- What wraps around is accepted, with `0` for the other operand. -/
theorem WrapsAround.accepted (wraps : WrapsAround s) : ¬NeverNegative s := by
  intro never
  obtain ⟨start, accepted, v, denotes, negative⟩ := wrapsAround_iff.mp wraps
  have both : UnsignedOperands s (.ofChars ['0']) :=
    ⟨not_or.mpr ⟨start, by decide⟩, accepted, by unfold UnsignedOperand; decide⟩
  obtain ⟨refused, _⟩ := never.refused v denotes negative .SHL64 rfl (.ofChars []) (.ofChars ['0']) ⟨0, 0, none⟩
  rcases parseArgs_unsigned (rfl : isSigned .SHL64 = false) (.ofChars []) s (.ofChars ['0']) ⟨0, 0, none⟩ with
    ⟨_, same⟩ | ⟨unfit, _⟩
  · rw [same] at refused
    exact refused rfl
  · exact unfit both

/-- **No negative operand, but for those behind white space that wrap around.**
For every operand string: each of the seven bit operators refuses it if it
denotes a negative integer, on either side and whatever the other operand is,
and stores the integer it denotes if it has a digit and is accepted; if and
only if it is not white space, `-` and a number between `2^64 - 2^32` and
`2^64`. -/
theorem neverNegative_iff (s : CString) : NeverNegative s ↔ ¬WrapsAround s := by
  constructor
  · intro never wraps
    exact wraps.accepted never
  · intro safe
    constructor
    · intro v denotes negative op unsigned program other args
      constructor
      · rcases parseArgs_unsigned unsigned program s other args with ⟨accepted, _⟩ | ⟨_, failed, _⟩
        · obtain ⟨start, operand, _⟩ := accepted
          exact absurd operand (negative_refused safe denotes negative (not_or.mp start).1)
        · rw [failed]
          decide
      · rcases parseArgs_unsigned unsigned program other s args with ⟨accepted, _⟩ | ⟨_, failed, _⟩
        · obtain ⟨start, _, operand⟩ := accepted
          exact absurd operand (negative_refused safe denotes negative (not_or.mp start).2)
        · rw [failed]
          decide
    · intro digit op unsigned program other args ok
      rcases parseArgs_unsigned unsigned program s other args with ⟨accepted, same⟩ | ⟨_, failed, _⟩
      · obtain ⟨start, operand, _⟩ := accepted
        rw [same]
        exact word_denoted safe digit (not_or.mp start).1 operand
      · rw [failed] at ok
        cases ok
    · intro digit op unsigned program other args ok
      rcases parseArgs_unsigned unsigned program other s args with ⟨accepted, same⟩ | ⟨_, failed, _⟩
      · obtain ⟨start, _, operand⟩ := accepted
        rw [same]
        exact word_denoted safe digit (not_or.mp start).2 operand
      · rw [failed] at ok
        cases ok

/-- `1 - 2^64` behind a blank is taken for `1`. -/
theorem negative_operand_accepted :
    ¬NeverNegative (.ofChars [' ', '-', '1', '8', '4', '4', '6', '7', '4', '4', '0', '7', '3', '7', '0', '9',
      '5', '5', '1', '6', '1', '5']) := by
  refine WrapsAround.accepted ⟨charBytes [' '], charBytes ['1', '8', '4', '4', '6', '7', '4', '4', '0', '7', '3',
    '7', '0', '9', '5', '5', '1', '6', '1', '5'], by decide, ⟨?_, by decide, by decide, by decide, by decide⟩, ?_⟩
  · decide
  · decide

end NetCalc.Simple
