import NetCalc.Common.Utils
import NetCalc.Simple.CliHandle
import NetCalc.Lib.Numeral

/-!
# The numbers of the options (`net_converts.c`, `thread_handle.c`)

ThreadCalc and NetCalc have the same `check_convert_to_long`, but for the
number that is their `ERROR`. It looks for a missing number by comparing the
number with the character at the end pointer and has no test for what follows
the number, so `0` is refused where the string ends, and text is let through
(`validatesNumerals_iff`).
-/

namespace NetCalc

set_option autoImplicit false
open NetCalc.Lib NetCalc.Simple

/-- `check_convert_to_long`, where `ERROR` is `error`. The end pointer is one
that `strtol` left, so it is not `NULL`. -/
def checkConvertToLong (error errno tester : Int) (endptr : List Byte) : Ran Unit :=
  if errno ≠ 0 then ⟨error, (), [.message "Error converting to integer\n"]⟩
  else if errno = ERANGE ∧ tester = LONG_MIN then ⟨error, (), [.message "Underflow error\n"]⟩
  else if errno = ERANGE ∧ tester = LONG_MAX then ⟨error, (), [.message "Overflow error\n"]⟩
  else if INT32_MAX < tester ∨ INT32_MIN > tester then
    ⟨error, (), [.message "Number is out of bounds of 32bits\n"]⟩
  else if tester = (endptr.headD 0).toInt then ⟨error, (), [.message "No digits\n"]⟩
  else ⟨SUCCESS, (), []⟩

/-- `check_convert_to_long` of `thread_handle.c`. -/
def File.checkConvertToLong (errno tester : Int) (endptr : List Byte) : Ran Unit :=
  NetCalc.checkConvertToLong ERROR errno tester endptr

/-- `ERROR` of `net_converts.h`. -/
def Net.CONVERTS_ERROR : Int := 1

/-- `check_convert_to_long` of `net_converts.c`. -/
def Net.checkConvertToLong (errno tester : Int) (endptr : List Byte) : Ran Unit :=
  NetCalc.checkConvertToLong CONVERTS_ERROR errno tester endptr

/-- An option's number is checked as `strtol` left it. -/
def checkOption (check : Int → Int → List Byte → Ran Unit) (s : CString) : Ran Unit :=
  check (strtol s).errno (strtol s).value (strtol s).rest

/-- The whole string is a numeral of 32 bits. -/
def WholeNumeral (s : CString) : Prop := ∃ v, Denotes s.chars v ∧ Fits 32 v

/-- Both programs let an option's number through if the string is a numeral,
and only then. -/
structure ValidatesNumerals (s : CString) : Prop where
  thread : (checkOption File.checkConvertToLong s).err = SUCCESS ↔ WholeNumeral s
  net : (checkOption Net.checkConvertToLong s).err = SUCCESS ↔ WholeNumeral s

/-- The strings for which the comparison with the character at the end is
right: the empty one, the numerals but those for `0`, and a numeral followed by
text that does not fit or happens to be the code of the next character. -/
def Told (s : CString) : Prop :=
  s.chars = [] ∨ (∃ v, Denotes s.chars v ∧ v ≠ 0) ∨
    ∃ v c rest, Begins s.chars v (c :: rest) ∧ (¬Fits 32 v ∨ v = c.toInt)

variable {s : CString} {v : Int}

/-- Which numbers pass: those of 32 bits that differ from the character behind them. -/
theorem checkConvertToLong_iff {error errno tester : Int} {endptr : List Byte} (fails : error ≠ SUCCESS) :
    (checkConvertToLong error errno tester endptr).err = SUCCESS ↔
      errno = 0 ∧ Fits 32 tester ∧ tester ≠ (endptr.headD 0).toInt := by
  have range : Fits 32 tester ↔ ¬(INT32_MAX < tester ∨ INT32_MIN > tester) := by
    unfold Fits intMin intMax INT32_MAX INT32_MIN
    omega
  unfold checkConvertToLong
  split
  · rename_i failed
    exact iff_of_false fails fun ok => failed ok.1
  rename_i zero
  obtain rfl : errno = 0 := not_not.mp zero
  rw [if_neg fun overflow => absurd overflow.1 (by decide), if_neg fun overflow => absurd overflow.1 (by decide)]
  split
  · rename_i outside
    exact iff_of_false fails fun ok => range.mp ok.2.1 outside
  rename_i inside
  split
  · rename_i same
    exact iff_of_false fails fun ok => ok.2.2 same
  · rename_i differs
    exact iff_of_true rfl ⟨rfl, range.mpr inside, differs⟩

/-- An option's number passes if it is a numeral of 32 bits that differs from
the character behind it, or if there is some text and no numeral. -/
def Passes (s : CString) : Prop :=
  (s.chars ≠ [] ∧ ∀ v rest, ¬Begins s.chars v rest) ∨
    ∃ v rest, Begins s.chars v rest ∧ Fits 32 v ∧ v ≠ (rest.headD 0).toInt

/-- The two programs agree on which options pass. -/
theorem checkOption_iff {error : Int} (fails : error ≠ SUCCESS) (s : CString) :
    (checkOption (checkConvertToLong error) s).err = SUCCESS ↔ Passes s := by
  unfold checkOption
  rw [checkConvertToLong_iff fails]
  by_cases begins : ∃ v rest, Begins s.chars v rest
  · obtain ⟨v, rest, begins⟩ := begins
    rw [strtol_of_begins begins]
    constructor
    · rintro ⟨errno, fits, differs⟩
      split at errno
      · rename_i wide
        rw [if_pos wide] at fits differs
        exact .inr ⟨v, rest, begins, fits, differs⟩
      · cases errno
    · rintro (⟨_, nothing⟩ | ⟨v', rest', begins', fits, differs⟩)
      · exact absurd begins (nothing v rest)
      · obtain ⟨rfl, rfl⟩ := begins.unique begins'
        rw [if_pos (fits_long fits)]
        exact ⟨rfl, fits, differs⟩
  · have nothing : ∀ v rest, ¬Begins s.chars v rest := fun v rest h => begins ⟨v, rest, h⟩
    rw [strtol_of_not_begins nothing]
    have empty : s.chars.headD 0 = 0 ↔ s.chars = [] := CString.headD_eq_zero (List.suffix_refl _)
    have code : (0 : Int) = (s.chars.headD 0).toInt ↔ s.chars.headD 0 = 0 := by
      rw [eq_comm, ← BitVec.toInt_zero (w := 8), BitVec.toInt_inj]
      rfl
    constructor
    · rintro ⟨_, _, differs⟩
      exact .inl ⟨fun none => differs (code.mpr (empty.mpr none)), nothing⟩
    · rintro (⟨some_char, _⟩ | ⟨v, rest, numeral, _⟩)
      · exact ⟨rfl, fits_zero, fun same => some_char (empty.mp (code.mp same))⟩
      · exact absurd numeral (nothing v rest)

section Begins
variable {rest : List Byte} (begins : Begins s.chars v rest)
include begins

/-- Which strings with a numeral at the front pass. -/
theorem passes_begins : Passes s ↔ Fits 32 v ∧ v ≠ (rest.headD 0).toInt := by
  constructor
  · rintro (⟨_, nothing⟩ | ⟨v', rest', begins', passes⟩)
    · exact absurd begins (nothing v rest)
    · obtain ⟨rfl, rfl⟩ := begins.unique begins'
      exact passes
  · intro passes
    exact .inr ⟨v, rest, begins, passes⟩

/-- Which of them are nothing but that numeral. -/
theorem wholeNumeral_begins : WholeNumeral s ↔ rest = [] ∧ Fits 32 v := by
  constructor
  · rintro ⟨v', denotes, fits⟩
    obtain ⟨rfl, rfl⟩ := begins.unique denotes
    exact ⟨rfl, fits⟩
  · rintro ⟨rfl, fits⟩
    exact ⟨v, begins, fits⟩

/-- And which of them are told apart. -/
theorem told_begins : Told s ↔ (rest = [] ∧ v ≠ 0) ∨ (rest ≠ [] ∧ (¬Fits 32 v ∨ v = (rest.headD 0).toInt)) := by
  constructor
  · rintro (empty | ⟨v', denotes, nonzero⟩ | ⟨v', c, rest', begins', wrong⟩)
    · exact absurd (empty ▸ begins) not_begins_nil
    · obtain ⟨rfl, rfl⟩ := begins.unique denotes
      exact .inl ⟨rfl, nonzero⟩
    · obtain ⟨rfl, rfl⟩ := begins.unique begins'
      exact .inr ⟨List.cons_ne_nil _ _, wrong⟩
  · rintro (⟨rfl, nonzero⟩ | ⟨more, wrong⟩)
    · exact .inr (.inl ⟨v, begins, nonzero⟩)
    · obtain ⟨c, rest, rfl⟩ := List.exists_cons_of_ne_nil more
      exact .inr (.inr ⟨v, c, rest, begins, wrong⟩)

end Begins

/-- Passing tells the numerals from the other strings for just these. -/
theorem passes_iff_wholeNumeral : (Passes s ↔ WholeNumeral s) ↔ Told s := by
  by_cases begins : ∃ v rest, Begins s.chars v rest
  · obtain ⟨v, rest, begins⟩ := begins
    rw [passes_begins begins, wholeNumeral_begins begins, told_begins begins]
    cases rest with
    | nil =>
      have fits_of_zero : v = 0 → Fits 32 v := fun zero => zero ▸ fits_zero
      have code : (([] : List Byte).headD 0).toInt = 0 := rfl
      rw [code]
      tauto
    | cons c rest =>
      have more : c :: rest ≠ [] := List.cons_ne_nil _ _
      tauto
  · have nothing : ∀ v rest, ¬Begins s.chars v rest := fun v rest h => begins ⟨v, rest, h⟩
    have passes : Passes s ↔ s.chars ≠ [] := by
      constructor
      · rintro (⟨some_char, _⟩ | ⟨v, rest, numeral, _⟩)
        · exact some_char
        · exact absurd numeral (nothing v rest)
      · intro some_char
        exact .inl ⟨some_char, nothing⟩
    have whole : ¬WholeNumeral s := fun ⟨v, denotes, _⟩ => nothing v [] denotes
    have told : Told s ↔ s.chars = [] := by
      constructor
      · rintro (empty | ⟨v, denotes, _⟩ | ⟨v, c, rest, numeral, _⟩)
        · exact empty
        · exact absurd denotes (nothing v [])
        · exact absurd numeral (nothing v (c :: rest))
      · exact .inl
    rw [passes, told]
    tauto

/-- **Options are validated as numerals only where the comparison happens to
tell.** For every option string, as `strtol` leaves it: both programs let it
through exactly if it is, as a whole, a numeral of 32 bits, if and only if it
is empty, a numeral for another number than `0`, or a numeral with text behind
it that does not fit 32 bits or equals the code of the next character. -/
theorem validatesNumerals_iff (s : CString) : ValidatesNumerals s ↔ Told s := by
  rw [← passes_iff_wholeNumeral]
  have thread := checkOption_iff (s := s) (by decide : ERROR ≠ SUCCESS)
  have net := checkOption_iff (s := s) (by decide : Net.CONVERTS_ERROR ≠ SUCCESS)
  constructor
  · intro validates
    exact thread.symm.trans validates.thread
  · intro told
    exact ⟨thread.trans told, net.trans told⟩

/-- `12x` passes in both programs. -/
theorem trailing_text_passes : ¬ValidatesNumerals (.ofChars ['1', '2', 'x']) := by
  intro validates
  obtain ⟨v, denotes, _⟩ := validates.thread.mp (by decide)
  have begins : Begins (charBytes ['1', '2', 'x']) 12 (charBytes ['x']) :=
    begins_iff_scan.mpr ⟨false, 12, by decide, rfl⟩
  exact absurd (begins.unique denotes).2 (by decide)

end NetCalc
