import Mathlib.Data.List.TakeWhile
import NetCalc.Lib.Words

/-!
# C strings and numbers read from them

A `CString` is the characters before the terminating NUL. `strncmp` compares
no more than `n` characters, the NUL included, so a string shorter than the
bound is told from every other (`strncmp_eq_zero_iff`).

`strtol` and `strtoul` are the functions of the standard for base 10 and a
`long` of 64 bits: blanks, a sign, digits; the value is clamped to the type
and `errno` set when it does not fit. Without digits nothing is converted.
-/

namespace NetCalc.Lib

set_option autoImplicit false

/-- The characters of a string, without the NUL that ends it. -/
structure CString where
  chars : List Byte
  ended : (0 : Byte) ∉ chars
  deriving DecidableEq

/-- Characters as bytes. -/
def charBytes (text : List Char) : List Byte := text.map fun c => BitVec.ofNat 8 c.toNat

/-- A string literal: its characters up to the first NUL. -/
def CString.ofChars (text : List Char) : CString where
  chars := (charBytes text).takeWhile (· ≠ 0)
  ended := fun member => by simpa using List.mem_takeWhile_imp member

/-- `s[i]`, up to the terminating NUL. -/
def CString.at (s : CString) (i : Nat) : Byte := s.chars.getD i 0

/-- The comparison of two strings, character by character. -/
def compareChars : List Byte → List Byte → Nat → Int
  | _, _, 0 => 0
  | [], [], _ => 0
  | a :: _, [], _ => a.toNat
  | [], b :: _, _ => -b.toNat
  | a :: as, b :: bs, n + 1 => if a = b then compareChars as bs n else a.toNat - b.toNat

/-- `strncmp`. -/
def strncmp (a b : CString) (n : Nat) : Int := compareChars a.chars b.chars n

/-! ## Comparing -/

/-- A string that is shorter than the bound is found equal only to itself. -/
theorem compareChars_eq_zero_iff {a b : List Byte} {n : Nat} (ended_a : (0 : Byte) ∉ a)
    (ended_b : (0 : Byte) ∉ b)
    (short : b.length < n) : compareChars a b n = 0 ↔ a = b := by
  have some_byte : ∀ c : Byte, c ≠ 0 → (c.toNat : Int) ≠ 0 := by
    intro c nonzero zero
    exact nonzero (BitVec.eq_of_toNat_eq (by simpa using zero))
  induction a generalizing b n with
  | nil =>
    cases b with
    | nil => cases n <;> simp [compareChars]
    | cons y b =>
      obtain ⟨here, _⟩ := not_or.mp (mt List.mem_cons.mpr ended_b)
      obtain ⟨n, rfl⟩ : ∃ k, n = k + 1 := ⟨n - 1, by omega⟩
      have nonzero := some_byte y (Ne.symm here)
      simp only [compareChars]
      constructor
      · omega
      · intro same
        cases same
  | cons x a ih =>
    obtain ⟨here, later⟩ := not_or.mp (mt List.mem_cons.mpr ended_a)
    obtain ⟨n, rfl⟩ : ∃ k, n = k + 1 := ⟨n - 1, by omega⟩
    cases b with
    | nil =>
      have nonzero := some_byte x (Ne.symm here)
      simp only [compareChars]
      constructor
      · intro zero
        exact absurd zero nonzero
      · intro same
        cases same
    | cons y b =>
      obtain ⟨_, later'⟩ := not_or.mp (mt List.mem_cons.mpr ended_b)
      rw [compareChars, List.cons.injEq]
      by_cases same : x = y
      · have rest : compareChars a b n = 0 ↔ a = b := ih later later' (Nat.lt_of_succ_lt_succ short)
        simp [same, rest]
      · have differ : (x.toNat : Int) ≠ y.toNat := by
          intro equal
          exact same (BitVec.eq_of_toNat_eq (by omega))
        rw [if_neg same]
        constructor
        · intro zero
          omega
        · rintro ⟨equal, _⟩
          exact absurd equal same

/-- **A bounded comparison decides equality** with a string that is shorter
than the bound. -/
theorem strncmp_eq_zero_iff {a b : CString} {n : Nat} (short : b.chars.length < n) :
    strncmp a b n = 0 ↔ a = b := by
  rw [strncmp, compareChars_eq_zero_iff a.ended b.ended short]
  constructor
  · intro same
    obtain ⟨a, _⟩ := a
    obtain ⟨b, _⟩ := b
    cases same
    rfl
  · rintro rfl
    rfl

/-! ## Converting -/

/-- `isspace`, in the locale of a program that sets none. -/
def isSpace (c : Byte) : Bool := c.toNat = 32 ∨ (9 ≤ c.toNat ∧ c.toNat ≤ 13)

/-- `isdigit`. -/
def isDigit (c : Byte) : Bool := 48 ≤ c.toNat ∧ c.toNat ≤ 57

/-- `LONG_MAX`. -/
def LONG_MAX : Int := 2 ^ 63 - 1

/-- `LONG_MIN`. -/
def LONG_MIN : Int := -2 ^ 63

/-- `ULONG_MAX`. -/
def ULONG_MAX : Int := 2 ^ 64 - 1

/-- `ERANGE`. -/
def ERANGE : Int := 34

/-- What a conversion returns: the value, the characters from `*endptr` on, and
`errno`, which was `0` before. -/
structure Converted where
  value : Int
  rest : List Byte
  errno : Int
  deriving DecidableEq, Repr

/-- The sign of a number and the characters behind it. -/
def signed : List Byte → Bool × List Byte
  | [] => (false, [])
  | c :: cs => if c = 45 then (true, cs) else if c = 43 then (false, cs) else (false, c :: cs)

/-- The number a string of digits denotes. -/
def digitsValue (digits : List Byte) : Nat := digits.foldl (fun n c => 10 * n + (c.toNat - 48)) 0

/-- The integer at the front of a string: whether it is negated, its digits'
value and what follows. -/
def scanInteger (s : List Byte) : Option (Bool × Nat × List Byte) :=
  let number := signed (s.dropWhile isSpace)
  if number.2.takeWhile isDigit = [] then none
  else some (number.1, digitsValue (number.2.takeWhile isDigit), number.2.dropWhile isDigit)

/-- `strtol`. -/
def strtol (s : CString) : Converted :=
  match scanInteger s.chars with
  | none => ⟨0, s.chars, 0⟩
  | some (negative, n, rest) =>
    let value : Int := if negative then -n else n
    if LONG_MAX < value then ⟨LONG_MAX, rest, ERANGE⟩
    else if value < LONG_MIN then ⟨LONG_MIN, rest, ERANGE⟩
    else ⟨value, rest, 0⟩

/-- `strtoul`, which negates in its own type. -/
def strtoul (s : CString) : Converted :=
  match scanInteger s.chars with
  | none => ⟨0, s.chars, 0⟩
  | some (negative, n, rest) =>
    if ULONG_MAX < n then ⟨ULONG_MAX, rest, ERANGE⟩
    else ⟨if negative then (-n : Int) % 2 ^ 64 else n, rest, 0⟩

/-- An unsigned value is not negative. -/
theorem strtoul_nonneg (s : CString) : 0 ≤ (strtoul s).value := by
  unfold strtoul
  cases scanInteger s.chars with
  | none => exact Int.le_refl 0
  | some found =>
    obtain ⟨negative, n, rest⟩ := found
    dsimp only
    split
    · exact (by decide : (0 : Int) ≤ ULONG_MAX)
    · dsimp only
      split
      · omega
      · omega

/-- Blanks and a sign are read, what follows the digits is left. -/
example : strtol (.ofChars [' ', '-', '4', '2', 'x']) = ⟨-42, charBytes ['x'], 0⟩ := by decide

end NetCalc.Lib
