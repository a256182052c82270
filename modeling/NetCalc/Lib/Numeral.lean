import NetCalc.Lib.CArith
import NetCalc.Lib.CString

/-!
# Decimal numerals

A `Numeral` is white space, a sign or none, and digits, at the front of a text;
`Begins` says which integer it denotes and what follows it, and `Denotes` that
nothing does. These are the grammar that `scanInteger` reads (`scanInteger_eq`),
so `strtol` and `strtoul` have closed forms in the integer that is denoted
(`strtol_of_begins`, `strtoul_of_begins`).
-/

namespace NetCalc.Lib

set_option autoImplicit false

/-- The sign of a numeral. -/
inductive Sign where
  | absent
  | plus
  | minus
  deriving DecidableEq, Repr

/-- How it is written. -/
def Sign.chars : Sign → List Byte
  | .absent => []
  | .plus => [43]
  | .minus => [45]

/-- The number with this sign. -/
def Sign.apply (sign : Sign) (n : Nat) : Int := if sign = .minus then -n else n

/-- A text begins with a numeral: its parts, and what follows them is not a
further digit. -/
structure Numeral (blanks : List Byte) (sign : Sign) (digits rest text : List Byte) : Prop where
  parts : text = blanks ++ (sign.chars ++ (digits ++ rest))
  blank : ∀ c ∈ blanks, isSpace c = true
  digit : ∀ c ∈ digits, isDigit c = true
  nonempty : digits ≠ []
  ends : ∀ c ∈ rest.head?, isDigit c = false

/-- A text begins with a numeral for `v`, followed by `rest`. -/
def Begins (text : List Byte) (v : Int) (rest : List Byte) : Prop :=
  ∃ blanks sign digits, Numeral blanks sign digits rest text ∧ v = sign.apply (digitsValue digits)

/-- A text is a numeral for `v`. -/
def Denotes (text : List Byte) (v : Int) : Prop := Begins text v []

variable {blanks digits rest text : List Byte} {sign : Sign} {v : Int}

/-! ## Characters -/

theorem isSpace_of_isDigit {c : Byte} (digit : isDigit c = true) : isSpace c = false := by
  simp only [isDigit, isSpace, decide_eq_true_eq, decide_eq_false_iff_not] at digit ⊢
  omega

/-- A sign is neither white space nor a digit. -/
theorem Sign.plain (sign : Sign) : ∀ c ∈ sign.chars, isSpace c = false ∧ isDigit c = false := by
  cases sign <;> decide

theorem takeWhile_of_all {p : Byte → Bool} {front back : List Byte} (all : ∀ c ∈ front, p c = true)
    (stop : ∀ c ∈ back.head?, p c = false) : (front ++ back).takeWhile p = front := by
  rw [List.takeWhile_append_of_pos all]
  cases back with
  | nil => simp
  | cons c back => simp [stop c rfl]

theorem dropWhile_of_all {p : Byte → Bool} {front back : List Byte} (all : ∀ c ∈ front, p c = true)
    (stop : ∀ c ∈ back.head?, p c = false) : (front ++ back).dropWhile p = back := by
  rw [List.dropWhile_append_of_pos all]
  cases back with
  | nil => rfl
  | cons c back => simp [stop c rfl]

/-- What is left behind digits does not go on with a digit. -/
theorem head?_dropWhile (text : List Byte) : ∀ c ∈ (text.dropWhile isDigit).head?, isDigit c = false := by
  intro c head
  have stop := List.head?_dropWhile_not isDigit text
  rw [Option.mem_def.mp head] at stop
  exact stop

/-- Without a sign there is nothing to take off. -/
theorem signed_plain {c : Byte} {cs : List Byte} (minus : c ≠ 45) (plus : c ≠ 43) :
    signed (c :: cs) = (false, c :: cs) := by
  rw [signed, if_neg minus, if_neg plus]

theorem signed_eq (text : List Byte) :
    ∃ sign : Sign, text = sign.chars ++ (signed text).2 ∧ (signed text).1 = decide (sign = .minus) := by
  cases text with
  | nil => exact ⟨.absent, rfl, rfl⟩
  | cons c cs =>
    by_cases minus : c = 45
    · rw [minus]
      exact ⟨.minus, rfl, rfl⟩
    by_cases plus : c = 43
    · rw [plus]
      exact ⟨.plus, rfl, rfl⟩
    · rw [signed_plain minus plus]
      exact ⟨.absent, rfl, rfl⟩

/-! ## Numerals -/

namespace Numeral

/-- The first character behind the white space is a sign or a digit. -/
theorem unblank (h : Numeral blanks sign digits rest text) :
    text.dropWhile isSpace = sign.chars ++ (digits ++ rest) := by
  rw [h.parts]
  refine dropWhile_of_all h.blank ?_
  intro c head
  rcases List.mem_append.mp (List.mem_of_mem_head? head) with here | later
  · exact (sign.plain c here).1
  cases signs : sign.chars with
  | cons d others =>
    rw [signs] at head
    cases head
    exact (sign.plain c (by simp [signs])).1
  | nil =>
    obtain ⟨d, others, same⟩ := List.exists_cons_of_ne_nil h.nonempty
    rw [signs, same] at head
    cases head
    exact isSpace_of_isDigit (h.digit c (by simp [same]))

/-- `signed` takes the sign off. -/
theorem unsign (h : Numeral blanks sign digits rest text) :
    signed (sign.chars ++ (digits ++ rest)) = (decide (sign = .minus), digits ++ rest) := by
  cases sign with
  | plus => rfl
  | minus => rfl
  | absent =>
    obtain ⟨d, others, same⟩ := List.exists_cons_of_ne_nil h.nonempty
    have digit := h.digit d (by simp [same])
    have minus : d ≠ 45 := by
      rintro rfl
      exact absurd digit (by decide)
    have plus : d ≠ 43 := by
      rintro rfl
      exact absurd digit (by decide)
    rw [same]
    exact signed_plain minus plus

/-- **What is scanned of a numeral**: its sign, the value of its digits, what follows. -/
theorem scan (h : Numeral blanks sign digits rest text) :
    scanInteger text = some (decide (sign = .minus), digitsValue digits, rest) := by
  unfold scanInteger
  dsimp only
  rw [h.unblank, h.unsign, takeWhile_of_all h.digit h.ends, dropWhile_of_all h.digit h.ends,
    if_neg h.nonempty]

end Numeral

/-- What is scanned is a numeral. -/
theorem numeral_of_scan {negative : Bool} {n : Nat} (found : scanInteger text = some (negative, n, rest)) :
    ∃ blanks sign digits, Numeral blanks sign digits rest text ∧ negative = decide (sign = .minus) ∧
      n = digitsValue digits := by
  unfold scanInteger at found
  dsimp only at found
  obtain ⟨sign, whole, negated⟩ := signed_eq (text.dropWhile isSpace)
  split at found
  · cases found
  rename_i some
  cases found
  refine ⟨text.takeWhile isSpace, sign, (signed (text.dropWhile isSpace)).2.takeWhile isDigit,
    ⟨?_, ?_, ?_, some, ?_⟩, negated, rfl⟩
  · rw [List.takeWhile_append_dropWhile, ← whole, List.takeWhile_append_dropWhile]
  · intro c member
    exact List.mem_takeWhile_imp member
  · intro c member
    exact List.mem_takeWhile_imp member
  · exact head?_dropWhile _

/-! ## The integer that is denoted -/

/-- What a text begins with, as `scanInteger` tells it. -/
theorem begins_iff_scan : Begins text v rest ↔
    ∃ negative n, scanInteger text = some (negative, n, rest) ∧ v = if negative then -(n : Int) else n := by
  constructor
  · rintro ⟨blanks, sign, digits, numeral, rfl⟩
    refine ⟨_, _, numeral.scan, ?_⟩
    simp [Sign.apply]
  · rintro ⟨negative, n, found, rfl⟩
    obtain ⟨blanks, sign, digits, numeral, rfl, rfl⟩ := numeral_of_scan found
    refine ⟨blanks, sign, digits, numeral, ?_⟩
    simp [Sign.apply]

/-- A text begins with at most one integer. -/
theorem Begins.unique {v' : Int} {rest' : List Byte} (h : Begins text v rest) (h' : Begins text v' rest') :
    v = v' ∧ rest = rest' := by
  obtain ⟨negative, n, found, rfl⟩ := begins_iff_scan.mp h
  obtain ⟨negative', n', found', rfl⟩ := begins_iff_scan.mp h'
  rw [found] at found'
  cases found'
  exact ⟨rfl, rfl⟩

/-- What follows a numeral ends the text. -/
theorem Begins.suffix (h : Begins text v rest) : rest <:+ text := by
  obtain ⟨blanks, sign, digits, numeral, _⟩ := h
  refine ⟨blanks ++ (sign.chars ++ digits), ?_⟩
  rw [numeral.parts]
  simp only [List.append_assoc]

/-- Nothing begins where `scanInteger` finds nothing. -/
theorem scanInteger_eq_none : scanInteger text = none ↔ ∀ v rest, ¬Begins text v rest := by
  constructor
  · intro nothing v rest begins
    obtain ⟨negative, n, found, _⟩ := begins_iff_scan.mp begins
    rw [nothing] at found
    cases found
  · intro nothing
    cases found : scanInteger text with
    | none => rfl
    | some number =>
      obtain ⟨negative, n, rest⟩ := number
      exact absurd (begins_iff_scan.mpr ⟨negative, n, found, rfl⟩) (nothing _ _)

/-- Nothing begins in the empty text. -/
theorem not_begins_nil : ¬Begins [] v rest := by
  rintro ⟨blanks, sign, digits, numeral, _⟩
  have parts := numeral.parts.symm
  simp only [List.append_eq_nil_iff] at parts
  exact numeral.nonempty parts.2.2.1

/-! ## The front of a numeral -/

theorem Sign.apply_inj {m n : Nat} (same : sign.apply m = sign.apply n) : m = n := by
  unfold Sign.apply at same
  split at same <;> omega

/-- Further digits count in the tenths of the first. -/
theorem digitsValue_append_le (digits more : List Byte) :
    10 ^ more.length * digitsValue digits ≤ digitsValue (digits ++ more) := by
  unfold digitsValue
  rw [List.foldl_append]
  generalize digits.foldl (fun n c => 10 * n + (c.toNat - 48)) 0 = n
  induction more generalizing n with
  | nil => simp
  | cons c more ih =>
    have step : 10 * n ≤ 10 * n + (c.toNat - 48) := Nat.le_add_right _ _
    calc 10 ^ (c :: more).length * n = 10 ^ more.length * (10 * n) := by
          rw [List.length_cons, Nat.pow_succ, Nat.mul_assoc]
      _ ≤ 10 ^ more.length * (10 * n + (c.toNat - 48)) := Nat.mul_le_mul_left _ step
      _ ≤ _ := ih _

/-- So the same number, if it is not `0`, has no further digits. -/
theorem digitsValue_append_eq {more : List Byte} (positive : 0 < digitsValue digits)
    (same : digitsValue (digits ++ more) = digitsValue digits) : more = [] := by
  by_contra some_more
  have length := List.length_pos_iff.mpr some_more
  have larger := digitsValue_append_le digits more
  have ten : 10 ≤ 10 ^ more.length := Nat.le_self_pow (Nat.ne_of_gt length) 10
  have tenfold := Nat.mul_le_mul_right (digitsValue digits) ten
  omega

/-- A numeral at the front of a text goes on with the digits that follow. -/
theorem Numeral.extend (h : Numeral blanks sign digits [] text) (more : List Byte) :
    Numeral blanks sign (digits ++ more.takeWhile isDigit) (more.dropWhile isDigit) (text ++ more) where
  parts := by
    have whole : more.takeWhile isDigit ++ more.dropWhile isDigit = more := List.takeWhile_append_dropWhile
    rw [h.parts, List.append_nil]
    simp only [List.append_assoc, whole]
  blank := h.blank
  digit := by
    intro c member
    rcases List.mem_append.mp member with here | later
    · exact h.digit c here
    · exact List.mem_takeWhile_imp later
  nonempty := List.append_ne_nil_of_left_ne_nil h.nonempty _
  ends := head?_dropWhile more

/-- **The first characters of a text** denote the number it begins with, if
that is not `0`, just where they are its numeral. -/
theorem denotes_take_iff {k : Nat} (begins : Begins text v rest) (nonzero : v ≠ 0) :
    Denotes (text.take k) v ↔ ∃ blanks sign digits rest, Numeral blanks sign digits rest text ∧
      (blanks ++ (sign.chars ++ digits)).length = min k text.length := by
  constructor
  · rintro ⟨blanks, sign, digits, numeral, value⟩
    have longer := numeral.extend (text.drop k)
    rw [List.take_append_drop] at longer
    have same := (begins.unique ⟨blanks, sign, _, longer, rfl⟩).1
    have equal := Sign.apply_inj (value.symm.trans same)
    have positive : 0 < digitsValue digits := by
      refine Nat.pos_of_ne_zero fun zero => nonzero ?_
      rw [value, zero]
      cases sign <;> rfl
    have no_more := digitsValue_append_eq positive equal.symm
    rw [no_more, List.append_nil] at longer
    refine ⟨blanks, sign, digits, _, longer, ?_⟩
    have front := congrArg List.length numeral.parts
    rw [List.append_nil, List.length_take] at front
    exact front.symm
  · rintro ⟨blanks, sign, digits, rest', numeral, length⟩
    have front : text.take k = blanks ++ (sign.chars ++ (digits ++ [])) := by
      rw [List.take_eq_take_min, ← length, List.append_nil, numeral.parts]
      simp only [← List.append_assoc]
      exact List.take_left
    refine ⟨blanks, sign, digits, ⟨front, numeral.blank, numeral.digit, numeral.nonempty, ?_⟩, ?_⟩
    · intro c head
      cases head
    · exact (begins.unique ⟨blanks, sign, digits, numeral, rfl⟩).1

/-! ## The conversions -/

variable {s : CString}

/-- The character at a place of a string is the NUL only at its end. -/
theorem CString.headD_eq_zero (suffix : rest <:+ s.chars) : rest.headD 0 = 0 ↔ rest = [] := by
  constructor
  · intro zero
    cases rest with
    | nil => rfl
    | cons c rest =>
      have member : c ∈ s.chars := suffix.subset List.mem_cons_self
      rw [List.headD_cons] at zero
      exact absurd (zero ▸ member) s.ended
  · rintro rfl
    rfl

/-- A `long` holds what `int32_t` holds. -/
theorem fits_long (fits : Fits 32 v) : Fits 64 v :=
  ⟨Int.le_trans (by decide) fits.1, Int.le_trans fits.2 (by decide)⟩

/-- **`strtol` of a numeral**: the integer, if a `long` can hold it. -/
theorem strtol_of_begins (h : Begins s.chars v rest) :
    strtol s =
      if Fits 64 v then ⟨v, rest, 0⟩ else ⟨if 0 < v then LONG_MAX else LONG_MIN, rest, ERANGE⟩ := by
  obtain ⟨negative, n, found, value⟩ := begins_iff_scan.mp h
  unfold strtol
  rw [found]
  dsimp only
  rw [← value]
  split
  · rename_i above
    have unfit : ¬Fits 64 v := fun fits => Int.not_le.mpr above fits.2
    have positive : 0 < v := Int.lt_trans (by decide) above
    rw [if_neg unfit, if_pos positive]
  rename_i low_enough
  split
  · rename_i below
    have unfit : ¬Fits 64 v := fun fits => Int.not_le.mpr below fits.1
    have negative : ¬0 < v := Int.not_lt.mpr (Int.le_of_lt (Int.lt_trans below (by decide)))
    rw [if_neg unfit, if_neg negative]
  · rename_i high_enough
    have fits : Fits 64 v := ⟨Int.not_lt.mp high_enough, Int.not_lt.mp low_enough⟩
    rw [if_pos fits]

/-- **`strtoul` of a numeral**: the integer reduced to an `unsigned long`, if
its digits fit. -/
theorem strtoul_of_begins (h : Begins s.chars v rest) :
    strtoul s = if v.natAbs < 2 ^ 64 then ⟨v % 2 ^ 64, rest, 0⟩ else ⟨ULONG_MAX, rest, ERANGE⟩ := by
  obtain ⟨negative, n, found, value⟩ := begins_iff_scan.mp h
  have digits : v.natAbs = n := by
    rw [value]
    cases negative <;> simp
  unfold strtoul
  rw [found]
  dsimp only
  rw [digits]
  have limit : ULONG_MAX < n ↔ ¬n < 2 ^ 64 := by
    unfold ULONG_MAX
    omega
  by_cases fits : n < 2 ^ 64
  · rw [if_neg (limit.not.mpr (not_not.mpr fits)), if_pos fits, value]
    cases negative with
    | false =>
      rw [if_neg Bool.false_ne_true, if_neg Bool.false_ne_true, Int.emod_eq_of_lt (by omega) (by omega)]
    | true => rw [if_pos rfl, if_pos rfl]
  · rw [if_pos (limit.mpr fits), if_neg fits]

/-- Without a numeral nothing is converted. -/
theorem strtol_of_not_begins (nothing : ∀ v rest, ¬Begins s.chars v rest) : strtol s = ⟨0, s.chars, 0⟩ := by
  unfold strtol
  rw [scanInteger_eq_none.mpr nothing]

@[inherit_doc strtol_of_not_begins]
theorem strtoul_of_not_begins (nothing : ∀ v rest, ¬Begins s.chars v rest) :
    strtoul s = ⟨0, s.chars, 0⟩ := by
  unfold strtoul
  rw [scanInteger_eq_none.mpr nothing]

/-- Where a conversion that stops behind the numeral, or converts nothing,
leaves the end of the string. -/
theorem headD_rest_eq_zero {c : Converted} (numeral : ∀ v rest, Begins s.chars v rest → c.rest = rest)
    (nothing : (∀ v rest, ¬Begins s.chars v rest) → c.rest = s.chars) :
    c.rest.headD 0 = 0 ↔ s.chars = [] ∨ ∃ v, Denotes s.chars v := by
  by_cases begins : ∃ v rest, Begins s.chars v rest
  · obtain ⟨v, rest, begins⟩ := begins
    rw [numeral v rest begins, CString.headD_eq_zero begins.suffix]
    constructor
    · rintro rfl
      exact .inr ⟨v, begins⟩
    · rintro (empty | ⟨v', denotes⟩)
      · exact absurd (empty ▸ begins) not_begins_nil
      · exact (begins.unique denotes).2
  · have none_begins : ∀ v rest, ¬Begins s.chars v rest := fun v rest h => begins ⟨v, rest, h⟩
    rw [nothing none_begins, CString.headD_eq_zero (List.suffix_refl _)]
    exact ⟨.inl, fun whole => whole.resolve_right fun ⟨v, denotes⟩ => none_begins v [] denotes⟩

/-- `strtol` stops at the end of a numeral and of the empty string. -/
theorem strtol_headD_eq_zero : (strtol s).rest.headD 0 = 0 ↔ s.chars = [] ∨ ∃ v, Denotes s.chars v := by
  refine headD_rest_eq_zero (fun v rest begins => ?_) fun nothing => by rw [strtol_of_not_begins nothing]
  rw [strtol_of_begins begins]
  split <;> rfl

@[inherit_doc strtol_headD_eq_zero]
theorem strtoul_headD_eq_zero : (strtoul s).rest.headD 0 = 0 ↔ s.chars = [] ∨ ∃ v, Denotes s.chars v := by
  refine headD_rest_eq_zero (fun v rest begins => ?_) fun nothing => by rw [strtoul_of_not_begins nothing]
  rw [strtoul_of_begins begins]
  split <;> rfl

end NetCalc.Lib
