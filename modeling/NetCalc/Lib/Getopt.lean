import NetCalc.Lib.CString

/-!
# Options of a command line

`getopt`, as the C library of GNU has it, for an option string that begins with
`:`. Words that are not options are passed over, and are the operands that
`optind` points at in the end; a `--` makes operands of all that follow. A word
may hold several options, and the argument of one that takes an argument is the
rest of its word, or the next word where nothing is left of its own.

All the calls are made at once: `getopt` is what they return one after the
other, and the operands.
-/

namespace NetCalc.Lib

set_option autoImplicit false

/-- What one call returns: an option with its `optarg`, `?` for an option it
does not know, or `:` for one without its argument, with `optopt`. -/
inductive Getopt where
  | option (c : Byte) (optarg : Option CString)
  | unknown (optopt : Byte)
  | missing (optopt : Byte)
  deriving DecidableEq

/-- The characters at a pointer into a string. -/
def CString.cut (chars : List Byte) : CString where
  chars := chars.takeWhile (· ≠ 0)
  ended := fun member => by simpa using List.mem_takeWhile_imp member

/-- `--`. -/
def dashes : CString := .ofChars ['-', '-']

/-- A word with options: a `-` and at least one character. -/
def IsOption (w : CString) : Prop := w.at 0 = 45 ∧ 1 < w.chars.length

instance (w : CString) : Decidable (IsOption w) := inferInstanceAs (Decidable (_ ∧ _))

section Getopt
variable (takes : Byte → Option Bool)

/-- The options of one word, and the one that waits for the next word. `takes`
says which options there are, and which of them take an argument. -/
def wordOptions : List Byte → List Getopt × Option Byte
  | [] => ([], none)
  | c :: cs =>
    match takes c with
    | none => (.unknown c :: (wordOptions cs).1, (wordOptions cs).2)
    | some false => (.option c none :: (wordOptions cs).1, (wordOptions cs).2)
    | some true => if cs = [] then ([], some c) else ([.option c (some (.cut cs))], none)

/-- All the calls of `getopt`: what they return, and the operands. -/
def getopt : Option Byte → List CString → List Getopt × List CString
  | none, [] => ([], [])
  | some c, [] => ([.missing c], [])
  | some c, w :: ws => (.option c (some w) :: (getopt none ws).1, (getopt none ws).2)
  | none, w :: ws =>
    if w = dashes then ([], ws)
    else if IsOption w then
      let options := wordOptions takes (w.chars.drop 1)
      (options.1 ++ (getopt options.2 ws).1, (getopt options.2 ws).2)
    else ((getopt none ws).1, w :: (getopt none ws).2)

variable {takes} {c : Byte} {w : CString} {ws : List CString}

/-- The characters of a word with options. -/
theorem isOption_chars (options : IsOption w) : ∃ c cs, w.chars = 45 :: c :: cs := by
  obtain ⟨front, long⟩ := options
  unfold CString.at at front
  match same : w.chars, long with
  | a :: c :: cs, _ =>
    rw [same] at front
    obtain rfl : a = 45 := front
    exact ⟨c, cs, rfl⟩

theorem getopt_dashes (ws : List CString) : getopt takes none (dashes :: ws) = ([], ws) := by
  rw [getopt, if_pos rfl]

/-- A word with options, and what follows it. -/
theorem getopt_option (other : w ≠ dashes) (options : IsOption w) (ws : List CString) :
    getopt takes none (w :: ws) =
      ((wordOptions takes (w.chars.drop 1)).1 ++ (getopt takes (wordOptions takes (w.chars.drop 1)).2 ws).1,
        (getopt takes (wordOptions takes (w.chars.drop 1)).2 ws).2) := by
  rw [getopt, if_neg other, if_pos options]

/-- An operand, and what follows it. -/
theorem getopt_operand (operand : ¬IsOption w) (ws : List CString) :
    getopt takes none (w :: ws) = ((getopt takes none ws).1, w :: (getopt takes none ws).2) := by
  have other : w ≠ dashes := fun same => operand (same ▸ by decide)
  rw [getopt, if_neg other, if_neg operand]

/-- The operands are among the words, in their order. -/
theorem getopt_sublist (waits : Option Byte) (ws : List CString) : (getopt takes waits ws).2.Sublist ws := by
  induction ws generalizing waits with
  | nil => cases waits <;> exact List.Sublist.slnil
  | cons w ws ih =>
    cases waits with
    | some c => exact (ih none).cons w
    | none =>
      by_cases dash : w = dashes
      · rw [dash, getopt_dashes]
        exact (List.Sublist.refl ws).cons dashes
      by_cases options : IsOption w
      · rw [getopt_option dash options]
        exact (ih _).cons w
      · rw [getopt_operand options]
        exact (ih none).cons_cons w

/-- An option that waits takes a word. -/
theorem getopt_waits (c : Byte) (ws : List CString) : (getopt takes (some c) ws).2.length ≤ ws.length - 1 := by
  cases ws with
  | nil => exact Nat.le_refl _
  | cons w ws => exact (getopt_sublist none ws).length_le

/-- **If there are as many operands as words**, no word is an option. -/
theorem getopt_full (full : ws.length ≤ (getopt takes none ws).2.length) :
    getopt takes none ws = ([], ws) ∧ ∀ w ∈ ws, ¬IsOption w := by
  induction ws with
  | nil => exact ⟨rfl, List.forall_mem_nil _⟩
  | cons w ws ih =>
    have fewer : ∀ waits, (getopt takes waits ws).2.length ≤ ws.length :=
      fun waits => (getopt_sublist waits ws).length_le
    by_cases dash : w = dashes
    · rw [dash, getopt_dashes] at full
      exact absurd full (Nat.not_succ_le_self _)
    by_cases options : IsOption w
    · rw [getopt_option dash options] at full
      exact absurd (full.trans (fewer _)) (Nat.not_succ_le_self _)
    · rw [getopt_operand options] at full ⊢
      obtain ⟨all, operands⟩ := ih (Nat.le_of_succ_le_succ full)
      rw [all]
      refine ⟨rfl, fun w' member => ?_⟩
      rcases List.mem_cons.mp member with rfl | later
      · exact options
      · exact operands w' later

end Getopt

end NetCalc.Lib
