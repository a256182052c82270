import NetCalc.Common.Converts

/-!
# The server's command line (`net_main.c`)

`main` reads its options with `getopt` and starts the listener on the port it
was given. What `getopt` returns is an argument here, one `Opt` for each call,
and so are the answers of the functions called after it. The port is checked as
the number that `strtol` finds in the argument and kept as the argument's first
five characters (`port_denotes_iff`).
-/

namespace NetCalc.Net

set_option autoImplicit false
open NetCalc.Lib

/-- What a call of `getopt` with `":n:p:h"` returns: an option, with `optarg`
where it has one, `?` for an option it does not know, or `:` for one without its
argument. The last two leave the option's letter in `optopt`. -/
inductive Opt where
  | n (optarg : CString)
  | p (optarg : CString)
  | h
  | unknown (optopt : Byte)
  | missing (optopt : Byte)

/-- `strcmp`. -/
def strcmp (a b : CString) : Int := strncmp a b (a.chars.length + b.chars.length + 1)

/-- The string in the first `n` characters of another: `strncpy` to an array of
zeros that is longer. -/
def firstChars (s : CString) (n : Nat) : CString where
  chars := s.chars.take n
  ended := fun member => s.ended (List.mem_of_mem_take member)

/-- The variables of `main`. -/
structure Options where
  err : Int
  numThreads : BitVec 64
  port : CString
  optopt : Byte

/-- How `main` ends early: what it returns and prints. -/
structure Stopped where
  err : Int
  out : List Print
  deriving DecidableEq

/-- One pass of the loop over the options. -/
def readOption (st : Options) : Opt → Except Stopped Options
  | .n optarg =>
    let checked := checkOption checkConvertToLong optarg
    if checked.err ≠ 0 then .error ⟨checked.err, checked.out ++ [.message "Error in arguement n: \n"]⟩
    else .ok { st with err := checked.err, numThreads := BitVec.ofInt 64 (strtol optarg).value }
  | .p optarg =>
    if strcmp st.port (.ofChars []) ≠ 0 then .error ⟨st.err, [.message "Port already set"]⟩
    else
      let checked := checkOption checkConvertToLong optarg
      if checked.err ≠ 0 then .error ⟨checked.err, checked.out ++ [.message "Error in arguement n: \n"]⟩
      else if 2000 > (strtol optarg).value ∨ 65535 < (strtol optarg).value then
        .error ⟨checked.err, [.message "Invalid port number\n\n"]⟩
      else .ok { st with err := checked.err, port := firstChars optarg 5 }
  | .h => .error ⟨st.err, [.message "USAGE: /netcalc -p <port> -n <number of threads>"]⟩
  | .unknown optopt => .error ⟨st.err, [.number "unknown option: %c\n" optopt.toNat]⟩
  | .missing optopt => .ok { st with optopt := optopt }

/-- The functions that `main` calls once it has read its options: whether the
signals are set up, whether there is a pool of so many threads, and what the
listener returns. -/
structure Services where
  signalActionSetup : Int
  threadpoolCreate : BitVec 64 → Bool
  startListener : CString → Int

/-- How `main` ends: what it returns and prints, and the service string that it
passed to `start_listener`. -/
structure Ended where
  err : Int
  out : List Print
  service : Option CString

/-- `main`, from its options on. -/
def startServer (services : Services) (extra : List CString) (st : Options) : Ended :=
  if st.optopt ≠ 0 then ⟨st.err, [.message "Unknown option or invalid argument\n\n"], none⟩
  else if extra ≠ [] then ⟨st.err, [.message "Invalid additional arguements\n\n"], none⟩
  else
    let numThreads := if st.numThreads = 0 then 4 else st.numThreads
    let port := if strcmp st.port (.ofChars []) = 0 then .ofChars ['3', '1', '3', '3', '7'] else st.port
    let err := services.signalActionSetup
    if err ≠ 0 then ⟨err, [.message "Unable to setup signal\n"], none⟩
    else if services.threadpoolCreate numThreads = false then
      ⟨err, [.message "threadpool_create failed\n"], none⟩
    else
      let err := services.startListener port
      if err ≠ 0 then ⟨err, [.message "Listener error\n"], some port⟩ else ⟨SUCCESS, [], some port⟩

/-- `main`: the options `getopt` returns, then the arguments behind them. -/
def main (services : Services) (opts : List Opt) (extra : List CString) : Ended :=
  match opts.foldlM readOption ⟨ERROR, 0, .ofChars [], 0⟩ with
  | .error stopped => ⟨stopped.err, stopped.out, none⟩
  | .ok st => startServer services extra st

/-- An argument that the checks of `-p` let through. -/
structure PortChecked (s : CString) : Prop where
  passes : (checkOption checkConvertToLong s).err = SUCCESS
  low : 2000 ≤ (strtol s).value
  high : (strtol s).value ≤ 65535

/-- The numeral at the front of a string makes up its first five characters, or
all of them where they are fewer. -/
def FitsPort (s : CString) : Prop :=
  ∃ blanks sign digits rest, Numeral blanks sign digits rest s.chars ∧
    (blanks ++ (sign.chars ++ digits)).length = min 5 s.chars.length

variable {services : Services} {opts : List Opt} {extra : List CString} {s port : CString} {st st' : Options}

theorem strcmp_empty (s : CString) : strcmp s (.ofChars []) = 0 ↔ s.chars = [] := by
  unfold strcmp
  rw [strncmp_eq_zero_iff (Nat.lt_succ_of_le (Nat.le_add_left _ _))]
  constructor
  · rintro rfl
    rfl
  · intro empty
    obtain ⟨chars, ended⟩ := s
    cases empty
    rfl

/-- The number that was checked is the one the argument begins with. -/
theorem PortChecked.begins (checked : PortChecked s) : ∃ rest, Begins s.chars (strtol s).value rest := by
  have low := checked.low
  have high := checked.high
  by_cases begins : ∃ v rest, Begins s.chars v rest
  · obtain ⟨v, rest, begins⟩ := begins
    refine ⟨rest, ?_⟩
    rw [strtol_of_begins begins] at low high ⊢
    split at high
    · rename_i fits
      rw [if_pos fits]
      exact begins
    · rename_i wide
      rw [if_neg wide] at low
      dsimp only at low high
      split at high
      · exact absurd high (by decide)
      · rename_i negative
        rw [if_neg negative] at low
        exact absurd low (by decide)
  · have nothing : ∀ v rest, ¬Begins s.chars v rest := fun v rest h => begins ⟨v, rest, h⟩
    rw [strtol_of_not_begins nothing] at low
    exact absurd low (by decide : ¬(2000 : Int) ≤ 0)

/-- So it is kept in some characters. -/
theorem PortChecked.some_char (checked : PortChecked s) : (firstChars s 5).chars ≠ [] := by
  intro empty
  obtain ⟨rest, begins⟩ := checked.begins
  rcases List.take_eq_nil_iff.mp empty with zero | none
  · cases zero
  · exact not_begins_nil (none ▸ begins)

/-! ## The options -/

/-- **One option**: the port is set, checked and for the first time, or it stays. -/
theorem readOption_ok {o : Opt} (read : readOption st o = .ok st') :
    (∃ s, o = .p s ∧ st.port.chars = [] ∧ PortChecked s ∧ st'.port = firstChars s 5) ∨
      ((∀ s, o ≠ .p s) ∧ st'.port = st.port) := by
  cases o with
  | n optarg =>
    simp only [readOption] at read
    split at read
    · cases read
    · cases read
      exact .inr ⟨fun _ same => (by cases same), rfl⟩
  | p optarg =>
    simp only [readOption] at read
    split at read
    · cases read
    rename_i unset
    split at read
    · cases read
    rename_i passes
    split at read
    · cases read
    rename_i range
    cases read
    obtain ⟨low, high⟩ := not_or.mp range
    exact .inl ⟨optarg, rfl, (strcmp_empty _).mp (not_not.mp unset),
      ⟨not_not.mp passes, not_lt.mp low, not_lt.mp high⟩, rfl⟩
  | h => cases read
  | unknown optopt => cases read
  | missing optopt =>
    cases read
    exact .inr ⟨fun _ same => (by cases same), rfl⟩

/-- **All options**: the port is that of the only `-p`, or it stays. -/
theorem readOptions_ok (read : opts.foldlM readOption st = .ok st') :
    ((∀ s, Opt.p s ∉ opts) ∧ st'.port = st.port) ∨
      ∃ s, (∀ s', Opt.p s' ∈ opts → s' = s) ∧ st.port.chars = [] ∧ PortChecked s ∧
        st'.port = firstChars s 5 := by
  induction opts generalizing st with
  | nil =>
    cases read
    exact .inl ⟨fun _ => List.not_mem_nil, rfl⟩
  | cons o opts ih =>
    rw [List.foldlM_cons] at read
    cases first : readOption st o with
    | error stopped =>
      rw [first] at read
      cases read
    | ok next =>
      rw [first] at read
      rcases readOption_ok first with ⟨s, rfl, unset, checked, kept⟩ | ⟨other, kept⟩
      · rcases ih read with ⟨none, same⟩ | ⟨_, _, unset', _, _⟩
        · refine .inr ⟨s, ?_, unset, checked, same.trans kept⟩
          intro s' member
          rcases List.mem_cons.mp member with here | later
          · cases here
            rfl
          · exact absurd later (none s')
        · rw [kept] at unset'
          exact absurd unset' checked.some_char
      · rcases ih read with ⟨none, same⟩ | ⟨s, only, unset, checked, set⟩
        · refine .inl ⟨?_, same.trans kept⟩
          intro s member
          rcases List.mem_cons.mp member with here | later
          · exact other s here.symm
          · exact none s later
        · refine .inr ⟨s, ?_, kept ▸ unset, checked, set⟩
          intro s' member
          rcases List.mem_cons.mp member with here | later
          · exact absurd here.symm (other s')
          · exact only s' later

/-- What `start_listener` is called with, where it is called. -/
theorem startServer_service (used : (startServer services extra st).service = some port)
    (set : st.port.chars ≠ []) : port = st.port := by
  unfold startServer at used
  dsimp only at used
  rw [if_neg (mt (strcmp_empty _).mp set)] at used
  generalize (if st.numThreads = 0 then 4 else st.numThreads) = numThreads at used
  split at used
  · cases used
  split at used
  · cases used
  split at used
  · cases used
  split at used
  · cases used
  split at used
  · cases used
    rfl
  · cases used
    rfl

/-- **A port that is accepted** has been checked, and its first five characters
are what the listener is started on. -/
theorem main_service (used : (main services opts extra).service = some port) (given : Opt.p s ∈ opts) :
    PortChecked s ∧ port = firstChars s 5 := by
  unfold main at used
  cases read : opts.foldlM readOption ⟨ERROR, 0, .ofChars [], 0⟩ with
  | error stopped =>
    rw [read] at used
    cases used
  | ok st =>
    rw [read] at used
    rcases readOptions_ok read with ⟨none, _⟩ | ⟨only, same, _, checked, set⟩
    · exact absurd given (none s)
    · obtain rfl := same s given
      refine ⟨checked, ?_⟩
      rw [startServer_service used (set ▸ checked.some_char), set]

/-- **The port that is validated is the port that is used**, where its numeral
is what the five characters hold. For every sequence of options, arguments and
answers of the functions that `main` calls: the service string passed to
`start_listener` denotes the number that was checked, if and only if the
numeral at the front of the argument makes up its first five characters, or all
of them where they are fewer. -/
theorem port_denotes_iff (services : Services) (opts : List Opt) (extra : List CString) (s port : CString)
    (given : Opt.p s ∈ opts) (used : (main services opts extra).service = some port) :
    (2000 ≤ (strtol s).value ∧ (strtol s).value ≤ 65535 ∧ Denotes port.chars (strtol s).value) ↔
      FitsPort s := by
  obtain ⟨checked, rfl⟩ := main_service used given
  obtain ⟨rest, begins⟩ := checked.begins
  have nonzero : (strtol s).value ≠ 0 := Int.ne_of_gt (Int.lt_of_lt_of_le (by decide) checked.low)
  have front : Denotes (firstChars s 5).chars (strtol s).value ↔ FitsPort s := denotes_take_iff begins nonzero
  rw [front]
  exact ⟨fun ok => ok.2.2, fun fits => ⟨checked.low, checked.high, fits⟩⟩

/-- Services that all succeed. -/
def ready : Services := ⟨0, fun _ => true, fun _ => 0⟩

/-- `-p 31337 -n 2`: the port is what was checked. -/
theorem port_denotes_given :
    (main ready [Opt.p (.ofChars ['3', '1', '3', '3', '7']), Opt.n (.ofChars ['2'])] []).service =
        some (.ofChars ['3', '1', '3', '3', '7']) ∧
      Denotes (CString.ofChars ['3', '1', '3', '3', '7']).chars 31337 := by
  have numeral : Denotes (CString.ofChars ['3', '1', '3', '3', '7']).chars 31337 :=
    begins_iff_scan.mpr ⟨false, 31337, by decide, rfl⟩
  have served : (main ready [Opt.p (.ofChars ['3', '1', '3', '3', '7']), Opt.n (.ofChars ['2'])] []).service =
      some (.ofChars ['3', '1', '3', '3', '7']) := by decide
  have fits : FitsPort (.ofChars ['3', '1', '3', '3', '7']) :=
    (denotes_take_iff (k := 5) numeral (by decide)).mp numeral
  obtain ⟨_, _, denotes⟩ := (port_denotes_iff ready _ [] _ _ List.mem_cons_self served).mpr fits
  have value : (strtol (.ofChars ['3', '1', '3', '3', '7'])).value = 31337 := by decide
  rw [value] at denotes
  exact ⟨served, denotes⟩

/-- `-p 00031337` is checked as port 31337 and served as port 31. -/
theorem port_cut_short :
    (main ready [Opt.p (.ofChars ['0', '0', '0', '3', '1', '3', '3', '7'])] []).service =
        some (.ofChars ['0', '0', '0', '3', '1']) ∧
      (strtol (.ofChars ['0', '0', '0', '3', '1', '3', '3', '7'])).value = 31337 ∧
      ¬Denotes (CString.ofChars ['0', '0', '0', '3', '1']).chars 31337 ∧
      Denotes (CString.ofChars ['0', '0', '0', '3', '1']).chars 31 := by
  have denotes : Denotes (CString.ofChars ['0', '0', '0', '3', '1']).chars 31 :=
    begins_iff_scan.mpr ⟨false, 31, by decide, rfl⟩
  refine ⟨by decide, by decide, ?_, denotes⟩
  intro same
  exact absurd (same.unique denotes).1 (by decide)

end NetCalc.Net
