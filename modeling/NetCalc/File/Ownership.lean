import NetCalc.File.Phases
import NetCalc.Lib.Dialogue

/-!
# Whose descriptor is it?

`Hands` is what a file has of the process: the block of its arguments and its
two descriptors. A call changes them as `Handled` says, whatever is read or
written, and `PreparePc.Has` and `JobPc.Has` say what a file has at each point
of the code that works on it (`prepare_keeps`, `parse_keeps`). The table of the
descriptors shows just that (`Held`): a number that is in use is not given out
again, a file closes its own number only, and no call is made on another's
(`serve_handled`, `possessed`). None of this depends on what the files hold or
on their paths.
-/

namespace NetCalc.File

set_option autoImplicit false
open NetCalc.Lib NetCalc.Net

/-- What a file has of the process. -/
structure Hands where
  args : Option ParseArgs
  inD : Option Int
  outD : Option Int

/-- A file may read its input's descriptor, and write and close its output's;
reading where `open` failed does no harm. -/
def SafeCall (h : Hands) : Request → Prop
  | .openIn => h.inD = none
  | .openOut => h.outD = none
  | .read fileD _ => h.inD = some fileD ∨ fileD = ERROR
  | .write fileD _ => h.outD = some fileD
  | .close fileD => h.outD = some fileD
  | _ => True

/-- What a call changes, with any data. The numbers 0, 1 and 2 are taken. -/
inductive Handled (h : Hands) : Request → Reply → Hands → Prop where
  | openIn (fileD : Int) (high : 2 < fileD) : Handled h .openIn (.opened fileD) { h with inD := some fileD }
  | openOut (fileD : Int) (high : 2 < fileD) : Handled h .openOut (.opened fileD) { h with outD := some fileD }
  | noIn : Handled h .openIn (.opened ERROR) h
  | noOut : Handled h .openOut (.opened ERROR) h
  | alloc (b : Block) (there : Bool) : Handled h (.alloc b) (.block there) h
  | read (fileD : Int) (len : Nat) (own : h.inD = some fileD) (bytes : Except Errno (List Byte)) :
      Handled h (.read fileD len) (.data bytes) h
  | unread (len : Nat) (errno : Errno) (closed : h.inD ≠ some ERROR) :
      Handled h (.read ERROR len) (.data (.error errno)) h
  | write (fileD : Int) (bytes : List Byte) (own : h.outD = some fileD) (accepted : Option Nat) :
      Handled h (.write fileD bytes) (.accepted accepted) h
  | close (fileD : Int) (own : h.outD = some fileD) : Handled h (.close fileD) .done { h with outD := none }
  | store (args : ParseArgs) : Handled h (.store args) .done { h with args := some args }
  | solve : Handled h .solve .done h
  | args : Handled h .args (.args h.args) h
  | free : Handled h .free .done { h with args := none }

/-- Reading changes nothing that a file has. -/
theorem Handled.of_read {h h' : Hands} {fileD : Int} {len : Nat} {a : Reply}
    (served : Handled h (.read fileD len) a h') : h' = h ∧ ∃ bytes, a = .data bytes := by
  cases served <;> exact ⟨rfl, _, rfl⟩

/-- The system, as far as what a file has goes. -/
def handServer : Server Request Reply Hands := ⟨SafeCall, Handled⟩

/-! ## What a file has at each point -/

variable {h : Hands} {fileD fileDes numEquations : Int}

/-- Both descriptors are open. -/
structure Hands.Both (h : Hands) (fileD fileDes : Int) : Prop where
  input : h.inD = some fileD
  output : h.outD = some fileDes
  in_high : 2 < fileD
  out_high : 2 < fileDes

/-- The block of the arguments has them. -/
def Hands.Ready (h : Hands) : Prop := ∃ args, h.args = some args ∧ h.Both args.inFileStream args.outFileStream

/-- The input is open, or could not be opened, and the output is not yet. -/
def Hands.Tried (h : Hands) (fileD : Int) : Prop :=
  (h.inD = some fileD ∧ 2 < fileD ∨ h.inD = none ∧ fileD = ERROR) ∧ h.outD = none

/-- What the main thread has of a file. -/
def PreparePc.Has : PreparePc → Hands → Prop
  | .opening, h => h = ⟨none, none, none⟩
  | .allocHeader fileD, h => h.Tried fileD
  | .checking fileD _ _ _, h => h.Tried fileD
  | .creating fileD _ _, h => h.inD = some fileD ∧ 2 < fileD ∧ h.outD = none
  | .writing fileD _ fileDes _ _, h => h.Both fileD fileDes
  | .storing fileD fileDes _, h => h.Both fileD fileDes
  | .ready, h => h.Ready
  | .failed, _ => True

theorem checked_has (own : h.inD = some fileD) (high : 2 < fileD) (unopened : h.outD = none) (byteRead : Nat)
    (buf : List Byte) : (PreparePc.checked fileD byteRead buf).Has h := by
  unfold PreparePc.checked
  dsimp only
  split
  · trivial
  split
  · trivial
  split
  · trivial
  exact ⟨own, high, unopened⟩

theorem check_has (own : h.inD = some fileD) (high : 2 < fileD) (unopened : h.outD = none) (buf : List Byte)
    (total : Nat) (last : Int) : (PreparePc.check fileD buf total last).Has h := by
  unfold PreparePc.check
  split
  · exact ⟨.inl ⟨own, high⟩, unopened⟩
  · exact checked_has own high unopened ..

/-- `check_header` reads once at least. -/
theorem check_first (fileD : Int) (buf : List Byte) : PreparePc.check fileD buf 0 0 = .checking fileD buf 0 0 :=
  if_pos ((readMore_iff (by decide)).mpr (by decide))

/-- Where `open` failed the check does. -/
theorem checked_error (errno : Errno) (buf : List Byte) :
    PreparePc.checked fileD (readError errno) buf = .failed :=
  if_pos (readError_ne (by decide) (by decide) errno)

theorem created_has (both : h.Both fileD fileDes) : (PreparePc.created fileD numEquations fileDes).Has h := by
  unfold PreparePc.created
  split
  · trivial
  · exact both

theorem PreparePc.write_has (both : h.Both fileD fileDes) (bytes : List Byte) (total : Nat) :
    (PreparePc.write fileD numEquations fileDes bytes total).Has h := by
  unfold PreparePc.write
  split
  · exact both
  · exact created_has both

/-- **The main thread's code.** -/
theorem prepare_keeps : Keeps prepare handServer PreparePc.Has where
  safe pc h q has asks := by
    cases pc with
    | opening =>
      cases asks
      rw [show h = ⟨none, none, none⟩ from has]
      rfl
    | checking fileD buf total last =>
      cases asks
      obtain ⟨⟨own, _⟩ | ⟨_, failed⟩, _⟩ := has
      · exact .inl own
      · exact .inr failed
    | creating =>
      cases asks
      exact has.2.2
    | writing =>
      cases asks
      exact has.output
    | allocHeader | storing =>
      cases asks
      trivial
    | ready | failed => cases asks
  next pc h q a h' has asks served := by
    cases pc with
    | opening =>
      cases asks
      rw [show h = ⟨none, none, none⟩ from has] at served
      cases served with
      | openIn fileD high => exact ⟨.inl ⟨rfl, high⟩, rfl⟩
      | noIn => exact ⟨.inr ⟨rfl, rfl⟩, rfl⟩
    | allocHeader fileD =>
      cases asks
      cases served with
      | alloc _ there =>
        cases there with
        | false => trivial
        | true =>
          show (PreparePc.check fileD (zeroed HEADER_SIZE) 0 0).Has h
          rw [check_first]
          exact has
    | checking fileD buf total last =>
      cases asks
      obtain ⟨tried, unopened⟩ := has
      cases served with
      | read _ _ own bytes =>
        rcases tried with ⟨_, high⟩ | ⟨closed, _⟩
        · cases bytes with
          | error errno => exact checked_has own high unopened ..
          | ok bs =>
            show (if bs = [] then _ else _ : PreparePc).Has h
            split
            · exact checked_has own high unopened ..
            · exact check_has own high unopened ..
        · rw [closed] at own
          cases own
      | unread _ errno _ =>
        show (PreparePc.checked ERROR (readError errno) buf).Has h
        rw [checked_error]
        trivial
    | creating fileD numEquations header =>
      cases asks
      obtain ⟨own, high, _⟩ := has
      cases served with
      | noOut => trivial
      | openOut fileDes out_high =>
        show (if fileDes = ERROR then _ else _ : PreparePc).Has _
        have both : ({ h with outD := some fileDes } : Hands).Both fileD fileDes := ⟨own, rfl, high, out_high⟩
        split
        · exact created_has both
        · exact PreparePc.write_has both ..
    | writing fileD numEquations fileDes bytes total =>
      cases asks
      cases served with
      | write _ _ _ accepted =>
        cases accepted with
        | none => exact created_has has
        | some k =>
          show (if total = bytes.length then _ else _ : PreparePc).Has h
          split
          · exact created_has has
          · exact PreparePc.write_has has ..
    | storing fileD fileDes numEquations =>
      cases asks
      cases served
      obtain ⟨input, output, in_high, out_high⟩ := has
      exact ⟨_, rfl, input, output, in_high, out_high⟩
    | ready | failed => cases asks

/-- What a worker has of it. -/
def JobPc.Has : JobPc → Hands → Prop
  | .entered, h => h.Ready
  | .allocEquation args, h | .allocCalc args _, h | .reading args _ _ _, h | .solving args _, h
  | .allocSolution args _ _, h | .writing args _ _ _, h | .closing args, h =>
    h.Both args.inFileStream args.outFileStream
  | .freeing, h => h.outD = none
  | .finished, h => h.outD = none

section Job
variable {args : ParseArgs} (both : h.Both args.inFileStream args.outFileStream)
include both

theorem close_has : (JobPc.close args).Has h := by
  rw [show JobPc.close args = .closing args from if_pos both.out_high]
  exact both

theorem loop_has (buf : List Byte) : (JobPc.loop args buf).Has h := by
  unfold JobPc.loop
  split
  · exact both
  · exact close_has both

theorem read_has (bytesRead : Nat) (buf : List Byte) : (JobPc.read args bytesRead buf).Has h := by
  unfold JobPc.read
  split
  · exact close_has both
  split
  · exact close_has both
  · exact both

theorem safeRead_has (buf : List Byte) (total : Nat) (last : Int) :
    (JobPc.safeRead args buf total last).Has h := by
  unfold JobPc.safeRead
  split
  · exact both
  · exact read_has both ..

theorem solve_has (t : Target) (buf : List Byte) : (JobPc.solve t args buf).Has h := by
  unfold JobPc.solve
  dsimp only
  split
  · exact close_has both
  split
  · exact close_has both
  · exact both

theorem written_has (buf : List Byte) (numBytes : Nat) : (JobPc.written args buf numBytes).Has h := by
  unfold JobPc.written
  split
  · exact close_has both
  · exact loop_has both ..

theorem JobPc.write_has (buf bytes : List Byte) (total : Nat) : (JobPc.write args buf bytes total).Has h := by
  unfold JobPc.write
  split
  · exact both
  · exact written_has both ..

end Job

/-- **A worker's code.** -/
theorem parse_keeps (t : Target) : Keeps (parse t) handServer JobPc.Has where
  safe pc h q has asks := by
    cases pc with
    | reading =>
      cases asks
      exact .inl has.input
    | writing | closing =>
      cases asks
      exact has.output
    | finished => cases asks
    | _ =>
      cases asks
      trivial
  next pc h q a h' has asks served := by
    cases pc with
    | entered =>
      cases asks
      cases served
      obtain ⟨args, block, both⟩ := has
      have in_ok : ¬args.inFileStream < 2 := by
        have high := both.in_high
        omega
      have out_ok : ¬args.outFileStream < 2 := by
        have high := both.out_high
        omega
      rw [block]
      show (if args.inFileStream < 2 then _ else _ : JobPc).Has h
      rw [if_neg in_ok, if_neg out_ok]
      exact both
    | allocEquation args =>
      cases asks
      cases served with
      | alloc _ there =>
        cases there with
        | false => exact close_has has
        | true => exact loop_has has ..
    | allocCalc args buf =>
      cases asks
      cases served with
      | alloc _ there =>
        cases there with
        | false => exact close_has has
        | true => exact safeRead_has has ..
    | reading args buf total last =>
      cases asks
      obtain ⟨rfl, bytes, rfl⟩ := served.of_read
      cases bytes with
      | error errno => exact read_has has ..
      | ok bs =>
        show (if bs = [] then _ else _ : JobPc).Has _
        split
        · exact read_has has ..
        · exact safeRead_has has ..
    | solving args buf =>
      cases asks
      cases served
      exact solve_has has ..
    | allocSolution args buf calcResult =>
      cases asks
      cases served with
      | alloc _ there =>
        cases there with
        | false => exact written_has has buf SIZE_ERROR
        | true =>
          show (JobPc.write args buf
            ((solvedEquation calcResult (Equation.ofBytes buf)).toBytes.take SOLUTION_SIZE) 0).Has h
          exact JobPc.write_has has ..
    | writing args buf bytes total =>
      cases asks
      cases served with
      | write _ _ _ accepted =>
        cases accepted with
        | none => exact written_has has buf SIZE_ERROR
        | some k =>
          show (if total = bytes.length then _ else _ : JobPc).Has h
          split
          · exact written_has has ..
          · exact JobPc.write_has has ..
    | closing args =>
      cases asks
      cases served
      exact rfl
    | freeing =>
      cases asks
      cases served
      exact has
    | finished => cases asks

/-! ## The table of the descriptors -/

variable {D : Directory} {n : Nat} {s t : Process D n} {f g : Entry D}

/-- The tables show what a file has, and nothing else in them is the file's. -/
structure Held (s : Process D n) (f : Entry D) (h : Hands) : Prop where
  args : s.args f = h.args
  reads : ∀ d, h.inD = some d → ∃ path offset, D.inPath f = some path ∧
    s.fds d = some ⟨path, offset, false, some f⟩
  writes : ∀ d, h.outD = some d → ∃ offset, s.fds d = some ⟨D.outPath f, offset, true, some f⟩
  only : ∀ d file, s.fds d = some file → file.owner = some f → h.inD = some d ∨ h.outD = some d

/-- Nothing is open under a negative number, and something that is no file's
under 0, 1 and 2. -/
structure Streams (s : Process D n) : Prop where
  low : ∀ d, d < 0 → s.fds d = none
  standard : ∀ d, 0 ≤ d → d ≤ 2 → ∃ file, s.fds d = some file ∧ file.owner = none

/-- What a call for `f` leaves alone. -/
structure Framed (f : Entry D) (s t : Process D n) : Prop where
  tape : ∀ g, g ≠ f → t.tape g = s.tape g
  args : ∀ g, g ≠ f → t.args g = s.args g
  fds : ∀ d file, file.owner ≠ some f → (t.fds d = some file ↔ s.fds d = some file)
  low : ∀ d, d < 0 → s.fds d = none → t.fds d = none
  files : ∀ path, path ≠ D.outPath f → t.files path = s.files path

theorem Framed.refl (f : Entry D) (s : Process D n) : Framed f s s where
  tape _ _ := rfl
  args _ _ := rfl
  fds _ _ _ := Iff.rfl
  low _ _ same := same
  files _ _ := rfl

theorem Streams.frame (streams : Streams s) (framed : Framed f s t) : Streams t where
  low d negative := framed.low d negative (streams.low d negative)
  standard d nonneg small := by
    obtain ⟨file, here, nobody⟩ := streams.standard d nonneg small
    refine ⟨file, (framed.fds d file ?_).mpr here, nobody⟩
    rw [nobody]
    simp

theorem Streams.same (streams : Streams s) (same : SameTables s t) : Streams t where
  low := by
    rw [same.fds]
    exact streams.low
  standard := by
    rw [same.fds]
    exact streams.standard

/-- **The others.** A call for one file does not change what another has. -/
theorem Held.frame (held : Held s g h) (framed : Framed f s t) (other : g ≠ f) : Held t g h where
  args := (framed.args g other).trans held.args
  reads d own := by
    obtain ⟨path, offset, here, file⟩ := held.reads d own
    exact ⟨path, offset, here, (framed.fds d _ (by simpa using other)).mpr file⟩
  writes d own := by
    obtain ⟨offset, file⟩ := held.writes d own
    exact ⟨offset, (framed.fds d _ (by simpa using other)).mpr file⟩
  only d file here own := by
    refine held.only d file ((framed.fds d file ?_).mp here) own
    rw [own]
    simpa using other

theorem Held.same (held : Held s f h) (same : SameTables s t) : Held t f h where
  args := by rw [same.args, held.args]
  reads := by
    rw [same.fds]
    exact held.reads
  writes := by
    rw [same.fds]
    exact held.writes
  only := by
    rw [same.fds]
    exact held.only

/-! ## Single calls -/

/-- A call changes what the file has, and leaves the others' alone. -/
def Answered (s t : Process D n) (f : Entry D) (h : Hands) (q : Request) (a : Reply) : Prop :=
  ∃ h', Handled h q a h' ∧ Held t f h' ∧ Framed f s t

/-- What `open` can return. -/
theorem openFile_cases (streams : Streams s) {file : OpenFile D} {chosen : Option Int} {a : Reply}
    (h : s.openFile file chosen = some (a, t)) : (a = .opened ERROR ∧ t = s) ∨ ∃ d, 2 < d ∧ s.fds d = none ∧
      a = .opened d ∧ t = { s with fds := Function.update s.fds d (some file) } := by
  unfold Process.openFile at h
  split at h
  · cases h
    exact .inl ⟨rfl, rfl⟩
  · rename_i d
    split at h
    · rename_i free
      cases h
      obtain ⟨nonneg, unused⟩ := free
      have unused := Option.isNone_iff_eq_none.mp unused
      refine .inr ⟨d, ?_, unused, rfl, rfl⟩
      by_contra small
      obtain ⟨taken, here, _⟩ := streams.standard d nonneg (by omega)
      rw [here] at unused
      cases unused
    · cases h

/-- What opening an input can. -/
theorem openIn_cases (streams : Streams s) {chosen : Option Int} {a : Reply}
    (served : s.serve f .openIn chosen = some (a, t)) : (a = .opened ERROR ∧ t = s) ∨ ∃ path d,
      D.inPath f = some path ∧ 2 < d ∧ s.fds d = none ∧ a = .opened d ∧
      t = { s with fds := Function.update s.fds d (some ⟨path, 0, false, some f⟩) } := by
  unfold Process.serve at served
  dsimp only at served
  split at served
  · cases served
    exact .inl ⟨rfl, rfl⟩
  · rename_i path here
    rcases openFile_cases streams served with failed | ⟨d, opened⟩
    · exact .inl failed
    · exact .inr ⟨path, d, here, opened⟩

/-- A number that was not in use is given out. -/
theorem framed_open {d : Int} {file : OpenFile D} (own : file.owner = some f) (high : 2 < d)
    (unused : s.fds d = none) : Framed f s { s with fds := Function.update s.fds d (some file) } :=
  { Framed.refl f s with
    fds := by
      intro e taken stranger
      dsimp only
      by_cases same : e = d
      · subst same
        rw [Function.update_self, unused]
        refine iff_of_false ?_ (by simp)
        rintro ⟨⟩
        exact stranger own
      · rw [Function.update_of_ne same]
    low := fun e negative here => (Function.update_of_ne (by omega) ..).trans here }

/-- A file's own number changes, or is given back. -/
theorem framed_own {d : Int} {file : OpenFile D} (here : s.fds d = some file) (own : file.owner = some f)
    {entry : Option (OpenFile D)} (still : ∀ file, entry = some file → file.owner = some f) (tape : Tape) :
    Framed f s { s with
      fds := Function.update s.fds d entry
      tape := Function.update s.tape f tape } :=
  { Framed.refl f s with
    tape := fun _ other => Function.update_of_ne other ..
    fds := by
      intro e taken stranger
      dsimp only
      by_cases same : e = d
      · subst same
        rw [Function.update_self, here]
        apply iff_of_false
        · exact fun now => stranger (still taken now)
        · rintro ⟨⟩
          exact stranger own
      · rw [Function.update_of_ne same]
    low := by
      intro e negative at_e
      have different : e ≠ d := by
        rintro rfl
        rw [here] at at_e
        cases at_e
      exact (Function.update_of_ne different ..).trans at_e }

/-- A descriptor stays what it was when another is opened. -/
theorem update_used {d e : Int} {file taken : OpenFile D} (unused : s.fds d = none)
    (here : s.fds e = some taken) : Function.update s.fds d (some file) e = some taken := by
  have different : e ≠ d := by
    rintro rfl
    rw [here] at unused
    cases unused
  exact (Function.update_of_ne different ..).trans here

/-- The input is opened. -/
theorem Held.open_in (held : Held s f h) (closed : h.inD = none) {d : Int} (unused : s.fds d = none) {path : Path}
    (here : D.inPath f = some path) :
    Held { s with fds := Function.update s.fds d (some ⟨path, 0, false, some f⟩) } f
      { h with inD := some d } where
  args := held.args
  reads e own := by
    cases own
    exact ⟨path, 0, here, Function.update_self ..⟩
  writes e own := by
    obtain ⟨offset, file⟩ := held.writes e own
    exact ⟨offset, update_used unused file⟩
  only e file at_e own := by
    dsimp only at at_e
    by_cases same : e = d
    · exact .inl (by rw [same])
    · rw [Function.update_of_ne same] at at_e
      rcases held.only e file at_e own with before | output
      · rw [closed] at before
        cases before
      · exact .inr output

/-- The output is opened. -/
theorem Held.open_out (held : Held s f h) (closed : h.outD = none) {d : Int} (unused : s.fds d = none) :
    Held { s with fds := Function.update s.fds d (some ⟨D.outPath f, 0, true, some f⟩) } f
      { h with outD := some d } where
  args := held.args
  reads e own := by
    obtain ⟨path, offset, here, file⟩ := held.reads e own
    exact ⟨path, offset, here, update_used unused file⟩
  writes e own := by
    cases own
    exact ⟨0, Function.update_self ..⟩
  only e file at_e own := by
    dsimp only at at_e
    by_cases same : e = d
    · exact .inr (by rw [same])
    · rw [Function.update_of_ne same] at at_e
      rcases held.only e file at_e own with input | before
      · exact .inl input
      · rw [closed] at before
        cases before

/-- The input is read on. -/
theorem Held.read_on (held : Held s f h) {d : Int} (own : h.inD = some d) {path : Path} {offset : Nat}
    (here : D.inPath f = some path) (file : s.fds d = some ⟨path, offset, false, some f⟩) (offset' : Nat)
    (tape : Entry D → Tape) : Held { s with
      fds := Function.update s.fds d (some ⟨path, offset', false, some f⟩)
      tape := tape } f h where
  args := held.args
  reads e same := by
    rw [own] at same
    cases same
    exact ⟨path, offset', here, Function.update_self ..⟩
  writes e same := by
    obtain ⟨at_end, file'⟩ := held.writes e same
    have different : e ≠ d := by
      rintro rfl
      rw [file] at file'
      cases file'
    exact ⟨at_end, (Function.update_of_ne different ..).trans file'⟩
  only e taken at_e mine := by
    dsimp only at at_e
    by_cases same : e = d
    · exact .inl (by rw [same, own])
    · rw [Function.update_of_ne same] at at_e
      exact held.only e taken at_e mine

/-- The output is closed. -/
theorem Held.close (held : Held s f h) {d : Int} (own : h.outD = some d) (tape : Entry D → Tape) :
    Held { s with
      fds := Function.update s.fds d none
      tape := tape } f { h with outD := none } where
  args := held.args
  reads e same := by
    obtain ⟨offset, file⟩ := held.writes d own
    obtain ⟨path, offset', here, file'⟩ := held.reads e same
    have different : e ≠ d := by
      rintro rfl
      rw [file] at file'
      cases file'
    exact ⟨path, offset', here, (Function.update_of_ne different ..).trans file'⟩
  writes _ impossible := by cases impossible
  only e taken at_e mine := by
    dsimp only at at_e
    by_cases same : e = d
    · subst same
      rw [Function.update_self] at at_e
      cases at_e
    · rw [Function.update_of_ne same] at at_e
      rcases held.only e taken at_e mine with input | output
      · exact .inl input
      · rw [own] at output
        exact absurd (Option.some.inj output).symm same

theorem serve_openIn (streams : Streams s) (held : Held s f h) (closed : h.inD = none) {chosen : Option Int}
    {a : Reply} (served : s.serve f .openIn chosen = some (a, t)) : Answered s t f h .openIn a := by
  rcases openIn_cases streams served with ⟨rfl, rfl⟩ | ⟨path, d, here, high, unused, rfl, rfl⟩
  · exact ⟨h, .noIn, held, .refl f t⟩
  · exact ⟨_, .openIn d high, held.open_in closed unused here, framed_open rfl high unused⟩

theorem serve_openOut (streams : Streams s) (held : Held s f h) (closed : h.outD = none) {chosen : Option Int}
    {a : Reply} (served : s.serve f .openOut chosen = some (a, t)) : Answered s t f h .openOut a := by
  rcases openFile_cases streams served with ⟨rfl, rfl⟩ | ⟨d, high, unused, rfl, rfl⟩
  · exact ⟨h, .noOut, held, .refl f t⟩
  · exact ⟨_, .openOut d high, held.open_out closed unused, framed_open rfl high unused⟩

theorem serve_read (held : Held s f h) {d : Int} {len : Nat} (own : h.inD = some d) {chosen : Option Int}
    {a : Reply} (served : s.serve f (.read d len) chosen = some (a, t)) : Answered s t f h (.read d len) a := by
  obtain ⟨path, offset, here, file⟩ := held.reads d own
  have reads : s.readFile f d len = (a, t) := Option.some.inj served
  unfold Process.readFile at reads
  rw [file] at reads
  cases reads
  refine ⟨h, .read d len own _, held.read_on own here file .., framed_own file rfl ?_ _⟩
  rintro _ ⟨⟩
  rfl

/-- Where `open` failed nothing is read. -/
theorem serve_unread (streams : Streams s) {len : Nat} {chosen : Option Int} {a : Reply}
    (served : s.serve f (.read ERROR len) chosen = some (a, t)) : t = s ∧ a = .data (.error (.other 9)) := by
  have nothing : s.fds ERROR = none := streams.low ERROR (by decide)
  have reads : s.readFile f ERROR len = (a, t) := Option.some.inj served
  unfold Process.readFile at reads
  rw [nothing] at reads
  cases reads
  exact ⟨rfl, rfl⟩

theorem serve_close (held : Held s f h) {d : Int} (own : h.outD = some d) {chosen : Option Int} {a : Reply}
    (served : s.serve f (.close d) chosen = some (a, t)) : Answered s t f h (.close d) a := by
  obtain ⟨offset, file⟩ := held.writes d own
  cases served
  exact ⟨_, .close d own, held.close own _, framed_own file rfl (by simp) _⟩

theorem serve_write (held : Held s f h) {d : Int} {bytes : List Byte} (own : h.outD = some d)
    {chosen : Option Int} {a : Reply} (served : s.serve f (.write d bytes) chosen = some (a, t)) :
    Answered s t f h (.write d bytes) a := by
  obtain ⟨offset, file⟩ := held.writes d own
  have writes : s.writeFile f d bytes = (a, t) := Option.some.inj served
  unfold Process.writeFile at writes
  rw [file] at writes
  dsimp only at writes
  rw [if_neg (by simp)] at writes
  cases writes
  refine ⟨h, .write d bytes own _, { held with }, ?_⟩
  exact
    { Framed.refl f s with
      tape := fun _ other => Function.update_of_ne other ..
      files := fun _ other => Function.update_of_ne other .. }

/-- **A call for a file changes what it has** as `Handled` says, and nothing of
the others. -/
theorem serve_handled (streams : Streams s) (held : Held s f h) {q : Request} (safe : SafeCall h q)
    {chosen : Option Int} {a : Reply} (served : s.serve f q chosen = some (a, t)) : Answered s t f h q a := by
  cases q with
  | openIn => exact serve_openIn streams held safe served
  | openOut => exact serve_openOut streams held safe served
  | alloc b =>
    cases served
    refine ⟨h, .alloc b _, { held with }, ?_⟩
    exact { Framed.refl f s with tape := fun _ other => Function.update_of_ne other .. }
  | read d len =>
    rcases safe with own | rfl
    · exact serve_read held own served
    · obtain ⟨rfl, rfl⟩ := serve_unread streams served
      refine ⟨h, .unread len _ ?_, held, .refl f t⟩
      intro own
      obtain ⟨path, offset, _, file⟩ := held.reads ERROR own
      rw [streams.low ERROR (by decide)] at file
      cases file
  | write d bytes => exact serve_write held safe served
  | close d => exact serve_close held safe served
  | solve =>
    cases served
    exact ⟨h, .solve, held, .refl f s⟩
  | store args =>
    cases served
    refine ⟨{ h with args := some args }, .store args, ?_, ?_⟩
    · exact { held with args := Function.update_self .. }
    · exact { Framed.refl f s with args := fun _ other => Function.update_of_ne other .. }
  | args =>
    cases served
    refine ⟨h, ?_, held, .refl f s⟩
    rw [held.args]
    exact .args
  | free =>
    cases served
    refine ⟨{ h with args := none }, .free, ?_, ?_⟩
    · exact { held with args := Function.update_self .. }
    · exact { Framed.refl f s with args := fun _ other => Function.update_of_ne other .. }

/-- **A file calls on its own descriptors.** -/
theorem Held.owns (held : Held s f h) (streams : Streams s) {q : Request} (safe : SafeCall h q) {d : Int}
    (on_d : q.fileD = some d) {file : OpenFile D} (here : s.fds d = some file) : file.owner = some f := by
  have reads : h.inD = some d → file.owner = some f := by
    intro own
    obtain ⟨_, _, _, entry⟩ := held.reads d own
    rw [here] at entry
    cases entry
    rfl
  have writes : h.outD = some d → file.owner = some f := by
    intro own
    obtain ⟨_, entry⟩ := held.writes d own
    rw [here] at entry
    cases entry
    rfl
  cases q with
  | read e len =>
    cases on_d
    rcases safe with own | rfl
    · exact reads own
    · rw [streams.low ERROR (by decide)] at here
      cases here
  | write e bytes =>
    cases on_d
    exact writes safe
  | close e =>
    cases on_d
    exact writes safe
  | _ => cases on_d

/-! ## Every file, in every reachable process -/

/-- What a file has in each phase. -/
def Phase.Has : Phase n → Hands → Prop
  | .untouched, h => h = ⟨none, none, none⟩
  | .preparing pc, h => pc.Has h
  | .ready, h => h.Ready
  | .queued, h => h.Ready
  | .running _ pc, h => pc.Has h
  | .finished, h => h.outD = none

/-- A file that goes on without a call has what it had. -/
theorem Phase.Goes.has {old new : Phase n} (goes : old.Goes new) (has : old.Has h) : new.Has h := by
  cases goes <;> exact has

/-- Its calls are safe. -/
theorem Phase.Calls.safe {target : Target} {old new : Phase n} {q : Request} {a : Reply}
    (calls : Phase.Calls target old q a new) (has : old.Has h) : SafeCall h q := by
  cases calls with
  | prepares pc _ _ asks => exact prepare_keeps.safe pc h q has asks
  | parses w pc _ _ asks => exact (parse_keeps target).safe pc h q has asks

/-- And lead to the next phase. -/
theorem Phase.Calls.has {target : Target} {old new : Phase n} {q : Request} {a : Reply} {h' : Hands}
    (calls : Phase.Calls target old q a new) (has : old.Has h) (handled : Handled h q a h') : new.Has h' := by
  cases calls with
  | prepares pc _ _ asks => exact prepare_keeps.next pc h q a h' has asks handled
  | parses w pc _ _ asks => exact (parse_keeps target).next pc h q a h' has asks handled

/-- Every file has what it has in its phase. -/
structure Possessed (s : Process D n) (phase : Entry D → Phase n) (hands : Entry D → Hands) : Prop where
  streams : Streams s
  held : ∀ f, Held s f (hands f)
  has : ∀ f, (phase f).Has (hands f)

theorem streams_start (D : Directory) (n : Nat) : Streams (Process.start D n) where
  low := by
    intro d negative
    apply if_neg
    intro opened
    have nonneg := D.numbers d opened
    omega
  standard d nonneg small := ⟨⟨[], 0, false, none⟩, if_pos (D.standard d nonneg small), rfl⟩

theorem held_start (f : Entry D) : Held (Process.start D n) f ⟨none, none, none⟩ where
  args := rfl
  reads _ impossible := by cases impossible
  writes _ impossible := by cases impossible
  only d file here own := by
    unfold Process.start at here
    dsimp only at here
    split at here
    · cases here
      cases own
    · cases here

/-- **One action.** -/
theorem Possessed.step {phase phase' : Entry D → Phase n} {hands : Entry D → Hands}
    (possessed : Possessed s phase hands) (advance : Advance s t phase phase') :
    ∃ hands', Possessed t phase' hands' := by
  cases advance with
  | stays same =>
    exact ⟨hands, possessed.streams.same same, fun f => (possessed.held f).same same, possessed.has⟩
  | goes f new goes same =>
    refine ⟨hands, possessed.streams.same same, fun g => (possessed.held g).same same, ?_⟩
    exact (Function.forall_update_iff phase fun g p => p.Has (hands g)).mpr
      ⟨goes.has (possessed.has f), fun g _ => possessed.has g⟩
  | calls f q chosen a u new calls served same =>
    obtain ⟨h', handled, held, framed⟩ :=
      serve_handled possessed.streams (possessed.held f) (calls.safe (possessed.has f)) served
    refine ⟨Function.update hands f h', (possessed.streams.frame framed).same same, ?_, ?_⟩
    · refine (Function.forall_update_iff hands fun g h => Held t g h).mpr ⟨held.same same, ?_⟩
      exact fun g other => ((possessed.held g).frame framed other).same same
    · intro g
      by_cases here : g = f
      · subst here
        rw [Function.update_self, Function.update_self]
        exact calls.has (possessed.has g) handled
      · rw [Function.update_of_ne here, Function.update_of_ne here]
        exact possessed.has g

/-- **Every file has what it has in its phase.** -/
theorem possessed (h : (fileLts D n).Reachable s) :
    ∃ place phase hands, Scheduled s place phase ∧ Possessed s phase hands := by
  obtain ⟨place, phase, scheduled, hands, possessed⟩ :=
    scheduled_induction (P := fun s phase => ∃ hands, Possessed s phase hands)
      ⟨_, streams_start D n, held_start, fun _ => rfl⟩
      (fun _ _ _ _ ⟨_, possessed⟩ advance => possessed.step advance) h
  exact ⟨place, phase, hands, scheduled, possessed⟩

end NetCalc.File
