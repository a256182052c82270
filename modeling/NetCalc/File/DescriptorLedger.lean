import NetCalc.File.Ownership
import NetCalc.Lib.Ledger

/-!
# The ledger of the descriptors

Each call to the system that a run makes is entered in a ledger (`deeds`), and
the table of the descriptors says who has which (`Process.holder`). The two go
together: no call is made on a descriptor that is not open, a number that is in
use is not given out again, and the table changes as the ledger says
(`serve_ledger`, `step_entered`).
-/

namespace NetCalc.File

set_option autoImplicit false
open NetCalc.Lib NetCalc.Net

/-- What a descriptor was opened for. -/
inductive Role where
  | input
  | output
  deriving DecidableEq, Repr

/-- What a call does with a descriptor, for a file. -/
def Request.deeds {D : Directory} (f : Entry D) : Request → Reply → Ledger Int (Entry D × Role)
  | .openIn, .opened fileD => if fileD = ERROR then [] else [(fileD, .opened (f, .input))]
  | .openOut, .opened fileD => if fileD = ERROR then [] else [(fileD, .opened (f, .output))]
  | .read fileD _, _ => if fileD = ERROR then [] else [(fileD, .used)]
  | .write fileD _, _ => if fileD = ERROR then [] else [(fileD, .used)]
  | .close fileD, _ => if fileD = ERROR then [] else [(fileD, .closed)]
  | _, _ => []

variable {D : Directory} {n : Nat} {s t : Process D n} {f g : Entry D} {h : Hands} {l : Act D n}
  {es : Ledger Int (Entry D × Role)}

namespace Process

/-- The call that an action makes: for which file, and the number `open` finds. -/
def call (s : Process D n) : Act D n → Option (Entry D × Request × Option Int)
  | .list chosen => match s.lister with
    | .preparing f pc => (prepare.request pc).map fun q => (f, q, chosen)
    | _ => none
  | .job w => match s.jobs w with
    | some (f, pc) => (JobPc.request pc).map fun q => (f, q, none)
    | none => none
  | _ => none

/-- What an action does with descriptors. -/
def deeds (s : Process D n) (l : Act D n) : Ledger Int (Entry D × Role) :=
  match s.call l with
  | none => []
  | some (f, q, chosen) => match s.serve f q chosen with
    | none => []
    | some (a, _) => q.deeds f a

/-- Whose a descriptor is, and what for, where a file opened it. -/
def holder (s : Process D n) (d : Int) : Option (Entry D × Role) :=
  (s.fds d).bind fun file => file.owner.map fun f => (f, if file.append then .output else .input)

end Process

/-- A descriptor that is open, but no file's. -/
def Process.Unowned (s : Process D n) (d : Int) : Prop := ∃ file, s.fds d = some file ∧ file.owner = none

/-! ## Calls -/

theorem holder_of_fds (same : t.fds = s.fds) : t.holder = s.holder := by
  unfold Process.holder
  rw [same]

/-- A number's entry changes. -/
theorem holder_update (d : Int) (entry : Option (OpenFile D)) (fds : t.fds = Function.update s.fds d entry) :
    t.holder = Function.update s.holder d
      (entry.bind fun file => file.owner.map fun f => (f, if file.append then .output else .input)) := by
  funext e
  unfold Process.holder
  rw [fds]
  by_cases same : e = d
  · subst same
    rw [Function.update_self, Function.update_self]
  · rw [Function.update_of_ne same, Function.update_of_ne same]

/-- An input descriptor is its file's. -/
theorem Held.holder_in (held : Held s f h) {d : Int} (own : h.inD = some d) : s.holder d = some (f, .input) := by
  obtain ⟨path, offset, _, file⟩ := held.reads d own
  unfold Process.holder
  rw [file]
  rfl

/-- So is an output descriptor. -/
theorem Held.holder_out (held : Held s f h) {d : Int} (own : h.outD = some d) :
    s.holder d = some (f, .output) := by
  obtain ⟨offset, file⟩ := held.writes d own
  unfold Process.holder
  rw [file]
  rfl

/-- And the file has no other output. -/
theorem Held.output_only (held : Held s f h) {d : Int} (own : s.holder d = some (f, .output)) :
    h.outD = some d := by
  obtain ⟨file, here, owned⟩ := Option.bind_eq_some_iff.mp own
  obtain ⟨g, owner, same⟩ := Option.map_eq_some_iff.mp owned
  obtain rfl : g = f := (Prod.mk.inj same).1
  rcases held.only d file here owner with input | output
  · rw [held.holder_in input] at own
    cases own
  · exact output

/-- What a call for a file does is done properly and seen in the table, and no
descriptor comes to be nobody's. -/
structure Entered (s t : Process D n) (es : Ledger Int (Entry D × Role)) : Prop where
  proper : Proper s.holder es
  held : t.holder = holders s.holder es
  unowned : ∀ d, t.Unowned d → s.Unowned d

theorem entered_nothing (same : t.fds = s.fds) : Entered s t [] where
  proper := trivial
  held := holder_of_fds same
  unowned d h := by
    unfold Process.Unowned at h ⊢
    rwa [same] at h

/-- Where one number's entry changes the others stay unowned. -/
theorem unowned_update {d : Int} {entry : Option (OpenFile D)} (fds : t.fds = Function.update s.fds d entry)
    (own : ∀ file, entry = some file → file.owner = none → s.Unowned d) (e : Int) (h : t.Unowned e) :
    s.Unowned e := by
  obtain ⟨file, here, nobodys⟩ := h
  rw [fds] at here
  by_cases same : e = d
  · subst same
    rw [Function.update_self] at here
    exact own file here nobodys
  · rw [Function.update_of_ne same] at here
    exact ⟨file, here, nobodys⟩

/-- `open`. -/
theorem openFile_entered (streams : Streams s) {file : OpenFile D} (own : file.owner = some f)
    {chosen : Option Int} {a : Reply} (served : s.openFile file chosen = some (a, t)) :
    (a = .opened ERROR ∧ t = s) ∨ ∃ d, d ≠ ERROR ∧ a = .opened d ∧
      Entered s t [(d, .opened (f, if file.append then .output else .input))] := by
  rcases openFile_cases streams served with failed | ⟨d, high, unused, rfl, rfl⟩
  · exact .inl failed
  refine .inr ⟨d, ?_, rfl, ⟨⟨?_, trivial⟩, ?_, unowned_update rfl ?_⟩⟩
  · unfold ERROR
    omega
  · show s.holder d = none
    unfold Process.holder
    rw [unused]
    rfl
  · rw [holder_update (s := s) d (some file) rfl, Option.bind_some, own]
    rfl
  · intro _ same nobodys
    cases same
    rw [own] at nobodys
    cases nobodys

/-- Nobody has the number that `open` returns when it fails. -/
theorem held_ne_error (streams : Streams s) {d : Int} {i : Entry D × Role} (own : s.holder d = some i) :
    d ≠ ERROR := by
  rintro rfl
  unfold Process.holder at own
  rw [streams.low ERROR (by decide)] at own
  cases own

/-- A descriptor is used. -/
theorem proper_used {d : Int} {i : Entry D × Role} (own : s.holder d = some i) : Proper s.holder [(d, .used)] := by
  refine ⟨?_, trivial⟩
  show s.holder d ≠ none
  rw [own]
  simp

/-- `read` changes an offset. -/
theorem readFile_entered {d : Int} {len : Nat} {es : Ledger Int (Entry D × Role)} (proper : Proper s.holder es)
    (kept : holders s.holder es = s.holder) : Entered s (s.readFile f d len).2 es := by
  unfold Process.readFile
  split
  · exact ⟨proper, kept.symm, fun _ h => h⟩
  · rename_i file here
    refine ⟨proper, ?_, unowned_update (d := d) rfl ?_⟩
    · rw [kept, holder_update (s := s) d (some { file with offset := _ }) rfl]
      refine Function.update_eq_self_iff.mpr ?_
      unfold Process.holder
      rw [here]
      rfl
    · intro _ same nobodys
      cases same
      exact ⟨file, here, nobodys⟩

/-- `write` changes none. -/
theorem writeFile_fds {d : Int} {bytes : List Byte} : (s.writeFile f d bytes).2.fds = s.fds := by
  unfold Process.writeFile
  split
  · rfl
  · split <;> rfl

/-- **Calls and the ledger.** What a call of a file does is proper, and the table
of the descriptors follows the ledger. -/
theorem serve_ledger (streams : Streams s) (mine : Held s f h) {q : Request} (safe : SafeCall h q)
    {chosen : Option Int} {a : Reply} (served : s.serve f q chosen = some (a, t)) :
    Entered s t (q.deeds f a) := by
  cases q with
  | openIn =>
    have opens : ∀ path chosen, s.openFile ⟨path, 0, false, some f⟩ chosen = some (a, t) →
        Entered s t (Request.openIn.deeds f a) := by
      intro path chosen served
      rcases openFile_entered streams rfl served with ⟨rfl, rfl⟩ | ⟨d, there, rfl, entered⟩
      · exact entered_nothing rfl
      · rw [Request.deeds, if_neg there]
        exact entered
    unfold Process.serve at served
    dsimp only at served
    split at served
    · exact opens _ _ served
    · exact opens _ _ served
  | openOut =>
    rcases openFile_entered streams rfl served with ⟨rfl, rfl⟩ | ⟨d, there, rfl, entered⟩
    · exact entered_nothing rfl
    · rw [Request.deeds, if_neg there]
      exact entered
  | read d len =>
    have reads : s.readFile f d len = (a, t) := Option.some.inj served
    rcases safe with own | rfl
    · have held := mine.holder_in own
      have entered : Entered s (s.readFile f d len).2 _ := readFile_entered (proper_used held) rfl
      rw [reads] at entered
      rw [Request.deeds, if_neg (held_ne_error streams held)]
      exact entered
    · have entered : Entered s (s.readFile f ERROR len).2 [] := readFile_entered trivial rfl
      rw [reads] at entered
      exact entered
  | write d bytes =>
    have writes : s.writeFile f d bytes = (a, t) := Option.some.inj served
    have same : (s.writeFile f d bytes).2.fds = s.fds := writeFile_fds
    rw [writes] at same
    have held := mine.holder_out safe
    rw [Request.deeds, if_neg (held_ne_error streams held)]
    exact { entered_nothing same with proper := proper_used held }
  | close d =>
    cases served
    have held := mine.holder_out safe
    rw [Request.deeds, if_neg (held_ne_error streams held)]
    refine ⟨⟨?_, trivial⟩, holder_update d none rfl, unowned_update rfl (by simp)⟩
    show s.holder d ≠ none
    rw [held]
    simp
  | _ =>
    cases served
    exact entered_nothing rfl

/-- What is closed is an output of some file's. -/
theorem deeds_closed (held : Held s f h) {q : Request} (safe : SafeCall h q) {a : Reply} {d : Int}
    (closes : (d, .closed) ∈ q.deeds f a) : s.holder d = some (f, .output) := by
  cases q with
  | close e =>
    rw [Request.deeds] at closes
    split at closes
    · cases closes
    · cases List.mem_singleton.mp closes
      exact held.holder_out safe
  | read e len =>
    rw [Request.deeds] at closes
    split at closes <;> simp at closes
  | write e bytes =>
    rw [Request.deeds] at closes
    split at closes <;> simp at closes
  | _ =>
    cases a
    all_goals try cases closes
    all_goals
      rw [Request.deeds] at closes
      split at closes <;> simp at closes

/-- One call does one thing at most. -/
theorem deeds_single (f : Entry D) (q : Request) (a : Reply) :
    q.deeds f a = [] ∨ ∃ e, q.deeds f a = [e] := by
  unfold Request.deeds
  split
  all_goals try split
  all_goals simp

/-! ## Steps -/

/-- The main thread's call. -/
theorem call_list {pc : PreparePc} (at_f : s.lister = .preparing f pc) {q : Request}
    (asks : prepare.request pc = some q) (chosen : Option Int) : s.call (.list chosen) = some (f, q, chosen) := by
  simp only [Process.call, at_f, asks, Option.map_some]

/-- A worker's call. -/
theorem call_job {w : Fin n} {pc : JobPc} (at_w : s.jobs w = some (f, pc)) {q : Request}
    (asks : JobPc.request pc = some q) : s.call (.job w) = some (f, q, none) := by
  simp only [Process.call, at_w, asks, Option.map_some]

/-- Where a call comes from. -/
theorem call_cases {q : Request} {chosen : Option Int} (calls : s.call l = some (f, q, chosen)) :
    (∃ pc, l = .list chosen ∧ s.lister = .preparing f pc ∧ prepare.request pc = some q) ∨
    ∃ w pc, l = .job w ∧ s.jobs w = some (f, pc) ∧ JobPc.request pc = some q := by
  unfold Process.call at calls
  split at calls
  · split at calls
    · rename_i chosen' _ f' pc at_f
      obtain ⟨q', asks, same⟩ := Option.map_eq_some_iff.mp calls
      cases same
      exact .inl ⟨pc, rfl, at_f, asks⟩
    · cases calls
  · rename_i w
    split at calls
    · rename_i f' pc at_w
      obtain ⟨q', asks, same⟩ := Option.map_eq_some_iff.mp calls
      cases same
      exact .inr ⟨w, pc, rfl, at_w, asks⟩
    · cases calls
  · cases calls

/-- An action that makes no call leaves the tables alone; in the others they
are as the call leaves them. -/
theorem step_calls (went : s.step l = some t) :
    (s.call l = none ∧ t.fds = s.fds ∧ t.tape = s.tape) ∨ ∃ f q chosen a u, s.call l = some (f, q, chosen) ∧
      s.serve f q chosen = some (a, u) ∧ t.fds = u.fds ∧ t.tape = u.tape := by
  cases step_cases went with
  | prepares chosen f pc q a u at_f asks served =>
    exact .inr ⟨f, q, chosen, a, u, call_list at_f asks chosen, served, rfl, rfl⟩
  | parses w f pc q a u at_w asks served =>
    exact .inr ⟨f, q, none, a, u, call_job at_w asks, served, rfl, rfl⟩
  | prepared chosen f at_f =>
    refine .inl ⟨?_, rfl, rfl⟩
    simp only [Process.call, at_f]
    rfl
  | fails chosen f pc at_f silent =>
    refine .inl ⟨?_, rfl, rfl⟩
    simp only [Process.call, at_f, silent, Option.map_none]
  | raise | pools => exact .inl ⟨rfl, rfl, rfl⟩
  | ends _ lister | waits _ lister | skips _ _ _ lister | takes _ _ _ lister | adds _ _ _ lister | added _ lister =>
    exact .inl ⟨by simp only [Process.call, lister], rfl, rfl⟩

/-- Calls are made for a file that is with the thread, and are ones it may make. -/
theorem call_safe (reachable : (fileLts D n).Reachable s) {q : Request} {chosen : Option Int}
    (calls : s.call l = some (f, q, chosen)) : Streams s ∧ ∃ h, Held s f h ∧ SafeCall h q := by
  obtain ⟨place, phase, hands, scheduled, possessed⟩ := possessed reachable
  refine ⟨possessed.streams, hands f, possessed.held f, ?_⟩
  have has := possessed.has f
  rcases call_cases calls with ⟨pc, _, at_f, asks⟩ | ⟨w, pc, _, at_w, asks⟩
  · rw [scheduled.preparing f pc at_f] at has
    exact prepare_keeps.safe pc _ q has asks
  · rw [(scheduled.jobs w f pc).mp at_w] at has
    exact (parse_keeps (D.envOf f).target).safe pc _ q has asks

/-- So does one action. -/
theorem deeds_one (s : Process D n) (l : Act D n) : s.deeds l = [] ∨ ∃ e, s.deeds l = [e] := by
  unfold Process.deeds
  split
  · exact .inl rfl
  · split
    · exact .inl rfl
    · exact deeds_single ..

/-- **A step and the ledger.** -/
theorem step_entered (reachable : (fileLts D n).Reachable s) (went : s.step l = some t) :
    Entered s t (s.deeds l) := by
  rcases step_calls went with ⟨quiet, fds, _⟩ | ⟨f, q, chosen, a, u, calls, served, fds, _⟩
  · rw [Process.deeds, quiet]
    exact entered_nothing fds
  · obtain ⟨streams, _, held, safe⟩ := call_safe reachable calls
    have deeds : s.deeds l = q.deeds f a := by simp only [Process.deeds, calls, served]
    have entered := serve_ledger streams held safe served
    have after : Entered u t [] := entered_nothing fds
    rw [deeds]
    exact ⟨entered.proper, after.held.trans entered.held, fun d h => entered.unowned d (after.unowned d h)⟩

/-- Only output files are closed. -/
theorem step_closes (reachable : (fileLts D n).Reachable s) {d : Int} (closes : (d, .closed) ∈ s.deeds l) :
    ∃ f, s.holder d = some (f, .output) := by
  unfold Process.deeds at closes
  split at closes
  · cases closes
  · rename_i f q chosen calls
    split at closes
    · cases closes
    · obtain ⟨_, _, held, safe⟩ := call_safe reachable calls
      exact ⟨f, deeds_closed held safe closes⟩

end NetCalc.File
