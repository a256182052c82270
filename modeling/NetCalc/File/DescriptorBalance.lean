import NetCalc.File.DescriptorLedger
import NetCalc.File.Schedule

/-!
# Is every descriptor closed?

No descriptor is used or closed after it was closed, in any run
(`ledger_kept`), and the output descriptor of a file whose job has come back
was closed exactly once, whatever became of its equations
(`output_closed_once`). But nothing closes an input file: it stays open for as
long as the process does, so the descriptors balance only where no input file
could be opened (`balanced_iff_no_input`). What the files hold and how their
paths are formed does not matter to any of this.
-/

namespace NetCalc.File

set_option autoImplicit false
open NetCalc.Lib NetCalc.Net

/-- Is it an input file that is opened? -/
def opensInput {D : Directory} : Int × Deed (Entry D × Role) → Bool
  | (_, .opened (_, .input)) => true
  | _ => false

variable {D : Directory} {n : Nat} {s t : Process D n} {f g : Entry D} {l : Act D n}
  {ls : List (Act D n)} {es : Ledger Int (Entry D × Role)}

/-- What a run does with descriptors, from the start of `directory_parse`. -/
def descriptorLedger (D : Directory) (n : Nat) (ls : List (Act D n)) : Ledger Int (Entry D × Role) :=
  (fileLts D n).history Process.deeds (Process.start D n) ls

/-- **The descriptors are balanced.** Each one that was opened for an entry has
been closed exactly once, and not used after that, and only those are open that
were open before. -/
def DescriptorsBalanced (D : Directory) (n : Nat) (ls : List (Act D n)) (s : Process D n) : Prop :=
  Balanced (descriptorLedger D n ls) ∧ ∀ d, s.fds d ≠ none → d ∈ D.opened

/-- No input file is opened. -/
def NoInput (s : Process D n) (l : Act D n) : Prop := ∀ e ∈ s.deeds l, opensInput e = false

instance (s : Process D n) (l : Act D n) : Decidable (NoInput s l) := inferInstanceAs (Decidable (∀ e ∈ _, _))

/-! ## What is open -/

/-- What a run has entered. -/
structure Kept (s : Process D n) (es : Ledger Int (Entry D × Role)) : Prop where
  proper : Proper nobody es
  held : s.holder = holders nobody es
  inputs : ∀ d f, (d, .opened (f, .input)) ∈ es → s.holder d = some (f, .input)
  outputs : ∀ d f, (d, .opened (f, .output)) ∈ es → ∃ e, (e, .opened (f, .input)) ∈ es
  unowned : ∀ d, s.Unowned d → d ∈ D.opened

theorem holder_start (D : Directory) (n : Nat) : (Process.start D n).holder = nobody := by
  funext d
  unfold Process.holder Process.start
  dsimp only
  split <;> rfl

theorem kept_start (D : Directory) (n : Nat) : Kept (Process.start D n) [] where
  proper := trivial
  held := holder_start D n
  inputs _ _ member := by cases member
  outputs _ _ member := by cases member
  unowned d := by
    rintro ⟨file, here, _⟩
    unfold Process.start at here
    dsimp only at here
    split at here
    · assumption
    · cases here

/-- Where an output file is opened. -/
theorem opens_output {d : Int} (opens : (d, .opened (f, .output)) ∈ s.deeds l) :
    ∃ fileD numEquations header, s.lister = .preparing f (.creating fileD numEquations header) := by
  unfold Process.deeds at opens
  split at opens
  · cases opens
  rename_i g q chosen calls
  split at opens
  · cases opens
  rename_i a u served
  obtain ⟨rfl, rfl⟩ : q = .openOut ∧ g = f := by
    unfold Request.deeds at opens
    split at opens
    all_goals try split at opens
    all_goals simp at opens
    exact ⟨rfl, opens.2.symm⟩
  rcases call_cases calls with ⟨pc, _, at_f, asks⟩ | ⟨w, pc, _, _, asks⟩
  · cases pc with
    | creating fileD numEquations header => exact ⟨fileD, numEquations, header, at_f⟩
    | _ => cases asks
  · cases pc <;> cases asks

/-- The file's input is open then. -/
theorem opened_with_input (h : (fileLts D n).Reachable s) {d : Int}
    (opens : (d, .opened (f, .output)) ∈ s.deeds l) : ∃ e, s.holder e = some (f, .input) := by
  obtain ⟨fileD, numEquations, header, at_f⟩ := opens_output opens
  obtain ⟨place, phase, hands, scheduled, possessed⟩ := possessed h
  have has := possessed.has f
  rw [scheduled.preparing f _ at_f] at has
  exact ⟨fileD, (possessed.held f).holder_in has.1⟩

/-- **A step keeps the ledger.** An input file that is open stays open. -/
theorem Kept.step (kept : Kept s es) (h : (fileLts D n).Reachable s) (went : s.step l = some t) :
    Kept t (es ++ s.deeds l) := by
  have entered := step_entered h went
  have input_stays : ∀ d f, s.holder d = some (f, .input) → t.holder d = some (f, .input) := by
    intro d f own
    rw [entered.held]
    apply entered.proper.holder_kept own
    intro closes
    obtain ⟨g, other⟩ := step_closes h closes
    rw [own] at other
    cases other
  exact
    { proper := proper_append.mpr ⟨kept.proper, kept.held ▸ entered.proper⟩
      held := by rw [entered.held, kept.held, holders_append]
      inputs := by
        intro d f opens
        rcases List.mem_append.mp opens with before | now
        · exact input_stays d f (kept.inputs d f before)
        · rcases deeds_one s l with nothing | ⟨e, one⟩
          · rw [nothing] at now
            cases now
          · rw [entered.held, one]
            rw [one] at now
            cases List.mem_singleton.mp now
            exact Function.update_self ..
      outputs := by
        intro d f opens
        have earlier : ∃ e, (e, .opened (f, .input)) ∈ es := by
          rcases List.mem_append.mp opens with before | now
          · exact kept.outputs d f before
          · obtain ⟨e, own⟩ := opened_with_input h now
            rw [kept.held] at own
            rcases opening_of_holder own with impossible | ⟨before, after, split, _⟩
            · cases impossible
            · exact ⟨e, by rw [split]; simp⟩
        obtain ⟨e, member⟩ := earlier
        exact ⟨e, List.mem_append_left _ member⟩
      unowned := fun d h => kept.unowned d (entered.unowned d h) }

/-- **The ledger of a run.** -/
theorem ledger_kept (run : (fileLts D n).run (Process.start D n) ls = some s) :
    Kept s (descriptorLedger D n ls) :=
  Lts.history_induction_with (M := fileLts D n) (Q := (fileLts D n).Reachable) (fun _ h => h)
    (kept_start D n) (fun _ _ _ _ h kept went => kept.step h went) run

/-- What is open, and no file's, was open before. -/
theorem Kept.opened_before (kept : Kept s es) {d : Int} (free : s.holder d = none) (taken : s.fds d ≠ none) :
    d ∈ D.opened := by
  obtain ⟨file, here⟩ := Option.ne_none_iff_exists'.mp taken
  refine kept.unowned d ⟨file, here, ?_⟩
  unfold Process.holder at free
  rw [here] at free
  cases owner : file.owner with
  | none => rfl
  | some f =>
    rw [Option.bind_some, owner] at free
    cases free

/-- Where no input file was opened no file has anything open. -/
theorem nothing_held (run : (fileLts D n).run (Process.start D n) ls = some s)
    (unopened : ∀ e ∈ descriptorLedger D n ls, opensInput e = false) (d : Int) :
    holders nobody (descriptorLedger D n ls) d = none := by
  by_contra held
  obtain ⟨⟨f, role⟩, own⟩ := Option.ne_none_iff_exists'.mp held
  have opened : (d, .opened (f, role)) ∈ descriptorLedger D n ls := by
    rcases opening_of_holder own with impossible | ⟨before, after, split, _⟩
    · cases impossible
    · rw [split]
      simp
  have input : ∃ e, (e, .opened (f, .input)) ∈ descriptorLedger D n ls := by
    cases role with
    | input => exact ⟨d, opened⟩
    | output => exact (ledger_kept run).outputs d f opened
  obtain ⟨e, member⟩ := input
  cases unopened _ member

/-- **Balance.** For every directory, every number of workers and every run, at
its end: each descriptor that was opened for an entry has been closed exactly
once and not been used after that, and only those are open that were open
before, if and only if no input file was opened in the run. -/
theorem balanced_iff_no_input (D : Directory) (n : Nat) (ls : List (Act D n)) (s : Process D n)
    (run : (fileLts D n).run (Process.start D n) ls = some s) :
    DescriptorsBalanced D n ls s ↔ (fileLts D n).Obeys NoInput (Process.start D n) ls := by
  have kept := ledger_kept run
  have inputs : (fileLts D n).Obeys NoInput (Process.start D n) ls ↔
      ∀ e ∈ descriptorLedger D n ls, opensInput e = false := Lts.obeys_iff_history run
  rw [inputs]
  constructor
  · rintro ⟨balanced, _⟩ ⟨d, deed⟩ member
    cases deed with
    | opened owner =>
      obtain ⟨f, role⟩ := owner
      cases role with
      | input =>
        have held := kept.inputs d f member
        rw [kept.held, (balanced_iff kept.proper).mp balanced d] at held
        cases held
      | output => rfl
    | _ => rfl
  · intro unopened
    have free := nothing_held run unopened
    exact ⟨(balanced_iff kept.proper).mpr free, fun d => kept.opened_before (by rw [kept.held]; exact free d)⟩

/-- No file can be opened: nothing is left open. -/
theorem balanced_unreadable : ∃ s, (fileLts twoFiles 1).run (Process.start twoFiles 1)
    (List.replicate 5 (.list none)) = some s ∧
      DescriptorsBalanced twoFiles 1 (List.replicate 5 (.list none)) s := by
  obtain ⟨s, run⟩ := Option.isSome_iff_exists.mp (by decide +kernel :
    ((fileLts twoFiles 1).run (Process.start twoFiles 1) (List.replicate 5 (.list none))).isSome = true)
  refine ⟨s, run, ?_⟩
  exact (balanced_iff_no_input twoFiles 1 (List.replicate 5 (.list none)) s run).mpr (by decide +kernel)

/-- The two files are solved and `directory_parse` has returned: the
descriptors of both inputs are still open. -/
theorem inputs_left_open :
    let ls : List (Act twoFiles 2) := twoFilesRun ++ [.list none, .raise, .list none]
    ∃ s, (fileLts twoFiles 2).run (Process.start twoFiles 2) ls = some s ∧ s.lister = .ended ∧
      (∀ f, Finished s f) ∧ ¬DescriptorsBalanced twoFiles 2 ls s := by
  intro ls
  have ends : ((fileLts twoFiles 2).run (Process.start twoFiles 2) ls).map (fun s =>
      ((finishedFiles s).map Subtype.val, s.allows .destroy)) = some ([[97], [98]], true) := by decide +kernel
  obtain ⟨s, run, both⟩ := Option.map_eq_some_iff.mp ends
  obtain ⟨names, ended⟩ := Prod.mk.inj both
  refine ⟨s, run, ?_, ?_, ?_⟩
  · cases at_end : s.lister with
    | ended => rfl
    | _ =>
      simp only [Process.allows, at_end] at ended
      cases ended
  · intro f
    apply finished_of_name
    rw [names]
    exact f.2
  · rintro ⟨balanced, _⟩
    have free := (balanced_iff (ledger_kept run).proper).mp balanced 3
    have held : (holders nobody (descriptorLedger twoFiles 2 ls) 3).isSome = true := by decide +kernel
    rw [free] at held
    cases held

/-! ## The output files -/

/-- When its job has come back a file has no output open. -/
theorem finished_released (h : (fileLts D n).Reachable s) (back : Finished s f) (d : Int) :
    s.holder d ≠ some (f, .output) := by
  obtain ⟨place, phase, hands, scheduled, possessed⟩ := possessed h
  have has := possessed.has f
  rw [scheduled.finished f back] at has
  have released : (hands f).outD = none := has
  intro own
  rw [(possessed.held f).output_only own] at released
  cases released

/-- **The output of a file whose job has come back** was closed exactly once, and
not used after that: in every run, whatever the calls did, and with whichever
of its equations the job stopped. -/
theorem output_closed_once (run : (fileLts D n).run (Process.start D n) ls = some s) (back : Finished s f)
    {before after : Ledger Int (Entry D × Role)} {d : Int}
    (opened : descriptorLedger D n ls = before ++ (d, .opened (f, .output)) :: after) : ClosedOnce d after := by
  have kept := ledger_kept run
  have proper := kept.proper
  rw [opened] at proper
  rcases proper.closedOnce_or_held with closed | still
  · exact closed
  · rw [← opened, ← kept.held] at still
    exact absurd still (finished_released ⟨ls, run⟩ back d)

end NetCalc.File
