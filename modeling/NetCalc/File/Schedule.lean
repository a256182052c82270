import NetCalc.File.Share

/-!
# Does the schedule matter?

In each phase a file's share is one from which it ends as `processAlone` does,
and what the others do in between leaves its share alone (`Shared.step`). So
whatever the schedule, an output file whose job has finished holds what the
file on its own would have made of it, and no job calls on another's descriptor
(`schedule_independent`).
-/

namespace NetCalc.File

set_option autoImplicit false
open NetCalc.Lib NetCalc.Net

/-- What a file's share says in each phase. -/
def Phase.Holds {n : Nat} (env : Env) (file : List Byte) : Phase n → Share → Prop
  | .untouched, x => x = Share.fresh file
  | .preparing pc, x => Ends prepare (shareServer env) (Prepared env file) pc x
  | .ready, x => ∃ args, Ready env file x args
  | .queued, x => ∃ args, Ready env file x args
  | .running _ pc, x => Ends (parse env.target) (shareServer env) (Solved (processAlone env file)) pc x
  | .finished, x => x.world = processAlone env file

section Phases
variable {n : Nat} {env : Env} {file : List Byte} {old new : Phase n} {x y : Share}

/-- A file that goes on without a call keeps its share. -/
theorem Phase.Goes.holds (goes : old.Goes new) (holds : old.Holds env file x) : new.Holds env file x := by
  cases goes with
  | opens =>
    rw [show x = Share.fresh file from holds]
    exact prepare_ends env file
  | prepared =>
    have ends : Ends prepare (shareServer env) (Prepared env file) .ready x := holds
    exact ends.holds rfl rfl
  | adds => exact holds
  | invokes w =>
    have args : ∃ args, Ready env file x args := holds
    obtain ⟨_, ready⟩ := args
    exact parse_ends ready
  | returns w =>
    have ends : Ends (parse env.target) (shareServer env) (Solved (processAlone env file)) .finished x := holds
    exact ends.holds rfl

/-- Its calls are safe. -/
theorem Phase.Calls.alone_safe {q : Request} {a : Reply} (calls : Phase.Calls env.target old q a new)
    (holds : old.Holds env file x) : SafeCall x.toHands q := by
  cases calls with
  | prepares pc _ _ asks =>
    have ends : Ends prepare (shareServer env) (Prepared env file) pc x := holds
    exact ends.safe asks
  | parses w pc _ _ asks =>
    have ends : Ends (parse env.target) (shareServer env) (Solved (processAlone env file)) pc x := holds
    exact ends.safe asks

/-- And lead to the next phase. -/
theorem Phase.Calls.holds {q : Request} {a : Reply} (calls : Phase.Calls env.target old q a new)
    (holds : old.Holds env file x) (served : Served env x q a y) : new.Holds env file y := by
  cases calls with
  | prepares pc _ _ asks =>
    have ends : Ends prepare (shareServer env) (Prepared env file) pc x := holds
    exact ends.next asks served
  | parses w pc _ _ asks =>
    have ends : Ends (parse env.target) (shareServer env) (Solved (processAlone env file)) pc x := holds
    exact ends.next asks served

end Phases

variable {D : Directory} {n : Nat} {s t : Process D n} {f : Entry D}

/-- Every file has the share of its phase. -/
structure Shared (s : Process D n) (phase : Entry D → Phase n) (share : Entry D → Share) : Prop where
  streams : Streams s
  viewed : ∀ f, Viewed s f (share f)
  holds : ∀ f, (phase f).Holds (D.envOf f) (D.content f) (share f)

theorem viewed_start (f : Entry D) : Viewed (Process.start D n) f (Share.fresh (D.content f)) where
  toHeld := held_start f
  tape := rfl
  source _ _ := rfl
  unread _ := rfl
  rest _ _ impossible := by cases impossible
  wrote := (List.append_nil _).symm

/-- **One action.** -/
theorem Shared.step (separate : D.Separate) {phase phase' : Entry D → Phase n} {share : Entry D → Share}
    (shared : Shared s phase share) (advance : Advance s t phase phase') : ∃ share', Shared t phase' share' := by
  cases advance with
  | stays same => exact ⟨share, shared.streams.same same, fun f => (shared.viewed f).same same, shared.holds⟩
  | goes f new goes same =>
    refine ⟨share, shared.streams.same same, fun g => (shared.viewed g).same same, ?_⟩
    exact (Function.forall_update_iff phase fun g p => p.Holds (D.envOf g) (D.content g) (share g)).mpr
      ⟨goes.holds (shared.holds f), fun g _ => shared.holds g⟩
  | calls f q chosen a u new calls served same =>
    have safe := calls.alone_safe (shared.holds f)
    obtain ⟨y, answered, viewed⟩ := serve_served separate shared.streams (shared.viewed f) safe served
    obtain ⟨_, _, _, framed⟩ := serve_handled shared.streams (shared.viewed f).toHeld safe served
    refine ⟨Function.update share f y, (shared.streams.frame framed).same same, ?_, ?_⟩
    · refine (Function.forall_update_iff share fun g x => Viewed t g x).mpr ⟨viewed.same same, ?_⟩
      exact fun g other => ((shared.viewed g).frame separate framed other).same same
    · intro g
      by_cases here : g = f
      · subst here
        rw [Function.update_self, Function.update_self]
        exact calls.holds (shared.holds g) answered
      · rw [Function.update_of_ne here, Function.update_of_ne here]
        exact shared.holds g

/-- **Every file has the share of its phase.** -/
theorem shared (separate : D.Separate) (h : (fileLts D n).Reachable s) :
    ∃ place phase share, Scheduled s place phase ∧ Shared s phase share := by
  obtain ⟨place, phase, scheduled, share, shared⟩ :=
    scheduled_induction (P := fun s phase => ∃ share, Shared s phase share)
      ⟨_, streams_start D n, viewed_start, fun _ => rfl⟩
      (fun _ _ _ _ ⟨_, shared⟩ advance => shared.step separate advance) h
  exact ⟨place, phase, share, scheduled, shared⟩

/-- What the output file of a finished file holds. -/
theorem finished_output (separate : D.Separate) (h : (fileLts D n).Reachable s) (back : Finished s f) :
    s.files (D.outPath f) =
      D.files (D.outPath f) ++ sent (processAlone (D.envOf f) (D.content f)).output.log := by
  obtain ⟨place, phase, share, scheduled, shared⟩ := shared separate h
  have holds := shared.holds f
  rw [scheduled.finished f back] at holds
  have solved : (share f).world = processAlone (D.envOf f) (D.content f) := holds
  rw [(shared.viewed f).wrote, solved]

/-- **The schedule does not matter.** For every directory, every number of
workers and every interleaving of their calls with each other and with
`directory_parse`: where the outputs are separate, a file whose job has come
back has exactly the output that the file on its own would have had, behind
what was in the output file before; and no job reads, writes or closes a
descriptor that is another file's. -/
theorem schedule_independent (h : (fileLts D n).Reachable s) :
    (D.Separate → ∀ f, Finished s f → s.files (D.outPath f) =
      D.files (D.outPath f) ++ sent (processAlone (D.envOf f) (D.content f)).output.log) ∧
    ∀ w f pc q d file, s.jobs w = some (f, pc) → JobPc.request pc = some q → q.fileD = some d →
      s.fds d = some file → file.owner = some f := by
  constructor
  · exact fun separate f back => finished_output separate h back
  · intro w f pc q d file at_w asks on_d here
    obtain ⟨place, phase, hands, scheduled, possessed⟩ := possessed h
    have has := possessed.has f
    rw [(scheduled.jobs w f pc).mp at_w] at has
    have safe := (parse_keeps (D.envOf f).target).safe pc _ q has asks
    exact (possessed.held f).owns possessed.streams safe on_d here

/-- A file of one equation: 2 + 3. -/
def oneEquation : List Byte :=
  FileHeader.toBytes ⟨0xdd77bb55, 7, 1, 0, 0, 0⟩ ++ Equation.toBytes ⟨1, 0, 2, 1, 3⟩

/-- `realpath` of a program that runs in the root directory. -/
def fromRoot (path : Path) : Option Path := some (SLASH :: path)

/-- The directory `i` with the files `a` and `b`, and the output directory `/o`. -/
def twoFiles : Directory where
  names := [[97], [98]]
  inDirName := [105]
  fullDir := [47, 111]
  realpath := fromRoot
  files path := if path.take 2 = [47, 105] then oneEquation else []
  env _ := Env.calm
  opened := [0, 1, 2]
  distinct := by decide
  standard := by
    intro d nonneg small
    simp
    omega
  numbers := by simp

theorem twoFiles_separate : twoFiles.Separate := by
  have different : ([47, 105] : Path) ≠ twoFiles.fullDir := by decide
  exact Directory.separate_of_different different (by decide) (by decide) (by decide)

/-- A schedule in which `b` is opened under the number that the job of `a` has
closed, before that job comes back. -/
def twoFilesRun : List (Act twoFiles 2) :=
  let added : List (Act twoFiles 2) :=
    [.pool (.test mainThread), .pool (.enqueue mainThread (some 100)), .pool (.signal mainThread [])]
  [.list none, .list (some 3), .list none, .list none, .list (some 4)] ++ List.replicate 4 (.list none) ++
    added ++ [.pool (.lock 0), .pool (.invoke 0)] ++
    List.replicate 10 (.job 0) ++
    [.list none, .list none, .list (some 4), .job 0, .pool (.ret 0), .list none, .list none, .list (some 5)] ++
    List.replicate 4 (.list none) ++
    added ++ [.pool (.lock 1), .pool (.invoke 1)] ++
    List.replicate 11 (.job 1) ++ [.pool (.ret 1)]

/-- Two files, with one worker each. -/
theorem schedule_independent_two : ∃ s,
    (fileLts twoFiles 2).run (Process.start twoFiles 2) twoFilesRun = some s ∧ ∀ f, Finished s f ∧
      s.files (twoFiles.outPath f) = twoFiles.files (twoFiles.outPath f) ++
        sent (processAlone (twoFiles.envOf f) (twoFiles.content f)).output.log := by
  obtain ⟨s, run, back⟩ := run_finishes twoFilesRun [[97], [98]] (fun _ member => member) (by decide +kernel)
  exact ⟨s, run, fun f => ⟨back f, (schedule_independent ⟨_, run⟩).1 twoFiles_separate f (back f)⟩⟩

end NetCalc.File
