import NetCalc.File.ThreadHandle
import NetCalc.File.DirectoryParse
import NetCalc.Thread.QueueFifo

/-!
# Does the order of a directory matter?

`directory_parse` on its own, one name after the other: what the calls for a
name return belongs to its `DirEntry`. An entry whose name begins with a dot is
skipped; one that is not readable is reported, and then its header cannot be
read; whatever has no acceptable header or no output file makes the function
jump out of its loop, past the names `readdir` has not given yet
(`orderFree_iff`).

`threadpool_add_job` does not look at what `queue_enqueue` returns. What the
workers take out of the queue meanwhile makes more room in it and is left out
here; a file stands for its arguments.
-/

namespace NetCalc.File

set_option autoImplicit false
open NetCalc.Lib NetCalc.Net NetCalc.Thread

/-- A name that `readdir` returns, and what the calls for it do: `snprintf` and
`open` for the input file, the reads of what it holds, `snprintf` and `open`
for the output file, and `calloc` for the node of its job. -/
structure DirEntry where
  name : Name
  combined : Int
  fileD : Int
  file : List Byte
  env : Env
  formatted : Int
  opened : Int
  addr : Nat

/-- The queue of the pool: the job of a file has its name and its arguments. -/
abbrev JobQueue := Queue Task Empty (Name × ParseArgs)

/-- The reads of a file, which all fail where it could not be opened. -/
def DirEntry.inputs (e : DirEntry) : Inputs :=
  if e.fileD = ERROR then { e.env.toInputs with reads := fun _ => .fail (.other 9) } else e.env.toInputs

/-- The block for the header, and what `check_header` makes of the file. -/
def DirEntry.header (e : DirEntry) : Checked :=
  let block := calloc e.env.toInputs .fileHeader (World.start e.file).input
  if block.1 = false then ⟨ERROR, 0, FileHeader.ofBytes (zeroed HEADER_SIZE), block.2⟩
  else checkHeader e.inputs block.2

/-- The descriptor that `create_file` returns. -/
def DirEntry.outFileDes (e : DirEntry) : Int :=
  (createFile e.env ⟨e.header.input, (World.start e.file).output⟩ e.formatted e.opened e.header.header).1

/-- `threadpool_add_job`, to a pool that is active. -/
def threadpoolAddJob (q : JobQueue) (addr : Nat) (arg : Name × ParseArgs) : Int × JobQueue :=
  (SUCCESS, (queueEnqueue q (some addr) (some .parseFile) none (some arg)).2)

/-- How a pass of the loop ends: at `END`, or before the next name. -/
inductive Passed where
  | stopped (err : Int)
  | goesOn (err : Int) (q : JobQueue)

/-- One pass of the loop of `directory_parse`. -/
def directoryPass (q : JobQueue) (err : Int) (e : DirEntry) : Passed :=
  if e.name.take 1 = [DOT] then .goesOn err q
  else if e.combined = ERROR then .stopped e.combined
  else if e.header.err ≠ SUCCESS then .stopped e.header.err
  else if e.outFileDes < 2 then .stopped e.header.err
  else
    let args : ParseArgs := ⟨e.fileD, e.outFileDes, narrow 32 e.header.numEquations⟩
    let added := threadpoolAddJob q e.addr (e.name, args)
    .goesOn added.1 added.2

/-- The loop of `directory_parse`, until a signal ends it. -/
def directoryLoop (q : JobQueue) (err : Int) : List DirEntry → Int × JobQueue
  | [] => (SUCCESS, q)
  | e :: rest => match directoryPass q err e with
    | .stopped err => (err, q)
    | .goesOn err q => directoryLoop q err rest

/-- `directory_parse`: the names in the order of `readdir`, and whether
`realpath` knows the output directory. -/
def directoryParse (inDirectory : Option (List DirEntry)) (inDirName outDirName : Option Path)
    (fullDir : Option Path) (q : JobQueue) : Int × JobQueue :=
  match inDirectory, inDirName, outDirName, fullDir with
  | some entries, some _, some _, some _ => directoryLoop q (-1) entries
  | _, _, _, _ => (-1, q)

/-- The files with a job in the queue. -/
def queuedFiles (q : JobQueue) : List Name := (liveJobs q).filterMap fun job => job.arg.map Prod.fst

/-- An entry that the loop skips. -/
def Dot (e : DirEntry) : Prop := e.name.take 1 = [DOT]

/-- A file that can be solved: its name is not too long, its header is accepted
and its output file is there. -/
structure Good (e : DirEntry) : Prop where
  named : ¬Dot e
  combined : e.combined ≠ ERROR
  header : e.header.err = SUCCESS
  created : 2 ≤ e.outFileDes

/-- An entry that is neither skipped nor a file that can be solved. -/
def Bad (e : DirEntry) : Prop := ¬Dot e ∧ ¬Good e

/-- Whatever order `readdir` returns the entries in, the same files are queued. -/
def OrderFree (q : JobQueue) (inDirName outDirName fullDir : Path) (entries : List DirEntry) : Prop :=
  ∀ others, others.Perm entries → ∀ name,
    name ∈ queuedFiles (directoryParse (some others) (some inDirName) (some outDirName) (some fullDir) q).2 ↔
      name ∈ queuedFiles (directoryParse (some entries) (some inDirName) (some outDirName) (some fullDir) q).2

variable {c : Nat} {q : JobQueue} {e b g : DirEntry} {entries : List DirEntry} {r : Int}

/-! ## One pass -/

/-- The job of a file. -/
def DirEntry.job (e : DirEntry) : Job Task Empty (Name × ParseArgs) :=
  ⟨some .parseFile, none, some (e.name, ⟨e.fileD, e.outFileDes, narrow 32 e.header.numEquations⟩)⟩

theorem pass_dot (dot : Dot e) : directoryPass q r e = .goesOn r q := if_pos dot

/-- A file that can be solved is handed over. -/
theorem pass_good (good : Good e) : directoryPass q r e =
    .goesOn SUCCESS (queueEnqueue q (some e.addr) e.job.task e.job.delF e.job.arg).2 := by
  unfold directoryPass
  rw [if_neg (show ¬e.name.take 1 = [DOT] from good.named), if_neg good.combined, if_neg (not_not.mpr good.header),
    if_neg (Int.not_lt.mpr good.created)]
  rfl

/-- Any other entry ends the loop. -/
theorem pass_bad (bad : Bad e) : ∃ err', directoryPass q r e = .stopped err' := by
  unfold directoryPass
  rw [if_neg (show ¬e.name.take 1 = [DOT] from bad.1)]
  split
  · exact ⟨_, rfl⟩
  rename_i combined
  split
  · exact ⟨_, rfl⟩
  rename_i header
  split
  · exact ⟨_, rfl⟩
  rename_i created
  exact absurd ⟨bad.1, combined, not_not.mp header, Int.not_lt.mp created⟩ bad.2

/-- The three kinds of entries. -/
theorem dot_or_good_or_bad (e : DirEntry) : Dot e ∨ Good e ∨ Bad e := by
  by_cases dot : Dot e
  · exact .inl dot
  · by_cases good : Good e
    · exact .inr (.inl good)
    · exact .inr (.inr ⟨dot, good⟩)

/-- A job that finds room is in the queue, behind the others. -/
theorem queuedFiles_enqueue (ok : QueueOk c q) (room : (liveJobs q).length < c) (e : DirEntry) :
    QueueOk c (queueEnqueue q (some e.addr) e.job.task e.job.delF e.job.arg).2 ∧
      (liveJobs (queueEnqueue q (some e.addr) e.job.task e.job.delF e.job.arg).2).length =
        (liveJobs q).length + 1 ∧
      queuedFiles (queueEnqueue q (some e.addr) e.job.task e.job.delF e.job.arg).2 = queuedFiles q ++ [e.name] := by
  obtain ⟨kept, stored⟩ := ok.enqueue_stored room e.addr e.job.task e.job.delF
    (e.name, ⟨e.fileD, e.outFileDes, narrow 32 e.header.numEquations⟩)
  have same : liveJobs (queueEnqueue q (some e.addr) e.job.task e.job.delF e.job.arg).2 = liveJobs q ++ [e.job] :=
    stored
  refine ⟨kept, ?_, ?_⟩
  · rw [same, List.length_append, List.length_singleton]
  · unfold queuedFiles
    rw [same, List.filterMap_append]
    rfl

/-! ## The loop -/

/-- **What the loop queues**: the files that can be solved before the first
entry that ends it. -/
theorem directoryLoop_queued (ok : QueueOk c q) (room : (liveJobs q).length + entries.length ≤ c) :
    ∃ front, front <+: entries ∧ (∀ e ∈ front, ¬Bad e) ∧ (∀ e, e ∈ (entries.drop front.length).head? → Bad e) ∧
      ∀ name, name ∈ queuedFiles (directoryLoop q r entries).2 ↔
        name ∈ queuedFiles q ∨ ∃ e ∈ front, Good e ∧ e.name = name := by
  induction entries generalizing q r with
  | nil => exact ⟨[], List.prefix_refl _, by simp, by simp, by simp [directoryLoop]⟩
  | cons e entries ih =>
    rw [List.length_cons] at room
    rcases dot_or_good_or_bad e with dot | good | bad
    · obtain ⟨front, within, fine, ends, queued⟩ := ih (r := r) ok (by omega)
      refine ⟨e :: front, (List.prefix_cons_inj e).mpr within, ?_, ends, ?_⟩
      · intro e' member
        rcases List.mem_cons.mp member with rfl | later
        · exact fun bad => bad.1 dot
        · exact fine e' later
      · intro name
        have skipped : ¬Good e := fun good => good.named dot
        rw [directoryLoop, pass_dot dot]
        simp only [queued, List.exists_mem_cons_iff, skipped, false_and, false_or]
    · obtain ⟨kept, count, added⟩ := queuedFiles_enqueue ok (by omega) e
      obtain ⟨front, within, fine, ends, queued⟩ := ih (r := SUCCESS) kept (by omega)
      refine ⟨e :: front, (List.prefix_cons_inj e).mpr within, ?_, ends, ?_⟩
      · intro e' member
        rcases List.mem_cons.mp member with rfl | later
        · exact fun bad => bad.2 good
        · exact fine e' later
      · intro name
        rw [directoryLoop, pass_good good]
        simp only [queued, added, List.mem_append, List.mem_singleton, List.exists_mem_cons_iff, good, true_and,
          or_assoc, eq_comm]
    · refine ⟨[], List.nil_prefix, by simp, ?_, ?_⟩
      · intro e' first
        cases first
        exact bad
      · intro name
        obtain ⟨err', stopped⟩ := pass_bad (q := q) (r := r) bad
        rw [directoryLoop, stopped]
        simp

/-- Where no entry ends the loop all files that can be solved are queued. -/
theorem directoryLoop_all (ok : QueueOk c q) (room : (liveJobs q).length + entries.length ≤ c)
    (fine : ∀ e ∈ entries, ¬Bad e) (name : Name) : name ∈ queuedFiles (directoryLoop q r entries).2 ↔
      name ∈ queuedFiles q ∨ ∃ e ∈ entries, Good e ∧ e.name = name := by
  obtain ⟨front, ⟨rest, same⟩, _, ends, queued⟩ := directoryLoop_queued (r := r) ok room
  have whole : rest = [] := by
    cases rest with
    | nil => rfl
    | cons e rest =>
      rw [← same, List.drop_left] at ends
      exact absurd (ends e rfl) (fine e (by simp [← same]))
  rw [whole, List.append_nil] at same
  rw [queued, same]

/-- Where there is none that can be solved, none is queued. -/
theorem directoryLoop_none (ok : QueueOk c q) (room : (liveJobs q).length + entries.length ≤ c)
    (none_good : ∀ e ∈ entries, ¬Good e) (name : Name) :
    name ∈ queuedFiles (directoryLoop q r entries).2 ↔ name ∈ queuedFiles q := by
  obtain ⟨front, within, _, _, queued⟩ := directoryLoop_queued (r := r) ok room
  rw [queued]
  refine or_iff_left ?_
  rintro ⟨e, member, good, _⟩
  exact none_good e (within.subset member) good

/-- A file that can be solved is queued where it comes first. -/
theorem directoryLoop_good_first (ok : QueueOk c q) (room : (liveJobs q).length + (g :: entries).length ≤ c)
    (good : Good g) : g.name ∈ queuedFiles (directoryLoop q r (g :: entries)).2 := by
  obtain ⟨front, within, _, ends, queued⟩ := directoryLoop_queued (r := r) ok room
  rw [queued]
  cases front with
  | nil => exact absurd good (ends g rfl).2
  | cons e front =>
    obtain ⟨rfl, _⟩ := List.cons_prefix_cons.mp within
    exact .inr ⟨e, List.mem_cons_self, good, rfl⟩

/-- **The order of a directory does not matter** where nothing in it ends the
loop, or nothing can be solved. For every listing, with room in a new queue for
a job for each entry: all orders in which `readdir` may return the entries have
the same files queued, if and only if no entry that is not skipped lacks an
acceptable header or an output file, or no file can be solved. -/
theorem orderFree_iff (c : Nat) (q : JobQueue) (inDirName outDirName fullDir : Path) (entries : List DirEntry)
    (made : queueNew true true c = some q) (small : c < 2 ^ 31) (room : entries.length ≤ c) :
    OrderFree q inDirName outDirName fullDir entries ↔
      (∀ e ∈ entries, ¬Bad e) ∨ ∀ e ∈ entries, ¬Good e := by
  have pos : 1 ≤ c := by
    refine Nat.pos_of_ne_zero fun zero => ?_
    rw [zero] at made
    cases made
  obtain ⟨q', made', holds⟩ := queueNew_holds (τ := Task) (δ := Empty) (α := Name × ParseArgs) pos small
  rw [made] at made'
  cases made'
  have ok : QueueOk c q := ⟨0, [], holds⟩
  have empty : liveJobs q = [] := holds.liveJobs_eq
  have roomFor : ∀ others : List DirEntry, others.Perm entries → (liveJobs q).length + others.length ≤ c := by
    intro others perm
    rw [empty, List.length_nil, Nat.zero_add, perm.length_eq]
    exact room
  constructor
  · intro free
    by_contra neither
    obtain ⟨some_bad, some_good⟩ := not_or.mp neither
    simp only [not_forall, not_not] at some_bad some_good
    obtain ⟨b, in_b, bad⟩ := some_bad
    obtain ⟨g, in_g, good⟩ := some_good
    obtain ⟨before, after, split_b⟩ := List.append_of_mem in_b
    obtain ⟨before', after', split_g⟩ := List.append_of_mem in_g
    have perm_b : (b :: (before ++ after)).Perm entries := split_b ▸ List.perm_middle.symm
    have perm_g : (g :: (before' ++ after')).Perm entries := split_g ▸ List.perm_middle.symm
    have first := directoryLoop_good_first (r := -1) ok (roomFor _ perm_g) good
    have lost := (free _ perm_b g.name).mpr ((free _ perm_g g.name).mp first)
    obtain ⟨err', stopped⟩ := pass_bad (q := q) (r := -1) bad
    simp only [directoryParse, directoryLoop, stopped, queuedFiles, empty] at lost
    cases lost
  · rintro (fine | none_good) others perm name
    · have all := directoryLoop_all (r := -1) ok (roomFor others perm)
        (fun e member => fine e (perm.subset member)) name
      have all' := directoryLoop_all (r := -1) ok (roomFor entries (List.Perm.refl _)) fine name
      simp only [directoryParse, all, all', perm.mem_iff]
    · have nothing := directoryLoop_none (r := -1) ok (roomFor others perm)
        (fun e member => none_good e (perm.subset member)) name
      have nothing' := directoryLoop_none (r := -1) ok (roomFor entries (List.Perm.refl _)) none_good name
      simp only [directoryParse, nothing, nothing']

/-- A file that can be solved, with an equation missing. -/
def solvableEntry : DirEntry where
  name := [97]
  combined := 3
  fileD := 3
  file := FileHeader.toBytes ⟨0xdd77bb55, 7, 1, 0, 0, 0⟩
  env := Env.calm
  formatted := 11
  opened := 4
  addr := 100

/-- One that is not readable. -/
def unreadableEntry : DirEntry := { solvableEntry with name := [98], fileD := ERROR }

theorem solvableEntry_good : Good solvableEntry where
  named := by
    unfold Dot
    decide
  combined := by decide
  header := by decide +kernel
  created := by decide

/-- Where all entries can be solved the order does not matter. -/
theorem orderFree_solvable : ∃ q, queueNew true true 2 = some q ∧
    OrderFree q [105] [111] [47, 111] [solvableEntry, { solvableEntry with name := [98] }] := by
  obtain ⟨q, made, _⟩ := queueNew_holds (τ := Task) (δ := Empty) (α := Name × ParseArgs) (c := 2)
    (by decide) (by decide)
  refine ⟨q, made, (orderFree_iff 2 q [105] [111] [47, 111] _ made (by decide) (by decide)).mpr (.inl ?_)⟩
  intro e member bad
  rcases List.mem_pair.mp member with rfl | rfl
  · exact bad.2 solvableEntry_good
  · exact bad.2 { solvableEntry_good with named := by unfold Dot; decide }

/-- A file that is not readable, before one that can be solved: none is queued.
Behind it the file is. -/
theorem unreadable_entry_first : ∃ q, queueNew true true 2 = some q ∧
    ¬OrderFree q [105] [111] [47, 111] [solvableEntry, unreadableEntry] := by
  obtain ⟨q, made⟩ := Option.isSome_iff_exists.mp
    (by decide : (queueNew (τ := Task) (δ := Empty) (α := Name × ParseArgs) true true 2).isSome = true)
  refine ⟨q, made, ?_⟩
  cases made
  intro free
  have queued := (free [unreadableEntry, solvableEntry] (List.Perm.swap ..) [97]).mpr (by decide +kernel)
  revert queued
  decide +kernel

end NetCalc.File
