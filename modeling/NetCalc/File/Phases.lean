import NetCalc.File.DirectoryParse
import NetCalc.Thread.PoolPlaces

/-!
# Where is a file?

A file is in one `Phase` at a time: not looked at, with the main thread, on its
way through the pool, with a worker, or finished. What an action is to the
files is said once (`Advance`): nothing at all, or one file goes on, alone or
with a call of its own (`Scheduled.step`). What a file has of the process, and
what is in its files, is followed from there.
-/

namespace NetCalc.File

set_option autoImplicit false
open NetCalc.Lib NetCalc.Net

/-- How far a file is. -/
inductive Phase (n : Nat) where
  | untouched
  | preparing (pc : PreparePc)
  | ready
  | queued
  | running (w : Fin n) (pc : JobPc)
  | finished

/-- With the pool, and not with a task. -/
def Waiting {n : Nat} (place : Thread.Place n 1) : Prop :=
  (∃ p, place = .calling p) ∨ place = .queued ∨ ∃ w, place = .held w

/-- Where the pool has the arguments of a file. -/
def Phase.At {n : Nat} : Phase n → Thread.Place n 1 → Prop
  | .queued, place => Waiting place
  | .running w _, place => place = .running w
  | _, place => place = .away

/-- How a file goes on without a call. -/
inductive Phase.Goes {n : Nat} : Phase n → Phase n → Prop
  | opens : Goes .untouched (.preparing .opening)
  | prepared : Goes (.preparing .ready) .ready
  | adds : Goes .ready .queued
  | invokes (w : Fin n) : Goes .queued (.running w .entered)
  | returns (w : Fin n) : Goes (.running w .finished) .finished

/-- How it goes on with one. -/
inductive Phase.Calls {n : Nat} (t : Target) : Phase n → Request → Reply → Phase n → Prop
  | prepares (pc : PreparePc) (q : Request) (a : Reply) (asks : prepare.request pc = some q) :
      Calls t (.preparing pc) q a (.preparing (prepare.receive pc a))
  | parses (w : Fin n) (pc : JobPc) (q : Request) (a : Reply) (asks : (parse t).request pc = some q) :
      Calls t (.running w pc) q a (.running w ((parse t).receive pc a))

/-- A file whose arguments wait is on its way. -/
theorem Phase.At.queued {n : Nat} {phase : Phase n} {place : Thread.Place n 1} (h : phase.At place)
    (waiting : Waiting place) : phase = .queued := by
  cases phase with
  | queued => rfl
  | running w pc =>
    obtain rfl : place = .running w := h
    rcases waiting with ⟨_, impossible⟩ | impossible | ⟨_, impossible⟩ <;> cases impossible
  | _ =>
    obtain rfl : place = .away := h
    rcases waiting with ⟨_, impossible⟩ | impossible | ⟨_, impossible⟩ <;> cases impossible

/-- A file whose arguments are in a task is with its worker. -/
theorem Phase.At.running {n : Nat} {phase : Phase n} {w : Fin n} (h : phase.At (.running w)) :
    ∃ pc, phase = .running w pc := by
  cases phase with
  | queued =>
    rcases h with ⟨_, impossible⟩ | impossible | ⟨_, impossible⟩ <;> cases impossible
  | running v pc =>
    cases h
    exact ⟨pc, rfl⟩
  | _ => cases h

variable {D : Directory} {n : Nat} {s t : Process D n} {f g : Entry D}

/-- The job of a file has come back. -/
def Finished (s : Process D n) (f : Entry D) : Prop := ∃ w, .returned w .parseFile (some f) ∈ s.pool.log

/-- The files whose jobs have come back. -/
def finishedFiles (s : Process D n) : List (Entry D) :=
  s.pool.log.filterMap fun
    | .returned _ _ arg => arg
    | _ => none

theorem mem_finishedFiles : f ∈ finishedFiles s ↔ Finished s f := by
  unfold finishedFiles
  rw [List.mem_filterMap]
  constructor
  · rintro ⟨e, member, same⟩
    cases e with
    | returned w task arg =>
      cases task
      cases same
      exact ⟨w, member⟩
    | _ => cases same
  · rintro ⟨w, member⟩
    exact ⟨_, member, rfl⟩

/-- The files that have come back, by name. -/
theorem finished_of_name (named : f.1 ∈ (finishedFiles s).map Subtype.val) : Finished s f := by
  obtain ⟨g, member, same⟩ := List.mem_map.mp named
  rw [← Subtype.ext same]
  exact mem_finishedFiles.mp member

/-- A run at whose end all names have come back. -/
theorem run_finishes (ls : List (Act D n)) (names : List Name) (all : ∀ f ∈ D.names, f ∈ names)
    (ends : ((fileLts D n).run (Process.start D n) ls).map (fun s => (finishedFiles s).map Subtype.val) =
      some names) : ∃ s, (fileLts D n).run (Process.start D n) ls = some s ∧ ∀ f, Finished s f := by
  obtain ⟨s, run, back⟩ := Option.map_eq_some_iff.mp ends
  refine ⟨s, run, fun f => finished_of_name ?_⟩
  rw [back]
  exact all f.1 f.2

/-- Every file is in its phase. -/
structure Scheduled (s : Process D n) (place : Entry D → Thread.Place n 1) (phase : Entry D → Phase n) :
    Prop where
  pool : (Thread.poolLts n 1 Task Empty (Entry D)).Reachable s.pool
  placed : Thread.Placed place s.pool
  distinct : s.todo.Nodup
  todo : ∀ f ∈ s.todo, phase f = .untouched
  preparing : ∀ f pc, s.lister = .preparing f pc → phase f = .preparing pc
  adding : ∀ f, s.lister = .adding f → phase f = .ready
  jobs : ∀ w f pc, s.jobs w = some (f, pc) ↔ phase f = .running w pc
  finished : ∀ f, Finished s f → phase f = .finished
  located : ∀ f, (phase f).At (place f)

/-- Before `directory_parse`. -/
theorem scheduled_start (D : Directory) (n : Nat) :
    Scheduled (Process.start D n) (fun _ => .away) (fun _ => .untouched) where
  pool := .refl _
  placed := Thread.placed_init
  distinct := List.nodup_attach.mpr D.distinct
  todo _ _ := rfl
  preparing _ _ impossible := by cases impossible
  adding _ impossible := by cases impossible
  jobs _ _ _ := iff_of_false (by simp [Process.start]) (by simp)
  finished _ back := by
    obtain ⟨_, impossible⟩ := back
    cases impossible
  located _ := rfl

/-- What the files have of two processes is the same. -/
structure SameTables (s t : Process D n) : Prop where
  tape : t.tape = s.tape
  args : t.args = s.args
  fds : t.fds = s.fds
  files : t.files = s.files

/-- What the threads do is the same. -/
structure SameThreads (s t : Process D n) : Prop where
  pool : t.pool = s.pool
  todo : t.todo = s.todo
  lister : t.lister = s.lister
  jobs : t.jobs = s.jobs

theorem openFile_threads {file : OpenFile D} {chosen : Option Int} {a : Reply}
    (served : s.openFile file chosen = some (a, t)) : SameThreads s t := by
  unfold Process.openFile at served
  split at served
  · cases served
    exact ⟨rfl, rfl, rfl, rfl⟩
  · split at served <;> cases served
    exact ⟨rfl, rfl, rfl, rfl⟩

/-- A call is the tables' business only. -/
theorem serve_threads {q : Request} {chosen : Option Int} {a : Reply}
    (served : s.serve f q chosen = some (a, t)) : SameThreads s t := by
  cases q with
  | openIn =>
    unfold Process.serve at served
    dsimp only at served
    split at served <;> exact openFile_threads served
  | openOut => exact openFile_threads served
  | read d len =>
    have reads : s.readFile f d len = (a, t) := Option.some.inj served
    unfold Process.readFile at reads
    split at reads <;> cases reads <;> exact ⟨rfl, rfl, rfl, rfl⟩
  | write d bytes =>
    have writes : s.writeFile f d bytes = (a, t) := Option.some.inj served
    unfold Process.writeFile at writes
    split at writes
    · cases writes
      exact ⟨rfl, rfl, rfl, rfl⟩
    · split at writes <;> cases writes <;> exact ⟨rfl, rfl, rfl, rfl⟩
  | _ =>
    cases served
    exact ⟨rfl, rfl, rfl, rfl⟩

/-- **What an action is to the files**: nothing, one goes on, or a call is made
for one. -/
inductive Advance (s t : Process D n) (phase : Entry D → Phase n) : (Entry D → Phase n) → Prop
  | stays (same : SameTables s t) : Advance s t phase phase
  | goes (f : Entry D) (new : Phase n) (goes : (phase f).Goes new) (same : SameTables s t) :
      Advance s t phase (Function.update phase f new)
  | calls (f : Entry D) (q : Request) (chosen : Option Int) (a : Reply) (u : Process D n) (new : Phase n)
      (calls : Phase.Calls (D.envOf f).target (phase f) q a new) (served : s.serve f q chosen = some (a, u))
      (same : SameTables u t) : Advance s t phase (Function.update phase f new)

section Steps
variable {place place' : Entry D → Thread.Place n 1} {phase : Entry D → Phase n}

/-! ## One file goes on -/

/-- **One file goes from a phase to the next**, the others stay where they are. -/
theorem Scheduled.move (h : Scheduled s place phase) {new : Phase n}
    (pool : (Thread.poolLts n 1 Task Empty (Entry D)).Reachable t.pool) (placed : Thread.Placed place' t.pool)
    (todo : List.Sublist t.todo s.todo) (taken : f ∉ t.todo)
    (preparing : ∀ g pc, t.lister = .preparing g pc →
      (g = f ∧ new = .preparing pc) ∨ (g ≠ f ∧ s.lister = .preparing g pc))
    (adding : ∀ g, t.lister = .adding g → (g = f ∧ new = .ready) ∨ (g ≠ f ∧ s.lister = .adding g))
    (jobs : ∀ w g pc, t.jobs w = some (g, pc) ↔
      (g = f ∧ new = .running w pc) ∨ (g ≠ f ∧ s.jobs w = some (g, pc)))
    (finished : ∀ g, Finished t g → (g = f ∧ new = .finished) ∨ (g ≠ f ∧ Finished s g))
    (located : new.At (place' f)) (others : ∀ g, g ≠ f → place' g = place g) :
    Scheduled t place' (Function.update phase f new) where
  pool := pool
  placed := placed
  distinct := h.distinct.sublist todo
  todo g member := by
    have other : g ≠ f := by
      rintro rfl
      exact taken member
    rw [Function.update_of_ne other, h.todo g (todo.subset member)]
  preparing g pc at_g := by
    rcases preparing g pc at_g with ⟨rfl, here⟩ | ⟨other, before⟩
    · rw [Function.update_self, here]
    · rw [Function.update_of_ne other, h.preparing g pc before]
  adding g at_g := by
    rcases adding g at_g with ⟨rfl, here⟩ | ⟨other, before⟩
    · rw [Function.update_self, here]
    · rw [Function.update_of_ne other, h.adding g before]
  jobs w g pc := by
    rw [jobs]
    by_cases same : g = f
    · subst same
      simp
    · rw [Function.update_of_ne same, ← h.jobs]
      simp [same]
  finished g back := by
    rcases finished g back with ⟨rfl, here⟩ | ⟨other, before⟩
    · rw [Function.update_self, here]
    · rw [Function.update_of_ne other, h.finished g before]
  located g := by
    by_cases same : g = f
    · subst same
      rwa [Function.update_self]
    · rw [Function.update_of_ne same, others g same]
      exact h.located g

/-- A file that has a job is the only one of its worker, and has no other. -/
theorem Scheduled.one_worker (h : Scheduled s place phase) {v w : Fin n} {pc pc' : JobPc}
    (here : s.jobs w = some (f, pc)) (there : s.jobs v = some (f, pc')) : v = w ∧ pc' = pc := by
  have first := (h.jobs w f pc).mp here
  have second := (h.jobs v f pc').mp there
  rw [first] at second
  cases second
  exact ⟨rfl, rfl⟩

/-- Where the arguments of a file are in its phase. -/
theorem Scheduled.whereabouts (h : Scheduled s place phase) {p : Phase n} (was : phase f = p) :
    p.At (place f) := by
  rw [← was]
  exact h.located f

/-- A worker gets a job, goes on with it, or is done with it. -/
theorem jobs_update {w : Fin n} (entry : Option JobPc) (only : ∀ g pc, s.jobs w = some (g, pc) → g = f)
    (mine : ∀ v pc, s.jobs v = some (f, pc) → v = w) (v : Fin n) (g : Entry D) (pc : JobPc) :
    Function.update s.jobs w (entry.map fun pc => (f, pc)) v = some (g, pc) ↔
      (g = f ∧ v = w ∧ entry = some pc) ∨ (g ≠ f ∧ s.jobs v = some (g, pc)) := by
  by_cases same : v = w
  · subst same
    rw [Function.update_self]
    constructor
    · intro here
      obtain ⟨pc', rfl, eq⟩ := Option.map_eq_some_iff.mp here
      cases eq
      exact .inl ⟨rfl, rfl, rfl⟩
    · rintro (⟨rfl, _, rfl⟩ | ⟨other, there⟩)
      · rfl
      · exact absurd (only g pc there) other
  · rw [Function.update_of_ne same]
    constructor
    · intro there
      refine .inr ⟨?_, there⟩
      rintro rfl
      exact same (mine v pc there)
    · rintro (⟨_, here, _⟩ | ⟨_, there⟩)
      · exact absurd here same
      · exact there

/-- A file in the pool or with the pool's worker is not with the main thread. -/
theorem Scheduled.not_listed (h : Scheduled s place phase) (beyond : ∀ pc, phase f ≠ .preparing pc)
    (not_ready : phase f ≠ .ready) :
    (∀ g pc, s.lister = .preparing g pc → g ≠ f) ∧ ∀ g, s.lister = .adding g → g ≠ f := by
  constructor
  · rintro g pc at_g rfl
    exact beyond pc (h.preparing g pc at_g)
  · rintro g at_g rfl
    exact not_ready (h.adding g at_g)

/-- No worker has a file that has not started. -/
theorem Scheduled.jobs_others (h : Scheduled s place phase) {new : Phase n}
    (idle : ∀ w pc, phase f ≠ .running w pc) (still : ∀ w pc, new ≠ .running w pc) (w : Fin n) (g : Entry D)
    (pc : JobPc) : s.jobs w = some (g, pc) ↔
      (g = f ∧ new = .running w pc) ∨ (g ≠ f ∧ s.jobs w = some (g, pc)) := by
  constructor
  · intro here
    refine .inr ⟨?_, here⟩
    rintro rfl
    exact idle w pc ((h.jobs w g pc).mp here)
  · rintro (⟨_, impossible⟩ | ⟨_, here⟩)
    · exact absurd impossible (still w pc)
    · exact here

/-- The jobs that have come back are others'. -/
theorem Scheduled.finished_others (h : Scheduled s place phase) (unfinished : phase f ≠ .finished)
    (g : Entry D) (back : Finished s g) : g ≠ f := by
  rintro rfl
  exact unfinished (h.finished g back)

/-- Nothing happens to any file, and the main thread is with none. -/
theorem Scheduled.leave (h : Scheduled s place phase) {lister : ListerPc D} {todo : List (Entry D)}
    {flag : Bool} (sub : List.Sublist todo s.todo) (preparing : ∀ f pc, lister ≠ .preparing f pc)
    (adding : ∀ f, lister ≠ .adding f) :
    Scheduled { s with todo := todo, flag := flag, lister := lister } place phase :=
  { h with
    distinct := h.distinct.sublist sub
    todo := fun f member => h.todo f (sub.subset member)
    preparing := fun f pc impossible => absurd impossible (preparing f pc)
    adding := fun f impossible => absurd impossible (adding f) }

/-- **The main thread takes the next name.** -/
theorem Scheduled.opens (h : Scheduled s place phase) {rest : List (Entry D)} (todo : s.todo = f :: rest) :
    Scheduled { s with todo := rest, lister := .preparing f .opening } place
        (Function.update phase f (.preparing .opening)) ∧ phase f = .untouched := by
  have sub : List.Sublist rest s.todo := by
    rw [todo]
    exact List.sublist_cons_self ..
  have untouched : phase f = .untouched := by
    apply h.todo
    rw [todo]
    exact List.mem_cons_self
  have distinct := h.distinct
  rw [todo] at distinct
  obtain ⟨not_again, _⟩ := List.nodup_cons.mp distinct
  have away : place f = .away := h.whereabouts untouched
  refine ⟨?_, untouched⟩
  apply h.move (t := { s with todo := rest, lister := .preparing f .opening }) h.pool h.placed sub not_again
  · rintro g pc at_g
    cases at_g
    exact .inl ⟨rfl, rfl⟩
  · rintro g at_g
    cases at_g
  · exact h.jobs_others (by simp [untouched]) (by simp)
  · exact fun g back => .inr ⟨h.finished_others (by simp [untouched]) g back, back⟩
  · exact away
  · exact fun _ _ => rfl

/-- A file that is not untouched is not waiting to be taken. -/
theorem Scheduled.taken (h : Scheduled s place phase) (begun : phase f ≠ .untouched) : f ∉ s.todo :=
  fun member => begun (h.todo f member)

/-- **The main thread makes a call** for the file it is with. -/
theorem Scheduled.prepares (h : Scheduled s place phase) {pc : PreparePc} (at_f : s.lister = .preparing f pc)
    (same : SameThreads s t) (a : Reply) :
    Scheduled { t with lister := .preparing f (prepare.receive pc a) } place
      (Function.update phase f (.preparing (prepare.receive pc a))) := by
  have preparing := h.preparing f pc at_f
  have away : place f = .away := h.whereabouts preparing
  apply h.move (t := { t with lister := .preparing f (prepare.receive pc a) })
  · rw [same.pool]
    exact h.pool
  · rw [same.pool]
    exact h.placed
  · rw [same.todo]
  · rw [same.todo]
    exact h.taken (by simp [preparing])
  · rintro g pc' at_g
    cases at_g
    exact .inl ⟨rfl, rfl⟩
  · rintro g at_g
    cases at_g
  · rw [same.jobs]
    exact h.jobs_others (by simp [preparing]) (by simp)
  · intro g back
    have before : Finished s g := by
      unfold Finished at back ⊢
      rwa [same.pool] at back
    exact .inr ⟨h.finished_others (by simp [preparing]) g before, before⟩
  · exact away
  · exact fun _ _ => rfl

/-- The main thread has the file's arguments ready. -/
theorem Scheduled.prepared (h : Scheduled s place phase) (at_f : s.lister = .preparing f .ready) :
    Scheduled { s with lister := .adding f } place (Function.update phase f .ready) := by
  have preparing := h.preparing f .ready at_f
  have away : place f = .away := h.whereabouts preparing
  apply h.move (t := { s with lister := .adding f }) h.pool h.placed (List.Sublist.refl _)
    (h.taken (by simp [preparing]))
  · rintro g pc at_g
    cases at_g
  · rintro g at_g
    cases at_g
    exact .inl ⟨rfl, rfl⟩
  · exact h.jobs_others (by simp [preparing]) (by simp)
  · exact fun g back => .inr ⟨h.finished_others (by simp [preparing]) g back, back⟩
  · exact away
  · exact fun _ _ => rfl

/-- **The main thread calls `threadpool_add_job`.** -/
theorem Scheduled.adds (h : Scheduled s place phase) (at_f : s.lister = .adding f) {pool : FilePool D n}
    (entered : Thread.step s.pool (.enter mainThread (Process.fileJob f)) = some pool) :
    Scheduled { s with pool := pool, lister := .added } (Function.update place f (.calling mainThread))
      (Function.update phase f .queued) := by
  have ready := h.adding f at_f
  have away : place f = .away := h.whereabouts ready
  have reachable : (Thread.poolLts n 1 Task Empty (Entry D)).Reachable pool :=
    h.pool.step (l := Thread.Act.enter mainThread (Process.fileJob f)) entered
  cases (Thread.step_cases entered).2
  apply h.move (t := {
    s with
    pool := { s.pool with callers := Function.update s.pool.callers mainThread (.entered (Process.fileJob f)) }
    lister := .added }) reachable (h.placed.enter rfl away) (List.Sublist.refl _) (h.taken (by simp [ready]))
  · rintro g pc at_g
    cases at_g
  · rintro g at_g
    cases at_g
  · exact h.jobs_others (by simp [ready]) (by simp)
  · exact fun g back => .inr ⟨h.finished_others (by simp [ready]) g back, back⟩
  · rw [Function.update_self]
    exact .inl ⟨mainThread, rfl⟩
  · exact fun g other => Function.update_of_ne other ..

/-! ## A worker goes on with its job -/

/-- The files with the main thread are not with a worker. -/
theorem Scheduled.not_running (h : Scheduled s place phase) {w : Fin n} {pc : JobPc}
    (running : phase f = .running w pc) : (∀ g pc, s.lister = .preparing g pc → g ≠ f) ∧
      ∀ g, s.lister = .adding g → g ≠ f :=
  h.not_listed (by simp [running]) (by simp [running])

/-- **A worker makes a call** for the file it is with. -/
theorem Scheduled.parses (h : Scheduled s place phase) {w : Fin n} {pc : JobPc} (at_w : s.jobs w = some (f, pc))
    (same : SameThreads s t) (next : JobPc) :
    Scheduled { t with jobs := Function.update s.jobs w (some (f, next)) } place
      (Function.update phase f (.running w next)) := by
  have running := (h.jobs w f pc).mp at_w
  have here : place f = .running w := h.whereabouts running
  apply h.move (t := { t with jobs := Function.update s.jobs w (some (f, next)) })
  · rw [same.pool]
    exact h.pool
  · rw [same.pool]
    exact h.placed
  · rw [same.todo]
  · rw [same.todo]
    exact h.taken (by simp [running])
  · intro g pc' at_g
    have at_g : t.lister = .preparing g pc' := at_g
    rw [same.lister] at at_g
    exact .inr ⟨(h.not_running running).1 g pc' at_g, at_g⟩
  · intro g at_g
    have at_g : t.lister = .adding g := at_g
    rw [same.lister] at at_g
    exact .inr ⟨(h.not_running running).2 g at_g, at_g⟩
  · intro v g pc'
    have updated := jobs_update (s := s) (f := f) (w := w) (some next) ?_ ?_ v g pc'
    · rw [Option.map_some] at updated
      rw [updated]
      simp only [Phase.running.injEq, Option.some.injEq]
      grind
    · intro g' pc' at_w'
      rw [at_w] at at_w'
      cases at_w'
      rfl
    · intro v pc' at_v
      exact (h.one_worker at_w at_v).1
  · intro g back
    have before : Finished s g := by
      unfold Finished at back ⊢
      rwa [same.pool] at back
    exact .inr ⟨h.finished_others (by simp [running]) g before, before⟩
  · exact here
  · exact fun _ _ => rfl

/-! ## The pool goes on -/

variable {pool : FilePool D n}

/-- The pool moves, and no task starts or comes back. -/
theorem Scheduled.quiet (h : Scheduled s place phase)
    (reachable : (Thread.poolLts n 1 Task Empty (Entry D)).Reachable pool) (placed : Thread.Placed place' pool)
    (moved : ∀ g, place' g = place g ∨ (Waiting (place g) ∧ Waiting (place' g)))
    (log : ∀ w g, .returned w .parseFile (some g) ∈ pool.log → .returned w .parseFile (some g) ∈ s.pool.log) :
    Scheduled { s with pool := pool } place' phase :=
  { h with
    pool := reachable
    placed := placed
    finished := by
      rintro g ⟨w, back⟩
      exact h.finished g ⟨w, log w g back⟩
    located := by
      intro g
      rcases moved g with same | ⟨before, after⟩
      · rw [same]
        exact h.located g
      · rw [(h.located g).queued before]
        exact after }

/-- **A worker enters `parse_file`.** -/
theorem Scheduled.invokes (h : Scheduled s place phase) {w : Fin n} {locals : Job Task Empty (Entry D)}
    {task : Task} (pc : s.pool.workers w = .unlocked locals) (given : locals.task = some task)
    (reachable : (Thread.poolLts n 1 Task Empty (Entry D)).Reachable pool) (placed : Thread.Placed place' pool)
    (started : pool.workers w = .running locals) (log : pool.log = s.pool.log ++ [.invoked w task locals.arg])
    (moved : ∀ g, place' g = place g ∨ Thread.Moved s.pool (.invoke w) g (place g) (place' g)) :
    ∃ f, phase f = .queued ∧ Scheduled { s with pool := pool, jobs := s.started (.invoke w) } place'
      (Function.update phase f (.running w .entered)) := by
  obtain ⟨f, arg, held⟩ := h.placed.there (.held w) locals ⟨pc, by rw [given]; simp⟩
  obtain ⟨b, arg', inside⟩ := placed.there (.running w) locals started
  obtain rfl : f = b := Option.some.inj (arg.symm.trans arg')
  have queued : phase f = .queued := by
    apply (h.located f).queued
    rw [held]
    exact .inr (.inr ⟨w, rfl⟩)
  have jobs : s.started (.invoke w) = Function.update s.jobs w (some (f, .entered)) := by
    simp [Process.started, pc, given, arg]
  refine ⟨f, queued, ?_⟩
  apply h.move (t := { s with pool := pool, jobs := s.started (.invoke w) }) reachable placed
    (List.Sublist.refl _) (h.taken (by simp [queued]))
  · intro g pc' at_g
    exact .inr ⟨(h.not_listed (f := f) (by simp [queued]) (by simp [queued])).1 g pc' at_g, at_g⟩
  · intro g at_g
    exact .inr ⟨(h.not_listed (f := f) (by simp [queued]) (by simp [queued])).2 g at_g, at_g⟩
  · intro v g pc'
    have updated := jobs_update (s := s) (f := f) (w := w) (some .entered) ?_ ?_ v g pc'
    · rw [Option.map_some] at updated
      rw [jobs, updated]
      simp only [Phase.running.injEq, Option.some.injEq]
      grind
    · -- A worker that stands before its task is not inside another.
      intro g' pc' at_w
      have running := h.located g'
      rw [(h.jobs w g' pc').mp at_w] at running
      obtain ⟨_, busy, _⟩ := h.placed.inside g' w running
      rw [pc] at busy
      cases busy
    · intro v pc' at_v
      have running := (h.jobs v f pc').mp at_v
      rw [queued] at running
      cases running
  · rintro g ⟨v, back⟩
    have before : Finished s g := ⟨v, by simpa [log] using back⟩
    exact .inr ⟨h.finished_others (by simp [queued]) g before, before⟩
  · exact inside
  · intro g other
    rcases moved g with same | goes
    · exact same
    · generalize place g = old, place' g = new at goes
      cases goes with
      | invoke _ job _ pc' _ arg'' =>
        rw [pc] at pc'
        cases pc'
        rw [arg] at arg''
        exact absurd (Option.some.inj arg'').symm other

/-- **A worker comes back from `parse_file`.** -/
theorem Scheduled.returns (h : Scheduled s place phase) {w : Fin n} {locals : Job Task Empty (Entry D)}
    (allowed : s.allows (.ret w) = true) (pc : s.pool.workers w = .running locals)
    (reachable : (Thread.poolLts n 1 Task Empty (Entry D)).Reachable pool) (placed : Thread.Placed place' pool)
    (came_back : pool.workers w = .returned locals)
    (log : ∀ v g, .returned v .parseFile (some g) ∈ pool.log →
      .returned v .parseFile (some g) ∈ s.pool.log ∨ locals.arg = some g)
    (moved : ∀ g, place' g = place g ∨ Thread.Moved s.pool (.ret w) g (place g) (place' g)) :
    ∃ f, phase f = .running w .finished ∧ Scheduled { s with pool := pool, jobs := s.started (.ret w) } place'
      (Function.update phase f .finished) := by
  obtain ⟨f, arg, inside⟩ := h.placed.there (.running w) locals pc
  obtain ⟨at_pc, running⟩ : ∃ at_pc, phase f = .running w at_pc := by
    have located := h.located f
    rw [inside] at located
    exact located.running
  have at_w := (h.jobs w f at_pc).mpr running
  have ended : at_pc = .finished := by
    simp only [Process.allows, at_w] at allowed
    cases at_pc <;> first | rfl | cases allowed
  subst ended
  refine ⟨f, running, ?_⟩
  apply h.move (t := { s with pool := pool, jobs := s.started (.ret w) }) reachable placed
    (List.Sublist.refl _) (h.taken (by simp [running]))
  · intro g pc' at_g
    exact .inr ⟨(h.not_running running).1 g pc' at_g, at_g⟩
  · intro g at_g
    exact .inr ⟨(h.not_running running).2 g at_g, at_g⟩
  · intro v g pc'
    have updated := jobs_update (s := s) (f := f) (w := w) none ?_ ?_ v g pc'
    · rw [Option.map_none] at updated
      show Function.update s.jobs w none v = _ ↔ _
      rw [updated]
      simp
    · intro g' pc'' at_w'
      rw [at_w] at at_w'
      cases at_w'
      rfl
    · intro v pc'' at_v
      exact (h.one_worker at_w at_v).1
  · rintro g ⟨v, back⟩
    rcases log v g back with before | now
    · have before : Finished s g := ⟨v, before⟩
      exact .inr ⟨h.finished_others (by simp [running]) g before, before⟩
    · rw [arg] at now
      exact .inl ⟨(Option.some.inj now).symm, rfl⟩
  · -- Were the file still with the worker, the worker would be inside the task.
    rcases moved f with same | goes
    · rw [inside] at same
      obtain ⟨_, busy, _⟩ := placed.inside f w same
      rw [came_back] at busy
      cases busy
    · generalize place f = old, place' f = new at goes ⊢
      cases goes
      rfl
  · intro g other
    rcases moved g with same | goes
    · exact same
    · generalize place g = old, place' g = new at goes
      cases goes with
      | ret _ job _ pc' arg' =>
        rw [pc] at pc'
        cases pc'
        rw [arg] at arg'
        exact absurd (Option.some.inj arg').symm other

/-- What the pool moves without a task's start or end was waiting, and waits. -/
theorem moved_waiting {a : Thread.Act n 1 Task Empty (Entry D)} {old new : Thread.Place n 1}
    (goes : Thread.Moved s.pool a f old new) (starts : ∀ w, a ≠ .invoke w) (returns : ∀ w, a ≠ .ret w) :
    Waiting old ∧ Waiting new := by
  cases goes with
  | enqueue p mem => exact ⟨.inl ⟨p, rfl⟩, .inr (.inl rfl)⟩
  | take w => exact ⟨.inr (.inl rfl), .inr (.inr ⟨w, rfl⟩)⟩
  | invoke w => exact absurd rfl (starts w)
  | ret w => exact absurd rfl (returns w)

/-- **The pool takes a step.** -/
theorem Scheduled.pools (h : Scheduled s place phase) {a : Thread.Act n 1 Task Empty (Entry D)}
    (allowed : s.allows a = true) (went : Thread.step s.pool a = some pool) :
    ∃ place' phase', Scheduled { s with pool := pool, jobs := s.started a } place' phase' ∧
      Advance s { s with pool := pool, jobs := s.started a } phase phase' := by
  have unseen : SameTables s { s with pool := pool, jobs := s.started a } := ⟨rfl, rfl, rfl, rfl⟩
  have reachable : (Thread.poolLts n 1 Task Empty (Entry D)).Reachable pool := h.pool.step (l := a) went
  obtain ⟨_, taken⟩ := Thread.step_cases went
  obtain ⟨place', placed, moved⟩ :=
    h.placed.step (Thread.ordered h.pool) taken (by rintro p job rfl; cases allowed)
  have quiet : s.started a = s.jobs → (∀ g, place' g = place g ∨ (Waiting (place g) ∧ Waiting (place' g))) →
      (∀ w, a ≠ .ret w) →
      ∃ place' phase', Scheduled { s with pool := pool, jobs := s.started a } place' phase' ∧
        Advance s { s with pool := pool, jobs := s.started a } phase phase' := by
    intro jobs waits not_back
    refine ⟨place', phase, ?_, .stays unseen⟩
    rw [jobs]
    apply h.quiet reachable placed waits
    intro w g back
    rcases taken.returned back with before | ⟨_, impossible, _⟩
    · exact before
    · exact absurd impossible (not_back w)
  by_cases starts : ∃ w, a = .invoke w
  · obtain ⟨w, rfl⟩ := starts
    cases taken with
    | skip w locals pc nothing =>
      apply quiet
      · simp [Process.started, pc, nothing]
      · intro g
        rcases moved g with same | goes
        · exact .inl same
        · generalize place g = old, place' g = new at goes
          cases goes with
          | invoke _ job _ pc' task _ =>
            rw [pc] at pc'
            cases pc'
            exact absurd nothing task
      · simp
    | invoke w locals task pc given =>
      obtain ⟨f, queued, scheduled⟩ :=
        h.invokes pc given reachable placed (Function.update_self ..) rfl moved
      exact ⟨place', _, scheduled, .goes f _ (queued ▸ .invokes w) unseen⟩
  by_cases returns : ∃ w, a = .ret w
  · obtain ⟨w, rfl⟩ := returns
    have log : ∀ v g, .returned v .parseFile (some g) ∈ pool.log → _ := fun _ _ => taken.returned
    cases taken with
    | ret w locals pc =>
      have own : ∀ v g, .returned v .parseFile (some g) ∈ s.pool.log ++ locals.task.toList.map
          (fun task => Thread.Event.returned w task locals.arg) →
          .returned v .parseFile (some g) ∈ s.pool.log ∨ locals.arg = some g := by
        intro v g back
        rcases log v g back with before | ⟨locals', same, pc', arg⟩
        · exact .inl before
        · cases same
          rw [pc] at pc'
          cases pc'
          exact .inr arg
      obtain ⟨f, running, scheduled⟩ :=
        h.returns allowed pc reachable placed (Function.update_self ..) own moved
      exact ⟨place', _, scheduled, .goes f _ (running ▸ .returns w) unseen⟩
  have starts : ∀ w, a ≠ .invoke w := fun w same => starts ⟨w, same⟩
  have returns : ∀ w, a ≠ .ret w := fun w same => returns ⟨w, same⟩
  apply quiet
  · cases a with
    | invoke w => exact absurd rfl (starts w)
    | ret w => exact absurd rfl (returns w)
    | _ => rfl
  · intro g
    rcases moved g with same | goes
    · exact .inl same
    · exact .inr (moved_waiting goes starts returns)
  · exact returns

/-! ## Every step -/

/-- **Every step leaves every file in a phase**, and takes one at most to the next. -/
theorem Scheduled.step (h : Scheduled s place phase) {l : Act D n} (went : s.step l = some t) :
    ∃ place' phase', Scheduled t place' phase' ∧ Advance s t phase phase' := by
  cases step_cases went with
  | raise => exact ⟨place, phase, { h with }, .stays ⟨rfl, rfl, rfl, rfl⟩⟩
  | waits => exact ⟨place, phase, h, .stays ⟨rfl, rfl, rfl, rfl⟩⟩
  | skips chosen f rest next first =>
    refine ⟨place, phase, h.leave ?_ (by simp) (by simp), .stays ⟨rfl, rfl, rfl, rfl⟩⟩
    rw [first]
    exact List.sublist_cons_self ..
  | takes chosen f rest next first =>
    obtain ⟨scheduled, untouched⟩ := h.opens first
    exact ⟨place, _, scheduled, .goes f _ (untouched ▸ .opens) ⟨rfl, rfl, rfl, rfl⟩⟩
  | prepares chosen f pc q a u at_f asks served =>
    refine ⟨place, _, h.prepares at_f (serve_threads served) a, ?_⟩
    refine .calls f q chosen a u _ ?_ served ⟨rfl, rfl, rfl, rfl⟩
    rw [h.preparing f pc at_f]
    exact .prepares pc q a asks
  | prepared chosen f at_f =>
    refine ⟨place, _, h.prepared at_f, .goes f _ ?_ ⟨rfl, rfl, rfl, rfl⟩⟩
    rw [h.preparing f .ready at_f]
    exact .prepared
  | adds chosen f pool at_f entered =>
    refine ⟨_, _, h.adds at_f entered, .goes f _ ?_ ⟨rfl, rfl, rfl, rfl⟩⟩
    rw [h.adding f at_f]
    exact .adds
  | ends | fails | added =>
    exact ⟨place, phase, h.leave (List.Sublist.refl _) (by simp) (by simp), .stays ⟨rfl, rfl, rfl, rfl⟩⟩
  | pools a pool allowed stepped => exact h.pools allowed stepped
  | parses w f pc q a u at_w asks served =>
    refine ⟨place, _, h.parses at_w (serve_threads served) _, ?_⟩
    refine .calls f q none a u _ ?_ served ⟨rfl, rfl, rfl, rfl⟩
    rw [(h.jobs w f pc).mp at_w]
    exact .parses w pc q a asks

end Steps

/-- **What each action keeps, for every file in its phase, holds in every
reachable process.** -/
theorem scheduled_induction {P : Process D n → (Entry D → Phase n) → Prop}
    (start : P (Process.start D n) fun _ => .untouched)
    (step : ∀ s t phase phase', P s phase → Advance s t phase phase' → P t phase')
    (h : (fileLts D n).Reachable s) : ∃ place phase, Scheduled s place phase ∧ P s phase := by
  apply Lts.reachable_induction (P := fun s => ∃ place phase, Scheduled s place phase ∧ P s phase) _ _ h
  · exact ⟨_, _, scheduled_start D n, start⟩
  · rintro s l t ⟨place, phase, scheduled, known⟩ went
    obtain ⟨place', phase', scheduled', advance⟩ := scheduled.step went
    exact ⟨place', phase', scheduled', step s t phase phase' known advance⟩

end NetCalc.File
