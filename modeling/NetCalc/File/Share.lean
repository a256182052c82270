import NetCalc.File.Alone

/-!
# What is in a file's share?

`Viewed` reads a file's share off the process: what it has, what is left of its
input, and what it has written, which its output file holds behind what was
there before. A call for one file is answered as `shareServer` would
(`serve_served`), and nothing another file's share is read off changes
(`Viewed.frame`), where no two files have the same output and no input is an
output (`Directory.Separate`).
-/

namespace NetCalc.File

set_option autoImplicit false
open NetCalc.Lib NetCalc.Net

variable {D : Directory} {n : Nat} {s t : Process D n} {f g : Entry D} {x : Share}

/-! ## Paths -/

/-- The names of the output files are not cut off, and no input file is an
output file. -/
structure Directory.Separate (D : Directory) : Prop where
  short : ∀ f ∈ D.names, (D.fullDir ++ SLASH :: (SOLVED ++ f)).length ≤ MAX_PATH
  apart : ∀ f ∈ D.names, ∀ g ∈ D.names,
    D.realpath (directoryName D.inDirName f) ≠ some (solvedPath D.fullDir g)

/-- A name that is short enough is not cut off. -/
theorem Directory.Separate.outPath_eq (separate : D.Separate) (f : Entry D) :
    D.outPath f = D.fullDir ++ SLASH :: (SOLVED ++ f.1) :=
  List.take_of_length_le (separate.short f.1 f.2)

theorem Directory.Separate.outPath_inj (separate : D.Separate) (same : D.outPath f = D.outPath g) : f = g := by
  rw [separate.outPath_eq, separate.outPath_eq] at same
  have tail := List.append_cancel_left same
  exact Subtype.ext (List.append_cancel_left (List.cons.inj tail).2)

/-- No input is an output. -/
theorem Directory.Separate.inPath_ne (separate : D.Separate) (f g : Entry D) :
    D.inPath f ≠ some (D.outPath g) :=
  separate.apart f.1 f.2 g.1 g.2

/-- Two different directories whose names have no `'/'` hold different files. -/
theorem paths_apart {inDir outDir : Path} {f g : Name} (different : inDir ≠ outDir) (in_name : SLASH ∉ f)
    (out_name : SLASH ∉ g) : inDir ++ SLASH :: f ≠ outDir ++ SLASH :: (SOLVED ++ g) := by
  intro same
  have solved : SLASH ∉ SOLVED ++ g := by
    rw [List.mem_append, not_or]
    exact ⟨by decide, out_name⟩
  rcases List.append_eq_append_iff.mp same with ⟨rest, left, right⟩ | ⟨rest, left, right⟩
  · cases rest with
    | nil => exact different (by simpa using left.symm)
    | cons b rest =>
      obtain ⟨rfl, tail⟩ := List.cons.inj right
      apply in_name
      rw [tail]
      simp
  · cases rest with
    | nil => exact different (by simpa using left)
    | cons b rest =>
      obtain ⟨rfl, tail⟩ := List.cons.inj right
      apply solved
      rw [tail]
      simp

/-- Plain files, in a directory that is not the output directory, are separate
from the output files. -/
theorem Directory.separate_of_different {inDir : Path} (different : inDir ≠ D.fullDir)
    (plain : ∀ f ∈ D.names, SLASH ∉ f)
    (short : ∀ f ∈ D.names, (D.fullDir ++ SLASH :: (SOLVED ++ f)).length ≤ MAX_PATH)
    (resolved : ∀ f ∈ D.names, D.realpath (directoryName D.inDirName f) = some (inDir ++ SLASH :: f)) :
    D.Separate where
  short := short
  apart f in_f g in_g same := by
    rw [resolved f in_f, solvedPath, List.take_of_length_le (short g in_g)] at same
    exact paths_apart different (plain f in_f) (plain g in_g) (Option.some.inj same)

/-! ## A file's share -/

/-- A file's share of the process. -/
structure Viewed (s : Process D n) (f : Entry D) (x : Share) : Prop extends Held s f x.toHands where
  tape : s.tape f = ⟨x.world.input.nread, x.world.input.nalloc, x.world.output⟩
  source : ∀ path, D.inPath f = some path → s.files path = D.files path
  unread : x.inD = none → x.world.input.rx = D.content f
  rest : ∀ d file, x.inD = some d → s.fds d = some file →
    x.world.input.rx = (D.files file.path).drop file.offset
  wrote : s.files (D.outPath f) = D.files (D.outPath f) ++ sent x.world.output.log

/-- **The others.** A call for one file does not change another's share. -/
theorem Viewed.frame (separate : D.Separate) (h : Viewed s g x) (framed : Framed f s t) (other : g ≠ f) :
    Viewed t g x where
  toHeld := h.toHeld.frame framed other
  tape := (framed.tape g other).trans h.tape
  source path here := by
    rw [framed.files path]
    · exact h.source path here
    · rintro rfl
      exact separate.inPath_ne g f here
  unread := h.unread
  rest d file own here := by
    obtain ⟨path, offset, _, before⟩ := h.reads d own
    have kept := (framed.fds d _ (by simpa using other)).mpr before
    rw [kept] at here
    exact h.rest d file own (before.trans here)
  wrote := by
    rw [framed.files]
    · exact h.wrote
    · intro same
      exact other (separate.outPath_inj same)

/-- A share is read off the tables only. -/
theorem Viewed.same (h : Viewed s f x) (same : SameTables s t) : Viewed t f x where
  toHeld := h.toHeld.same same
  tape := by rw [same.tape, h.tape]
  source := by
    rw [same.files]
    exact h.source
  unread := h.unread
  rest := by
    rw [same.fds]
    exact h.rest
  wrote := by rw [same.files, h.wrote]

/-! ## Single calls -/

/-- A call is answered from the file's share. -/
def AnsweredAlone (t : Process D n) (f : Entry D) (x : Share) (q : Request) (a : Reply) : Prop :=
  ∃ y, Served (D.envOf f) x q a y ∧ Viewed t f y

theorem serve_openIn_alone (streams : Streams s) (h : Viewed s f x) (closed : x.inD = none) {chosen : Option Int}
    {a : Reply} (served : s.serve f .openIn chosen = some (a, t)) : AnsweredAlone t f x .openIn a := by
  rcases openIn_cases streams served with ⟨rfl, rfl⟩ | ⟨path, d, here, high, unused, rfl, rfl⟩
  · exact ⟨x, .noIn, h⟩
  refine ⟨{ x with inD := some d }, .openIn d high, ?_⟩
  have content : D.content f = D.files path := by
    unfold Directory.content
    rw [here]
  exact
    { toHeld := h.toHeld.open_in closed unused here
      tape := h.tape
      source := h.source
      unread := fun impossible => by cases impossible
      rest := by
        rintro e file ⟨⟩ at_e
        dsimp only at at_e
        rw [Function.update_self] at at_e
        cases at_e
        rw [h.unread closed, content, List.drop_zero]
      wrote := h.wrote }

theorem serve_openOut_alone (streams : Streams s) (h : Viewed s f x) (closed : x.outD = none)
    {chosen : Option Int} {a : Reply} (served : s.serve f .openOut chosen = some (a, t)) :
    AnsweredAlone t f x .openOut a := by
  rcases openFile_cases streams served with ⟨rfl, rfl⟩ | ⟨d, high, unused, rfl, rfl⟩
  · exact ⟨x, .noOut, h⟩
  refine ⟨{ x with outD := some d }, .openOut d high, ?_⟩
  exact
    { toHeld := h.toHeld.open_out closed unused
      tape := h.tape
      source := h.source
      unread := h.unread
      rest := by
        intro e file own at_e
        obtain ⟨path, offset, _, before⟩ := h.reads e own
        dsimp only at at_e
        rw [update_used unused before] at at_e
        exact h.rest e file own (before.trans at_e)
      wrote := h.wrote }

theorem serve_alloc_alone (h : Viewed s f x) {b : Block} {chosen : Option Int} {a : Reply}
    (served : s.serve f (.alloc b) chosen = some (a, t)) : AnsweredAlone t f x (.alloc b) a := by
  cases served
  refine ⟨x.inWorld ⟨(calloc (D.envOf f).toInputs b x.world.input).2, x.world.output⟩, ?_, ?_⟩
  · rw [h.tape]
    exact .alloc b
  · exact
      { toHeld := { h.toHeld with }
        tape := by
          show Function.update s.tape f _ f = _
          rw [Function.update_self, h.tape]
          rfl
        source := h.source
        unread := h.unread
        rest := h.rest
        wrote := h.wrote }

/-- Reading allocates nothing. -/
theorem sysRead_counts (e : Inputs) (i : Input) (len : Nat) : (sysRead e i len).2.nalloc = i.nalloc := by
  unfold sysRead
  dsimp only
  split <;> rfl

/-- What a read leaves of a file that is open at an offset. -/
theorem sysRead_offset {e : Inputs} {i : Input} {file : List Byte} {offset len : Nat}
    (rx : i.rx = file.drop offset) : (sysRead e i len).2.rx = file.drop (match (sysRead e i len).1 with
      | .ok bs => offset + bs.length
      | .error _ => offset) := by
  rcases found : sysRead e i len with ⟨errno | bs, i'⟩
  · have unread : i'.rx = i.rx := by
      unfold sysRead at found
      dsimp only at found
      split at found <;> cases found
      rfl
    exact unread.trans rx
  · obtain ⟨_, after, _⟩ := sysRead_ok found
    rw [after]
    dsimp only
    rw [rx, List.drop_drop]

theorem serve_read_alone (h : Viewed s f x) {d : Int} {len : Nat} (own : x.inD = some d) {chosen : Option Int}
    {a : Reply} (served : s.serve f (.read d len) chosen = some (a, t)) :
    AnsweredAlone t f x (.read d len) a := by
  obtain ⟨path, offset, here, file⟩ := h.reads d own
  have rx : x.world.input.rx = (D.files path).drop offset := h.rest d _ own file
  have input : (⟨(s.files path).drop offset, (s.tape f).nread, (s.tape f).nalloc⟩ : Input) = x.world.input := by
    rw [h.source path here, ← rx, h.tape]
  have reads : s.readFile f d len = (a, t) := Option.some.inj served
  unfold Process.readFile at reads
  rw [file] at reads
  dsimp only at reads
  rw [input] at reads
  cases reads
  refine ⟨_, .read d len own, ?_⟩
  exact
    { toHeld := h.toHeld.read_on own here file ..
      tape := by
        show Function.update s.tape f _ f = _
        rw [Function.update_self, h.tape]
        dsimp only [Share.inWorld_world]
        rw [sysRead_counts]
      source := h.source
      unread := fun closed => by
        rw [Share.inWorld_inD, own] at closed
        cases closed
      rest := by
        intro e taken same at_e
        rw [Share.inWorld_inD, own] at same
        cases same
        dsimp only at at_e
        rw [Function.update_self] at at_e
        cases at_e
        exact sysRead_offset rx
      wrote := h.wrote }

/-- What arrives is what was accepted. -/
theorem sysWrite_sent (writes : Nat → WriteAct) (o : Output) (bytes : List Byte) :
    sent (sysWrite writes o bytes).2.log = sent o.log ++ (match (sysWrite writes o bytes).1 with
      | some k => bytes.take k
      | none => []) := by
  unfold sysWrite
  dsimp only
  split <;> simp [Event.sent]

theorem serve_write_alone (separate : D.Separate) (h : Viewed s f x) {d : Int} {bytes : List Byte}
    (own : x.outD = some d) {chosen : Option Int} {a : Reply}
    (served : s.serve f (.write d bytes) chosen = some (a, t)) : AnsweredAlone t f x (.write d bytes) a := by
  obtain ⟨offset, file⟩ := h.writes d own
  have writes : s.writeFile f d bytes = (a, t) := Option.some.inj served
  unfold Process.writeFile at writes
  rw [file] at writes
  dsimp only at writes
  rw [if_neg (by simp), h.tape] at writes
  cases writes
  refine ⟨_, .write d bytes own, ?_⟩
  exact
    { toHeld := { h.toHeld with }
      tape := Function.update_self ..
      source := by
        intro path here
        have different : path ≠ D.outPath f := by
          rintro rfl
          exact separate.inPath_ne f f here
        exact (Function.update_of_ne different ..).trans (h.source path here)
      unread := h.unread
      rest := h.rest
      wrote := by
        show Function.update s.files (D.outPath f) _ (D.outPath f) = _
        rw [Function.update_self, h.wrote, List.append_assoc]
        congr 1
        exact (sysWrite_sent _ _ _).symm }

theorem serve_close_alone (h : Viewed s f x) {d : Int} (own : x.outD = some d) {chosen : Option Int} {a : Reply}
    (served : s.serve f (.close d) chosen = some (a, t)) : AnsweredAlone t f x (.close d) a := by
  obtain ⟨offset, file⟩ := h.writes d own
  cases served
  refine ⟨_, .close d own, ?_⟩
  exact
    { toHeld := h.toHeld.close own _
      tape := by
        show Function.update s.tape f _ f = _
        rw [Function.update_self, h.tape]
        rfl
      source := h.source
      unread := h.unread
      rest := by
        intro e taken same at_e
        have different : e ≠ d := by
          rintro rfl
          dsimp only at at_e
          rw [Function.update_self] at at_e
          cases at_e
        exact h.rest e taken same ((Function.update_of_ne different ..).symm.trans at_e)
      wrote := by
        show s.files (D.outPath f) = _ ++ sent (x.world.output.log ++ [.closed])
        rw [sent_append]
        exact h.wrote.trans (by simp [Event.sent]) }

/-- **A call is answered from the file's own share.** -/
theorem serve_served (separate : D.Separate) (streams : Streams s) (h : Viewed s f x) {q : Request}
    (safe : SafeCall x.toHands q) {chosen : Option Int} {a : Reply} (served : s.serve f q chosen = some (a, t)) :
    AnsweredAlone t f x q a := by
  cases q with
  | openIn => exact serve_openIn_alone streams h safe served
  | openOut => exact serve_openOut_alone streams h safe served
  | alloc b => exact serve_alloc_alone h served
  | read d len =>
    rcases safe with own | rfl
    · exact serve_read_alone h own served
    · obtain ⟨rfl, rfl⟩ := serve_unread streams served
      refine ⟨x, .unread len _ ?_, h⟩
      intro own
      obtain ⟨path, offset, _, file⟩ := h.reads ERROR own
      rw [streams.low ERROR (by decide)] at file
      cases file
  | write d bytes => exact serve_write_alone separate h safe served
  | close d => exact serve_close_alone h safe served
  | solve =>
    cases served
    exact ⟨x, .solve, h⟩
  | store args =>
    cases served
    refine ⟨{ x with args := some args }, .store args, ?_⟩
    exact { h with args := Function.update_self .. }
  | args =>
    cases served
    refine ⟨x, ?_, h⟩
    rw [h.args]
    exact .args
  | free =>
    cases served
    refine ⟨{ x with args := none }, .free, ?_⟩
    exact { h with args := Function.update_self .. }

end NetCalc.File
