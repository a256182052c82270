/-!
# Machines driven by labels

A machine is an initial state and a partial step function: `step s l` is the
state after the action `l` when `l` is enabled in `s`. An interleaving of
several parties is one list of labels, so a statement about every schedule
quantifies over lists. Runs are computed (`run`), and the proofs use the
rules at the end of each section:

* `reachable_induction`: a property of the initial state that every enabled
  step keeps holds in every reachable state;
* `run_crosses`: what comes to hold on a run does so with one of its steps;
* `run_induction_of_obeys`: the invariant along the runs whose steps all meet a
  side condition on the state they are taken in;
* `history_induction_with`: the same for the state and what the steps did.
-/

namespace NetCalc.Lib

set_option autoImplicit false

/-- A labelled machine with a partial, executable step. -/
structure Lts (S L : Type) where
  init : S
  step : S → L → Option S

namespace Lts
variable {S L : Type} (M : Lts S L)

/-- The state after the labels `ls`, if each is enabled in its turn. -/
def run : S → List L → Option S
  | s, [] => some s
  | s, l :: ls => (M.step s l).bind fun s' => run s' ls

/-- `t` is the end of some run from `s`. -/
def Reaches (s t : S) : Prop := ∃ ls, M.run s ls = some t

/-- The states of the runs from the initial state. -/
def Reachable (s : S) : Prop := M.Reaches M.init s

variable {M}

@[simp] theorem run_nil (s : S) : M.run s [] = some s := rfl

theorem run_cons (s : S) (l : L) (ls : List L) :
    M.run s (l :: ls) = (M.step s l).bind fun s' => M.run s' ls := rfl

/-- A run of `l :: ls` is a step and a run of the rest. -/
theorem run_cons_inv {s t : S} {l : L} {ls : List L} (h : M.run s (l :: ls) = some t) :
    ∃ u, M.step s l = some u ∧ M.run u ls = some t := by
  rw [run_cons] at h
  exact Option.bind_eq_some_iff.mp h

theorem run_append (s : S) (ls ms : List L) :
    M.run s (ls ++ ms) = (M.run s ls).bind fun t => M.run t ms := by
  induction ls generalizing s with
  | nil => rfl
  | cons l ls ih =>
    rw [List.cons_append, run_cons, run_cons, Option.bind_assoc]
    congr 1
    funext u
    exact ih u

theorem Reaches.refl (s : S) : M.Reaches s s := ⟨[], rfl⟩

theorem Reaches.trans {s t u : S} (h : M.Reaches s t) (k : M.Reaches t u) : M.Reaches s u := by
  obtain ⟨ls, hl⟩ := h
  obtain ⟨ms, hm⟩ := k
  exact ⟨ls ++ ms, by rw [run_append, hl]; exact hm⟩

theorem Reaches.of_step {s t : S} {l : L} (h : M.step s l = some t) : M.Reaches s t :=
  ⟨[l], by simp [run_cons, h]⟩

theorem Reachable.step {s t : S} {l : L} (h : M.Reachable s) (k : M.step s l = some t) :
    M.Reachable t :=
  Reaches.trans h (Reaches.of_step k)

/-- **Run rule.** What every step keeps, every run keeps. -/
theorem reaches_induction {P : S → Prop} (step : ∀ s l t, P s → M.step s l = some t → P t)
    {s t : S} (start : P s) (h : M.Reaches s t) : P t := by
  obtain ⟨ls, hl⟩ := h
  induction ls generalizing s with
  | nil => cases hl; exact start
  | cons l ls ih =>
    obtain ⟨u, hu, hrest⟩ := run_cons_inv hl
    exact ih (step s l u start hu) hrest

/-- **Invariant rule.** -/
theorem reachable_induction {P : S → Prop} (init : P M.init)
    (step : ∀ s l t, P s → M.step s l = some t → P t) {s : S} (h : M.Reachable s) : P s :=
  reaches_induction step init h

/-- **Invariant rule, with an invariant already known.** The step may use `Q`
at the state it starts from. -/
theorem reachable_induction_with {P Q : S → Prop} (known : ∀ s, M.Reachable s → Q s) (init : P M.init)
    (step : ∀ s l t, Q s → P s → M.step s l = some t → P t) {s : S} (h : M.Reachable s) : P s := by
  have both : M.Reachable s ∧ P s := by
    refine reachable_induction (P := fun s => M.Reachable s ∧ P s) ⟨Reaches.refl _, init⟩ ?_ h
    rintro s l t ⟨reach, holds⟩ taken
    exact ⟨reach.step taken, step s l t (known s reach) holds taken⟩
  exact both.2

/-- Each step of the run `ls` from `s` is taken in a state that `ok` admits. -/
def Obeys (ok : S → L → Prop) : S → List L → Prop
  | _, [] => True
  | s, l :: ls => ok s l ∧ ∀ t, M.step s l = some t → Obeys ok t ls

instance obeysDecidable (ok : S → L → Prop) [∀ s l, Decidable (ok s l)] :
    ∀ s ls, Decidable (M.Obeys ok s ls)
  | _, [] => .isTrue trivial
  | s, l :: ls =>
    match taken : M.step s l with
    | none => decidable_of_iff (ok s l)
        ⟨fun h => ⟨h, by simp [taken]⟩, fun h => h.1⟩
    | some t =>
      have := obeysDecidable ok t ls
      decidable_of_iff (ok s l ∧ M.Obeys ok t ls)
        ⟨fun h => ⟨h.1, by simpa [taken] using h.2⟩, fun h => ⟨h.1, h.2 t taken⟩⟩

/-- **Run rule under a side condition.** What every admitted step keeps, every
run of admitted steps keeps. -/
theorem run_induction_of_obeys {P : S → Prop} {ok : S → L → Prop}
    (step : ∀ s l t, P s → ok s l → M.step s l = some t → P t)
    {ls : List L} {s t : S} (start : P s) (obeys : M.Obeys ok s ls) (h : M.run s ls = some t) :
    P t := by
  induction ls generalizing s with
  | nil => cases h; exact start
  | cons l ls ih =>
    obtain ⟨u, hu, hrest⟩ := run_cons_inv h
    exact ih (step s l u start obeys.1 hu) (obeys.2 u hu) hrest

/-- A side condition implies another along a run, if it does so for the enabled
actions of the states with an invariant. -/
theorem Obeys.imp {P : S → Prop} {ok ok' : S → L → Prop} (step : ∀ s l t, P s → M.step s l = some t → P t)
    (implies : ∀ s l t, P s → M.step s l = some t → ok s l → ok' s l) {ls : List L} {s t : S} (start : P s)
    (h : M.run s ls = some t) (obeys : M.Obeys ok s ls) : M.Obeys ok' s ls := by
  induction ls generalizing s with
  | nil => trivial
  | cons l ls ih =>
    obtain ⟨u, hu, hrest⟩ := run_cons_inv h
    refine ⟨implies s l u start hu obeys.1, ?_⟩
    intro v hv
    rw [hu] at hv
    cases hv
    exact ih (step s l u start hu) hrest (obeys.2 u hu)

/-! ## Histories

What the steps of a run do is read off the states they are taken in. -/

section History
variable {E : Type} {emit : S → L → List E}

variable (M) in
/-- What the steps of the run `ls` from `s` do, in their order. -/
def history (emit : S → L → List E) : S → List L → List E
  | _, [] => []
  | s, l :: ls => emit s l ++ match M.step s l with
    | none => []
    | some t => history emit t ls

theorem history_cons {s t : S} {l : L} (taken : M.step s l = some t) (ls : List L) :
    M.history emit s (l :: ls) = emit s l ++ M.history emit t ls := by
  rw [history, taken]

/-- **Run rule for the state and the history.** The step may use what is known
of the state it starts from. -/
theorem history_induction_with {P : S → List E → Prop} {Q : S → Prop} (known : ∀ s, M.Reachable s → Q s)
    (init : P M.init [])
    (step : ∀ s es l t, Q s → P s es → M.step s l = some t → P t (es ++ emit s l)) {ls : List L} {t : S}
    (h : M.run M.init ls = some t) : P t (M.history emit M.init ls) := by
  have rest : ∀ (ls : List L) (s : S) (es : List E), M.Reachable s → P s es → M.run s ls = some t →
      P t (es ++ M.history emit s ls) := by
    intro ls
    induction ls with
    | nil =>
      intro s es _ holds ended
      cases ended
      rw [history, List.append_nil]
      exact holds
    | cons l ls ih =>
      intro s es reach holds went
      obtain ⟨u, taken, after⟩ := run_cons_inv went
      rw [history_cons taken, ← List.append_assoc]
      exact ih u _ (reach.step taken) (step s es l u (known s reach) holds taken) after
  exact rest ls M.init [] (Reaches.refl _) init h

/-- A side condition on what each step does is one on the history. -/
theorem obeys_iff_history {p : E → Prop} {ls : List L} {s t : S} (h : M.run s ls = some t) :
    M.Obeys (fun s l => ∀ e ∈ emit s l, p e) s ls ↔ ∀ e ∈ M.history emit s ls, p e := by
  induction ls generalizing s with
  | nil => simp [Obeys, history]
  | cons l ls ih =>
    obtain ⟨u, taken, rest⟩ := run_cons_inv h
    rw [history_cons taken, List.forall_mem_append, ← ih rest, Obeys]
    refine and_congr_right fun _ => ⟨fun later => later u taken, ?_⟩
    intro later v again
    rw [taken] at again
    cases again
    exact later

end History

end Lts

end NetCalc.Lib
