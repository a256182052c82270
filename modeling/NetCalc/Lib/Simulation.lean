import NetCalc.Lib.Potential

/-!
# One machine does what another does

`C` takes many small steps where `A` takes one. A relation between their
states that every small step keeps, while `A` takes as many steps as it needs
(often none), makes each run of `C` a run of `A` between related states. What
is known of the runs of `A` then holds of those of `C`, their length included,
where the steps that `A` does not take are paid for (`run_length_le_beside`).
-/

namespace NetCalc.Lib

set_option autoImplicit false

variable {S L T K : Type}

/-- A step is a run. -/
theorem Lts.run_one {M : Lts S L} {s t : S} {l : L} (taken : M.step s l = some t) : M.run s [l] = some t := by
  rw [Lts.run_cons, taken]
  rfl

/-- Every step of `C` is a run of `A`. -/
structure Simulates (C : Lts S L) (A : Lts T K) (R : S → T → Prop) : Prop where
  init : R C.init A.init
  step : ∀ s l s' t, R s t → C.step s l = some s' → ∃ ks t', A.run t ks = some t' ∧ R s' t'

variable {C : Lts S L} {A : Lts T K} {R : S → T → Prop}

/-- A run from related states. -/
theorem Simulates.run_from (sim : Simulates C A R) {ls : List L} {s s' : S} {t : T} (related : R s t)
    (went : C.run s ls = some s') : ∃ ks t', A.run t ks = some t' ∧ R s' t' := by
  induction ls generalizing s t with
  | nil =>
    cases went
    exact ⟨[], t, rfl, related⟩
  | cons l ls ih =>
    obtain ⟨u, taken, rest⟩ := Lts.run_cons_inv went
    obtain ⟨ks, v, first, between⟩ := sim.step s l u t related taken
    obtain ⟨ms, t', later, ended⟩ := ih between rest
    refine ⟨ks ++ ms, t', ?_, ended⟩
    rw [Lts.run_append, first]
    exact later

/-- **Simulation rule.** A reachable state of `C` is related to one of `A`. -/
theorem Simulates.reachable (sim : Simulates C A R) {s : S} (h : C.Reachable s) : ∃ t, A.Reachable t ∧ R s t := by
  obtain ⟨ls, went⟩ := h
  obtain ⟨ks, t, matched, related⟩ := sim.run_from sim.init went
  exact ⟨t, ⟨ks, matched⟩, related⟩

/-- **Potential rule for a pair of machines.** -/
theorem Lts.run_length_le_beside {worth : S → T → Nat} {price : L → Nat}
    (pays : ∀ s l s' t, R s t → C.step s l = some s' → ∃ t', R s' t' ∧ worth s' t' + 1 ≤ worth s t + price l)
    {ls : List L} {s s' : S} {t : T} (related : R s t) (went : C.run s ls = some s') :
    ∃ t', R s' t' ∧ worth s' t' + ls.length ≤ worth s t + bill price ls := by
  induction ls generalizing s t with
  | nil =>
    cases went
    exact ⟨t, related, Nat.le_refl _⟩
  | cons l ls ih =>
    obtain ⟨u, taken, rest⟩ := Lts.run_cons_inv went
    obtain ⟨v, between, first⟩ := pays s l u t related taken
    obtain ⟨t', ended, later⟩ := ih between rest
    refine ⟨t', ended, ?_⟩
    rw [bill_cons, List.length_cons]
    omega

end NetCalc.Lib
