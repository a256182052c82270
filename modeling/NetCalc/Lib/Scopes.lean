import NetCalc.Lib.Ledger

/-!
# Ledgers that close what they open

Who opens handles depends on whoever gives them out: two of them may be one
only if nobody has it. `Guarded` is a ledger that does nothing wrong as long as
that promise is kept, and `Scoped` one that, besides, leaves the table as it was.

A program that closes each handle where it was opened keeps a `Nested` ledger:
uses of what is open around it, nested ledgers one behind the other, and
brackets, which are a handle that is opened, a nested ledger that may use it,
and the close. Such a ledger is scoped, and no more handles are open at any
time than its brackets are deep (`Nested.scoped`, `Nested.standing_le`).

Ledgers of several parties that share one table can be merged in any way. If
each is guarded by itself the merged one is proper, and if each is scoped it is
balanced (`merged_proper`, `merged_balanced`).
-/

namespace NetCalc.Lib

set_option autoImplicit false

section Scopes
variable {κ ι : Type} [DecidableEq κ]

/-- Nothing wrong is done, as long as only free handles are opened. -/
def Guarded : (κ → Option ι) → Ledger κ ι → Prop
  | _, [] => True
  | held, e :: es => Unheld held e → Allowed held e ∧ Guarded (enter held e) es

/-- With the handles `own` open, nothing wrong is done, and what is open in the
end was open before. -/
def Scoped (own : List κ) (es : Ledger κ ι) : Prop :=
  ∀ held : κ → Option ι, (∀ k ∈ own, held k ≠ none) →
    Guarded held es ∧ (FreshlyOpened held es → holders held es = held)

variable {held : κ → Option ι} {own own' : List κ} {es fs : Ledger κ ι} {k : κ}

instance (held : κ → Option ι) : ∀ e, Decidable (Unheld held e)
  | (k, .opened _) => inferInstanceAs (Decidable (held k = none))
  | (_, .used) => .isTrue trivial
  | (_, .closed) => .isTrue trivial

instance decidableFreshlyOpened : ∀ (held : κ → Option ι) es, Decidable (FreshlyOpened held es)
  | _, [] => .isTrue trivial
  | held, e :: es => @instDecidableAnd _ _ _ (decidableFreshlyOpened (enter held e) es)

/-- A promise that is kept makes a ledger proper. -/
theorem Guarded.proper (guarded : Guarded held es) (fresh : FreshlyOpened held es) : Proper held es := by
  induction es generalizing held with
  | nil => trivial
  | cons e es ih =>
    obtain ⟨allowed, rest⟩ := guarded fresh.1
    exact ⟨allowed, ih rest fresh.2⟩

/-- What is guarded is guarded all along. -/
theorem Guarded.front (guarded : Guarded held (es ++ fs)) : Guarded held es := by
  induction es generalizing held with
  | nil => trivial
  | cons e es ih =>
    intro free
    obtain ⟨allowed, rest⟩ := guarded free
    exact ⟨allowed, ih rest⟩

theorem Guarded.append (guarded : Guarded held es)
    (rest : FreshlyOpened held es → Guarded (holders held es) fs) : Guarded held (es ++ fs) := by
  induction es generalizing held with
  | nil => exact rest trivial
  | cons e es ih =>
    intro free
    obtain ⟨allowed, later⟩ := guarded free
    exact ⟨allowed, ih later fun fresh => rest ⟨free, fresh⟩⟩

/-! ## Brackets -/

/-- A ledger in which what is opened is closed by the one who opened it, with
the handles `own` open around it; at most `n` brackets are inside each other. -/
inductive Nested : List κ → Nat → Ledger κ ι → Prop
  | nil {own n} : Nested own n []
  | use {own n k es} (around : k ∈ own) (rest : Nested own n es) : Nested own n ((k, .used) :: es)
  | append {own n es fs} (first : Nested own n es) (second : Nested own n fs) : Nested own n (es ++ fs)
  | bracket {own n k i es} (inside : Nested (k :: own) n es) :
    Nested own (n + 1) ((k, .opened i) :: (es ++ [(k, .closed)]))

theorem Scoped.nil : Scoped own ([] : Ledger κ ι) := fun _ _ => ⟨trivial, fun _ => rfl⟩

theorem Scoped.use (around : k ∈ own) (rest : Scoped own es) : Scoped own ((k, .used) :: es) :=
  fun held opened => ⟨fun _ => ⟨opened k around, (rest held opened).1⟩, fun fresh => (rest held opened).2 fresh.2⟩

theorem Scoped.append (first : Scoped own es) (second : Scoped own fs) : Scoped own (es ++ fs) := by
  intro held opened
  obtain ⟨guarded, same⟩ := first held opened
  obtain ⟨guarded', same'⟩ := second held opened
  constructor
  · refine guarded.append fun fresh => ?_
    rw [same fresh]
    exact guarded'
  · intro fresh
    obtain ⟨fresh, fresh'⟩ := freshlyOpened_append.mp fresh
    rw [same fresh] at fresh'
    rw [holders_append, same fresh, same' fresh']

/-- A handle that is closed where it was opened. -/
theorem Scoped.bracket (i : ι) (inside : Scoped (k :: own) es) :
    Scoped own ((k, .opened i) :: (es ++ [(k, .closed)])) := by
  intro held opened
  have within : ∀ k' ∈ k :: own, Function.update held k (some i) k' ≠ none := by
    intro k' member
    by_cases same : k' = k
    · rw [same, Function.update_self]
      exact Option.some_ne_none i
    · rw [Function.update_of_ne same]
      exact opened k' ((List.mem_cons.mp member).resolve_left same)
  obtain ⟨guarded, same⟩ := inside _ within
  constructor
  · intro free
    refine ⟨free, guarded.append fun fresh => ?_⟩
    rw [same fresh]
    exact fun _ => ⟨within k List.mem_cons_self, trivial⟩
  · rintro ⟨free, fresh⟩
    have still : holders (enter held (k, .opened i)) es = Function.update held k (some i) :=
      same (freshlyOpened_append.mp fresh).1
    rw [holders_cons, holders_append, still, holders_cons, holders_nil, enter, Function.update_idem]
    exact Function.update_eq_self_iff.mpr (Eq.symm free)

/-- **Brackets leave nothing open**, and nothing wrong is done inside them. -/
theorem Nested.scoped {n : Nat} (nested : Nested own n es) : Scoped own es := by
  induction nested with
  | nil => exact .nil
  | use around _ ih => exact ih.use around
  | append _ _ first second => exact first.append second
  | bracket _ ih => exact ih.bracket _

/-- By itself such a ledger closes everything it opens, once. -/
theorem Scoped.balanced (whole : Scoped [] es) (fresh : FreshlyOpened nobody es) : Proper nobody es ∧ Balanced es := by
  obtain ⟨guarded, same⟩ := whole nobody fun _ member => absurd member List.not_mem_nil
  have proper := guarded.proper fresh
  exact ⟨proper, (balanced_iff proper).mpr fun k => congrFun (same fresh) k⟩

/-! ## Handles that overlap -/

/-- What follows is guarded where the front leaves the table. -/
theorem Guarded.back (guarded : Guarded held (es ++ fs)) (fresh : FreshlyOpened held es) :
    Guarded (holders held es) fs := by
  induction es generalizing held with
  | nil => exact guarded
  | cons e es ih => exact ih (guarded fresh.1).2 fresh.2

/-- Two entries may be made in the other order if that is as good, and leaves
the same table under its own promise. -/
theorem Scoped.swap {e e' : κ × Deed ι} (before : Scoped own (es ++ e :: e' :: fs))
    (guards : ∀ held : κ → Option ι, Guarded held [e, e'] → Guarded held [e', e])
    (same : ∀ held : κ → Option ι, Guarded held [e, e'] → FreshlyOpened held [e', e] →
      FreshlyOpened held [e, e'] ∧ holders held [e', e] = holders held [e, e']) :
    Scoped own (es ++ e' :: e :: fs) := by
  intro held opened
  obtain ⟨guarded, final⟩ := before held opened
  rw [show es ++ e :: e' :: fs = es ++ ([e, e'] ++ fs) from rfl] at guarded final
  rw [show es ++ e' :: e :: fs = es ++ ([e', e] ++ fs) from rfl]
  have pair : FreshlyOpened held es → Guarded (holders held es) [e, e'] := fun fresh => (guarded.back fresh).front
  constructor
  · refine guarded.front.append fun fresh => (guards _ (pair fresh)).append fun fresh_pair => ?_
    obtain ⟨first, table⟩ := same _ (pair fresh) fresh_pair
    rw [table]
    exact (guarded.back fresh).back first
  · intro fresh
    obtain ⟨fresh, later⟩ := freshlyOpened_append.mp fresh
    obtain ⟨fresh_pair, rest⟩ := freshlyOpened_append.mp later
    obtain ⟨first, table⟩ := same _ (pair fresh) fresh_pair
    rw [table] at rest
    have kept := final (freshlyOpened_append.mpr ⟨fresh, freshlyOpened_append.mpr ⟨first, rest⟩⟩)
    rwa [holders_append, holders_append, ← table, ← holders_append, ← holders_append] at kept

/-- A handle may be opened before another is closed. -/
theorem Scoped.early {k' : κ} {j : ι} (before : Scoped own (es ++ (k, .closed) :: (k', .opened j) :: fs)) :
    Scoped own (es ++ (k', .opened j) :: (k, .closed) :: fs) := by
  have apart : ∀ held : κ → Option ι, Guarded held [(k, .closed), (k', .opened j)] → held k' = none → k ≠ k' :=
    fun held guarded free same => (guarded trivial).1 (same ▸ free)
  refine before.swap (fun held guarded free => ?_) fun held guarded fresh => ?_
  · refine ⟨free, fun _ => ⟨?_, trivial⟩⟩
    show Function.update held k' (some j) k ≠ none
    rw [Function.update_of_ne (apart held guarded free)]
    exact (guarded trivial).1
  · have other := apart held guarded fresh.1
    refine ⟨⟨trivial, ?_, trivial⟩, Function.update_comm other.symm _ _ _⟩
    show Function.update held k none k' = none
    rw [Function.update_of_ne other.symm]
    exact fresh.1

/-- Two handles may be closed in the other order. -/
theorem Scoped.swap_closed {k' : κ} (before : Scoped own (es ++ (k, .closed) :: (k', .closed) :: fs)) :
    Scoped own (es ++ (k', .closed) :: (k, .closed) :: fs) := by
  have apart : ∀ held : κ → Option ι, Guarded held [(k, .closed), (k', .closed)] → k' ≠ k ∧ held k' ≠ none := by
    intro held guarded
    have still : Function.update held k none k' ≠ none := ((guarded trivial).2 trivial).1
    by_cases same : k' = k
    · rw [same, Function.update_self] at still
      exact absurd rfl still
    · rw [Function.update_of_ne same] at still
      exact ⟨same, still⟩
  refine before.swap (fun held guarded _ => ?_) fun held guarded _ => ?_
  · obtain ⟨other, still⟩ := apart held guarded
    refine ⟨still, fun _ => ⟨?_, trivial⟩⟩
    show Function.update held k' none k ≠ none
    rw [Function.update_of_ne other.symm]
    exact (guarded trivial).1
  · exact ⟨⟨trivial, trivial, trivial⟩, Function.update_comm (apart held guarded).1 _ _ _⟩

omit [DecidableEq κ] in
/-- Deeper brackets would be right, too. -/
theorem Nested.mono {n m : Nat} (nested : Nested own n es) (le : n ≤ m) : Nested own m es := by
  induction nested generalizing m with
  | nil => exact .nil
  | use around _ ih => exact .use around (ih le)
  | append _ _ first second => exact .append (first le) (second le)
  | bracket _ ih =>
    obtain ⟨m, rfl⟩ := Nat.exists_eq_succ_of_ne_zero (Nat.ne_zero_of_lt le)
    exact .bracket (ih (Nat.le_of_succ_le_succ le))

/-- How many handles were opened, and how many closed. -/
def opens (es : Ledger κ ι) : Nat := es.countP fun e => e.2.isOpened

@[inherit_doc opens] def closes (es : Ledger κ ι) : Nat := es.countP fun e => e.2.isClosed

/-- The handles that were opened, with their owners. -/
def opened (es : Ledger κ ι) : List (κ × ι) :=
  es.filterMap fun
    | (k, .opened i) => some (k, i)
    | _ => none

omit [DecidableEq κ] in
@[simp] theorem opened_append : opened (es ++ fs) = opened es ++ opened fs := List.filterMap_append

omit [DecidableEq κ] in
@[simp] theorem opens_append : opens (es ++ fs) = opens es + opens fs := List.countP_append

omit [DecidableEq κ] in
@[simp] theorem closes_append : closes (es ++ fs) = closes es + closes fs := List.countP_append

omit [DecidableEq κ] in
/-- As many are closed as are opened. -/
theorem Nested.opens_eq {n : Nat} (nested : Nested own n es) : opens es = closes es := by
  induction nested with
  | nil => rfl
  | use _ _ ih => simpa [opens, closes, Deed.isOpened, Deed.isClosed] using ih
  | append _ _ first second => rw [opens_append, closes_append, first, second]
  | bracket _ ih =>
    rw [← List.singleton_append, opens_append, opens_append, closes_append, closes_append, ih]
    simp [opens, closes, Deed.isOpened, Deed.isClosed]
    omega

omit [DecidableEq κ] in
/-- **At no time** are more handles open than the brackets are deep. -/
theorem Nested.standing_le {n : Nat} (nested : Nested own n es) {front : Ledger κ ι} (so_far : front <+: es) :
    opens front ≤ closes front + n := by
  induction nested generalizing front with
  | nil =>
    rw [List.prefix_nil.mp so_far]
    exact Nat.zero_le _
  | use _ _ ih =>
    rcases List.prefix_cons_iff.mp so_far with rfl | ⟨front, rfl, later⟩
    · exact Nat.zero_le _
    · simpa [opens, closes, Deed.isOpened, Deed.isClosed] using ih later
  | @append _ n es fs nested _ first second =>
    rcases List.prefix_or_prefix_of_prefix so_far (List.prefix_append es fs) with inside | ⟨front, rfl⟩
    · exact first inside
    · have behind := second ((List.prefix_append_right_inj es).mp so_far)
      rw [opens_append, closes_append, nested.opens_eq]
      omega
  | @bracket _ n k i es nested ih =>
    rcases List.prefix_cons_iff.mp so_far with rfl | ⟨front, rfl, later⟩
    · exact Nat.zero_le _
    · rcases List.prefix_concat_iff.mp later with rfl | inside
      · have same := nested.opens_eq
        simp [opens, closes, Deed.isOpened, Deed.isClosed] at same ⊢
        omega
      · have bound := ih inside
        simp [opens, closes, Deed.isOpened, Deed.isClosed] at bound ⊢
        omega

/-! ## Several parties -/

section Merged
variable {ο : Type} [DecidableEq ο] {ms : List (ο × κ × Deed ι)} {owns : ο → κ → Option ι} {o : ο}

/-- What one party does in a merged ledger. -/
def entriesOf (o : ο) (ms : List (ο × κ × Deed ι)) : Ledger κ ι := (ms.filter fun m => m.1 = o).map Prod.snd

/-- The table of all is the tables of the parties, of whom no two have one handle. -/
structure Beside (owns : ο → κ → Option ι) (held : κ → Option ι) : Prop where
  held_iff : ∀ k i, held k = some i ↔ ∃ o, owns o k = some i
  apart : ∀ k o o', owns o k ≠ none → owns o' k ≠ none → o = o'

omit [DecidableEq κ] in
@[simp] theorem entriesOf_own (o : ο) (e : κ × Deed ι) (ms : List (ο × κ × Deed ι)) :
    entriesOf o ((o, e) :: ms) = e :: entriesOf o ms := by
  simp [entriesOf]

omit [DecidableEq κ] in
theorem entriesOf_other {o' : ο} (other : o' ≠ o) (e : κ × Deed ι) (ms : List (ο × κ × Deed ι)) :
    entriesOf o' ((o, e) :: ms) = entriesOf o' ms := by
  unfold entriesOf
  rw [List.filter_cons_of_neg (by simpa using other.symm)]

omit [DecidableEq κ] [DecidableEq ο] in
theorem beside_nobody : Beside (fun _ : ο => (nobody : κ → Option ι)) nobody where
  held_iff _ _ := by simp [nobody]
  apart _ _ _ own := absurd rfl own

omit [DecidableEq κ] [DecidableEq ο] in
/-- What is free for all is free for each. -/
theorem Beside.free (h : Beside owns held) (nobodys : held k = none) (o : ο) : owns o k = none := by
  by_contra own
  obtain ⟨i, own⟩ := Option.ne_none_iff_exists'.mp own
  rw [(h.held_iff k i).mpr ⟨o, own⟩] at nobodys
  cases nobodys

/-- What nobody else has may change. -/
theorem Beside.change (h : Beside owns held) (mine : ∀ o', o' ≠ o → owns o' k = none) (c : Option ι) :
    Beside (Function.update owns o (Function.update (owns o) k c)) (Function.update held k c) := by
  have value : ∀ o' k', Function.update owns o (Function.update (owns o) k c) o' k' =
      if o' = o ∧ k' = k then c else owns o' k' := by
    intro o' k'
    by_cases party : o' = o
    · subst party
      simp [Function.update_apply]
    · simp [party]
  constructor
  · intro k' i
    simp only [value]
    by_cases handle : k' = k
    · subst handle
      rw [Function.update_self]
      constructor
      · exact fun own => ⟨o, by simpa using own⟩
      · rintro ⟨o', own⟩
        by_cases party : o' = o
        · simpa [party] using own
        · rw [if_neg (fun both => party both.1), mine o' party] at own
          cases own
    · simp [handle, h.held_iff]
  · intro k' o₁ o₂ own₁ own₂
    rw [value] at own₁ own₂
    by_cases handle : k' = k
    · subst handle
      have owner : ∀ o', (if o' = o ∧ k' = k' then c else owns o' k') ≠ none → o' = o := by
        intro o' own
        by_contra party
        rw [if_neg (fun both => party both.1)] at own
        exact own (mine o' party)
      rw [owner o₁ own₁, owner o₂ own₂]
    · simp only [handle, and_false, if_false] at own₁ own₂
      exact h.apart k' o₁ o₂ own₁ own₂

/-- One entry of one party: it is allowed in the table of all. -/
theorem Beside.enter (h : Beside owns held) {e : κ × Deed ι} (free : Unheld held e)
    (allowed : Allowed (owns o) e) :
    Allowed held e ∧ Beside (Function.update owns o (Lib.enter (owns o) e)) (Lib.enter held e) := by
  obtain ⟨k, deed⟩ := e
  have open_to_all : owns o k ≠ none → held k ≠ none := fun own nobodys => own (h.free nobodys o)
  cases deed with
  | opened i => exact ⟨free, h.change (fun o' _ => h.free free o') (some i)⟩
  | used => exact ⟨open_to_all allowed, by rwa [Lib.enter, Lib.enter, Function.update_eq_self]⟩
  | closed =>
    refine ⟨open_to_all allowed, h.change (fun o' other => ?_) none⟩
    by_contra own
    exact other (h.apart k o' o own allowed)

/-- **Parties that are guarded each by himself** may be merged in any way. -/
theorem Beside.run (h : Beside owns held) (guarded : ∀ o, Guarded (owns o) (entriesOf o ms))
    (fresh : FreshlyOpened held (ms.map Prod.snd)) :
    Proper held (ms.map Prod.snd) ∧ (∀ o, FreshlyOpened (owns o) (entriesOf o ms)) ∧
      Beside (fun o => holders (owns o) (entriesOf o ms)) (holders held (ms.map Prod.snd)) := by
  induction ms generalizing owns held with
  | nil => exact ⟨trivial, fun _ => trivial, h⟩
  | cons m ms ih =>
    obtain ⟨o, e⟩ := m
    obtain ⟨free, later⟩ := fresh
    have free_here : Unheld (owns o) e := by
      obtain ⟨k, deed⟩ := e
      cases deed with
      | opened i => exact h.free free o
      | _ => trivial
    have mine := guarded o
    rw [entriesOf_own] at mine
    obtain ⟨allowed, rest⟩ := mine free_here
    obtain ⟨allowed_here, beside⟩ := h.enter free allowed
    -- The entries that are left are guarded in the tables after this one.
    have left : ∀ o', Guarded (Function.update owns o (Lib.enter (owns o) e) o') (entriesOf o' ms) := by
      intro o'
      by_cases party : o' = o
      · subst party
        rwa [Function.update_self]
      · rw [Function.update_of_ne party, ← entriesOf_other party e ms]
        exact guarded o'
    obtain ⟨proper, each, final⟩ := ih beside left later
    refine ⟨⟨allowed_here, proper⟩, fun o' => ?_, ?_⟩
    · by_cases party : o' = o
      · subst party
        have after := each o'
        rw [Function.update_self] at after
        rw [entriesOf_own]
        exact ⟨free_here, after⟩
      · rw [entriesOf_other party]
        have after := each o'
        rwa [Function.update_of_ne party] at after
    · have same : (fun o' => holders (owns o') (entriesOf o' ((o, e) :: ms))) =
          fun o' => holders (Function.update owns o (Lib.enter (owns o) e) o') (entriesOf o' ms) := by
        funext o'
        by_cases party : o' = o
        · subst party
          rw [entriesOf_own, holders_cons, Function.update_self]
        · rw [entriesOf_other party, Function.update_of_ne party]
      rw [same]
      exact final

/-- **At any time** nothing wrong has been done, by all and by each with what
he has opened himself. -/
theorem merged_proper (each : ∀ o, ∃ es : Ledger κ ι, Scoped [] es ∧ entriesOf o ms <+: es)
    (fresh : FreshlyOpened nobody (ms.map Prod.snd)) :
    Proper nobody (ms.map Prod.snd) ∧ ∀ o, Proper nobody (entriesOf o ms) := by
  have guarded : ∀ o, Guarded nobody (entriesOf o ms) := by
    intro o
    obtain ⟨_, whole, rest, rfl⟩ := each o
    exact (whole nobody (fun _ member => absurd member List.not_mem_nil)).1.front
  obtain ⟨proper, fresh_each, _⟩ := Beside.run beside_nobody guarded fresh
  exact ⟨proper, fun o => (guarded o).proper (fresh_each o)⟩

/-- **When all are done** everything has been closed, and only once. -/
theorem merged_balanced (each : ∀ o, Scoped [] (entriesOf o ms))
    (fresh : FreshlyOpened nobody (ms.map Prod.snd)) :
    Balanced (ms.map Prod.snd) := by
  have whole : ∀ o, Guarded nobody (entriesOf o ms) ∧
      (FreshlyOpened nobody (entriesOf o ms) → holders nobody (entriesOf o ms) = nobody) :=
    fun o => each o nobody fun _ member => absurd member List.not_mem_nil
  obtain ⟨proper, fresh_each, final⟩ := Beside.run beside_nobody (fun o => (whole o).1) fresh
  refine (balanced_iff proper).mpr fun k => ?_
  by_contra still
  obtain ⟨i, still⟩ := Option.ne_none_iff_exists'.mp still
  obtain ⟨o, own⟩ := (final.held_iff k i).mp still
  rw [(whole o).2 (fresh_each o)] at own
  cases own

end Merged

end Scopes

end NetCalc.Lib
