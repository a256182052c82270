import Mathlib.Data.List.Induction
import Mathlib.Data.List.Nodup
import Mathlib.Logic.Function.Basic

/-!
# What is done with handles

A ledger lists what was done with handles: a handle is opened for an owner,
used, and closed; a handle that was closed may be opened again, for somebody
else. `holders` is who has each handle, and a ledger is `Proper` where only
what is open is used or closed and only what is not is opened.

What happens to a handle after it was opened, up to its next opening, is its
`life`. In a proper ledger it is some uses, and a close at the end or none
(`Proper.life_of_held`); so every handle that was opened has been closed
exactly once, and not used any more, if and only if nobody has one in the end
(`balanced_iff`).

Whoever keeps a list of his open handles, puts a new one at its end and closes
from its front, keeps a proper ledger (`Tracks.step`).
-/

namespace NetCalc.Lib

set_option autoImplicit false

/-- What may be done with a handle. -/
inductive Deed (ι : Type) where
  | opened (owner : ι)
  | used
  | closed
  deriving DecidableEq, Repr

/-- What was done, and with which handle. -/
abbrev Ledger (κ ι : Type) := List (κ × Deed ι)

variable {κ ι : Type}

def Deed.isOpened : Deed ι → Bool
  | .opened _ => true
  | _ => false

def Deed.isClosed : Deed ι → Bool
  | .closed => true
  | _ => false

section Tables
variable [DecidableEq κ]

/-- Nothing is open. -/
def nobody : κ → Option ι := fun _ => none

/-- Who has each handle after one entry. -/
def enter (held : κ → Option ι) : κ × Deed ι → κ → Option ι
  | (k, .opened i) => Function.update held k (some i)
  | (_, .used) => held
  | (k, .closed) => Function.update held k none

/-- Who has each handle after a ledger. -/
def holders (held : κ → Option ι) (es : Ledger κ ι) : κ → Option ι := es.foldl enter held

/-- What may be done where `held` says who has what. -/
def Allowed (held : κ → Option ι) : κ × Deed ι → Prop
  | (k, .opened _) => held k = none
  | (k, .used) => held k ≠ none
  | (k, .closed) => held k ≠ none

/-- Only open handles are used or closed, and only others are opened. -/
def Proper : (κ → Option ι) → Ledger κ ι → Prop
  | _, [] => True
  | held, e :: es => Allowed held e ∧ Proper (enter held e) es

/-- What happens to a handle until it is opened the next time. -/
def life (k : κ) (after : Ledger κ ι) : List (Deed ι) :=
  ((after.filter fun e => e.1 = k).map Prod.snd).takeWhile fun deed => !deed.isOpened

/-- A handle is closed exactly once, and not used after that. -/
structure ClosedOnce (k : κ) (after : Ledger κ ι) : Prop where
  once : (life k after).countP Deed.isClosed = 1
  unused : ∀ front back, life k after = front ++ .closed :: back → .used ∉ back

/-- Whatever was opened is closed exactly once, and not used after that. -/
def Balanced (es : Ledger κ ι) : Prop :=
  ∀ before k i after, es = before ++ (k, .opened i) :: after → ClosedOnce k after

variable {held : κ → Option ι} {es fs before after : Ledger κ ι} {e : κ × Deed ι} {k : κ} {i : ι}

@[simp] theorem holders_nil : holders held [] = held := rfl

@[simp] theorem holders_cons : holders held (e :: es) = holders (enter held e) es := rfl

@[simp] theorem holders_append : holders held (es ++ fs) = holders (holders held es) fs := List.foldl_append ..

theorem proper_append : Proper held (es ++ fs) ↔ Proper held es ∧ Proper (holders held es) fs := by
  induction es generalizing held with
  | nil => simp [Proper]
  | cons e es ih => rw [List.cons_append, Proper, Proper, ih, holders_cons, and_assoc]

/-! ## Lives -/

/-- What is done with another handle. -/
theorem enter_other (other : e.1 ≠ k) : enter held e k = held k := by
  obtain ⟨k', deed⟩ := e
  cases deed with
  | used => rfl
  | _ => exact Function.update_of_ne other.symm ..

theorem life_other (other : e.1 ≠ k) : life k (e :: es) = life k es := by
  unfold life
  rw [List.filter_cons_of_neg (by simpa using other)]

theorem life_opened : life k ((k, .opened i) :: es) = [] := by simp [life, Deed.isOpened]

theorem life_used : life k ((k, .used) :: es) = .used :: life k es := by simp [life, Deed.isOpened]

theorem life_closed : life k ((k, .closed) :: es) = .closed :: life k es := by simp [life, Deed.isOpened]

theorem mem_of_mem_life {deed : Deed ι} (member : deed ∈ life k es) : (k, deed) ∈ es := by
  have inside := (List.takeWhile_sublist _).subset member
  obtain ⟨⟨k', deed'⟩, filtered, rfl⟩ := List.mem_map.mp inside
  obtain ⟨there, same⟩ := List.mem_filter.mp filtered
  obtain rfl : k' = k := by simpa using same
  exact there

/-- Nothing happens to what nobody has, until it is opened. -/
theorem Proper.life_of_free (proper : Proper held es) (free : held k = none) : life k es = [] := by
  induction es generalizing held with
  | nil => rfl
  | cons e es ih =>
    obtain ⟨allowed, rest⟩ := proper
    by_cases same : e.1 = k
    · obtain ⟨k', deed⟩ := e
      obtain rfl : k' = k := same
      cases deed with
      | opened i => exact life_opened
      | _ => exact absurd free allowed
    · rw [life_other same]
      exact ih rest ((enter_other same).trans free)

/-- **A life.** What somebody has is used, and then closed, or his to the end. -/
theorem Proper.life_of_held (proper : Proper held es) (own : held k = some i) :
    ∃ uses, life k es = List.replicate uses .used ++ [.closed] ∨
      life k es = List.replicate uses .used ∧ holders held es k = some i := by
  induction es generalizing held with
  | nil => exact ⟨0, .inr ⟨rfl, own⟩⟩
  | cons e es ih =>
    obtain ⟨allowed, rest⟩ := proper
    by_cases same : e.1 = k
    · obtain ⟨k', deed⟩ := e
      obtain rfl : k' = k := same
      cases deed with
      | opened i' =>
        have free : held k' = none := allowed
        rw [own] at free
        cases free
      | used =>
        obtain ⟨uses, goes⟩ := ih rest own
        refine ⟨uses + 1, ?_⟩
        rw [life_used, List.replicate_succ, holders_cons]
        rcases goes with closed | ⟨kept, still⟩
        · exact .inl (by rw [closed, List.cons_append])
        · exact .inr ⟨by rw [kept], still⟩
      | closed =>
        refine ⟨0, .inl ?_⟩
        rw [life_closed, rest.life_of_free (Function.update_self ..)]
        rfl
    · rw [life_other same, holders_cons]
      exact ih rest ((enter_other same).trans own)

/-- What is not closed stays with whom it is. -/
theorem Proper.holder_kept (proper : Proper held es) (own : held k = some i) (unclosed : (k, .closed) ∉ es) :
    holders held es k = some i := by
  obtain ⟨uses, closed | ⟨_, still⟩⟩ := proper.life_of_held own
  · refine absurd (mem_of_mem_life ?_) unclosed
    rw [closed]
    exact List.mem_append_right _ (List.mem_singleton_self _)
  · exact still

/-- Uses and a close at their end. -/
theorem closedOnce_of_life {uses : Nat} (closed : life k es = List.replicate uses .used ++ [.closed]) :
    ClosedOnce k es where
  once := by
    rw [closed, List.countP_append, List.countP_replicate]
    rfl
  unused front back split := by
    rw [closed] at split
    cases back using List.reverseRecOn with
    | nil => simp
    | append_singleton back deed =>
      -- Another close behind the first would be one of the uses.
      rw [← List.cons_append, ← List.append_assoc] at split
      have among : Deed.closed ∈ List.replicate uses (Deed.used (ι := ι)) := by
        rw [List.append_inj_left' split rfl]
        simp
      cases (List.mem_replicate.mp among).2

/-- **What is opened in a proper ledger** is closed exactly once, or still open
in the end. -/
theorem Proper.closedOnce_or_held (proper : Proper held (before ++ (k, .opened i) :: after)) :
    ClosedOnce k after ∨ holders held (before ++ (k, .opened i) :: after) k = some i := by
  obtain ⟨_, _, rest⟩ := proper_append.mp proper
  obtain ⟨uses, closed | ⟨_, still⟩⟩ := rest.life_of_held (Function.update_self ..)
  · exact .inl (closedOnce_of_life closed)
  · rw [holders_append, holders_cons]
    exact .inr still

/-- What somebody has in the end he had all the time, or it was opened for him
and not closed any more. -/
theorem opening_of_holder (still : holders held es k = some i) :
    held k = some i ∨ ∃ before after, es = before ++ (k, .opened i) :: after ∧ (k, .closed) ∉ after := by
  induction es using List.reverseRecOn generalizing i with
  | nil => exact .inl still
  | append_singleton es e ih =>
    rw [holders_append, holders_cons, holders_nil] at still
    have earlier : holders held es k = some i → e ≠ (k, .closed) → held k = some i ∨
        ∃ before after, es ++ [e] = before ++ (k, .opened i) :: after ∧ (k, .closed) ∉ after := by
      intro before_e not_closed
      rcases ih before_e with always | ⟨before, after, rfl, unclosed⟩
      · exact .inl always
      · refine .inr ⟨before, after ++ [e], by simp, ?_⟩
        rw [List.mem_append, List.mem_singleton, not_or]
        exact ⟨unclosed, fun same => not_closed same.symm⟩
    by_cases same : e.1 = k
    · obtain ⟨k', deed⟩ := e
      obtain rfl : k' = k := same
      cases deed with
      | opened i' =>
        rw [enter, Function.update_self] at still
        cases still
        exact .inr ⟨es, [], rfl, List.not_mem_nil⟩
      | used => exact earlier still (by simp)
      | closed =>
        rw [enter, Function.update_self] at still
        cases still
    · rw [enter_other same] at still
      refine earlier still ?_
      rintro rfl
      exact same rfl

/-- **Balance.** In a proper ledger that begins with nothing open, whatever was
opened has been closed exactly once, and not used after that, if and only if
nothing is open in the end. -/
theorem balanced_iff (proper : Proper nobody es) : Balanced es ↔ ∀ k, holders nobody es k = none := by
  constructor
  · intro balanced k
    by_contra open_end
    obtain ⟨i, still⟩ := Option.ne_none_iff_exists'.mp open_end
    rcases opening_of_holder still with impossible | ⟨before, after, split, unclosed⟩
    · cases impossible
    · have once := (balanced before k i after split).once
      have none_closed : (life k after).countP Deed.isClosed = 0 := by
        rw [List.countP_eq_zero]
        intro deed member closed
        cases deed with
        | closed => exact unclosed (mem_of_mem_life member)
        | _ => cases closed
      rw [none_closed] at once
      cases once
  · intro none_open before k i after split
    subst split
    rcases proper.closedOnce_or_held with closed | still
    · exact closed
    · rw [none_open k] at still
      cases still

/-! ## What is open, as a list

Where handles are given out by somebody else, all that can be asked of him is
that he gives out only what is not open (`FreshlyOpened`). That only what is
open is closed is then the business of whoever keeps the handles, and follows
if he keeps a list of them that tells the truth (`Tracks`). -/

/-- Nothing is opened that is open. -/
def Unheld (held : κ → Option ι) : κ × Deed ι → Prop
  | (k, .opened _) => held k = none
  | _ => True

/-- Only handles that nobody has are opened. -/
def FreshlyOpened : (κ → Option ι) → Ledger κ ι → Prop
  | _, [] => True
  | held, e :: es => Unheld held e ∧ FreshlyOpened (enter held e) es

/-- The entries for handles opened one after the other. -/
def openings (xs : List (κ × ι)) : Ledger κ ι := xs.map fun x => (x.1, .opened x.2)

/-- The entries for handles closed one after the other. -/
def closings (xs : List (κ × ι)) : Ledger κ ι := xs.map fun x => (x.1, .closed)

/-- The list names every open handle once, with its owner, and no other. -/
structure Tracks (held : κ → Option ι) (live : List (κ × ι)) : Prop where
  distinct : (live.map Prod.fst).Nodup
  held_iff : ∀ k i, held k = some i ↔ (k, i) ∈ live

section Tracking
variable {live left new gone : List (κ × ι)}

theorem freshlyOpened_append :
    FreshlyOpened held (es ++ fs) ↔ FreshlyOpened held es ∧ FreshlyOpened (holders held es) fs := by
  induction es generalizing held with
  | nil => simp [FreshlyOpened]
  | cons e es ih => rw [List.cons_append, FreshlyOpened, FreshlyOpened, ih, holders_cons, and_assoc]

omit [DecidableEq κ] in
theorem tracks_nobody : Tracks (nobody : κ → Option ι) [] where
  distinct := List.nodup_nil
  held_iff k i := iff_of_false (fun own => by cases own) List.not_mem_nil

omit [DecidableEq κ] in
/-- With an empty list nothing is open. -/
theorem Tracks.none_held (h : Tracks held []) (k : κ) : held k = none := by
  by_contra own
  obtain ⟨i, own⟩ := Option.ne_none_iff_exists'.mp own
  exact List.not_mem_nil ((h.held_iff k i).mp own)

/-- What is opened is listed last. -/
theorem Tracks.opened (h : Tracks held live) (free : held k = none) (i : ι) :
    Tracks (enter held (k, .opened i)) (live ++ [(k, i)]) := by
  have unlisted : ∀ j, (k, j) ∉ live := by
    intro j listed
    rw [(h.held_iff k j).mpr listed] at free
    cases free
  constructor
  · have absent : k ∉ live.map Prod.fst := by
      intro listed
      obtain ⟨⟨_, j⟩, there, rfl⟩ := List.mem_map.mp listed
      exact unlisted j there
    rw [List.map_append, List.map_singleton, ← List.concat_eq_append]
    exact h.distinct.concat absent
  · intro k' j
    rw [List.mem_append, List.mem_singleton, Prod.mk.injEq]
    by_cases same : k' = k
    · subst same
      simp [enter, unlisted, eq_comm]
    · rw [enter_other (fun back => same back.symm), h.held_iff]
      simp [same]

/-- What is listed first may be closed, and is open no longer. -/
theorem Tracks.closed (h : Tracks held ((k, i) :: live)) :
    held k ≠ none ∧ Tracks (enter held (k, .closed)) live := by
  obtain ⟨first, rest⟩ := List.nodup_cons.mp h.distinct
  have own : held k = some i := (h.held_iff k i).mpr List.mem_cons_self
  refine ⟨by simp [own], rest, ?_⟩
  intro k' j
  by_cases same : k' = k
  · subst same
    have unlisted : (k', j) ∉ live := fun there => first (List.mem_map.mpr ⟨_, there, rfl⟩)
    simp [enter, unlisted]
  · rw [enter_other (fun back => same back.symm), h.held_iff, List.mem_cons, Prod.mk.injEq]
    simp [same]

theorem Tracks.open_all (h : Tracks held live) (fresh : FreshlyOpened held (openings new)) :
    Proper held (openings new) ∧ Tracks (holders held (openings new)) (live ++ new) := by
  induction new generalizing held live with
  | nil => exact ⟨trivial, by simpa [openings] using h⟩
  | cons x new ih =>
    obtain ⟨free, later⟩ := fresh
    obtain ⟨proper, after⟩ := ih (h.opened free x.2) later
    rw [List.append_assoc] at after
    exact ⟨⟨free, proper⟩, after⟩

theorem Tracks.close_all (h : Tracks held (gone ++ left)) :
    Proper held (closings gone) ∧ Tracks (holders held (closings gone)) left := by
  induction gone generalizing held with
  | nil => exact ⟨trivial, h⟩
  | cons x gone ih =>
    obtain ⟨allowed, after⟩ := h.closed
    obtain ⟨proper, final⟩ := ih after
    exact ⟨⟨allowed, proper⟩, final⟩

/-- **The bookkeeper's rule.** Who appends what he opens and closes from the
front of his list closes only what is open, and his list stays true. -/
theorem Tracks.step (h : Tracks held live) (conserved : live ++ new = gone ++ left)
    (fresh : FreshlyOpened held (openings new ++ closings gone)) :
    Proper held (openings new ++ closings gone) ∧
      Tracks (holders held (openings new ++ closings gone)) left := by
  obtain ⟨opens, between⟩ := h.open_all (freshlyOpened_append.mp fresh).1
  rw [conserved] at between
  obtain ⟨closes, after⟩ := between.close_all
  rw [holders_append]
  exact ⟨proper_append.mpr ⟨opens, closes⟩, after⟩

end Tracking

end Tables

end NetCalc.Lib
