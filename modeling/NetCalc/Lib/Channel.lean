/-!
# Messages over a channel that takes part of what it is given

A channel accepts some of the items it is handed, or fails. An `Attempt` is
the history of writing one message: pieces of it, one after the other, until
it is complete or a write fails. `Attempts` is the history of writing several
messages in turn by a writer that goes on after a failure.

Nothing is wrong with such a writer as long as the channel keeps failing: then
what arrived is at every moment a prefix of all the messages
(`Attempts.sent_prefix`). What breaks the order is a write that succeeds after
one that failed (`nothing_after_failure_iff`).
-/

namespace NetCalc.Lib

set_option autoImplicit false

/-- What happens on a channel. -/
inductive Event (α : Type) where
  | wrote (xs : List α)
  | failed
  | closed
  deriving DecidableEq, Repr

section Channel
variable {α : Type}

/-- The items an event puts on the channel. -/
def Event.sent : Event α → List α
  | .wrote xs => xs
  | _ => []

/-- A write that was refused. -/
def Event.isFailed : Event α → Bool
  | .failed => true
  | _ => false

/-- Everything that arrived. -/
def sent (log : List (Event α)) : List α := log.flatMap Event.sent

@[simp] theorem sent_nil : sent ([] : List (Event α)) = [] := rfl

@[simp] theorem sent_cons (e : Event α) (log : List (Event α)) : sent (e :: log) = e.sent ++ sent log := rfl

@[simp] theorem sent_append (log more : List (Event α)) : sent (log ++ more) = sent log ++ sent more :=
  List.flatMap_append

/-- The history of writing one message. -/
inductive Attempt : List α → List (Event α) → Prop where
  | done : Attempt [] []
  | failed {item : List α} (left : item ≠ []) : Attempt item [.failed]
  | wrote {xs rest : List α} {log : List (Event α)} (some_sent : xs ≠ []) (more : Attempt rest log) :
      Attempt (xs ++ rest) (.wrote xs :: log)

/-- The history of writing several messages in turn. -/
inductive Attempts : List (List α) → List (Event α) → Prop where
  | nil : Attempts [] []
  | cons {item : List α} {items : List (List α)} {log more : List (Event α)} (first : Attempt item log)
      (others : Attempts items more) : Attempts (item :: items) (log ++ more)

/-- No write succeeds after one that failed. -/
def Halting (log : List (Event α)) : Prop :=
  log.Pairwise fun a b => a.isFailed = true → b.isFailed = true

/-! ## One message -/

theorem Attempt.sent_prefix {item : List α} {log : List (Event α)} (h : Attempt item log) :
    sent log <+: item := by
  induction h with
  | done => exact List.prefix_rfl
  | failed => exact List.nil_prefix
  | wrote _ _ ih => exact (List.prefix_append_right_inj _).mpr ih

/-- Without a failure the message is complete. -/
theorem Attempt.complete {item : List α} {log : List (Event α)} (h : Attempt item log)
    (fine : ∀ e ∈ log, e.isFailed = false) : sent log = item := by
  induction h with
  | done => rfl
  | failed => cases fine .failed List.mem_cons_self
  | wrote _ _ ih =>
    rw [sent_cons, ih fun e member => fine e (List.mem_cons_of_mem _ member)]
    rfl

/-- With one it is not. -/
theorem Attempt.complete_iff {item : List α} {log : List (Event α)} (h : Attempt item log) :
    sent log = item ↔ ∀ e ∈ log, e.isFailed = false := by
  refine ⟨fun whole => ?_, h.complete⟩
  induction h with
  | done => exact fun e member => absurd member List.not_mem_nil
  | failed left => exact absurd whole.symm left
  | wrote _ _ ih =>
    intro e member
    rw [sent_cons] at whole
    rcases List.mem_cons.mp member with rfl | later
    · rfl
    · exact ih (List.append_cancel_left whole) e later

/-- Every event is a piece of the message or a failure. -/
theorem Attempt.event {item : List α} {log : List (Event α)} (h : Attempt item log) {e : Event α}
    (member : e ∈ log) : e = .failed ∨ ∃ xs, e = .wrote xs ∧ xs ≠ [] := by
  induction h with
  | done => cases member
  | failed => exact .inl (List.mem_singleton.mp member)
  | wrote some_sent _ ih =>
    rcases List.mem_cons.mp member with rfl | later
    · exact .inr ⟨_, rfl, some_sent⟩
    · exact ih later

/-! ## Several messages -/

theorem Attempts.append {items others : List (List α)} {log more : List (Event α)} (h : Attempts items log)
    (k : Attempts others more) : Attempts (items ++ others) (log ++ more) := by
  induction h with
  | nil => exact k
  | cons first _ ih =>
    rw [List.append_assoc]
    exact .cons first ih

theorem Attempts.single {item : List α} {log : List (Event α)} (h : Attempt item log) :
    Attempts [item] log := by
  have both := Attempts.cons h .nil
  rwa [List.append_nil] at both

/-- Every event is a piece of a message or a failure. -/
theorem Attempts.event {items : List (List α)} {log : List (Event α)} (h : Attempts items log) {e : Event α}
    (member : e ∈ log) : e = .failed ∨ ∃ xs, e = .wrote xs ∧ xs ≠ [] := by
  induction h with
  | nil => cases member
  | cons first _ ih =>
    rcases List.mem_append.mp member with here | later
    · exact first.event here
    · exact ih later

/-- Without a failure all messages are complete. -/
theorem Attempts.complete {items : List (List α)} {log : List (Event α)} (h : Attempts items log)
    (fine : ∀ e ∈ log, e.isFailed = false) : sent log = items.flatten := by
  induction h with
  | nil => rfl
  | cons first _ ih =>
    rw [sent_append, List.flatten_cons, first.complete fun e member => fine e (List.mem_append_left _ member),
      ih fun e member => fine e (List.mem_append_right _ member)]

/-- A history of failures sends nothing. -/
theorem sent_of_all_failed {log : List (Event α)} (failing : ∀ e ∈ log, e.isFailed = true) : sent log = [] := by
  induction log with
  | nil => rfl
  | cons e log ih =>
    have here := failing e List.mem_cons_self
    cases e with
    | failed => exact ih fun e member => failing e (List.mem_cons_of_mem _ member)
    | _ => cases here

/-- On a channel that stays failed, a prefix of the messages arrives. -/
theorem Attempts.sent_prefix {items : List (List α)} {log : List (Event α)} (h : Attempts items log)
    (halting : Halting log) : sent log <+: items.flatten := by
  induction h with
  | nil => exact List.prefix_rfl
  | @cons item items log more first others ih =>
    obtain ⟨_, later, across⟩ := List.pairwise_append.mp halting
    rw [sent_append, List.flatten_cons]
    by_cases fine : ∀ e ∈ log, e.isFailed = false
    · rw [first.complete fine]
      exact (List.prefix_append_right_inj _).mpr (ih later)
    · obtain ⟨e, member, failed⟩ : ∃ e, e ∈ log ∧ e.isFailed = true := by simpa using fine
      have failing : ∀ e' ∈ more, e'.isFailed = true :=
        fun e' member' => across e member e' member' failed
      rw [sent_of_all_failed failing, List.append_nil]
      exact first.sent_prefix.trans (List.prefix_append ..)

/-- Nothing arrives after a failure exactly when no write succeeds after one. -/
theorem nothing_after_failure_iff {log : List (Event α)}
    (events : ∀ e ∈ log, e = .failed ∨ ∃ xs, e = .wrote xs ∧ xs ≠ []) :
    (∀ pre post, log = pre ++ .failed :: post → sent post = []) ↔ Halting log := by
  constructor
  · intro silent
    induction log with
    | nil => exact .nil
    | cons e log ih =>
      refine List.pairwise_cons.mpr ⟨?_, ?_⟩
      · intro e' member failed
        rcases events e' (List.mem_cons_of_mem _ member) with rfl | ⟨xs, rfl, some_sent⟩
        · rfl
        · rcases events e List.mem_cons_self with rfl | ⟨_, rfl, _⟩
          · have nothing := silent [] log rfl
            obtain ⟨front, back, rfl⟩ := List.append_of_mem member
            simp [Event.sent, some_sent] at nothing
          · cases failed
      · apply ih fun e' member => events e' (List.mem_cons_of_mem _ member)
        rintro pre post rfl
        exact silent (e :: pre) post rfl
  · rintro halting pre post rfl
    obtain ⟨_, later, _⟩ := List.pairwise_append.mp halting
    exact sent_of_all_failed fun e member => (List.pairwise_cons.mp later).1 e member rfl

/-- Closing the channel afterwards changes nothing about that. -/
theorem nothing_after_failure_closed {log : List (Event α)} :
    (∀ pre post, log ++ [.closed] = pre ++ .failed :: post → sent post = []) ↔
      ∀ pre post, log = pre ++ .failed :: post → sent post = [] := by
  constructor
  · rintro silent pre post rfl
    have nothing := silent pre (post ++ [.closed]) (by simp)
    rw [sent_append, List.append_eq_nil_iff] at nothing
    exact nothing.1
  · intro silent pre post same
    rcases List.eq_nil_or_concat post with rfl | ⟨front, last, rfl⟩
    · rfl
    · rw [List.concat_eq_append] at same ⊢
      rw [← List.cons_append, ← List.append_assoc] at same
      obtain ⟨rfl, closes⟩ := List.append_inj' same rfl
      cases closes
      rw [sent_append, silent pre front rfl]
      rfl

/-- What has arrived at an earlier moment. -/
theorem sent_prefix {pre log : List (Event α)} (earlier : pre <+: log) : sent pre <+: sent log := by
  obtain ⟨post, rfl⟩ := earlier
  rw [sent_append]
  exact List.prefix_append ..

end Channel

end NetCalc.Lib
