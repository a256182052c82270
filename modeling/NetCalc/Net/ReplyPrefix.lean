import NetCalc.Net.Answers

/-!
# Is what arrives a prefix of the reply?

The writers of the two headers drop the result of `safe_write`, and the loop
compares it with `0`, which `safe_write` never returns for a record. So nothing
stops after a message that could not be written: the next one is attempted. A
reply without a hole is therefore one whose `write` calls fail to the end once
one of them has failed (`reply_without_hole_iff`).
-/

namespace NetCalc.Net

set_option autoImplicit false
open NetCalc.Lib

/-- The same environment, with every `write` taking all it is given. -/
def writingAll (env : Env) : Env := { env with writes := fun _ => .all }

/-- The results of the `write` calls made between two states of a connection. -/
def writeResults (env : Env) (w w' : World) : List WriteAct :=
  (List.range' w.output.nwrite (w'.output.nwrite - w.output.nwrite)).map env.writes

/-- Every call after one that failed fails too. -/
def KeepFailing (results : List WriteAct) : Prop :=
  results.Pairwise fun a b => a.isFail = true → b.isFail = true

/-- At every moment a prefix of the whole reply has arrived, and nothing
arrives after a failure. -/
def WithoutHole (log : List (Event Byte)) (whole : List Byte) : Prop :=
  (∀ pre, pre <+: log → sent pre <+: whole) ∧
    ∀ pre post, log = pre ++ .failed :: post → sent post = []

/-- The history of messages is halting when the results of its calls are. -/
theorem halting_iff {env : Env} {w w' : World} {log : List (Event Byte)}
    (calls : w'.output.nwrite = w.output.nwrite + log.length)
    (results : log.map Event.isFailed =
      (List.range' w.output.nwrite log.length).map fun k => (env.writes k).isFail) :
    Halting log ↔ KeepFailing (writeResults env w w') := by
  have same : (writeResults env w w').map WriteAct.isFail = log.map Event.isFailed := by
    rw [results, writeResults, calls, Nat.add_sub_cancel_left, List.map_map]
    rfl
  have either : ∀ {α : Type} (f : α → Bool) (xs : List α),
      (xs.Pairwise fun a b => f a = true → f b = true) ↔
        (xs.map f).Pairwise fun a b => a = true → b = true := by
    intro α f xs
    rw [List.pairwise_map]
  rw [Halting, KeepFailing, either Event.isFailed, either WriteAct.isFail, same]

/-- Attempts at messages leave no hole exactly when they halt. -/
theorem withoutHole_iff {items : List (List Byte)} {log : List (Event Byte)} (h : Attempts items log)
    (closes : Bool) : WithoutHole (log ++ if closes then [.closed] else []) items.flatten ↔ Halting log := by
  have silent_iff : (∀ pre post, log ++ (if closes then [.closed] else []) = pre ++ .failed :: post →
      sent post = []) ↔ Halting log := by
    rw [← nothing_after_failure_iff fun e member => h.event member]
    cases closes with
    | true => exact nothing_after_failure_closed
    | false => simp
  constructor
  · rintro ⟨_, silent⟩
    exact silent_iff.mp silent
  · intro halting
    refine ⟨fun pre earlier => ?_, silent_iff.mpr halting⟩
    have arrived : sent (log ++ if closes then [Event.closed] else []) = sent log := by
      cases closes <;> simp [Event.sent]
    have front := sent_prefix earlier
    rw [arrived] at front
    exact front.trans (h.sent_prefix halting)

/-- **No hole in the reply, exactly when failures last.** Whatever a connection
receives and however its writes go: at every moment a prefix of the reply that
would be sent if no write failed has arrived, and nothing arrives after a
failure, if and only if no `write` call succeeds after one that failed. -/
theorem reply_without_hole_iff (env : Env) (w w' : World) (served : handleNewConnection env w = some w') :
    ∃ w₀ log whole, handleNewConnection (writingAll env) w = some w₀ ∧
      w'.output.log = w.output.log ++ log ∧ w₀.output.log = w.output.log ++ whole ∧
      (WithoutHole log (sent whole) ↔ KeepFailing (writeResults env w w')) := by
  obtain ⟨items, closes, log, replied, serves⟩ := handleNewConnection_served served
  have ideal : reply (writingAll env).toInputs w.input = some (items, closes) := replied
  obtain ⟨w₀, whole, served₀, serves₀⟩ := handleNewConnection_replied ideal
  refine ⟨w₀, _, _, served₀, serves.log_eq, serves₀.log_eq, ?_⟩
  have arrived : sent (whole ++ if closes then [Event.closed] else []) = items.flatten := by
    rw [sent_append, serves₀.attempts.complete (no_failure serves₀.results fun _ => WriteAct.noConfusion)]
    cases closes <;> simp [Event.sent]
  rw [arrived, withoutHole_iff serves.attempts, halting_iff serves.calls serves.results]

/-- A socket that stays broken keeps failing. -/
theorem keepFailing_of_broken {env : Env} (w w' : World)
    (broken : ∀ j k, j < k → (env.writes j).isFail = true → (env.writes k).isFail = true) :
    KeepFailing (writeResults env w w') :=
  List.pairwise_map.mpr ((List.pairwise_lt_range' ..).imp fun later => broken _ _ later)

/-- An accepted request for two sums, with a name of one letter. -/
def twoSums : List Byte :=
  NetHeader.toBytes ⟨ntohl 48, ntohl 1, 0, strncpy [97] MAX_FILENAME_LEN⟩ ++ unsolvedHeader 2 ++
    equationRecords [⟨7, 0, 10, 1, 20⟩, ⟨9, 0, 3, 1, 4⟩]

/-- A peer that goes away before the first record. -/
theorem reply_without_hole_broken :
    ∃ w' w₀, handleNewConnection { Env.calm with writes := fun k => if 2 ≤ k then .fail else .all }
        (World.start twoSums) = some w' ∧
      handleNewConnection Env.calm (World.start twoSums) = some w₀ ∧
      WithoutHole w'.output.log (sent w₀.output.log) := by
  have served : (handleNewConnection { Env.calm with writes := fun k => if 2 ≤ k then .fail else .all }
      (World.start twoSums)).isSome := by
    decide +kernel
  obtain ⟨w', found⟩ := Option.isSome_iff_exists.mp served
  obtain ⟨w₀, log, whole, found₀, log_eq, whole_eq, without_iff⟩ := reply_without_hole_iff _ _ w' found
  refine ⟨w', w₀, found, found₀, ?_⟩
  rw [log_eq, whole_eq]
  apply without_iff.mpr
  apply keepFailing_of_broken
  intro j k later failed
  have from_two : 2 ≤ j := by
    by_contra early
    simp [early, WriteAct.isFail] at failed
  simp [show 2 ≤ k by omega, WriteAct.isFail]

/-- A single failure, at the first of two records: the second is sent. -/
theorem record_missing_in_the_middle :
    ∃ w' w₀, handleNewConnection { Env.calm with writes := fun k => if k = 2 then .fail else .all }
        (World.start twoSums) = some w' ∧
      handleNewConnection Env.calm (World.start twoSums) = some w₀ ∧
      ¬ WithoutHole w'.output.log (sent w₀.output.log) := by
  have served₀ : (handleNewConnection Env.calm (World.start twoSums)).isSome := by decide +kernel
  have hole : (handleNewConnection { Env.calm with writes := fun k => if k = 2 then .fail else .all }
      (World.start twoSums)).any fun w' =>
        w'.output.log = w'.output.log.take 2 ++ .failed :: w'.output.log.drop 3 ∧
          sent (w'.output.log.drop 3) ≠ [] := by
    decide +kernel
  obtain ⟨w₀, found₀⟩ := Option.isSome_iff_exists.mp served₀
  obtain ⟨w', found, here⟩ := (Option.any_eq_true ..).mp hole
  obtain ⟨split_here, later⟩ := of_decide_eq_true here
  refine ⟨w', w₀, found, found₀, ?_⟩
  rintro ⟨_, silent⟩
  exact later (silent _ _ split_here)

end NetCalc.Net
