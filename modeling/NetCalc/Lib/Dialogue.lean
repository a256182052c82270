/-!
# Programs that ask

A `Client` is a program seen from outside: at each of its points it asks for
something, or is silent, and an answer takes it to another point. A `Server`
says what may be asked in a state, and which answers and states can follow.

`Ends` is total: a client that ends does so whatever the server answers, asks
nothing on the way that it must not, and leaves a state that meets the
condition. When something else serves its requests, and each time as the
server might have, `Ends.next` carries the fact on. `Keeps` is partial: it says
of a client that need not end what holds at each of its points.
-/

namespace NetCalc.Lib

set_option autoImplicit false

/-- A program: what it asks at a point, and where an answer takes it. -/
structure Client (P Q A : Type) where
  request : P → Option Q
  receive : P → A → P

/-- What may be asked, and how it is answered. -/
structure Server (Q A W : Type) where
  safe : W → Q → Prop
  serves : W → Q → A → W → Prop

section Dialogue
variable {P Q A W : Type} {C : Client P Q A} {V : Server Q A W} {post post' : P → W → Prop} {p : P} {w : W}
  {q : Q}

/-- From here the client ends, and where it does `post` holds. -/
inductive Ends (C : Client P Q A) (V : Server Q A W) (post : P → W → Prop) : P → W → Prop
  | done {p : P} {w : W} (silent : C.request p = none) (holds : post p w) : Ends C V post p w
  | step {p : P} {w : W} {q : Q} (asks : C.request p = some q) (safe : V.safe w q)
      (next : ∀ a w', V.serves w q a w' → Ends C V post (C.receive p a) w') : Ends C V post p w

/-- What it asks it may ask. -/
theorem Ends.safe (h : Ends C V post p w) (asks : C.request p = some q) : V.safe w q := by
  cases h with
  | done silent holds =>
    rw [silent] at asks
    cases asks
  | step asks' safe next =>
    rw [asks'] at asks
    cases asks
    exact safe

/-- **One exchange.** -/
theorem Ends.next (h : Ends C V post p w) (asks : C.request p = some q) {a : A} {w' : W}
    (served : V.serves w q a w') : Ends C V post (C.receive p a) w' := by
  cases h with
  | done silent holds =>
    rw [silent] at asks
    cases asks
  | step asks' safe next =>
    rw [asks'] at asks
    cases asks
    exact next a w' served

/-- A client that is silent has ended. -/
theorem Ends.holds (h : Ends C V post p w) (silent : C.request p = none) : post p w := by
  cases h with
  | done _ holds => exact holds
  | step asks safe next =>
    rw [silent] at asks
    cases asks

/-- A request that has one answer. -/
theorem Ends.answered (asks : C.request p = some q) (safe : V.safe w q) {a : A} {w' : W}
    (only : ∀ a' w'', V.serves w q a' w'' → a' = a ∧ w'' = w') (rest : Ends C V post (C.receive p a) w') :
    Ends C V post p w := by
  apply Ends.step asks safe
  intro a' w'' served
  obtain ⟨rfl, rfl⟩ := only a' w'' served
  exact rest

/-- A condition on the client's points that every exchange keeps, and under which
it asks only what it may. -/
structure Keeps (C : Client P Q A) (V : Server Q A W) (I : P → W → Prop) : Prop where
  safe : ∀ p w q, I p w → C.request p = some q → V.safe w q
  next : ∀ p w q a w', I p w → C.request p = some q → V.serves w q a w' → I (C.receive p a) w'

end Dialogue

end NetCalc.Lib
