/-!
# The names every calculator shares

`utils.h` fixes the two status codes and the function-pointer types `job_f`
and `free_f` of the thread pool. A pointer that may be `NULL` is an `Option`;
what a task, a destructor or an argument is stays a parameter.
-/

namespace NetCalc

set_option autoImplicit false

/-- `ERROR` of `utils.h`. -/
def ERROR : Int := -1

/-- `SUCCESS` of `utils.h`. -/
def SUCCESS : Int := 0

/-- What a caller hands to the pool: a task (`job_f`), a destructor for its
argument (`free_f`) and the argument. -/
structure Job (τ δ α : Type) where
  task : Option τ
  delF : Option δ
  arg : Option α
  deriving DecidableEq, Repr

/-- `{ NULL, NULL, NULL }`. -/
def Job.null {τ δ α : Type} : Job τ δ α := ⟨none, none, none⟩

end NetCalc
