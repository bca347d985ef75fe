import Mathlib.Tactic.Basic

/-!
# Outcomes of fallible calls

A call returns a value, returns an error, or panics. Panics are kept apart from
errors so that "rejects its input" and "aborts the process" stay different
statements.
-/

namespace PqcUtils

universe u v w

/-- What a call does. A `panic` cannot be caught by the caller. -/
inductive Outcome (Error : Type u) (Value : Type v) where
  | ok (value : Value)
  | err (error : Error)
  | panic
  deriving DecidableEq, Repr

namespace Outcome

variable {Error : Type u} {Value Next : Type v}

def andThen (outcome : Outcome Error Value) (next : Value → Outcome Error Next) :
    Outcome Error Next :=
  match outcome with
  | .ok value => next value
  | .err error => .err error
  | .panic => .panic

instance : Monad (Outcome Error : Type v → Type (max u v)) where
  pure := .ok
  bind := andThen

@[simp] theorem ok_bind (value : Value) (next : Value → Outcome Error Next) :
    ((Outcome.ok value : Outcome Error Value) >>= next) = next value := rfl

@[simp] theorem err_bind (error : Error) (next : Value → Outcome Error Next) :
    ((Outcome.err error : Outcome Error Value) >>= next) = .err error := rfl

@[simp] theorem panic_bind (next : Value → Outcome Error Next) :
    ((Outcome.panic : Outcome Error Value) >>= next) = .panic := rfl

@[simp] theorem pure_eq_ok (value : Value) :
    (pure value : Outcome Error Value) = .ok value := rfl

theorem bind_eq_ok_iff {outcome : Outcome Error Value} {next : Value → Outcome Error Next}
    {result : Next} :
    (outcome >>= next) = .ok result ↔ ∃ value, outcome = .ok value ∧ next value = .ok result := by
  cases outcome <;> simp

theorem bind_eq_panic_iff {outcome : Outcome Error Value} {next : Value → Outcome Error Next} :
    (outcome >>= next) = .panic ↔
      outcome = .panic ∨ ∃ value, outcome = .ok value ∧ next value = .panic := by
  cases outcome <;> simp

/-- `ok_or`: the missing value is an error. -/
def ofOption (error : Error) : Option Value → Outcome Error Value
  | some value => .ok value
  | none => .err error

@[simp] theorem ofOption_some (error : Error) (value : Value) :
    ofOption error (some value) = .ok value := rfl

@[simp] theorem ofOption_none (error : Error) :
    ofOption error (none : Option Value) = .err error := rfl

theorem ofOption_eq_ok_iff {error : Error} {option : Option Value} {value : Value} :
    ofOption error option = .ok value ↔ option = some value := by
  cases option <;> simp

theorem ofOption_ne_panic (error : Error) (option : Option Value) :
    ofOption error option ≠ .panic := by
  cases option <;> simp

/-- An early `return Err(error)` guarded by a condition. -/
def rejectIf (condition : Prop) [Decidable condition] (error : Error) : Outcome Error PUnit :=
  if condition then .err error else .ok ⟨⟩

theorem rejectIf_of {condition : Prop} [Decidable condition] (holds : condition) (error : Error) :
    rejectIf condition error = .err error := if_pos holds

theorem rejectIf_of_not {condition : Prop} [Decidable condition] (fails : ¬condition)
    (error : Error) : rejectIf condition error = .ok ⟨⟩ := if_neg fails

theorem rejectIf_ne_panic (condition : Prop) [Decidable condition] (error : Error) :
    rejectIf condition error ≠ .panic := by
  by_cases holds : condition <;> simp [rejectIf, holds]

theorem rejectIf_eq_ok_iff {condition : Prop} [Decidable condition] {error : Error}
    {value : PUnit} : rejectIf condition error = .ok value ↔ ¬condition := by
  by_cases holds : condition <;> simp [rejectIf, holds]

theorem rejectIf_bind_cases {condition : Prop} [Decidable condition] {error : Error}
    {next : PUnit → Outcome Error Next} {result : Outcome Error Next}
    (outcome : (rejectIf condition error >>= next) = result) :
    condition ∧ result = .err error ∨ ¬condition ∧ next ⟨⟩ = result := by
  by_cases holds : condition
  · rw [rejectIf_of holds, err_bind] at outcome
    exact .inl ⟨holds, outcome.symm⟩
  · rw [rejectIf_of_not holds, ok_bind] at outcome
    exact .inr ⟨holds, outcome⟩

theorem rejectIf_bind_eq_ok_iff {condition : Prop} [Decidable condition] {error : Error}
    {next : PUnit → Outcome Error Next} {result : Next} :
    (rejectIf condition error >>= next) = .ok result ↔ ¬condition ∧ next ⟨⟩ = .ok result := by
  by_cases holds : condition <;> simp [rejectIf, holds]

theorem rejectIf_bind_eq_panic_iff {condition : Prop} [Decidable condition] {error : Error}
    {next : PUnit → Outcome Error Next} :
    (rejectIf condition error >>= next) = .panic ↔ ¬condition ∧ next ⟨⟩ = .panic := by
  by_cases holds : condition <;> simp [rejectIf, holds]

end Outcome

end PqcUtils
