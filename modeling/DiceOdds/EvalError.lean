import DiceOdds.Operator

/-!
# Why an expression has no distribution

The causes for which a roll, the bounds or the distribution of an expression do not exist, or
exceed the limits on the work to compute them.

## Main definitions

* `EvalError`: the causes.
* `EvalError.message`: how a cause is told to the user.
* `Operator.evaluate`: the action of an operator with its failure as a cause.

## Main results

* `bind_eq_ok_iff`, `bind_eq_error_iff`: how one step after another succeeds and fails.
-/

namespace DiceOdds

/-- Why a value, the bounds or the distribution of an expression could not be computed. -/
inductive EvalError where
  | noFaces (faces : Outcome)
  | overflow (op : Operator) (left right : Outcome)
  | tooManyOutcomes (outcomes limit : Nat)
  | tooManyPairs (op : Operator) (pairs limit : Nat)
  /-- The type of the chances has no value for the given number. -/
  | unrepresentable (value : Outcome)
  /-- The type of the chances has no value for a result of its arithmetic. -/
  | chanceOutOfRange
  deriving DecidableEq, Repr

/-- How a cause is told to the user. -/
def EvalError.message : EvalError → String
  | noFaces faces => s!"a die needs at least one face, not {faces}"
  | overflow op left right => s!"{left} {op.symbol} {right} does not fit in 64 bits"
  | tooManyOutcomes outcomes limit =>
    s!"{outcomes} distinct outcomes exceed the limit of {limit}"
  | tooManyPairs op pairs limit =>
    s!"'{op.symbol}' would combine {pairs} pairs of outcomes, more than the limit of {limit}"
  | unrepresentable value => s!"{value} can't be represented by the probability type"
  | chanceOutOfRange => "a chance is out of the range of the probability type"

/-- The result of an operator on two outcomes; a result that does not fit is the cause
`overflow`, which names the operator and both outcomes. -/
def Operator.evaluate (op : Operator) (a b : Outcome) : Except EvalError Outcome :=
  match op.apply a b with
  | some n => .ok n
  | none => .error (.overflow op a b)

theorem Operator.evaluate_eq_ok_iff {op : Operator} {a b n : Outcome} :
    op.evaluate a b = .ok n ↔ op.apply a b = some n := by
  cases h : op.apply a b <;> simp [evaluate, h]

theorem Operator.evaluate_eq_error_iff {op : Operator} {a b : Outcome} {x : EvalError} :
    op.evaluate a b = .error x ↔ op.apply a b = none ∧ x = .overflow op a b := by
  cases h : op.apply a b <;> simp [evaluate, h, eq_comm]

/-! ### One step after another -/

section

variable {ε α β : Type} {m : Except ε α} {f : α → Except ε β}

theorem bind_eq_ok_iff {b : β} : m.bind f = .ok b ↔ ∃ a, m = .ok a ∧ f a = .ok b := by
  cases m <;> simp [Except.bind]

theorem bind_eq_error_iff {x : ε} :
    m.bind f = .error x ↔ m = .error x ∨ ∃ a, m = .ok a ∧ f a = .error x := by
  cases m <;> simp [Except.bind]

end

end DiceOdds
