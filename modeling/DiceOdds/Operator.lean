import DiceOdds.Outcome

/-!
# Operators of the dice arithmetic

Sum, difference, product and comparison. Each has a symbol, a binding strength and a partial
action on outcomes, which is missing exactly where the result does not fit in 64 bits.

## Main definitions

* `Operator.symbol`, `Operator.ofSymbol?`: the written form and its reading.
* `Operator.precedence`: binding strength within one level of parentheses.
* `Operator.apply`: the action on outcomes.

## Main results

* `Operator.ofSymbol?_eq_some_iff`: reading a symbol undoes writing it.
-/

namespace DiceOdds

/-- A binary operator on outcomes. -/
inductive Operator where
  | add
  | sub
  | mul
  /-- One if the left side is strictly greater than the right side, otherwise zero. -/
  | greater
  deriving DecidableEq, Repr

namespace Operator

/-- All operators. -/
def all : List Operator := [add, sub, mul, greater]

/-- The English name of the operator, which is its spelling in JSON. -/
def name : Operator → String
  | add => "Add"
  | sub => "Sub"
  | mul => "Mul"
  | greater => "Greater"

/-- The character that stands for the operator in an expression. -/
def symbol : Operator → Char
  | add => '+'
  | sub => '-'
  | mul => '*'
  | greater => '>'

/-- The operator a character stands for. -/
def ofSymbol? : Char → Option Operator
  | '+' => some add
  | '-' => some sub
  | '*' => some mul
  | '>' => some greater
  | _ => none

theorem ofSymbol?_symbol (op : Operator) : ofSymbol? op.symbol = some op := by
  cases op <;> rfl

theorem ofSymbol?_eq_some_iff {c : Char} {op : Operator} :
    ofSymbol? c = some op ↔ c = op.symbol := by
  constructor
  · intro h
    unfold ofSymbol? at h
    split at h <;> cases h <;> rfl
  · rintro rfl
    exact op.ofSymbol?_symbol

/-- Binding strength within one level of parentheses; a higher operator binds tighter. -/
def precedence : Operator → Nat
  | mul => 5
  | add => 3
  | sub => 3
  | greater => 0

/-- The result on two outcomes, unless it does not fit in 64 bits. -/
def apply (op : Operator) (a b : Outcome) : Option Outcome :=
  match op with
  | add => Outcome.ofInt? (a.toInt + b.toInt)
  | sub => Outcome.ofInt? (a.toInt - b.toInt)
  | mul => Outcome.ofInt? (a.toInt * b.toInt)
  | greater => some (if a > b then 1 else 0)

end Operator

end DiceOdds
