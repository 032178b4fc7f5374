import DiceOdds.Expr.Basic

/-!
# Tokens with priorities

A text without its parentheses: operands and operators alternate, and every operator carries a
priority. Each level of parentheses raises the priorities inside it by more than the binding
strengths of the operators differ, so an operator binds tighter than every operator outside its
parentheses.

## Main definitions

* `Token`: an operand, or an operator with its priority.
* `priority`: the priority of an operator at a depth of nesting.
-/

namespace DiceOdds

/-- A part of an expression without parentheses. -/
inductive Token where
  | operand (e : Expr)
  | operator (op : Operator) (priority : Nat)
  deriving DecidableEq, Repr

/-- How much each level of parentheses raises the priorities inside it. -/
def nestingStep : Nat := 10

/-- The priority of an operator inside a number of parentheses. -/
def priority (depth : Nat) (op : Operator) : Nat := depth * nestingStep + op.precedence

end DiceOdds
