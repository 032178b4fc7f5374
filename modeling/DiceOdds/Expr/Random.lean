import DiceOdds.Expr.Basic
import DiceOdds.Words

/-!
# Random expressions

Expressions of a bounded height with small numbers, for trying things out.

## Main definitions

* `Draw.leaf`, `Draw.operator`: a random leaf and a random operator.
* `Expr.random?`: a random expression.
-/

namespace DiceOdds

namespace Draw

/-- A die or a constant with a number from one to a bound. -/
def leaf (bound : Outcome) : Draw Expr := do
  let n ← oneTo bound
  return if ← trueOnceIn 2 then .die n else .constant n

/-- An operator, chosen by the two upper bits of half a word. -/
def operator : Draw Operator :=
  return Operator.all.getD ((← halfWord) >>> 30).toNat .add

/-- An expression with at most the given number of operators on every path from the root. Three
times in four it is an operator, as long as the height allows it. -/
def expr (bound : Outcome) : Nat → Draw Expr
  | 0 => leaf bound
  | height + 1 => do
    if ← trueOnceIn 4 then leaf bound
    else
      let op ← operator
      let left ← expr bound height
      let right ← expr bound height
      return .binary op left right

end Draw

/-- A random expression with at most the given number of operators on every path from the root and
with numbers from one to the bound, which must be positive. -/
def Expr.random? (height : Nat) (bound : Outcome) : Draw (Option Expr) :=
  if bound < 1 then return none else some <$> Draw.expr bound height

end DiceOdds
