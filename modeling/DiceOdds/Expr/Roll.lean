import DiceOdds.EvalError
import DiceOdds.Expr.Walk
import DiceOdds.Words

/-!
# Rolling dice

A roll gives every die of an expression a number and works the expression out. The dice are rolled
from left to right, and rolling stops at the first failure.

## Main definitions

* `Expr.roll`: one outcome of an expression.
-/

namespace DiceOdds

/-- A roll of a die, which must have a face. -/
def rollDie (faces : Outcome) : ExceptT EvalError (StateM Words) Outcome := fun words =>
  if faces ≤ 0 then (.error (.noFaces faces), words)
  else
    let (n, words) := Draw.oneTo faces words
    (.ok n, words)

/-- Rolls every die and works out every operator. -/
def roller : Analysis Words EvalError Outcome where
  constant n := pure n
  die faces := rollDie faces
  binary op a b := Analysis.lift (op.evaluate a b)

/-- One outcome of an expression, or the first failure. -/
def Expr.roll (e : Expr) : Draw (Except EvalError Outcome) := roller.walk e

end DiceOdds
