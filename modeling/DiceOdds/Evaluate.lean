import DiceOdds.Expr.Odds
import DiceOdds.Expr.Reader

/-!
# From a text to a distribution

Reads an expression and computes its distribution in one go.

## Main definitions

* `Failure`: what can go wrong on the way.
* `evaluate`: the distribution of the expression that a text stands for.
* `evaluateWithJournal`: the same with the remarks made on the way.
-/

namespace DiceOdds

/-- What can go wrong between a text and the distribution of its expression. -/
inductive Failure where
  | parse (error : ParseError)
  | eval (error : EvalError)
  deriving DecidableEq, Repr

/-- How a failure is told to the user. -/
def Failure.message : Failure → String
  | parse error => error.message
  | eval error => error.message

/-- The remark on a distribution. -/
def outcomeRemark (e : Expr) (p : Distribution Float) : Remark :=
  ⟨.debug, e.print ++ " has " ++ toString p.size ++ " outcomes"⟩

/-- The distribution of the expression that a text stands for, within limits, with the remarks
made on the way. -/
def evaluateWithJournal (strategy : Strategy) (limits : Limits) (s : String) :
    Except Failure (Distribution Float) × Journal :=
  match Expr.parse strategy limits s with
  | .error error => (.error (.parse error), strategy.journal limits s)
  | .ok e =>
    match e.distributionWithJournal limits with
    | (.error error, journal) => (.error (.eval error), strategy.journal limits s ++ journal)
    | (.ok p, journal) =>
      (.ok p, (strategy.journal limits s ++ journal).push (outcomeRemark e p))

/-- The distribution of the expression that a text stands for, within limits. -/
def evaluate (strategy : Strategy) (limits : Limits) (s : String) :
    Except Failure (Distribution Float) :=
  (evaluateWithJournal strategy limits s).1

end DiceOdds
