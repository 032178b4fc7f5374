import DiceOdds.EvalError
import DiceOdds.Expr.Walk

/-!
# Size and range of an expression

Two analyses that need no randomness: the number of nodes, and the least and greatest outcome.
The range of a sum, difference or product is spanned by the results at the four corners of the
ranges of its operands; the range of a comparison follows from which side can win.

## Main definitions

* `Expr.nodes`: the number of constants, dice and operators.
* `Range`, `Expr.range`: the least and the greatest outcome.

## Main results

* `Expr.nodes_binary`, `Expr.range_binary`: the two analyses node by node.
-/

namespace DiceOdds

/-! ### Number of nodes -/

/-- Counts one node at each leaf and at each operator. -/
def nodeCounter : Analysis Unit Empty Nat where
  constant _ := pure 1
  die _ := pure 1
  binary _ a b := pure (a + b + 1)

/-- The number of constants, dice and operators in an expression. -/
def Expr.nodes (e : Expr) : Nat := nodeCounter.value e

namespace Expr

theorem nodes_constant (n : Outcome) : (constant n).nodes = 1 :=
  Except.ok.inj (nodeCounter.result_eq_ok_value _ ▸ nodeCounter.result_constant n)

theorem nodes_die (faces : Outcome) : (die faces).nodes = 1 :=
  Except.ok.inj (nodeCounter.result_eq_ok_value _ ▸ nodeCounter.result_die faces)

theorem nodes_binary (op : Operator) (left right : Expr) :
    (binary op left right).nodes = left.nodes + right.nodes + 1 := by
  have h := nodeCounter.result_binary op left right
  simp only [Analysis.result_eq_ok_value] at h
  exact Except.ok.inj h

end Expr

/-! ### Least and greatest outcome -/

/-- The least and the greatest of some outcomes. -/
structure Range where
  low : Outcome
  high : Outcome
  deriving DecidableEq, Repr

namespace Range

/-- The range of a single outcome. -/
def single (n : Outcome) : Range := ⟨n, n⟩

/-- The least range that covers a range and one more outcome. -/
def insert (r : Range) (n : Outcome) : Range := ⟨min r.low n, max r.high n⟩

/-- The range spanned by the results at the four corners of two ranges. The first corner whose
result does not fit in 64 bits is reported. -/
def corners (op : Operator) (a b : Range) : Except EvalError Range := do
  let lowLow ← op.evaluate a.low b.low
  let lowHigh ← op.evaluate a.low b.high
  let highLow ← op.evaluate a.high b.low
  let highHigh ← op.evaluate a.high b.high
  return (((single lowLow).insert lowHigh).insert highLow).insert highHigh

/-- The range of a comparison: zero is possible unless the left side always wins, one is possible
unless it never does. -/
def comparison (a b : Range) : Range :=
  ⟨if a.low > b.high then 1 else 0, if a.high ≤ b.low then 0 else 1⟩

/-- The range of an operator, from the ranges of its operands. -/
def combine (op : Operator) (a b : Range) : Except EvalError Range :=
  match op with
  | .greater => .ok (comparison a b)
  | op => corners op a b

end Range

/-- The range of a die: from one to the number of its faces, of which there must be one. -/
def dieRange (faces : Outcome) : Except EvalError Range :=
  if faces ≤ 0 then .error (.noFaces faces) else .ok ⟨1, faces⟩

/-- Finds the range of each node. -/
def rangeFinder : Analysis Unit EvalError Range where
  constant n := pure (.single n)
  die faces := Analysis.lift (dieRange faces)
  binary op a b := Analysis.lift (Range.combine op a b)

/-- The least and the greatest outcome of an expression. -/
def Expr.range (e : Expr) : Except EvalError Range := rangeFinder.result e

namespace Expr

theorem range_constant (n : Outcome) : (constant n).range = .ok (.single n) :=
  rangeFinder.result_constant n

theorem range_die (faces : Outcome) : (die faces).range = dieRange faces :=
  rangeFinder.result_die faces

theorem range_binary (op : Operator) (left right : Expr) :
    (binary op left right).range =
      left.range.bind fun a => right.range.bind fun b => Range.combine op a b :=
  rangeFinder.result_binary op left right

end Expr

end DiceOdds
