import DiceOdds.Distribution.Basic

/-!
# Total, mean and variance

Sums over the entries of a distribution, in the increasing order of the outcomes. The mean and the
variance need the number of every outcome in the type of the chances. A sum stops at the first
outcome or result that the type has no number for.

## Main definitions

* `Distribution.total`: the sum of the chances.
* `Distribution.mean`: the mean outcome.
* `Distribution.variance`: the mean squared distance from the mean.

## Main results

* `Distribution.total_rat`, `Distribution.weightedSum_rat`: over exact fractions the sums always
  exist.
-/

namespace DiceOdds

namespace Distribution

variable {α : Type} [Chance α]

/-- A result of the arithmetic of the chances. -/
def inRange (x : Option α) : Except EvalError α :=
  match x with
  | some x => .ok x
  | none => .error .chanceOutOfRange

/-- The number of an outcome. -/
def numberOf (n : Outcome) : Except EvalError α :=
  match Chance.ofOutcome? n with
  | some x => .ok x
  | none => .error (.unrepresentable n)

/-- The sum of all chances. -/
def total (p : Distribution α) : Except EvalError α :=
  p.entries.foldlM (fun sum x => inRange (Chance.add? sum x.2)) Chance.zero

/-- The sum of a function of the outcomes, weighted by their chances. -/
def weightedSum (f : α → Option α) (p : Distribution α) : Except EvalError α :=
  p.entries.foldlM (fun sum x => do
    let n ← numberOf x.1
    inRange ((f n).bind fun y => (Chance.mul? y x.2).bind (Chance.add? sum))) Chance.zero

/-- The mean outcome. -/
def mean (p : Distribution α) : Except EvalError α := p.weightedSum some

/-- The mean squared distance of an outcome from the mean. -/
def variance (p : Distribution α) : Except EvalError α := do
  let mean ← p.mean
  p.weightedSum fun n => (Chance.sub? n mean).bind fun d => Chance.mul? d d

/-! ### Exact fractions -/

theorem total_rat (p : Distribution Rat) :
    p.total = .ok (p.entries.foldl (fun sum x => sum + x.2) 0) :=
  List.foldlM_pure

theorem weightedSum_rat (f : Rat → Rat) (p : Distribution Rat) :
    p.weightedSum (fun n => some (f n)) =
      .ok (p.entries.foldl (fun sum x => sum + f (x.1.toInt : Rat) * x.2) 0) :=
  List.foldlM_pure

end Distribution

end DiceOdds
