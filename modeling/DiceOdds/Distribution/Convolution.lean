import DiceOdds.Distribution.Tally

/-!
# Combining distributions

The distribution of an operator applied to independent outcomes of two distributions. Every pair
of outcomes is combined; when several pairs give the same result their chances are summed, in the
increasing order of the left outcome and then of the right one. Outcomes of chance zero take no
part.

## Main definitions

* `Distribution.support`: the outcomes that can occur.
* `Distribution.combine`: the distribution of an operator.
-/

namespace DiceOdds

namespace Distribution

variable {α : Type} [Chance α]

/-- The listed outcomes whose chance is not zero, with their chances. -/
def support (p : Distribution α) : List (Outcome × α) :=
  p.entries.filter fun x => !(x.2 == Chance.zero)

/-- Adds the results of one left outcome and all right outcomes to a tally. -/
def addRow (op : Operator) (a : Outcome) (pa : α) :
    List (Outcome × α) → Tally α → Except EvalError (Tally α)
  | [], t => .ok t
  | (b, pb) :: right, t =>
    match op.apply a b with
    | none => .error (.overflow op a b)
    | some n =>
      match (Chance.mul? pa pb).bind (t.add? n) with
      | none => .error .chanceOutOfRange
      | some t => addRow op a pa right t

/-- Adds the results of all pairs of a left and a right outcome to a tally. -/
def addRows (op : Operator) (right : List (Outcome × α)) :
    List (Outcome × α) → Tally α → Except EvalError (Tally α)
  | [], t => .ok t
  | (a, pa) :: left, t =>
    match addRow op a pa right t with
    | .ok t => addRows op right left t
    | .error error => .error error

/-- The distribution of an operator applied to independent outcomes of two distributions. The
first pair whose result does not fit in 64 bits, or whose chance has no number, is reported. -/
def combine (op : Operator) (p q : Distribution α) : Except EvalError (Distribution α) :=
  match addRows op q.support p.support ∅ with
  | .ok t => .ok (.ofTally t)
  | .error error => .error error

end Distribution

end DiceOdds
