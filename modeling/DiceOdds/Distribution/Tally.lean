import DiceOdds.Distribution.Basic
import Std.Data.TreeMap

/-!
# Tallies

A distribution is put together entry by entry in a tally, a search tree from outcomes to chances.
Adding to an outcome that is already there sums the chances, so nothing is lost when several
pairs of outcomes give the same result.

## Main definitions

* `Tally`: chances by outcome.
* `Tally.add?`: a further chance of an outcome.
* `Distribution.ofTally`: the distribution of a tally.
-/

namespace DiceOdds

/-- Chances by outcome, while a distribution is put together. -/
abbrev Tally (α : Type) := Std.TreeMap Outcome α

/-- Adds a chance to what an outcome has so far, if there is a number for the sum. -/
def Tally.add? {α : Type} [Chance α] (t : Tally α) (n : Outcome) (p : α) : Option (Tally α) :=
  match t[n]? with
  | some q => (Chance.add? q p).map (t.insert n)
  | none => some (t.insert n p)

/-- The distribution of a tally. -/
def Distribution.ofTally {α : Type} (t : Tally α) : Distribution α :=
  ⟨t.toList, Std.TreeMap.ordered_keys_toList.imp Std.compare_eq_lt.1⟩

end DiceOdds
