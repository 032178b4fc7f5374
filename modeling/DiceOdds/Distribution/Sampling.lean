import DiceOdds.Distribution.Basic
import DiceOdds.Words

/-!
# Sampling from a distribution

The chances of a distribution, none of which may be negative, divide the numbers below their total
into one stretch for each outcome. A number is drawn, and the outcome in whose stretch it lies is
the sample.

## Main definitions

* `Weight`: chances that can be compared and drawn from.
* `SamplingError`: why a distribution cannot be sampled.
* `Sampler`: where the stretches of the outcomes end.
* `Distribution.sampler`: the sampler of a distribution.
* `Sampler.pick`, `Sampler.sample`: the outcome of a number, and of a random number.
-/

namespace DiceOdds

/-- Chances that can be compared and drawn from. -/
class Weight (α : Type) extends Chance α where
  /-- Whether one number is at most another. -/
  atMost : α → α → Bool
  isFinite : α → Bool
  /-- A number from zero to a total. It is below the total unless that is so small that the product
  with a fraction is rounded up to it. -/
  below : α → Draw α

namespace Weight

instance : Weight Float where
  atMost x y := x ≤ y
  isFinite x := x.isFinite
  below total := return (← Draw.fraction) * total + 0.0

instance : Weight Float32 where
  atMost x y := x ≤ y
  isFinite x := x.isFinite
  below total := return (← Draw.narrowFraction) * total + 0.0

instance : Weight Int64 where
  atMost x y := x ≤ y
  isFinite _ := true
  below total := return Int64.ofNat (← Draw.below total.toNatClampNeg)

end Weight

/-- Why a distribution cannot be sampled. -/
inductive SamplingError where
  | noOutcome
  /-- A chance is negative or cannot be compared with zero. -/
  | negativeChance
  | sumOutOfRange
  | zeroTotal
  | infiniteTotal
  deriving DecidableEq, Repr

/-- Where the stretches of the outcomes end; the last stretch ends at the total. -/
structure Sampler (α : Type) where
  ends : List (Outcome × α)
  last : Outcome
  total : α

namespace Sampler

variable {α : Type} [Weight α]

/-- Adds the stretches of further outcomes to those so far, which are listed the last one first and
lead to an outcome and the sum up to it. -/
def extend (ends : List (Outcome × α)) (last : Outcome) (sum : α) :
    List (Outcome × α) → Except SamplingError (Sampler α)
  | [] => .ok ⟨ends.reverse, last, sum⟩
  | (n, weight) :: entries =>
    if Weight.atMost Chance.zero weight then
      match Chance.add? sum weight with
      | some next => extend ((last, sum) :: ends) n next entries
      | none => .error .sumOutOfRange
    else .error .negativeChance

/-- A sampler whose total can be drawn from. -/
def checkTotal (s : Sampler α) : Except SamplingError (Sampler α) :=
  if s.total == Chance.zero then .error .zeroTotal
  else if Weight.isFinite s.total then .ok s
  else .error .infiniteTotal

/-- The first outcome whose stretch ends above a number. -/
def pickFrom (x : α) (last : Outcome) : List (Outcome × α) → Outcome
  | [] => last
  | (n, sum) :: ends => if Weight.atMost sum x then pickFrom x last ends else n

/-- The outcome in whose stretch a number lies. -/
def pick (s : Sampler α) (x : α) : Outcome := pickFrom x s.last s.ends

/-- A random outcome. -/
def sample (s : Sampler α) : Draw Outcome := return s.pick (← Weight.below s.total)

end Sampler

/-- The sampler of a distribution. -/
def Distribution.sampler {α : Type} [Weight α] (p : Distribution α) :
    Except SamplingError (Sampler α) :=
  match p.entries with
  | [] => .error .noOutcome
  | (n, weight) :: entries =>
    if Weight.atMost Chance.zero weight then
      (Sampler.extend [] n weight entries).bind Sampler.checkTotal
    else .error .negativeChance

end DiceOdds
