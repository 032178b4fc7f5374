/-!
# Limits on the work of one expression

Reading an expression and computing its distribution both stop with an error as soon as one of
these bounds is exceeded.

## Main definitions

* `Limits`: the five bounds, with the values used when nothing else is asked for.
* `Limits.unbounded`: every bound at the largest 64-bit count.
-/

namespace DiceOdds

/-- The largest count that fits in 64 bits. -/
def maxCount : Nat := 18446744073709551615

/-- Bounds on the work a single expression may cause. -/
structure Limits where
  /-- Deepest allowed nesting of parentheses. -/
  maxDepth : Nat := 64
  /-- Most dice in one pool. -/
  maxDice : Nat := 100
  /-- Most nodes in an expression that was read, counting every die of a pool. -/
  maxNodes : Nat := 10000
  /-- Most distinct outcomes of any node. -/
  maxOutcomes : Nat := 1000000
  /-- Most pairs of outcomes one operator may combine. -/
  maxPairs : Nat := 10000000
  deriving DecidableEq, Repr

namespace Limits

/-- Every bound at the largest count there is. -/
def unbounded : Limits := ⟨maxCount, maxCount, maxCount, maxCount, maxCount⟩

/-- A count as it is compared with a bound: one too large for 64 bits stays at the largest. -/
def saturate (n : Nat) : Nat := min n maxCount

theorem saturate_le (n : Nat) : saturate n ≤ maxCount := Nat.min_le_right n maxCount

end Limits

end DiceOdds
