import DiceOdds.Outcome

/-!
# Chances

The number types a distribution can measure its outcomes in: binary floating point in two widths,
exact fractions, fractions whose whole numbers have 32 bits, and whole numbers of 64 bits. A type
need not have a number for every outcome or for every result of its arithmetic, and its division
may lose the remainder.

## Main definitions

* `Chance`: the arithmetic a type of chances has.
* `NarrowRat`: fractions whose whole numbers have 32 bits.

## Main results

* `Chance.mul?_rat`, `Chance.div?_rat`: products of exact fractions are never missing, and quotients
  only where the divisor is zero.
-/

namespace DiceOdds

/-- The arithmetic of a type of chances. A result that the type has no number for is missing. -/
class Chance (α : Type) extends BEq α where
  zero : α
  one : α
  /-- The number of the type that equals an outcome, or comes nearest to it. -/
  ofOutcome? : Outcome → Option α
  add? : α → α → Option α
  sub? : α → α → Option α
  mul? : α → α → Option α
  div? : α → α → Option α

namespace Chance

instance : Chance Float where
  zero := 0.0
  one := 1.0
  ofOutcome? n := some n.toFloat
  add? x y := some (x + y)
  sub? x y := some (x - y)
  mul? x y := some (x * y)
  div? x y := some (x / y)

instance : Chance Float32 where
  zero := 0.0
  one := 1.0
  ofOutcome? n := some n.toFloat32
  add? x y := some (x + y)
  sub? x y := some (x - y)
  mul? x y := some (x * y)
  div? x y := some (x / y)

/-! ### Exact fractions -/

instance : Chance Rat where
  zero := 0
  one := 1
  ofOutcome? n := some n.toInt
  add? x y := some (x + y)
  sub? x y := some (x - y)
  mul? x y := some (x * y)
  div? x y := if y = 0 then none else some (x / y)

theorem mul?_rat (x y : Rat) : mul? x y = some (x * y) := rfl

theorem div?_rat {x y : Rat} (h : y ≠ 0) : div? x y = some (x / y) := if_neg h

/-! ### Whole numbers -/

instance : Chance Int64 where
  zero := 0
  one := 1
  ofOutcome? n := some n
  add? x y := Outcome.ofInt? (x.toInt + y.toInt)
  sub? x y := Outcome.ofInt? (x.toInt - y.toInt)
  mul? x y := Outcome.ofInt? (x.toInt * y.toInt)
  div? x y := if y = 0 then none else Outcome.ofInt? (x.toInt.tdiv y.toInt)

end Chance

/-! ### Fractions of narrow numbers -/

/-- Whether a whole number fits in 32 bits. -/
def IsNarrow (n : Int) : Prop := -2147483648 ≤ n ∧ n ≤ 2147483647

instance (n : Int) : Decidable (IsNarrow n) := inferInstanceAs (Decidable (_ ∧ _))

/-- Fractions that in lowest terms have a numerator and a denominator of 32 bits. -/
structure NarrowRat where
  value : Rat
  num_narrow : IsNarrow value.num
  den_narrow : IsNarrow value.den
  deriving DecidableEq, Repr

namespace NarrowRat

/-- The narrow fraction equal to a fraction, when there is one. -/
def ofRat? (x : Rat) : Option NarrowRat :=
  if h : IsNarrow x.num ∧ IsNarrow x.den then some ⟨x, h.1, h.2⟩ else none

/-- A sum or a difference. Both numerators are brought to the least common denominator first, and
neither that nor the numerators on it may need more than 32 bits. -/
def onCommonDenominator (f : Int → Int → Int) (x y : NarrowRat) : Option NarrowRat :=
  let d := Nat.lcm x.value.den y.value.den
  let a := x.value.num * ((d / x.value.den : Nat) : Int)
  let b := y.value.num * ((d / y.value.den : Nat) : Int)
  if IsNarrow d ∧ IsNarrow a ∧ IsNarrow b ∧ IsNarrow (f a b) then ofRat? (mkRat (f a b) d)
  else none

/-- A quotient. The common divisor of the numerators is cancelled first, and may not need more than
32 bits either. -/
def divide (x y : NarrowRat) : Option NarrowRat :=
  if y.value = 0 ∨ ¬ IsNarrow (Int.gcd x.value.num y.value.num) then none
  else ofRat? (x.value / y.value)

instance : Chance NarrowRat where
  zero := ⟨0, by decide, by decide⟩
  one := ⟨1, by decide, by decide⟩
  ofOutcome? n := ofRat? n.toInt
  add? := onCommonDenominator (· + ·)
  sub? := onCommonDenominator (· - ·)
  mul? x y := ofRat? (x.value * y.value)
  div? := divide

end NarrowRat

end DiceOdds
