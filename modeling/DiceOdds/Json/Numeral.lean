import DiceOdds.Json.Value
import DiceOdds.Limits
import DiceOdds.Text.Cursor

/-!
# What written numbers mean

A number without a point and without a power of ten is an integer, unless it is a negative zero or
does not fit in 64 bits. Every number can be read in binary floating point: as many leading digits
as fit in 64 bits are taken as an integer, which is then scaled once by a power of ten, so the
result may differ in the last place from the number nearest to the written one.

## Main definitions

* `Json.Numeral.ofInt`: an integer as it is written.
* `Json.Numeral.integer?`: a number read as an integer.
* `Json.Numeral.float?`: a number read in binary floating point.
-/

namespace DiceOdds.Json.Numeral

/-! ### Integers -/

/-- An integer as it is written. -/
def ofInt (n : Int) : Numeral := ⟨n < 0, Nat.toDigits 10 n.natAbs, [], none⟩

/-- Whether a number is written without a point and without a power of ten. -/
def isPlain (n : Numeral) : Bool := n.fraction = [] && n.exponent.isNone

/-- A number read as an integer of 64 bits with or without a sign. A negative zero is none. -/
def integer? (n : Numeral) : Option Int :=
  let magnitude := numeral n.whole
  if !n.isPlain then none
  else if n.negative then
    if 0 < magnitude ∧ magnitude ≤ 9223372036854775808 then some (-magnitude) else none
  else if magnitude ≤ maxCount then some magnitude else none

/-! ### Binary floating point -/

/-- Digits taken as an integer of 64 bits, and how many digits were left out behind them. -/
structure Significand where
  value : Nat
  dropped : Nat

/-- Takes one more digit, unless the integer becomes too large or a digit was left out before. -/
def Significand.push (s : Significand) (c : Char) : Significand :=
  let next := 10 * s.value + (c.toNat - '0'.toNat)
  if s.dropped = 0 ∧ next ≤ maxCount then ⟨next, 0⟩ else ⟨s.value, s.dropped + 1⟩

/-- The integer of the digits in front of and behind the point, and the power of ten it is scaled
by. Of the digits behind the point those left out do not count. -/
def significand (n : Numeral) : Nat × Int :=
  let whole := n.whole.foldl Significand.push ⟨0, 0⟩
  let all := n.fraction.foldl Significand.push ⟨whole.value, 0⟩
  (all.value, (whole.dropped : Int) - ((n.fraction.length - all.dropped : Nat) : Int))

/-- A power of ten in binary floating point. -/
def powerOfTen (k : Nat) : Float := Float.ofScientific 1 false k

/-- The largest power of ten that binary floating point has. -/
def maxPower : Nat := 308

/-- A number scaled down by a power of ten, in several steps if the power is too large. -/
def scaleDown (x : Float) (k : Nat) : Float :=
  if x == 0.0 then x
  else if _h : maxPower < k then scaleDown (x / powerOfTen maxPower) (k - maxPower)
  else x / powerOfTen k
termination_by k
decreasing_by
  have hpos : 0 < maxPower := by decide
  omega

/-- A number scaled by a power of ten, unless it becomes infinite. -/
def scale? (x : Float) (power : Int) : Option Float :=
  if power < 0 then some (scaleDown x power.natAbs)
  else if maxPower < power.natAbs then if x == 0.0 then some x else none
  else
    let y := x * powerOfTen power.natAbs
    if y.isInf then none else some y

/-- The greatest power of ten that is counted. -/
def maxExponent : Nat := 2147483647

/-- The magnitude of a number in binary floating point, unless it is infinite. A power of ten that
is too large to be counted makes a number zero or infinite by its sign. -/
def magnitude? (n : Numeral) : Option Float :=
  let (value, power) := n.significand
  let x := value.toUInt64.toFloat
  match n.exponent with
  | none => scale? x power
  | some (negative, digits) =>
    let k := numeral digits
    if k > maxExponent then if value = 0 ∨ negative then some 0.0 else none
    else scale? x (if negative then power - k else power + k)

/-- A number read in binary floating point, unless it is infinite. -/
def float? (n : Numeral) : Option Float :=
  n.magnitude?.map fun x => if n.negative then -x else x

end DiceOdds.Json.Numeral
