/-!
# The shortest decimal of a binary number

A binary floating point number stands for all real numbers that round to it. Of the decimals
among them the ones with the fewest digits are chosen, and of these the one nearest to the number
itself, the even one if two are equally near.

## Main definitions

* `Decimal`: an integer times a power of ten.
* `Interval`: a positive number with the bounds of what rounds to it.
* `Interval.shortest`: the shortest decimal within the bounds.
* `Decimal.ofFloat`: the shortest decimal of a binary number.
-/

namespace DiceOdds

/-- An integer times a power of ten. -/
structure Decimal where
  digits : Nat
  exponent : Int
  deriving DecidableEq, Repr

/-- A positive number with the bounds of what rounds to it, as fractions with one denominator. -/
structure Interval where
  low : Nat
  value : Nat
  high : Nat
  denominator : Nat
  /-- Whether the bounds themselves round to the number. -/
  closed : Bool

/-- A power of ten, which is one if the exponent is negative. -/
def tenTo (exponent : Int) : Nat := Nat.pow 10 exponent.toNat

namespace Interval

/-- What rounds to `mantissa * 2 ^ exponent`. The number below is half as far away as the number
above if the mantissa is the least one of its exponent. -/
def ofBinary (mantissa : Nat) (exponent : Int) (least : Bool) : Interval :=
  -- In quarters of the last place.
  let up := Nat.pow 2 (exponent - 2).toNat
  ⟨(4 * mantissa - if least then 1 else 2) * up, 4 * mantissa * up, (4 * mantissa + 2) * up,
    Nat.pow 2 (2 - exponent).toNat, mantissa % 2 = 0⟩

/-- The exponent of the first decimal digit of the number, found from below. -/
def leadingPlace (i : Interval) : Int :=
  if i.denominator ≤ i.value then (Nat.toDigits 10 (i.value / i.denominator)).length - 1
  else -(firstMultiple 400 1 : Int)
where
  /-- The least power of ten not below `k` that makes the number at least one. -/
  firstMultiple : Nat → Nat → Nat
    | 0, k => k
    | fuel + 1, k =>
      if i.denominator ≤ i.value * tenTo k then k else firstMultiple fuel (k + 1)

/-- Whether a multiple of a power of ten lies within the bounds. -/
def contains (i : Interval) (place : Int) (n : Nat) : Bool :=
  let x := n * tenTo place * i.denominator
  let scale := tenTo (-place)
  if i.closed then i.low * scale ≤ x && x ≤ i.high * scale
  else i.low * scale < x && x < i.high * scale

/-- The multiple of a power of ten that is nearest to the number among its two neighbours within
the bounds. -/
def nearest? (i : Interval) (place : Int) : Option Nat :=
  let numerator := i.value * tenTo (-place)
  let unit := i.denominator * tenTo place
  let below := numerator / unit
  let rest := 2 * (numerator % unit)
  match i.contains place below, i.contains place (below + 1) with
  | false, false => none
  | true, false => some below
  | false, true => some (below + 1)
  | true, true =>
    if rest < unit ∨ (rest = unit ∧ below % 2 = 0) then some below else some (below + 1)

/-- The shortest decimal within the bounds, looked for with more and more digits. -/
def shortest (i : Interval) : Decimal :=
  let leading := i.leadingPlace
  let rec search : Nat → Int → Decimal
    | 0, place => ⟨i.value * tenTo (-place) / (i.denominator * tenTo place), place⟩
    | fuel + 1, place =>
      match i.nearest? place with
      | some n => ⟨n, place⟩
      | none => search fuel (place - 1)
  search 17 leading

end Interval

namespace Decimal

/-- The same number with the zeros at the end of its digits moved to the power of ten. -/
def normalize (d : Decimal) : Decimal :=
  strip d.digits d.digits d.exponent
where
  /-- Removes zeros at the end, at most as many as the fuel. -/
  strip : Nat → Nat → Int → Decimal
    | 0, n, e => ⟨n, e⟩
    | fuel + 1, n, e => if n % 10 = 0 ∧ n ≠ 0 then strip fuel (n / 10) (e + 1) else ⟨n, e⟩

/-- The bit of the mantissa that is not stored. -/
def hiddenBit : Nat := 4503599627370496

/-- The shortest decimal of the magnitude of a finite binary number. -/
def ofFloat (x : Float) : Decimal :=
  let bits := x.toBits.toNat % 9223372036854775808
  let low := bits % hiddenBit
  let high := bits / hiddenBit
  if bits = 0 then ⟨0, 0⟩
  else
    let interval :=
      if high = 0 then Interval.ofBinary low (-1074) false
      else Interval.ofBinary (low + hiddenBit) ((high : Int) - 1075) (low = 0 && 1 < high)
    interval.shortest.normalize

end Decimal

end DiceOdds
