import DiceOdds.Decimal
import DiceOdds.Json.Value

/-!
# Binary floating point in JSON

A binary number is written with the shortest digits that read back. The point stands among the
digits or next to them as long as few zeros are needed for that; otherwise it stands behind the
first digit and a power of ten follows. A number without a power of ten always has a point. Numbers
that are not finite are written as null.

## Main definitions

* `Json.FloatLayout`: where digits are written with a power of ten.
* `Json.Numeral.ofDecimal`: a decimal as it is written.
* `Json.Value.ofFloat`: a binary number as a JSON value.
-/

namespace DiceOdds.Json

/-- Between which places the point may stand without a power of ten. -/
structure FloatLayout where
  /-- The point stands at most this far to the left of the first digit. -/
  mostLeadingZeros : Nat
  /-- The point stands at most this far to the right of the first digit. -/
  mostWholeDigits : Nat

/-- At most four zeros follow the point, and at most sixteen digits precede it. -/
def floatLayout : FloatLayout := ⟨4, 16⟩

/-- A decimal as it is written. -/
def Numeral.ofDecimal (negative : Bool) (d : Decimal) : Numeral :=
  let digits := Nat.toDigits 10 d.digits
  -- How many digits are in front of the point, or how many zeros are between point and digits.
  let point := digits.length + d.exponent
  if 0 ≤ d.exponent ∧ point ≤ floatLayout.mostWholeDigits then
    ⟨negative, digits ++ List.replicate d.exponent.toNat '0', ['0'], none⟩
  else if 0 < point ∧ point ≤ floatLayout.mostWholeDigits then
    ⟨negative, digits.take point.toNat, digits.drop point.toNat, none⟩
  else if -floatLayout.mostLeadingZeros ≤ point ∧ point ≤ 0 then
    ⟨negative, ['0'], List.replicate (-point).toNat '0' ++ digits, none⟩
  else
    let power := point - 1
    ⟨negative, digits.take 1, digits.drop 1, some (power < 0, Nat.toDigits 10 power.natAbs)⟩

/-- A binary number as a JSON value. -/
def Value.ofFloat (x : Float) : Value :=
  if x.isFinite then .number (.ofDecimal (x.toBits >>> 63 = 1) (.ofFloat x)) else .null

end DiceOdds.Json
