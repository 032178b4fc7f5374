/-!
# JSON values

The values of the JSON format as they are written: numbers keep their digits and strings keep
their escapes, because what they mean depends on what they are read as.

## Main definitions

* `Json.Numeral`: a written number.
* `Json.Value`: a written value.
-/

namespace DiceOdds.Json

/-- A number as it is written: a sign, digits, digits behind a point, and a power of ten. -/
structure Numeral where
  negative : Bool
  whole : List Char
  /-- The digits behind the point; without a point there are none. -/
  fraction : List Char
  /-- The sign and the digits of the power of ten. -/
  exponent : Option (Bool × List Char)
  deriving DecidableEq, Repr

/-- A JSON value. -/
inductive Value where
  | null
  | bool (b : Bool)
  | number (n : Numeral)
  /-- A string, given by the characters between its quotes. -/
  | string (raw : List Char)
  | array (items : List Value)
  /-- An object, with each name given by the characters between its quotes. -/
  | object (fields : List (List Char × Value))

end DiceOdds.Json
