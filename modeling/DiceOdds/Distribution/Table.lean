import DiceOdds.Distribution.Basic

/-!
# Tables of chances

A distribution is shown as one line for each outcome, which gives the outcome and its chance in
percent with two decimals. The digits come from an integer number of hundredths of a percent.

## Main definitions

* `percent`: a chance in percent.
* `Distribution.table`: the lines of a distribution.
-/

namespace DiceOdds

/-- An integer that fills at least two places, the sign counting as one of them. -/
def twoPlaces (n : Int64) : String :=
  if 0 ≤ n ∧ n < 10 then "0" ++ toString n else toString n

/-- A chance in percent with two decimals, a half of a hundredth being rounded away from zero.
The percents and the hundredths of a negative chance each carry the sign. -/
def percent (chance : Float) : String :=
  let hundredths := (chance * 100.0 * 100.0).round.toInt64
  toString (hundredths / 100) ++ "." ++ twoPlaces (hundredths % 100)

/-- One line for each outcome, the least first: the outcome and its chance in percent. -/
def Distribution.table (p : Distribution Float) : String :=
  "\n".intercalate (p.entries.map fun x => toString x.1 ++ " " ++ percent x.2)

end DiceOdds
