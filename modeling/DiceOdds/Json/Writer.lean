import DiceOdds.Json.Value

/-!
# Writing JSON

Values are written without blanks. Each function adds to a text that is already there.

## Main definitions

* `Json.Numeral.text`: a written number.
* `Json.Value.write`: the text of a value.
-/

namespace DiceOdds.Json

/-- A number as it is written. -/
def Numeral.text (n : Numeral) : String :=
  let sign := if n.negative then "-" else ""
  let point := if n.fraction = [] then "" else "." ++ String.ofList n.fraction
  let power := match n.exponent with
    | none => ""
    | some (negative, digits) => (if negative then "e-" else "e+") ++ String.ofList digits
  sign ++ String.ofList n.whole ++ point ++ power

namespace Value

mutual

/-- Adds a value to a text. -/
def addTo (out : String) : Value → String
  | null => out ++ "null"
  | bool true => out ++ "true"
  | bool false => out ++ "false"
  | number n => out ++ n.text
  | string raw => (out.push '"' ++ String.ofList raw).push '"'
  | array [] => out ++ "[]"
  | array (item :: items) => (addItems (item.addTo (out.push '[')) items).push ']'
  | object [] => out ++ "\x7b\x7d"
  | object ((name, value) :: fields) =>
    (addFields (value.addTo ((out ++ "\x7b\"" ++ String.ofList name) ++ "\":")) fields).push '\x7d'

/-- Adds further items of an array to a text. -/
def addItems (out : String) : List Value → String
  | [] => out
  | item :: items => addItems (item.addTo (out.push ',')) items

/-- Adds further fields of an object to a text. -/
def addFields (out : String) : List (List Char × Value) → String
  | [] => out
  | (name, value) :: fields =>
    addFields (value.addTo ((out ++ ",\"" ++ String.ofList name) ++ "\":")) fields

end

/-- The text of a value. -/
def write (v : Value) : String := v.addTo ""

end Value

end DiceOdds.Json
