import DiceOdds.Text.Shapeless

/-!
# Quoted text

Messages quote the text or the character they are about. Quotes of the kind in use, backslashes
and the usual controls are escaped by a letter, characters without a shape of their own by their
number in hexadecimal.

## Main definitions

* `quotedChar`: a character between single quotes.
* `quotedText`: a text between double quotes.
-/

namespace DiceOdds

/-- The escape by number: the code point in hexadecimal between braces. -/
def escapeByNumber (c : Char) : String :=
  "\\u\x7b" ++ String.ofList (Nat.toDigits 16 c.toNat) ++ "\x7d"

/-- A character as it appears between quotes of the given kind. -/
def escape (quote c : Char) : String :=
  if c = '\x00' then "\\0"
  else if c = '\t' then "\\t"
  else if c = '\r' then "\\r"
  else if c = '\n' then "\\n"
  else if c = '\\' || c = quote then "\\".push c
  else if isShapeless c then escapeByNumber c
  else c.toString

/-- A character between single quotes. -/
def quotedChar (c : Char) : String := "'" ++ escape '\'' c ++ "'"

/-- A text between double quotes. -/
def quotedText (s : String) : String :=
  (s.foldl (fun out c => out ++ escape '"' c) "\"").push '"'

end DiceOdds
