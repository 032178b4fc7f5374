import DiceOdds.Json.Value

/-!
# What written strings mean

An escape stands for one character. Escapes by number give a unit of sixteen bits: a character
beyond the first plane takes two of them, and half of such a pair alone means nothing.

## Main definitions

* `Json.unescape?`: the text that a written string stands for.
-/

namespace DiceOdds.Json

/-- The value of a hexadecimal digit. -/
def hexValue (c : Char) : Nat :=
  if c.isDigit then c.toNat - '0'.toNat
  else if 'a' ≤ c then c.toNat - 'a'.toNat + 10
  else c.toNat - 'A'.toNat + 10

/-- The unit written by four hexadecimal digits. -/
def unit (a b c d : Char) : Nat :=
  ((hexValue a * 16 + hexValue b) * 16 + hexValue c) * 16 + hexValue d

/-- The character that an escape by letter stands for. -/
def escapedLetter? (c : Char) : Option Char :=
  [('"', '"'), ('\\', '\\'), ('/', '/'), ('b', '\x08'), ('f', '\x0c'), ('n', '\n'), ('r', '\r'),
    ('t', '\t')].lookup c

/-- The text that the inside of a string stands for, behind some characters that were already
found, the last one first. -/
def unescapeFrom? (before : List Char) : List Char → Option (List Char)
  | [] => some before.reverse
  | '\\' :: 'u' :: a :: b :: c :: d :: '\\' :: 'u' :: a' :: b' :: c' :: d' :: s =>
    let high := unit a b c d
    let low := unit a' b' c' d'
    if 0xd800 ≤ high ∧ high < 0xdc00 then
      if 0xdc00 ≤ low ∧ low < 0xe000 then
        unescapeFrom? (Char.ofNat (0x10000 + (high - 0xd800) * 0x400 + (low - 0xdc00)) :: before) s
      else none
    else if 0xdc00 ≤ high ∧ high < 0xe000 then none
    else unescapeFrom? (Char.ofNat high :: before) ('\\' :: 'u' :: a' :: b' :: c' :: d' :: s)
  | '\\' :: 'u' :: a :: b :: c :: d :: s =>
    let n := unit a b c d
    if 0xd800 ≤ n ∧ n < 0xe000 then none else unescapeFrom? (Char.ofNat n :: before) s
  | '\\' :: c :: s =>
    match escapedLetter? c with
    | some x => unescapeFrom? (x :: before) s
    | none => none
  | c :: s => unescapeFrom? (c :: before) s
termination_by s => s.length

/-- The text that the inside of a written string stands for. -/
def unescape? (raw : List Char) : Option String := (unescapeFrom? [] raw).map String.ofList

end DiceOdds.Json
