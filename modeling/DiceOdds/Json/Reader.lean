import DiceOdds.Json.Value
import DiceOdds.Text.Cursor

/-!
# Reading JSON

A text is read as one value with nothing but blanks around it. How deep values may nest is not
checked here but by what a value is read as.

## Main definitions

* `Json.readNumeral?`, `Json.readRaw?`: a number, and the inside of a string.
* `Json.Value.read?`: the value of a text.
-/

namespace DiceOdds.Json

/-- What was read, and what is left of the text. -/
abbrev Read (α : Type) := Option (α × List Char)

/-- The text without the blanks in front. -/
def skipBlanks (s : List Char) : List Char := s.dropWhile isBlank

/-! ### Numbers -/

/-- One or more digits. -/
def readDigits? (s : List Char) : Read (List Char) :=
  let digits := s.takeWhile Char.isDigit
  if digits = [] then none else some (digits, s.dropWhile Char.isDigit)

/-- The whole part of a number, which has no digit behind a leading zero. -/
def readWhole? (s : List Char) : Read (List Char) :=
  match readDigits? s with
  | some ('0' :: _ :: _, _) => none
  | r => r

/-- The digits behind a point, if there is a point. -/
def readFraction? : List Char → Read (List Char)
  | '.' :: s => readDigits? s
  | s => some ([], s)

/-- The power of ten, if there is one. -/
def readExponent? (s : List Char) : Read (Option (Bool × List Char)) :=
  let power (negative : Bool) (s : List Char) : Read (Option (Bool × List Char)) :=
    (readDigits? s).map fun (digits, s) => (some (negative, digits), s)
  match s with
  | e :: s' =>
    if e = 'e' ∨ e = 'E' then
      match s' with
      | '+' :: s'' => power false s''
      | '-' :: s'' => power true s''
      | _ => power false s'
    else some (none, s)
  | [] => some (none, s)

/-- The unsigned rest of a number. -/
def readUnsigned? (negative : Bool) (s : List Char) : Read Numeral :=
  (readWhole? s).bind fun (whole, s) =>
    (readFraction? s).bind fun (fraction, s) =>
      (readExponent? s).map fun (exponent, s) => (⟨negative, whole, fraction, exponent⟩, s)

/-- A number. -/
def readNumeral? : List Char → Read Numeral
  | '-' :: s => readUnsigned? true s
  | s => readUnsigned? false s

/-! ### Strings -/

/-- Whether a character is a hexadecimal digit. -/
def isHexDigit (c : Char) : Bool :=
  c.isDigit || ('a' ≤ c && c ≤ 'f') || ('A' ≤ c && c ≤ 'F')

/-- The characters up to the closing quote, in front of which some were already read, the last one
first. An escape is kept as it is written; controls are refused. -/
def readRaw? (before : List Char) : List Char → Read (List Char)
  | '"' :: s => some (before.reverse, s)
  | '\\' :: 'u' :: a :: b :: c :: d :: s =>
    if [a, b, c, d].all isHexDigit then readRaw? (d :: c :: b :: a :: 'u' :: '\\' :: before) s
    else none
  | '\\' :: c :: s =>
    if c ∈ ['"', '\\', '/', 'b', 'f', 'n', 'r', 't'] then readRaw? (c :: '\\' :: before) s
    else none
  | c :: s => if c = '\\' ∨ c.toNat < 32 then none else readRaw? (c :: before) s
  | [] => none

/-! ### Values -/

/-- The text behind a word, if it starts with the word. -/
def readWord? (word : String) (s : List Char) : Read Unit :=
  let letters := word.toList
  if letters.isPrefixOf s then some ((), s.drop letters.length) else none

mutual

/-- A value, with blanks in front. The fuel is at least the length of the text. -/
def readValue? : Nat → List Char → Read Value
  | 0, _ => none
  | fuel + 1, s =>
    match skipBlanks s with
    | [] => none
    | c :: s =>
      if c = '[' then
        match skipBlanks s with
        | ']' :: s => some (.array [], s)
        | s => readItems? fuel [] s
      else if c = '\x7b' then
        match skipBlanks s with
        | '\x7d' :: s => some (.object [], s)
        | s => readFields? fuel [] s
      else if c = '"' then (readRaw? [] s).map fun (raw, s) => (.string raw, s)
      else if c = 'n' then (readWord? "ull" s).map fun (_, s) => (.null, s)
      else if c = 't' then (readWord? "rue" s).map fun (_, s) => (.bool true, s)
      else if c = 'f' then (readWord? "alse" s).map fun (_, s) => (.bool false, s)
      else (readNumeral? (c :: s)).map fun (n, s) => (.number n, s)

/-- The items of an array from the next one to the closing bracket; the items before come in
reverse. -/
def readItems? : Nat → List Value → List Char → Read Value
  | 0, _, _ => none
  | fuel + 1, before, s =>
    match readValue? fuel s with
    | none => none
    | some (item, s) =>
      match skipBlanks s with
      | ',' :: s => readItems? fuel (item :: before) s
      | ']' :: s => some (.array (item :: before).reverse, s)
      | _ => none

/-- The fields of an object from the next one to the closing brace; the fields before come in
reverse. -/
def readFields? : Nat → List (List Char × Value) → List Char → Read Value
  | 0, _, _ => none
  | fuel + 1, before, s =>
    match skipBlanks s with
    | '"' :: s =>
      match readRaw? [] s with
      | none => none
      | some (name, s) =>
        match skipBlanks s with
        | ':' :: s =>
          match readValue? fuel s with
          | none => none
          | some (value, s) =>
            match skipBlanks s with
            | ',' :: s => readFields? fuel ((name, value) :: before) s
            | '\x7d' :: s => some (.object ((name, value) :: before).reverse, s)
            | _ => none
        | _ => none
    | _ => none

end

/-- The value of a text. -/
def Value.read? (s : String) : Option Value :=
  let cs := s.toList
  match readValue? (cs.length + 1) cs with
  | some (v, rest) => if skipBlanks rest = [] then some v else none
  | none => none

end DiceOdds.Json
