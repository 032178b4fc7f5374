import DiceOdds.Outcome
import DiceOdds.Text.Quoted

/-!
# Why a text is not an expression

Positions are counted in bytes from the start of the text. A syntax error also tells the line and
the column, and everything that could have stood at the place where reading got stuck.

## Main definitions

* `Expectation`: something that could have stood at a place.
* `ParseError`: why a text is not an expression.
* `ParseError.message`: how the reason is told to the user.
-/

namespace DiceOdds

/-- Something that could have stood at a place of a text. -/
inductive Expectation where
  | letter (c : Char)
  | digit
  | endOfText
  /-- A number that fits in an outcome. -/
  | outcome
  /-- A number of dice between one and the limit. -/
  | diceCount
  deriving DecidableEq, Repr

/-- How an expectation is listed in a message. -/
def Expectation.label : Expectation → String
  | letter c => "\"" ++ c.toString ++ "\""
  | digit => "['0'..='9']"
  | endOfText => "EOF"
  | outcome => "i64"
  | diceCount => "dice count within limits"

/-- A list of expectations in a message: sorted, and introduced as alternatives if there are
several. -/
def Expectation.listing (expected : List Expectation) : String :=
  match (expected.map label).mergeSort (· ≤ ·) with
  | [] => "<unreported>"
  | [only] => only
  | labels => "one of " ++ ", ".intercalate labels

/-- The place where reading got stuck, and what could have stood there. -/
structure SyntaxError where
  offset : Nat
  line : Nat
  column : Nat
  expected : List Expectation
  deriving DecidableEq, Repr

/-- How a syntax error is told to the user. -/
def SyntaxError.message (e : SyntaxError) : String :=
  s!"error at {e.line}:{e.column}: expected {Expectation.listing e.expected}"

/-- Why a text is not an expression. -/
inductive ParseError where
  /-- Nothing but blanks; there is nothing to evaluate. -/
  | empty
  | stuck (error : SyntaxError)
  | unexpectedEnd
  | unexpected (found : Char) (offset : Nat)
  | missingFaces (offset : Nat)
  | unmatchedClose (offset : Nat)
  | unclosed (offset : Nat)
  | numberTooLarge (offset : Nat)
  | diceCount (count limit : Nat)
  | tooDeep (limit : Nat)
  | tooManyNodes (limit : Nat)
  deriving DecidableEq, Repr

/-- How the reason is told to the user. -/
def ParseError.message : ParseError → String
  | empty => "empty expression"
  | stuck error => "syntax error: " ++ error.message
  | unexpectedEnd => "expression ends where an operand is expected"
  | unexpected found offset => s!"unexpected {quotedChar found} at offset {offset}"
  | missingFaces offset => s!"'d' at offset {offset} is not followed by a face count"
  | unmatchedClose offset => s!"')' at offset {offset} closes nothing"
  | unclosed offset => s!"'(' at offset {offset} is never closed"
  | numberTooLarge offset => s!"number at offset {offset} does not fit in 64 bits"
  | diceCount count limit => s!"cannot roll {count} dice at once, expected 1 to {limit}"
  | tooDeep limit => s!"parentheses nest deeper than {limit}"
  | tooManyNodes limit => s!"expression has more than {limit} nodes"

end DiceOdds
