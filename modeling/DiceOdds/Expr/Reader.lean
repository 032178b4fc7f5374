import DiceOdds.Expr.Bounds
import DiceOdds.Expr.Climb
import DiceOdds.Expr.Printer
import DiceOdds.Journal
import DiceOdds.Limits
import DiceOdds.Token.Fold
import DiceOdds.Token.Scan

/-!
# Reading expressions

There are two ways to read an expression. Descent looks for parentheses that nest too deeply and
for too many operators before it climbs through the text; priority folds tokens and meets the
limits on its way. They differ in how they report a text that is no expression.

## Main definitions

* `Strategy`: the two ways to read.
* `Descent.parse`, `Priority.parse`: reading an expression in one of them.
* `Expr.parse`: reading an expression within limits.
* `Strategy.journal`: the remarks made while reading.
-/

namespace DiceOdds

/-- How an expression is read. -/
inductive Strategy where
  | descent
  | priority
  deriving DecidableEq, Repr

/-! ### Descent -/

namespace Descent

/-- The depth of nesting behind a character. A closing parenthesis without an opening one leaves the
depth at zero. -/
def depthBehind (depth : Nat) (c : Char) : Nat :=
  if c = '(' then depth + 1 else if c = ')' then depth - 1 else depth

/-- The deepest nesting of parentheses, from a depth and the deepest nesting so far. -/
def nesting (depth deepest : Nat) : List Char → Nat
  | [] => deepest
  | c :: cs =>
    let depth := depthBehind depth c
    nesting depth (max deepest depth) cs

/-- How many operators a text has. -/
def operators (cs : List Char) : Nat := cs.countP fun c => (Operator.ofSymbol? c).isSome

/-- The line and the column of a position of a text, both counted from one in characters. -/
def place (offset : Nat) : List Char → Nat → Nat → Nat → Nat × Nat
  | [], _, line, column => (line, column)
  | c :: cs, passed, line, column =>
    if offset ≤ passed then (line, column)
    else if c = '\n' then place offset cs (passed + c.utf8Size) (line + 1) 1
    else place offset cs (passed + c.utf8Size) line (column + 1)

/-- The report of what was tried in vain. -/
def report (s : String) (f : Furthest) : SyntaxError :=
  let (line, column) := place f.offset s.toList 0 1 1
  ⟨f.offset, line, column, f.expected⟩

/-- Reads an expression by precedence climbing. Every operator brings a node and an operand of its
own, so a text with too many operators is refused beforehand. -/
def parse (limits : Limits) (s : String) : Except ParseError Expr :=
  if s.toList.all isBlank then .error .empty
  else if limits.maxDepth < nesting 0 0 s.toList then .error (.tooDeep limits.maxDepth)
  else if limits.maxNodes < 2 * operators s.toList + 1 then .error (.tooManyNodes limits.maxNodes)
  else
    match Climb.whole? limits.maxDice s with
    | (f, none) => .error (.stuck (report s f))
    | (_, some e) =>
      if limits.maxNodes < e.nodes then .error (.tooManyNodes limits.maxNodes) else .ok e

/-- The remarks made while reading. -/
def journal (limits : Limits) (s : String) : Journal :=
  match parse limits s with
  | .ok e => #[⟨.debug, "parsed " ++ quotedText s ++ " as " ++ e.print⟩]
  | .error _ => #[]

end Descent

/-! ### Priority -/

namespace Priority

/-- Reads an expression by folding its tokens. -/
def parse (limits : Limits) (s : String) : Except ParseError Expr :=
  match Token.scan limits s with
  | .ok tokens => Token.fold tokens
  | .error error => .error error

/-- The remarks made while reading. -/
def journal (limits : Limits) (s : String) : Journal :=
  match Token.scan limits s with
  | .ok tokens => #[⟨.trace, toString tokens.length ++ " tokens in " ++ quotedText s⟩]
  | .error _ => #[]

end Priority

/-! ### Both -/

/-- Reads an expression within limits. -/
def Expr.parse (strategy : Strategy) (limits : Limits) (s : String) : Except ParseError Expr :=
  match strategy with
  | .descent => Descent.parse limits s
  | .priority => Priority.parse limits s

/-- The remarks made while an expression is read. -/
def Strategy.journal (strategy : Strategy) (limits : Limits) (s : String) : Journal :=
  match strategy with
  | .descent => Descent.journal limits s
  | .priority => Priority.journal limits s

end DiceOdds
