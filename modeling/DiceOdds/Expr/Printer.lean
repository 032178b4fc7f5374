import DiceOdds.Expr.Walk

/-!
# Printing expressions

The text of an expression has one space around every operator and only the parentheses that are
needed to read the same expression back. Operators group to the left, so a left operand is put in
parentheses when it binds more loosely than the operator, and a right operand also when it binds
equally.

## Main definitions

* `Printed`: a text with the binding strength of its outermost operator.
* `Printed.join`: the text of an operator, from the texts of its operands.
* `Expr.printed`, `Expr.print`: the text of an expression, with and without its binding strength.

## Main results

* `Expr.printed_binary`: the text of an operator node is joined from the texts of its operands.
-/

namespace DiceOdds

/-- A text with the binding strength of its outermost operator. -/
structure Printed where
  strength : Nat
  text : String

namespace Printed

/-- The binding strength of constants and dice, above every operator. -/
def atomStrength : Nat := 9

/-- The text of a leaf. -/
def atom (text : String) : Printed := ⟨atomStrength, text⟩

/-- The text in parentheses if asked for. -/
@[inline] def enclose (needed : Bool) (text : String) : String :=
  if needed then "(" ++ text ++ ")" else text

/-- The text of an operator, from the texts of its operands. -/
@[inline] def join (op : Operator) (a b : Printed) : Printed where
  strength := op.precedence
  text :=
    (((enclose (a.strength < op.precedence) a.text).push ' ').push op.symbol).push ' ' ++
      enclose (b.strength ≤ op.precedence) b.text

end Printed

/-- Prints each node. -/
def printer : Analysis Unit Empty Printed where
  constant n := pure (.atom (toString n))
  die faces := pure (.atom ("d" ++ toString faces))
  binary op a b := pure (.join op a b)

/-- The text of an expression with its binding strength. -/
def Expr.printed (e : Expr) : Printed := printer.value e

namespace Expr

theorem printed_constant (n : Outcome) : (constant n).printed = .atom (toString n) :=
  Except.ok.inj (printer.result_eq_ok_value _ ▸ printer.result_constant n)

theorem printed_die (faces : Outcome) : (die faces).printed = .atom ("d" ++ toString faces) :=
  Except.ok.inj (printer.result_eq_ok_value _ ▸ printer.result_die faces)

theorem printed_binary (op : Operator) (left right : Expr) :
    (binary op left right).printed = .join op left.printed right.printed := by
  have h := printer.result_binary op left right
  simp only [Analysis.result_eq_ok_value] at h
  exact Except.ok.inj h

end Expr

/-- The text of an expression. -/
def Expr.print (e : Expr) : String := e.printed.text

instance : ToString Expr := ⟨Expr.print⟩

end DiceOdds
