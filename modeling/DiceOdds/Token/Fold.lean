import DiceOdds.ParseError
import DiceOdds.Token.Basic

/-!
# From tokens to an expression

The tokens are taken one by one. Operands wait on one stack and operators on another; an operator
that waits is carried out as soon as one of the same or a lower priority arrives, which makes
operators of one priority group to the left. At the end all operators that still wait are carried
out.

## Main definitions

* `Fold.carryOut`, `Fold.carryOutWhile`: carrying out waiting operators.
* `Token.fold`: the expression of a list of tokens.
-/

namespace DiceOdds

namespace Fold

/-- Carries out an operator on the two topmost operands, the right one first. -/
def carryOut (op : Operator) : List Expr → Except ParseError (List Expr)
  | right :: left :: operands => .ok (.binary op left right :: operands)
  | _ => .error .unexpectedEnd

/-- Carries out the waiting operators down to the first one of a priority below the given one. -/
def carryOutWhile (priority : Nat) :
    List Expr → List (Operator × Nat) → Except ParseError (List Expr × List (Operator × Nat))
  | operands, [] => .ok (operands, [])
  | operands, (op, waiting) :: operators =>
    if waiting < priority then .ok (operands, (op, waiting) :: operators)
    else
      match carryOut op operands with
      | .ok operands => carryOutWhile priority operands operators
      | .error error => .error error

/-- Takes the tokens one by one, with the operands and the operators that wait. -/
def loop :
    List Token → List Expr → List (Operator × Nat) → Except ParseError Expr
  | [], operands, operators =>
    -- Every priority is at least zero.
    match carryOutWhile 0 operands operators with
    | .ok ([], _) => .error .empty
    | .ok (e :: _, _) => .ok e
    | .error error => .error error
  | .operand e :: tokens, operands, operators => loop tokens (e :: operands) operators
  | .operator op priority :: tokens, operands, operators =>
    match carryOutWhile priority operands operators with
    | .ok (operands, operators) => loop tokens operands ((op, priority) :: operators)
    | .error error => .error error

end Fold

/-- The expression of a list of tokens in which operands and operators alternate. -/
def Token.fold (tokens : List Token) : Except ParseError Expr := Fold.loop tokens [] []

end DiceOdds
