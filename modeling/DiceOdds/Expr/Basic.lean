import DiceOdds.Operator

/-!
# Dice expressions

An expression such as `2d6+3>10` is a tree whose leaves are constants and fair dice and whose
inner nodes are operators. A pool of dice is not a node of its own: it stands for the sum of its
dice, grouped to the left.

## Main definitions

* `Expr`: the expressions, with `+`, `-` and `*` building nodes.
* `Expr.greater`: the comparison of two expressions.
* `Expr.pool`: several dice of one kind, summed.
-/

namespace DiceOdds

/-- An expression of the dice arithmetic. -/
inductive Expr where
  | constant (value : Outcome)
  /-- A fair die whose faces are numbered from one. -/
  | die (faces : Outcome)
  | binary (op : Operator) (left right : Expr)
  deriving DecidableEq, Repr

namespace Expr

instance : Inhabited Expr := ⟨constant 0⟩

instance : Add Expr := ⟨binary .add⟩

instance : Sub Expr := ⟨binary .sub⟩

instance : Mul Expr := ⟨binary .mul⟩

/-- One if `left` rolls strictly more than `right`, otherwise zero. -/
def greater (left right : Expr) : Expr := binary .greater left right

/-- A number of dice with the same faces, summed from the left; a pool has at least one die. -/
def pool (count : Nat) (faces : Outcome) : Expr :=
  Nat.repeat (· + die faces) (count - 1) (die faces)

theorem pool_one (faces : Outcome) : pool 1 faces = die faces := rfl

theorem pool_succ (n : Nat) (faces : Outcome) :
    pool (n + 2) faces = pool (n + 1) faces + die faces := rfl

end Expr

end DiceOdds
