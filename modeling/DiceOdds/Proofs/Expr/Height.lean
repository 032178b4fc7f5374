import DiceOdds.Expr.Basic

/-!
# Height of an expression

The height is the greatest number of operators on a path from the root down to a leaf.

## Main definitions

* `Expr.height`: the height.
* `Expr.Path`: the paths from the root to the leaves.

## Main results

* `Expr.height_le_iff`: a bound on the height is a bound on the operators of every path.
-/

namespace DiceOdds

namespace Expr

/-- The greatest number of operators on a path from the root to a leaf. -/
def height : Expr → Nat
  | constant _ => 0
  | die _ => 0
  | binary _ left right => max left.height right.height + 1

theorem height_binary_le_iff {op : Operator} {left right : Expr} {k : Nat} :
    (binary op left right).height ≤ k + 1 ↔ left.height ≤ k ∧ right.height ≤ k := by
  rw [height, Nat.add_le_add_iff_right, Nat.max_le]

/-- A path from the root to a leaf passes a number of operators. -/
inductive Path : Expr → Nat → Prop
  | constant (n : Outcome) : Path (constant n) 0
  | die (faces : Outcome) : Path (die faces) 0
  | left {op : Operator} {left right : Expr} {k : Nat} (h : Path left k) :
      Path (binary op left right) (k + 1)
  | right {op : Operator} {left right : Expr} {k : Nat} (h : Path right k) :
      Path (binary op left right) (k + 1)

theorem Path.le_height {e : Expr} {k : Nat} (h : e.Path k) : k ≤ e.height := by
  induction h with
  | constant | die => exact Nat.le_refl 0
  | left _ ih => exact Nat.succ_le_succ (Nat.le_trans ih (Nat.le_max_left _ _))
  | right _ ih => exact Nat.succ_le_succ (Nat.le_trans ih (Nat.le_max_right _ _))

theorem path_height (e : Expr) : e.Path e.height := by
  induction e with
  | constant n => exact .constant n
  | die faces => exact .die faces
  | binary op left right ihl ihr =>
    rw [height]
    rcases Nat.le_total left.height right.height with hle | hle
    · rw [Nat.max_eq_right hle]
      exact .right ihr
    · rw [Nat.max_eq_left hle]
      exact .left ihl

theorem height_le_iff {e : Expr} {k : Nat} : e.height ≤ k ↔ ∀ n, e.Path n → n ≤ k :=
  ⟨fun h _ hn => Nat.le_trans hn.le_height h, fun h => h _ e.path_height⟩

instance (e : Expr) (k : Nat) : Decidable (∀ n, e.Path n → n ≤ k) :=
  decidable_of_iff (e.height ≤ k) height_le_iff

end Expr

end DiceOdds
