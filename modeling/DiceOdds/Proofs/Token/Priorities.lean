import DiceOdds.Proofs.Grammar.Derivation
import DiceOdds.Proofs.Token.Grouping

/-!
# Priorities of the grammar

A derivation without its blanks and parentheses is a grouping of tokens. Each level of parentheses
raises the priorities of the operators inside, so that the grouping of the grammar is the one that
the priorities demand.

## Main definitions

* `Derivation.grouping`: the tokens of a derivation inside a number of parentheses.

## Main results

* `Derivation.expr_grouping`: the grouping is the expression of the derivation.
* `Derivation.respects_grouping`: the grouping respects the priorities.
-/

namespace DiceOdds

namespace Derivation

/-- The tokens of a derivation inside a number of parentheses, as they are grouped. -/
def grouping (depth : Nat) {l : Tier} : Derivation l → Grouping
  | number n => .operand (number n).expr
  | die faces => .operand (die faces).expr
  | pool count faces => .operand (pool count faces).expr
  | enclosed _ inner _ => inner.grouping (depth + 1)
  | single _ part => part.grouping depth
  | repeated left _ op _ _ right =>
    .operator (left.grouping depth) op (priority depth op) (right.grouping depth)

theorem expr_grouping (depth : Nat) {l : Tier} (d : Derivation l) :
    (d.grouping depth).expr = d.expr := by
  induction d generalizing depth with
  | number | die | pool => rfl
  | enclosed _ _ _ ih => exact ih (depth + 1)
  | single _ _ ih => exact ih depth
  | repeated _ _ _ _ _ _ ihl ihr => rw [grouping, Grouping.expr, ihl, ihr, expr]

/-- Inside parentheses the priorities are above all that a derivation outside can have. -/
theorem atLeast_grouping (depth : Nat) {l : Tier} (d : Derivation l) :
    (d.grouping depth).AtLeast (depth * nestingStep + l.strength) := by
  induction d generalizing depth with
  | number | die | pool => trivial
  | enclosed _ _ _ ih =>
    refine (ih (depth + 1)).mono ?_
    simp only [nestingStep, Tier.strength]
    omega
  | @single l _ _ ih =>
    have hl := l.strength_le_operand
    exact (ih depth).mono (by omega)
  | @repeated l _ _ op hop _ _ ihl ihr =>
    subst hop
    have hop := op.strength_tier
    have hl := op.tier.strength_le_operand
    refine ⟨?_, ihl depth, (ihr depth).mono (by omega)⟩
    unfold priority
    omega

/-- The priorities group the tokens as the grammar does. -/
theorem respects_grouping (depth : Nat) {l : Tier} (d : Derivation l) :
    (d.grouping depth).Respects := by
  induction d generalizing depth with
  | number | die | pool => trivial
  | enclosed _ _ _ ih => exact ih (depth + 1)
  | single _ _ ih => exact ih depth
  | @repeated l left _ op hop _ right ihl ihr =>
    subst hop
    refine ⟨?_, ?_, ihl depth, ihr depth⟩
    · have hl := left.atLeast_grouping depth
      rw [op.strength_tier] at hl
      exact hl
    · exact (right.atLeast_grouping depth).mono (Nat.add_lt_add_left op.precedence_lt_operand _)

end Derivation

end DiceOdds
