import DiceOdds.Expr.Random
import DiceOdds.Proofs.Expr.Height
import DiceOdds.Proofs.Words.Coverage

/-!
# What random expressions there are

A random expression stays within the height and the bound it is made for, and every expression
within them is made by some words: the coin that decides between a leaf and an operator, the number
of a leaf with the coin for its kind, the operator, and then the words of the left and of the right
operand. At the height zero there is no coin for a leaf.

## Main definitions

* `Expr.NumbersTo`: the numbers of an expression are from one to a bound.

## Main results

* `Draw.covers_expr`: the expressions that are drawn.
* `Expr.random?_space`: random expressions are the expressions of their height and bound.
-/

namespace DiceOdds

namespace Expr

/-- All constants and numbers of faces are from one to a bound. -/
def NumbersTo (bound : Outcome) : Expr → Prop
  | constant n => 1 ≤ n.toInt ∧ n.toInt ≤ bound.toInt
  | die faces => 1 ≤ faces.toInt ∧ faces.toInt ≤ bound.toInt
  | binary _ left right => left.NumbersTo bound ∧ right.NumbersTo bound

end Expr

namespace Draw

variable {bound : Outcome}

theorem covers_operator : operator.Covers fun _ => True := by
  have hmap := covers_word_map fun x => Operator.all.getD (x.toUInt32 >>> 30).toNat .add
  refine hmap.congr fun op => ?_
  simp only [iff_true]
  -- The two upper bits of the lower half of a word are the place of the operator.
  cases op with
  | add => exact ⟨0, by decide⟩
  | sub => exact ⟨0x40000000, by decide⟩
  | mul => exact ⟨0x80000000, by decide⟩
  | greater => exact ⟨0xc0000000, by decide⟩

theorem covers_leaf (h : 1 ≤ bound.toInt) :
    (leaf bound).Covers fun e => e.height = 0 ∧ e.NumbersTo bound := by
  have hcoin : (trueOnceIn 2).Covers fun _ => True := covers_trueOnceIn (by decide) (by decide)
  have hleaf := (covers_oneTo h).bind fun n _ => hcoin.bind fun isDie _ =>
    covers_pure (if isDie then Expr.die n else .constant n)
  refine hleaf.congr fun e => ⟨?_, ?_⟩
  · rintro ⟨n, hn, isDie, -, rfl⟩
    cases isDie with
    | true => exact ⟨rfl, hn⟩
    | false => exact ⟨rfl, hn⟩
  · rintro ⟨hheight, hnumbers⟩
    cases e with
    | constant n => exact ⟨n, hnumbers, false, trivial, rfl⟩
    | die faces => exact ⟨faces, hnumbers, true, trivial, rfl⟩
    | binary op left right => cases hheight

/-- An operator with two operands, each of which is drawn in the same way. -/
theorem covers_node {d : Draw Expr} {P : Expr → Prop} (h : d.Covers P) :
    (do
      let op ← operator
      let left ← d
      let right ← d
      return .binary op left right : Draw Expr).Covers
      fun e => ∃ op left right, P left ∧ P right ∧ .binary op left right = e := by
  have hnode := covers_operator.bind fun op _ => h.bind fun left _ => h.bind fun right _ =>
    covers_pure (Expr.binary op left right)
  refine hnode.congr fun e => ⟨?_, ?_⟩
  · rintro ⟨op, -, left, hleft, right, hright, he⟩
    exact ⟨op, left, right, hleft, hright, he.symm⟩
  · rintro ⟨op, left, right, hleft, hright, he⟩
    exact ⟨op, trivial, left, hleft, right, hright, he.symm⟩

/-- **The expressions that are drawn** are those of the height with numbers up to the bound. -/
theorem covers_expr (h : 1 ≤ bound.toInt) (height : Nat) :
    (expr bound height).Covers fun e => e.height ≤ height ∧ e.NumbersTo bound := by
  induction height with
  | zero => exact (covers_leaf h).congr fun e => by rw [Nat.le_zero]
  | succ height ih =>
    have hcoin : (trueOnceIn 4).Covers fun _ => True := covers_trueOnceIn (by decide) (by decide)
    have hexpr := hcoin.bind fun isLeaf _ => (covers_leaf h).ite isLeaf (covers_node ih)
    refine hexpr.congr fun e => ⟨?_, ?_⟩
    · rintro ⟨isLeaf, -, he⟩
      cases isLeaf with
      | true => exact ⟨Nat.le_trans (Nat.le_of_eq he.1) (Nat.zero_le _), he.2⟩
      | false =>
        obtain ⟨op, left, right, ⟨hl, hnl⟩, ⟨hr, hnr⟩, rfl⟩ := he
        exact ⟨Expr.height_binary_le_iff.2 ⟨hl, hr⟩, hnl, hnr⟩
    · rintro ⟨hheight, hnumbers⟩
      cases e with
      | constant n => exact ⟨true, trivial, rfl, hnumbers⟩
      | die faces => exact ⟨true, trivial, rfl, hnumbers⟩
      | binary op left right =>
        obtain ⟨hl, hr⟩ := Expr.height_binary_le_iff.1 hheight
        exact ⟨false, trivial, op, left, right, ⟨hl, hnumbers.1⟩, ⟨hr, hnumbers.2⟩, rfl⟩

end Draw

namespace Expr

/-- **The space of random expressions.** With a positive bound every sequence of words makes an
expression with at most the given number of operators on every path from the root and with all
numbers from one to the bound, and every such expression is made by some words. -/
theorem random?_space (height : Nat) {bound : Outcome} (h : 1 ≤ bound.toInt) :
    (∀ w : Words, ∃ e, (random? height bound w).1 = some e ∧
      (∀ k, e.Path k → k ≤ height) ∧ e.NumbersTo bound) ∧
      ∀ e : Expr, (∀ k, e.Path k → k ≤ height) → e.NumbersTo bound →
        ∃ word, (random? height bound (.fresh word)).1 = some e := by
  have hcovers := Draw.covers_expr h height
  have hbound : ¬ bound < 1 := fun hlt => absurd (Int64.lt_iff_toInt_lt.1 hlt) (Int.not_lt.2 h)
  have hrandom : ∀ w, (random? height bound w).1 = some (Draw.expr bound height w).1 := by
    intro w
    rw [random?, if_neg hbound]
    rfl
  simp only [← height_le_iff]
  refine ⟨fun w => ⟨_, hrandom w, hcovers.sound w⟩, fun e hheight hnumbers => ?_⟩
  obtain ⟨script, hscript⟩ := hcovers.complete ⟨hheight, hnumbers⟩
  refine ⟨fun k => script[k]?.getD 0, ?_⟩
  rw [hrandom, hscript _ (Words.begins_fresh script)]

/-- A comparison of height two with a constant, a die and a subtraction is made with the bound
six. -/
theorem random?_space_comparison :
    1 ≤ (6 : Outcome).toInt ∧
      ∃ word, (random? 2 6 (.fresh word)).1 = some (.binary .greater (.constant 6)
        (.binary .sub (.die 1) (.constant 4))) := by
  have h : 1 ≤ (6 : Outcome).toInt := by decide
  refine ⟨h, (random?_space 2 h).2 _ ?_ ?_⟩
  · exact height_le_iff.1 (by decide)
  · simp only [NumbersTo]
    decide

end Expr

end DiceOdds
