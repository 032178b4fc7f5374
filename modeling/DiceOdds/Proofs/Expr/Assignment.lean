import DiceOdds.Expr.Basic
import Mathlib.Data.Fintype.BigOperators

/-!
# Assignments of results to dice

An assignment gives every die of an expression, independently of all others, one of its faces. Under
an assignment an expression either has a value, or one of its operators has a result that does not
fit. If every die has a face, then every assignment of the dice of a part can be completed.

## Main definitions

* `Expr.HasFaces`: every die has at least one face.
* `Expr.Assignment`: a face for every die.
* `Expr.value`: the value under an assignment, unless a result does not fit.
* `Expr.Total`: there is a value under every assignment.
* `Expr.worlds`, `Expr.ways`: the product of the numbers of faces, and how many assignments give an
  outcome.

## Main results

* `Expr.card_assignment`: how many assignments there are.
* `Expr.exists_value_die_iff`: the results of a die.
* `Expr.value_binary_eq_some_iff`: the value of an operator node comes from those of its operands.
-/

open Finset

namespace DiceOdds

namespace Expr

/-- Every die has at least one face. -/
def HasFaces : Expr → Prop
  | constant _ => True
  | die faces => 1 ≤ faces.toInt
  | binary _ left right => left.HasFaces ∧ right.HasFaces

/-- A face for every die, counted from zero. -/
def Assignment : Expr → Type
  | constant _ => Unit
  | die faces => Fin faces.toNatClampNeg
  | binary _ left right => left.Assignment × right.Assignment

/-- The value under an assignment, unless the result of an operator does not fit. -/
def value : (e : Expr) → e.Assignment → Option Outcome
  | constant n, _ => some n
  | die faces, k => some (Int64.ofNat ((k : Fin faces.toNatClampNeg).val + 1))
  | binary op left right, (x, y) =>
    (left.value x).bind fun a => (right.value y).bind fun b => op.apply a b

/-- There is a value under every assignment. -/
def Total (e : Expr) : Prop := ∀ x, ∃ n, e.value x = some n

/-- The product of the numbers of faces of all dice. -/
def worlds : Expr → Nat
  | constant _ => 1
  | die faces => faces.toNatClampNeg
  | binary _ left right => left.worlds * right.worlds

instance fintypeAssignment : (e : Expr) → Fintype e.Assignment
  | constant _ => inferInstanceAs (Fintype Unit)
  | die faces => inferInstanceAs (Fintype (Fin faces.toNatClampNeg))
  | binary _ left right =>
    @instFintypeProd _ _ (fintypeAssignment left) (fintypeAssignment right)

/-- How many assignments give an outcome. -/
def ways (e : Expr) (n : Outcome) : Nat := (univ.filter fun x => e.value x = some n).card

/-! ### Sums over assignments -/

section

variable {M : Type} [AddCommMonoid M]

theorem sum_assignment_constant (n : Outcome) (f : (constant n).Assignment → M) :
    ∑ x, f x = f () :=
  @Fintype.sum_unique M Unit _ _ _ f

theorem sum_assignment_die (faces : Outcome) (f : (die faces).Assignment → M) :
    ∑ x, f x = ∑ k : Fin faces.toNatClampNeg, f k := rfl

theorem sum_assignment_binary (op : Operator) (left right : Expr)
    (f : (binary op left right).Assignment → M) :
    ∑ z, f z = ∑ x : left.Assignment, ∑ y : right.Assignment, f (x, y) :=
  Fintype.sum_prod_type f

end

theorem card_assignment (e : Expr) : Fintype.card e.Assignment = e.worlds := by
  induction e with
  | constant n => rfl
  | die faces => exact Fintype.card_fin _
  | binary op left right ihl ihr =>
    rw [worlds, ← ihl, ← ihr]
    exact Fintype.card_prod _ _

/-! ### Dice with faces -/

theorem le_zero_iff {faces : Outcome} : faces ≤ 0 ↔ ¬ 1 ≤ faces.toInt := by
  rw [Int64.le_iff_toInt_le, Int.not_le]
  exact Int.lt_add_one_iff.symm

theorem toNatClampNeg_pos {faces : Outcome} (h : 1 ≤ faces.toInt) : 0 < faces.toNatClampNeg := by
  rw [← Int64.toNat_toInt]
  omega

theorem worlds_pos {e : Expr} (h : e.HasFaces) : 0 < e.worlds := by
  induction e with
  | constant n => exact Nat.one_pos
  | die faces => exact toNatClampNeg_pos h
  | binary op left right ihl ihr => exact Nat.mul_pos (ihl h.1) (ihr h.2)

/-- If every die has a face, there is an assignment. -/
theorem nonempty_assignment {e : Expr} (h : e.HasFaces) : Nonempty e.Assignment := by
  rw [← Fintype.card_pos_iff, card_assignment]
  exact worlds_pos h

/-! ### Values -/

/-- The results of a die are the numbers from one to its number of faces. -/
theorem exists_value_die_iff {faces n : Outcome} :
    (∃ x, (die faces).value x = some n) ↔ 1 ≤ n.toInt ∧ n.toInt ≤ faces.toInt := by
  have hfaces := faces.toInt_lt
  have hclamp := faces.toNat_toInt
  refine ⟨?_, ?_⟩
  · rintro ⟨⟨k, hk⟩, hn⟩
    have hvalue : (Int64.ofNat (k + 1)).toInt = k + 1 := Int64.toInt_ofNat_of_lt (by omega)
    rw [← Option.some.inj hn, hvalue]
    omega
  · rintro ⟨hleast, hgreatest⟩
    obtain ⟨k, hk⟩ := Int.eq_ofNat_of_zero_le (Int.sub_nonneg.2 hleast)
    refine ⟨(⟨k, by omega⟩ : Fin faces.toNatClampNeg), congrArg some (Int64.toInt_inj.1 ?_)⟩
    have hvalue : (Int64.ofNat (k + 1)).toInt = k + 1 := Int64.toInt_ofNat_of_lt (by omega)
    rw [hvalue]
    omega

theorem ways_ne_zero_iff {e : Expr} {n : Outcome} :
    e.ways n ≠ 0 ↔ ∃ x, e.value x = some n := by
  simp [ways, Finset.card_eq_zero, Finset.filter_eq_empty_iff]

variable {op : Operator} {left right : Expr}

theorem value_binary_eq_some_iff {x : left.Assignment} {y : right.Assignment} {n : Outcome} :
    (binary op left right).value (x, y) = some n ↔
      ∃ a b, left.value x = some a ∧ right.value y = some b ∧ op.apply a b = some n := by
  rw [value]
  simp only [Option.bind_eq_some_iff]
  refine ⟨?_, ?_⟩
  · rintro ⟨a, ha, b, hb, hn⟩
    exact ⟨a, b, ha, hb, hn⟩
  · rintro ⟨a, b, ha, hb, hn⟩
    exact ⟨a, ha, b, hb, hn⟩

/-- The operators of both operands have results that fit, if the operator itself always does and
both operands have dice with faces. -/
theorem Total.of_binary (h : (binary op left right).Total)
    (hfaces : (binary op left right).HasFaces) : left.Total ∧ right.Total := by
  obtain ⟨x₀⟩ := nonempty_assignment hfaces.1
  obtain ⟨y₀⟩ := nonempty_assignment hfaces.2
  refine ⟨fun x => ?_, fun y => ?_⟩
  · obtain ⟨n, hn⟩ := h (x, y₀)
    obtain ⟨a, _, ha, _, _⟩ := value_binary_eq_some_iff.1 hn
    exact ⟨a, ha⟩
  · obtain ⟨n, hn⟩ := h (x₀, y)
    obtain ⟨_, b, _, hb, _⟩ := value_binary_eq_some_iff.1 hn
    exact ⟨b, hb⟩

theorem Total.apply (h : (binary op left right).Total) {x : left.Assignment}
    {y : right.Assignment} {a b : Outcome} (ha : left.value x = some a)
    (hb : right.value y = some b) : ∃ n, op.apply a b = some n := by
  obtain ⟨n, hn⟩ := h (x, y)
  obtain ⟨a', b', ha', hb', hn'⟩ := value_binary_eq_some_iff.1 hn
  rw [ha] at ha'
  rw [hb] at hb'
  cases ha'
  cases hb'
  exact ⟨n, hn'⟩

end Expr

end DiceOdds
