import DiceOdds.Expr.Bounds
import Mathlib.Algebra.Order.Ring.Int
import Mathlib.Data.Int.ConditionallyCompleteOrder
import Mathlib.Order.ConditionallyCompleteLattice.Basic
import Mathlib.Order.Interval.Set.UnorderedInterval

/-!
# Operators on ranges are exact

With one side fixed, every operator either rises with the other side or falls with it. The results
on two ranges therefore lie between those at the four corners. So a result inside the ranges fits in
64 bits as soon as the corners do, and the range of the results is spanned by the corners, which are
results themselves.

## Main definitions

* `Operator.exact`: the result of an operator on unbounded integers.
* `Range.Spans`: a range whose ends are the least and the greatest of some outcomes.
* `Operator.Results`: the results of an operator on two sets of outcomes.

## Main results

* `Operator.exact_mem_Icc`: what holds the corners holds everything between them.
* `Range.Spans.combine`, `Range.exists_of_combine_eq_error`: ranges of operators are exact.
-/

open Set

namespace DiceOdds

/-! ### Operators between corners -/

namespace Operator

/-- The result on two integers, whatever its size. -/
def exact (op : Operator) (x y : Int) : Int :=
  match op with
  | add => x + y
  | sub => x - y
  | mul => x * y
  | greater => if x > y then 1 else 0

theorem apply_eq_ofInt?_exact (op : Operator) (a b : Outcome) :
    op.apply a b = Outcome.ofInt? (op.exact a.toInt b.toInt) := by
  cases op with
  | add | sub | mul => rfl
  | greater =>
    simp only [apply, exact, gt_iff_lt, Int64.lt_iff_toInt_lt]
    split <;> rfl

theorem toInt_of_apply {op : Operator} {a b n : Outcome} (h : op.apply a b = some n) :
    n.toInt = op.exact a.toInt b.toInt := by
  rw [apply_eq_ofInt?_exact] at h
  exact Outcome.ofInt?_eq_some_iff.1 h

theorem exact_left_monotone_or_antitone (op : Operator) (y : Int) :
    Monotone (op.exact · y) ∨ Antitone (op.exact · y) := by
  cases op with
  | add => exact .inl fun x x' hx => Int.add_le_add_right hx y
  | sub => exact .inl fun x x' hx => Int.sub_le_sub_right hx y
  | mul =>
    rcases le_total 0 y with hy | hy
    · exact .inl fun x x' hx => mul_le_mul_of_nonneg_right hx hy
    · exact .inr fun x x' hx => mul_le_mul_of_nonpos_right hx hy
  | greater =>
    refine .inl fun x x' hx => ?_
    simp only [exact]
    split_ifs <;> omega

theorem exact_right_monotone_or_antitone (op : Operator) (x : Int) :
    Monotone (op.exact x) ∨ Antitone (op.exact x) := by
  cases op with
  | add => exact .inl fun y y' hy => Int.add_le_add_left hy x
  | sub => exact .inr fun y y' hy => Int.sub_le_sub_left hy x
  | mul =>
    rcases le_total 0 x with hx | hx
    · exact .inl fun y y' hy => mul_le_mul_of_nonneg_left hy hx
    · exact .inr fun y y' hy => mul_le_mul_of_nonpos_left hy hx
  | greater =>
    refine .inr fun y y' hy => ?_
    simp only [exact]
    split_ifs <;> omega

/-- A function that rises everywhere or falls everywhere stays between its values at two ends. -/
theorem mem_Icc_of_ends {f : Int → Int} (hf : Monotone f ∨ Antitone f) {x₀ x x₁ : Int}
    (hx : x ∈ Icc x₀ x₁) {m M : Int} (h₀ : f x₀ ∈ Icc m M) (h₁ : f x₁ ∈ Icc m M) :
    f x ∈ Icc m M := by
  have hbetween : f x ∈ uIcc (f x₀) (f x₁) := by
    rcases hf with hf | hf
    · exact hf.mapsTo_uIcc (Icc_subset_uIcc hx)
    · exact hf.mapsTo_uIcc (Icc_subset_uIcc hx)
  exact uIcc_subset_Icc h₀ h₁ hbetween

/-- **Between the corners.** An interval that holds the results at the four corners of two ranges
holds all results on these ranges. -/
theorem exact_mem_Icc (op : Operator) {x₀ x x₁ y₀ y y₁ m M : Int} (hx : x ∈ Icc x₀ x₁)
    (hy : y ∈ Icc y₀ y₁) (h₀₀ : op.exact x₀ y₀ ∈ Icc m M) (h₀₁ : op.exact x₀ y₁ ∈ Icc m M)
    (h₁₀ : op.exact x₁ y₀ ∈ Icc m M) (h₁₁ : op.exact x₁ y₁ ∈ Icc m M) :
    op.exact x y ∈ Icc m M := by
  have h₀ : op.exact x₀ y ∈ Icc m M :=
    mem_Icc_of_ends (op.exact_right_monotone_or_antitone x₀) hy h₀₀ h₀₁
  have h₁ : op.exact x₁ y ∈ Icc m M :=
    mem_Icc_of_ends (op.exact_right_monotone_or_antitone x₁) hy h₁₀ h₁₁
  exact mem_Icc_of_ends (op.exact_left_monotone_or_antitone y) hx h₀ h₁

/-- The results of an operator on outcomes of two kinds. -/
def Results (op : Operator) (S T : Outcome → Prop) (n : Outcome) : Prop :=
  ∃ a b, S a ∧ T b ∧ op.apply a b = some n

end Operator

/-- An integer between two outcomes is an outcome. -/
theorem Outcome.exists_ofInt? {n : Int} {a b : Outcome} (h : n ∈ Icc a.toInt b.toInt) :
    ∃ c, ofInt? n = some c := by
  have hlow := a.le_toInt
  have hhigh := b.toInt_lt
  obtain ⟨ha, hb⟩ := h
  cases hn : ofInt? n with
  | none =>
    have hout := ofInt?_eq_none_iff.1 hn
    omega
  | some c => exact ⟨c, rfl⟩

/-! ### Ranges -/

namespace Range

variable {r a b : Range} {S T : Outcome → Prop} {op : Operator}

/-- The ends of the range are the least and the greatest of some outcomes. -/
structure Spans (r : Range) (S : Outcome → Prop) : Prop where
  low : S r.low
  high : S r.high
  covers {n : Outcome} : S n → n.toInt ∈ Icc r.low.toInt r.high.toInt

theorem spans_single (n : Outcome) : (single n).Spans (· = n) :=
  ⟨rfl, rfl, fun h => by rw [h]; exact ⟨le_rfl, le_rfl⟩⟩

theorem Spans.insert (h : r.Spans S) (n : Outcome) : (r.insert n).Spans fun k => S k ∨ k = n := by
  have hlow : (r.insert n).low = if r.low ≤ n then r.low else n := rfl
  have hhigh : (r.insert n).high = if r.high ≤ n then n else r.high := rfl
  simp only [Int64.le_iff_toInt_le] at hlow hhigh
  refine ⟨?_, ?_, fun {k} hk => ?_⟩
  · rw [hlow]
    split
    · exact .inl h.low
    · exact .inr rfl
  · rw [hhigh]
    split
    · exact .inr rfl
    · exact .inl h.high
  · have hbetween : k.toInt ∈ Icc r.low.toInt r.high.toInt ∨ k = n := hk.imp_left h.covers
    simp only [mem_Icc] at hbetween ⊢
    rw [hlow, hhigh]
    rcases hbetween with hbetween | rfl <;> split_ifs <;> omega

/-- Further outcomes between the ends do not change the range. -/
theorem Spans.extend (h : r.Spans S) (hST : ∀ n, S n → T n)
    (hcovers : ∀ n, T n → n.toInt ∈ Icc r.low.toInt r.high.toInt) : r.Spans T :=
  ⟨hST _ h.low, hST _ h.high, fun {n} hn => hcovers n hn⟩

/-! ### Corners -/

theorem exists_of_corners_eq_ok (h : corners op a b = .ok r) :
    ∃ k l m n, op.apply a.low b.low = some k ∧ op.apply a.low b.high = some l ∧
      op.apply a.high b.low = some m ∧ op.apply a.high b.high = some n ∧
        r = (((single k).insert l).insert m).insert n := by
  simp only [corners, bind, bind_eq_ok_iff, Operator.evaluate_eq_ok_iff] at h
  obtain ⟨k, hk, l, hl, m, hm, n, hn, hr⟩ := h
  exact ⟨k, l, m, n, hk, hl, hm, hn, (Except.ok.inj hr).symm⟩

/-- A corner that does not fit is a pair of ends. -/
theorem exists_of_corners_eq_error {x : EvalError} (h : corners op a b = .error x) :
    ∃ u v, (u = a.low ∨ u = a.high) ∧ (v = b.low ∨ v = b.high) ∧ op.apply u v = none ∧
      x = .overflow op u v := by
  simp only [corners, bind, bind_eq_error_iff, Operator.evaluate_eq_error_iff] at h
  obtain h | ⟨_, -, h | ⟨_, -, h | ⟨_, -, h | ⟨_, -, h⟩⟩⟩⟩ := h
  · exact ⟨_, _, .inl rfl, .inl rfl, h⟩
  · exact ⟨_, _, .inl rfl, .inr rfl, h⟩
  · exact ⟨_, _, .inr rfl, .inl rfl, h⟩
  · exact ⟨_, _, .inr rfl, .inr rfl, h⟩
  · cases h

/-- Corners that fit span the results, and no result on the ranges is too large. -/
theorem Spans.corners (ha : a.Spans S) (hb : b.Spans T) (h : corners op a b = .ok r) :
    (∀ u v, S u → T v → ∃ n, op.apply u v = some n) ∧ r.Spans (op.Results S T) := by
  obtain ⟨k, l, m, n, hk, hl, hm, hn, rfl⟩ := exists_of_corners_eq_ok h
  have hspans := (((spans_single k).insert l).insert m).insert n
  generalize (((single k).insert l).insert m).insert n = r at hspans
  -- Each corner is in the range, so everything between the corners is.
  have hexact : ∀ u v, S u → T v → op.exact u.toInt v.toInt ∈ Icc r.low.toInt r.high.toInt := by
    intro u v hu hv
    refine op.exact_mem_Icc (ha.covers hu) (hb.covers hv) ?_ ?_ ?_ ?_
    · rw [← Operator.toInt_of_apply hk]
      exact hspans.covers (.inl (.inl (.inl rfl)))
    · rw [← Operator.toInt_of_apply hl]
      exact hspans.covers (.inl (.inl (.inr rfl)))
    · rw [← Operator.toInt_of_apply hm]
      exact hspans.covers (.inl (.inr rfl))
    · rw [← Operator.toInt_of_apply hn]
      exact hspans.covers (.inr rfl)
  refine ⟨fun u v hu hv => ?_, hspans.extend ?_ ?_⟩
  · rw [op.apply_eq_ofInt?_exact]
    exact Outcome.exists_ofInt? (hexact u v hu hv)
  · rintro c (((rfl | rfl) | rfl) | rfl)
    · exact ⟨_, _, ha.low, hb.low, hk⟩
    · exact ⟨_, _, ha.low, hb.high, hl⟩
    · exact ⟨_, _, ha.high, hb.low, hm⟩
    · exact ⟨_, _, ha.high, hb.high, hn⟩
  · rintro c ⟨u, v, hu, hv, hc⟩
    rw [Operator.toInt_of_apply hc]
    exact hexact u v hu hv

/-! ### Comparisons -/

/-- The results of a comparison lie between those of the least left side with the greatest right
side and of the greatest left side with the least right side. -/
theorem Spans.comparison (ha : a.Spans S) (hb : b.Spans T) :
    (comparison a b).Spans (Operator.Results .greater S T) := by
  have hlow : Operator.apply .greater a.low b.high = some (Range.comparison a b).low := rfl
  have hhigh : Operator.apply .greater a.high b.low = some (Range.comparison a b).high := by
    simp only [Operator.apply, Range.comparison, gt_iff_lt, Int64.lt_iff_toInt_lt,
      Int64.le_iff_toInt_le]
    split_ifs <;> first | rfl | omega
  refine ⟨⟨_, _, ha.low, hb.high, hlow⟩, ⟨_, _, ha.high, hb.low, hhigh⟩, ?_⟩
  rintro n ⟨u, v, hu, hv, hn⟩
  have hu := ha.covers hu
  have hv := hb.covers hv
  rw [mem_Icc] at hu hv ⊢
  rw [Operator.toInt_of_apply hn, Operator.toInt_of_apply hlow, Operator.toInt_of_apply hhigh]
  simp only [Operator.exact]
  split_ifs <;> omega

/-- **Ranges of operators.** The range of an operator, when there is one, is exact, and no result
on the ranges of its operands is too large. -/
theorem Spans.combine (ha : a.Spans S) (hb : b.Spans T) (h : combine op a b = .ok r) :
    (∀ u v, S u → T v → ∃ n, op.apply u v = some n) ∧ r.Spans (op.Results S T) := by
  cases op with
  | add | sub | mul => exact ha.corners hb h
  | greater =>
    cases h
    exact ⟨fun u v _ _ => ⟨_, rfl⟩, ha.comparison hb⟩

/-- A range is missing only where a result at a corner is too large. -/
theorem exists_of_combine_eq_error {x : EvalError} (h : combine op a b = .error x) :
    ∃ u v, (u = a.low ∨ u = a.high) ∧ (v = b.low ∨ v = b.high) ∧ op.apply u v = none ∧
      x = .overflow op u v := by
  cases op with
  | add | sub | mul => exact exists_of_corners_eq_error h
  | greater => cases h

/-- Then there are operands whose result is too large. -/
theorem Spans.exists_apply_eq_none (ha : a.Spans S) (hb : b.Spans T) {x : EvalError}
    (h : Range.combine op a b = .error x) : ∃ u v, S u ∧ T v ∧ op.apply u v = none := by
  obtain ⟨u, v, hu, hv, hnone, -⟩ := exists_of_combine_eq_error h
  refine ⟨u, v, ?_, ?_, hnone⟩
  · rcases hu with rfl | rfl
    · exact ha.low
    · exact ha.high
  · rcases hv with rfl | rfl
    · exact hb.low
    · exact hb.high

end Range

end DiceOdds
