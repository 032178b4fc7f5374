import DiceOdds.Distribution.Moments
import DiceOdds.Proofs.Distribution.Convolution

/-!
# Combining is exact

The pairs of a left and a right outcome are gone through in lexicographic order, and the first one
whose result does not fit is reported. If all results fit, an outcome is listed when some pair gives
it, with the sum of the products of the chances of all pairs that give it. So no chance is lost: the
total of the combination is the product of both totals.

## Main definitions

* `Distribution.FirstOverflow`: the first pair whose result does not fit.
* `Distribution.pairMass`: the chances of all pairs with a given result.

## Main results

* `Distribution.combine_eq_error_iff`: which pair is reported.
* `Distribution.Convolves.total`: the total of a convolution.
* `Distribution.combine_exact`: what combining gives, in one.
-/

namespace DiceOdds

namespace Distribution

variable {op : Operator} {p q r : Distribution Rat}

/-! ### The pair that is reported -/

/-- The order of pairs: by the left outcome, and by the right one if the left ones are equal. -/
def Precedes (c c' : EntryPair) : Prop := c.1.1 < c'.1.1 ∨ c.1.1 = c'.1.1 ∧ c.2.1 < c'.2.1

/-- Whether the result of a pair does not fit. -/
def overflows (op : Operator) (c : EntryPair) : Bool := (op.apply c.1.1 c.2.1).isNone

theorem overflows_iff {c : EntryPair} : overflows op c = true ↔ op.apply c.1.1 c.2.1 = none :=
  Option.isNone_iff_eq_none

/-- Both outcomes occur, their result does not fit, and they are the first such pair. -/
structure FirstOverflow (op : Operator) (p q : Distribution Rat) (a b : Outcome) : Prop where
  left : p.Occurs a
  right : q.Occurs b
  overflows : op.apply a b = none
  first {a' b' : Outcome} : p.Occurs a' → q.Occurs b' → op.apply a' b' = none →
    a < a' ∨ a = a' ∧ b ≤ b'

/-- The first pair whose result does not fit is reported. -/
theorem addPairs_eq_error_iff {pairs : List EntryPair} {t : Tally Rat} {x : EvalError} :
    addPairs op pairs t = .error x ↔
      ∃ c, pairs.find? (overflows op) = some c ∧ x = .overflow op c.1.1 c.2.1 := by
  induction pairs generalizing t with
  | nil => simp [addPairs]
  | cons c pairs ih =>
    rw [addPairs]
    split
    · next hnone =>
      rw [List.find?_cons_of_pos (overflows_iff.2 hnone)]
      simp [eq_comm]
    · next n hn =>
      have hnot : ¬ overflows op c = true := by simp [overflows, hn]
      rw [List.find?_cons_of_neg hnot, ih]

/-- The pairs of two increasing lists are in order. -/
theorem pairwise_product {left right : List (Outcome × Rat)}
    (hleft : left.Pairwise fun x y => x.1 < y.1) (hright : right.Pairwise fun x y => x.1 < y.1) :
    (left ×ˢ right).Pairwise Precedes := by
  induction left with
  | nil => exact List.Pairwise.nil
  | cons x left ih =>
    obtain ⟨hhead, htail⟩ := List.pairwise_cons.1 hleft
    rw [List.product_cons, List.pairwise_append]
    refine ⟨?_, ih htail, ?_⟩
    · rw [List.pairwise_map]
      exact hright.imp fun h => .inr ⟨rfl, h⟩
    · intro c hc c' hc'
      obtain ⟨y, -, rfl⟩ := List.mem_map.1 hc
      exact .inl (hhead _ (List.mem_product.1 hc').1)

theorem pairwise_product_support (p q : Distribution Rat) :
    (p.support ×ˢ q.support).Pairwise Precedes :=
  pairwise_product (p.sorted.filter _) (q.sorted.filter _)

/-- What is found first in an ordered list comes before everything else that could be found. -/
theorem eq_or_of_find?_eq_some {α : Type} {R : α → α → Prop} {f : α → Bool} {l : List α} {x y : α}
    (hl : l.Pairwise R) (hx : l.find? f = some x) (hy : y ∈ l) (hfy : f y = true) :
    x = y ∨ R x y := by
  obtain ⟨-, before, after, rfl, hbefore⟩ := List.find?_eq_some_iff_append.1 hx
  rcases List.mem_append.1 hy with hy | hy
  · have hnot := hbefore y hy
    rw [hfy] at hnot
    cases hnot
  · rcases List.mem_cons.1 hy with rfl | hy
    · exact .inl rfl
    · exact .inr ((List.pairwise_cons.1 (List.pairwise_append.1 hl).2.1).1 y hy)

/-- A pair of outcomes that occur is a pair of the entries that are gone through. -/
theorem exists_mem_product_support {a b : Outcome} (ha : p.Occurs a) (hb : q.Occurs b) :
    ∃ w w', ((a, w), (b, w')) ∈ p.support ×ˢ q.support := by
  obtain ⟨w, hw⟩ := occurs_iff.1 ha
  obtain ⟨w', hw'⟩ := occurs_iff.1 hb
  exact ⟨w, w', mem_product_support.2 ⟨hw, hw'⟩⟩

theorem combine_eq_error_iff {x : EvalError} : combine op p q = .error x ↔
    ∃ c, (p.support ×ˢ q.support).find? (overflows op) = some c ∧
      x = .overflow op c.1.1 c.2.1 := by
  rw [← addPairs_eq_error_iff (t := ∅), ← addRows_eq_addPairs, combine]
  cases addRows op q.support p.support ∅ <;> simp

theorem firstOverflow_of_find? {c : EntryPair}
    (h : (p.support ×ˢ q.support).find? (overflows op) = some c) :
    FirstOverflow op p q c.1.1 c.2.1 := by
  obtain ⟨hleft, hright⟩ := mem_product_support.1 (List.mem_of_find?_eq_some h)
  refine ⟨occurs_iff.2 ⟨_, hleft⟩, occurs_iff.2 ⟨_, hright⟩, ?_, ?_⟩
  · exact overflows_iff.1 (List.find?_some h)
  · intro a' b' ha' hb' hnone
    obtain ⟨w, w', hmem⟩ := exists_mem_product_support ha' hb'
    rcases eq_or_of_find?_eq_some (pairwise_product_support p q) h hmem (overflows_iff.2 hnone) with
      rfl | hlt | ⟨heq, hlt⟩
    · exact .inr ⟨rfl, Int64.le_refl _⟩
    · exact .inl hlt
    · exact .inr ⟨heq, Int64.le_of_lt hlt⟩

/-! ### Chances -/

/-- The chances of all pairs of entries with a given result. -/
def pairMass (op : Operator) (p q : Distribution Rat) (n : Outcome) : Rat :=
  (((p.entries ×ˢ q.entries).filter fun c => op.apply c.1.1 c.2.1 = some n).map
    fun c => c.1.2 * c.2.2).sum

theorem sum_map_filter {α : Type} (l : List α) (f : α → Bool) (g : α → Rat) :
    ((l.filter f).map g).sum = (l.map fun x => if f x then g x else 0).sum := by
  induction l with
  | nil => rfl
  | cons x l ih =>
    rw [List.filter_cons, List.map_cons, List.sum_cons, ← ih]
    split <;> simp

/-- A chance of a convolution is the sum over the pairs with this result. -/
theorem Convolves.chance?_eq (h : Convolves op p q r) (n : Outcome) :
    (r.chance? n).getD 0 = pairMass op p q n := by
  rw [← integral_indicator, h.integral]
  have hsum := sum_product p.entries q.entries
    fun a b => if (op.apply a b).getD 0 = n then 1 else 0
  refine hsum.symm.trans ?_
  rw [pairMass, sum_map_filter]
  refine congrArg List.sum (List.map_congr_left fun c hc => ?_)
  obtain ⟨hleft, hright⟩ := List.mem_product.1 hc
  by_cases hzero : c.1.2 * c.2.2 = 0
  · simp [hzero]
  · -- Only where both outcomes occur does the result have to fit.
    obtain ⟨hw, hw'⟩ := mul_ne_zero_iff.1 hzero
    obtain ⟨m, hm⟩ := h.fits ⟨_, hleft, hw⟩ ⟨_, hright, hw'⟩
    simp [hm]

/-! ### Totals -/

theorem total_eq_integral (p : Distribution Rat) : p.total = .ok (p.integral fun _ => 1) := by
  rw [total_rat, integral]
  simp only [mul_one]
  rw [List.sum_eq_foldl, List.foldl_map]

/-- The total of a convolution is the product of both totals. -/
theorem Convolves.total (h : Convolves op p q r) :
    r.integral (fun _ => 1) = p.integral (fun _ => 1) * q.integral fun _ => 1 := by
  have hconst : ∀ c, p.integral (fun _ => c) = p.integral (fun _ => 1) * c := fun c => by
    simp only [Distribution.integral, mul_one, List.sum_map_mul_right]
  rw [h.integral, hconst]

/-! ### Combinations -/

/-- **Combining is exact.** Combining fails exactly when some outcomes of both sides with chances
that are not zero have a result that does not fit, and it reports the first such pair in
lexicographic order. Otherwise the outcomes are the results of all such pairs, the chance of each is
the sum over all pairs with this result, and the total is the product of both totals. -/
theorem combine_exact (op : Operator) (p q : Distribution Rat) :
    match combine op p q with
    | .ok r =>
      (∀ a b, p.Occurs a → q.Occurs b → op.apply a b ≠ none) ∧
        (∀ n, r.Lists n ↔ ∃ a b, p.Occurs a ∧ q.Occurs b ∧ op.apply a b = some n) ∧
        (∀ n c, r.chance? n = some c → c = pairMass op p q n) ∧
        ∃ t u, p.total = .ok t ∧ q.total = .ok u ∧ r.total = .ok (t * u)
    | .error x => ∃ a b, FirstOverflow op p q a b ∧ x = .overflow op a b := by
  cases hcombine : combine op p q with
  | ok r =>
    have h := convolves_of_combine hcombine
    refine ⟨fun a b ha hb => ?_, h.lists, fun n c hc => ?_, _, _, p.total_eq_integral,
      q.total_eq_integral, ?_⟩
    · obtain ⟨n, hn⟩ := h.fits ha hb
      rw [hn]
      exact Option.some_ne_none n
    · rw [← h.chance?_eq, hc, Option.getD_some]
    · rw [total_eq_integral, h.total]
  | error x =>
    obtain ⟨c, hc, hx⟩ := combine_eq_error_iff.1 hcombine
    exact ⟨c.1.1, c.2.1, firstOverflow_of_find? hc, hx⟩

end Distribution

end DiceOdds
