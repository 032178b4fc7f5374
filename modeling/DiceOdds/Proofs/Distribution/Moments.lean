import DiceOdds.Proofs.Distribution.Exactness
import DiceOdds.Proofs.Range.Corners

/-!
# Moments of independent outcomes

Total, mean and variance of a distribution over exact fractions are integrals, and integrating
against a convolution is integrating against both sides. A sum and a difference are linear in the
right outcome, so their means are linear too; that of a product is a product. The variance is taken
around the mean: if both totals are one, the distances from the two means have integral zero, and so
the product of the distances does not contribute.

## Main definitions

* `Distribution.mass`, `Distribution.expectation`, `Distribution.spread`: total, mean and variance
  as fractions.
* `Operator.LinearRight`: an operator that adds a multiple of the right side to the left side.

## Main results

* `Distribution.total_eq_mass`, `Distribution.mean_eq_expectation`,
  `Distribution.variance_eq_spread`: the sums over the entries are these integrals.
* `Distribution.Convolves.expectation_linear`, `Distribution.Convolves.spread_linear`: moments of
  sums and differences.
* `Distribution.moments_combine`: mean and variance of a combination.
-/

namespace DiceOdds

namespace Distribution

/-! ### Moments as integrals -/

/-- The sum of all chances. -/
def mass (p : Distribution Rat) : Rat := p.integral fun _ => 1

/-- The mean outcome, if the chances add up to one. -/
def expectation (p : Distribution Rat) : Rat := p.integral fun n => n.toInt

/-- The integral of the squared distance from the mean. -/
def spread (p : Distribution Rat) : Rat := p.integral fun n => (n.toInt - p.expectation) ^ 2

theorem total_eq_mass (p : Distribution Rat) : p.total = .ok p.mass := p.total_eq_integral

theorem weightedSum_eq_integral (f : Rat → Rat) (p : Distribution Rat) :
    p.weightedSum (fun n => some (f n)) = .ok (p.integral fun n => f n.toInt) := by
  rw [weightedSum_rat, integral, List.sum_eq_foldl, List.foldl_map]
  simp only [mul_comm]

theorem mean_eq_expectation (p : Distribution Rat) : p.mean = .ok p.expectation :=
  weightedSum_eq_integral id p

theorem variance_eq_spread (p : Distribution Rat) : p.variance = .ok p.spread := by
  have hsquare := weightedSum_eq_integral (fun x => (x - p.expectation) ^ 2) p
  simp only [sq] at hsquare
  rw [variance, mean_eq_expectation, spread]
  simp only [sq]
  exact hsquare

/-! ### Integrals of linear observables -/

variable {op : Operator} {p q r : Distribution Rat}

theorem integral_const (p : Distribution Rat) (c : Rat) : p.integral (fun _ => c) = c * p.mass := by
  rw [mass, ← integral_mul_left, mul_one]

/-- Where the results fit they are the exact ones, so integrals use those. -/
theorem Convolves.integral_exact (h : Convolves op p q r) (g : Int → Rat) :
    (r.integral fun n => g n.toInt) =
      p.integral fun a => q.integral fun b => g (op.exact a.toInt b.toInt) := by
  rw [h.integral]
  refine integral_congr fun a ha => integral_congr fun b hb => ?_
  obtain ⟨n, hn⟩ := h.fits ha hb
  rw [hn, Option.getD_some, Operator.toInt_of_apply hn]

/-- The distances from the mean have integral zero. -/
theorem integral_sub_expectation (hp : p.mass = 1) :
    (p.integral fun n => n.toInt - p.expectation) = 0 := by
  rw [integral_sub, integral_const, hp, mul_one]
  exact sub_self p.expectation

end Distribution

/-! ### Sums and differences -/

/-- The operator adds a multiple of the right side to the left side. -/
def Operator.LinearRight (op : Operator) (c : Rat) : Prop :=
  ∀ x y : Int, (op.exact x y : Rat) = x + c * y

theorem Operator.linearRight_add : LinearRight add 1 := fun x y => by
  simp [exact]

theorem Operator.linearRight_sub : LinearRight sub (-1) := fun x y => by
  simp [exact, sub_eq_add_neg]

namespace Distribution

variable {op : Operator} {p q r : Distribution Rat} {c : Rat}

theorem Convolves.expectation_linear (h : Convolves op p q r) (hop : op.LinearRight c) :
    r.expectation = p.expectation * q.mass + c * (p.mass * q.expectation) := by
  have hlinear : ∀ x y : Int, (op.exact x y : Rat) = x + c * y := hop
  rw [expectation, h.integral_exact fun x => x]
  simp only [hlinear, integral_add, integral_mul_left, integral_mul_right, integral_const]
  rw [← expectation, ← expectation]
  ring

theorem Convolves.expectation_mul (h : Convolves .mul p q r) :
    r.expectation = p.expectation * q.expectation := by
  rw [expectation, h.integral_exact fun x => x]
  simp only [Operator.exact, Int.cast_mul, integral_mul_left, integral_mul_right]
  rfl

/-- The variance of a sum or a difference of independent outcomes. -/
theorem Convolves.spread_linear (h : Convolves op p q r) (hop : op.LinearRight c) (hp : p.mass = 1)
    (hq : q.mass = 1) : r.spread = p.spread + c ^ 2 * q.spread := by
  have hmean : r.expectation = p.expectation + c * q.expectation := by
    rw [h.expectation_linear hop, hp, hq, mul_one, one_mul]
  -- The square of the distance, with the product of both distances in the middle.
  have hsquare : ∀ a b : Outcome, ((op.exact a.toInt b.toInt : Rat) - r.expectation) ^ 2 =
      (a.toInt - p.expectation) ^ 2 +
        (2 * c * (a.toInt - p.expectation) * (b.toInt - q.expectation) +
          c ^ 2 * (b.toInt - q.expectation) ^ 2) := fun a b => by
    rw [hop, hmean]
    ring
  rw [spread, h.integral_exact fun x => (x - r.expectation) ^ 2]
  simp only [hsquare, integral_add, integral_mul_left, integral_mul_right, integral_const,
    integral_sub_expectation hp, hp, hq]
  rw [← spread, ← spread]
  ring

/-! ### Combinations -/

/-- **Moments of independent outcomes.** If they exist, the mean of the sum is that of the left side
times the total of the right side plus the total of the left side times the mean of the right side,
that of the difference likewise, and that of the product is the product of both. If both totals are
one, then the variance of the sum and of the difference is the sum of both variances. -/
theorem moments_combine (p q : Distribution Rat) :
    ∃ t u m n v w, (p.total = .ok t ∧ q.total = .ok u) ∧ (p.mean = .ok m ∧ q.mean = .ok n) ∧
      (p.variance = .ok v ∧ q.variance = .ok w) ∧
      (∀ r, combine .add p q = .ok r → r.mean = .ok (m * u + t * n)) ∧
      (∀ r, combine .sub p q = .ok r → r.mean = .ok (m * u - t * n)) ∧
      (∀ r, combine .mul p q = .ok r → r.mean = .ok (m * n)) ∧
      (t = 1 → u = 1 → ∀ op r, op = .add ∨ op = .sub → combine op p q = .ok r →
        r.variance = .ok (v + w)) := by
  refine ⟨_, _, _, _, _, _, ⟨p.total_eq_mass, q.total_eq_mass⟩,
    ⟨p.mean_eq_expectation, q.mean_eq_expectation⟩,
    ⟨p.variance_eq_spread, q.variance_eq_spread⟩, fun r hr => ?_, fun r hr => ?_, fun r hr => ?_,
    fun hp hq op r hop hr => ?_⟩
  · have h := (convolves_of_combine hr).expectation_linear Operator.linearRight_add
    rw [mean_eq_expectation, h, one_mul]
  · have h := (convolves_of_combine hr).expectation_linear Operator.linearRight_sub
    rw [mean_eq_expectation, h, neg_one_mul, sub_eq_add_neg]
  · rw [mean_eq_expectation, (convolves_of_combine hr).expectation_mul]
  · rw [variance_eq_spread]
    rcases hop with rfl | rfl
    · have h := (convolves_of_combine hr).spread_linear Operator.linearRight_add hp hq
      rw [h, one_pow, one_mul]
    · have h := (convolves_of_combine hr).spread_linear Operator.linearRight_sub hp hq
      rw [h, neg_one_sq, one_mul]

/-- A difference in which an outcome of chance zero takes no part. -/
theorem moments_combine_difference :
    let p : Distribution Rat := ⟨[(1, 1 / 2), (2, 1 / 2)], by decide⟩
    let q : Distribution Rat := ⟨[(0, 0), (1, 1 / 4), (3, 3 / 4)], by decide⟩
    (p.mean = .ok (3 / 2) ∧ q.mean = .ok (5 / 2)) ∧
      (p.variance = .ok (1 / 4) ∧ q.variance = .ok (3 / 4)) ∧
      ∃ r, combine .sub p q = .ok r ∧ r.mean = .ok (-1) ∧ r.variance = .ok 1 := by
  intro p q
  have hm : p.mean = .ok (3 / 2) := by decide +kernel
  have hn : q.mean = .ok (5 / 2) := by decide +kernel
  have hv : p.variance = .ok (1 / 4) := by decide +kernel
  have hw : q.variance = .ok (3 / 4) := by decide +kernel
  have hr : combine .sub p q =
    .ok ⟨[(-2, 3 / 8), (-1, 3 / 8), (0, 1 / 8), (1, 1 / 8)], by decide⟩ := by decide +kernel
  obtain ⟨t, u, m, n, v, w, ⟨ht, hu⟩, ⟨hm', hn'⟩, ⟨hv', hw'⟩, -, hmean, -, hvariance⟩ :=
    moments_combine p q
  obtain rfl : 1 = t := Except.ok.inj ((by decide +kernel : p.total = .ok 1).symm.trans ht)
  obtain rfl : 1 = u := Except.ok.inj ((by decide +kernel : q.total = .ok 1).symm.trans hu)
  obtain rfl := Except.ok.inj (hm.symm.trans hm')
  obtain rfl := Except.ok.inj (hn.symm.trans hn')
  obtain rfl := Except.ok.inj (hv.symm.trans hv')
  obtain rfl := Except.ok.inj (hw.symm.trans hw')
  refine ⟨⟨hm, hn⟩, ⟨hv, hw⟩, _, hr, ?_, ?_⟩
  · rw [hmean _ hr]
    norm_num
  · rw [hvariance rfl rfl .sub _ (.inr rfl) hr]
    norm_num

end Distribution

end DiceOdds
