import DiceOdds.Proofs.Distribution.Convolution
import DiceOdds.Proofs.Range.Corners
import Mathlib.Algebra.Order.BigOperators.Group.List
import Mathlib.Algebra.Order.Field.Basic
import Mathlib.Algebra.Order.Ring.Rat

/-!
# Sums and products of distributions

On unbounded integers a sum and a product are commutative and associative and have a unit, and so
are they on distributions, as far as the results fit. Which pairs do not fit may depend on how three
distributions are grouped, so associativity speaks only of groupings that both exist. That every
chance is positive is needed because outcomes of chance zero are dropped, and because the chances of
an outcome in between could otherwise cancel.

## Main definitions

* `Operator.Monoidal`: an operator that is commutative and associative and has a unit.
* `Distribution.Positive`: every outcome that is listed has a positive chance.

## Main results

* `Distribution.Convolves.swap`, `Distribution.Convolves.eq_of_groupings`,
  `Distribution.convolves_certain`: the laws for convolutions.
* `Distribution.combine_partial_commutative_monoid`: the laws for combining.
-/

namespace DiceOdds

/-! ### Operators with a unit -/

namespace Operator

/-- An operator that is commutative and associative and has a unit, as long as results of any size
are allowed. -/
structure Monoidal (op : Operator) (unit : Outcome) : Prop where
  comm (x y : Int) : op.exact x y = op.exact y x
  assoc (x y z : Int) : op.exact (op.exact x y) z = op.exact x (op.exact y z)
  exact_unit (x : Int) : op.exact x unit.toInt = x

theorem monoidal_add : Monoidal add 0 :=
  ⟨Int.add_comm, Int.add_assoc, Int.add_zero⟩

theorem monoidal_mul : Monoidal mul 1 :=
  ⟨Int.mul_comm, Int.mul_assoc, Int.mul_one⟩

variable {op : Operator} {unit : Outcome}

theorem Monoidal.apply_comm (hop : op.Monoidal unit) (a b : Outcome) :
    op.apply a b = op.apply b a := by
  rw [apply_eq_ofInt?_exact, apply_eq_ofInt?_exact, hop.comm]

/-- Where the inner results fit, both groupings of three outcomes have the same result, or none. -/
theorem Monoidal.apply_assoc (hop : op.Monoidal unit) {a b c m k : Outcome}
    (hm : op.apply a b = some m) (hk : op.apply b c = some k) : op.apply m c = op.apply a k := by
  rw [apply_eq_ofInt?_exact, apply_eq_ofInt?_exact, toInt_of_apply hm, toInt_of_apply hk, hop.assoc]

theorem Monoidal.apply_unit (hop : op.Monoidal unit) (a : Outcome) : op.apply a unit = some a := by
  rw [apply_eq_ofInt?_exact, hop.exact_unit, Outcome.ofInt?_toInt]

end Operator

namespace Distribution

variable {op : Operator} {unit : Outcome} {p q r pq qr s s' : Distribution Rat}

/-! ### Positive chances -/

/-- Every outcome that is listed has a positive chance. -/
def Positive (p : Distribution Rat) : Prop := ∀ x ∈ p.entries, 0 < x.2

theorem Positive.occurs_iff (hp : p.Positive) {n : Outcome} : p.Occurs n ↔ p.Lists n := by
  refine ⟨fun ⟨w, hw, _⟩ => ⟨w, hw⟩, fun ⟨w, hw⟩ => ⟨w, hw, (hp _ hw).ne'⟩⟩

/-- An observable that is nowhere negative and positive at some outcome has a positive integral. -/
theorem Positive.integral_pos (hp : p.Positive) {g : Outcome → Rat} (hg : ∀ n, 0 ≤ g n)
    {a : Outcome} (ha : p.Lists a) (hpos : 0 < g a) : 0 < p.integral g := by
  obtain ⟨w, hw⟩ := ha
  have hterms : ∀ y ∈ p.entries.map fun x => x.2 * g x.1, 0 ≤ y := by
    intro y hy
    obtain ⟨x, hx, rfl⟩ := List.mem_map.1 hy
    exact mul_nonneg (hp x hx).le (hg x.1)
  calc (0 : Rat) < w * g a := mul_pos (hp _ hw) hpos
    _ ≤ p.integral g := List.single_le_sum hterms _ (List.mem_map_of_mem hw)

theorem Positive.integral_nonneg (hp : p.Positive) {g : Outcome → Rat} (hg : ∀ n, 0 ≤ g n) :
    0 ≤ p.integral g := by
  refine List.sum_nonneg fun y hy => ?_
  obtain ⟨x, hx, rfl⟩ := List.mem_map.1 hy
  exact mul_nonneg (hp x hx).le (hg x.1)

/-- A convolution of positive chances has positive chances. -/
theorem Convolves.positive (h : Convolves op p q r) (hp : p.Positive) (hq : q.Positive) :
    r.Positive := by
  rintro ⟨n, w⟩ hw
  obtain ⟨a, b, ha, hb, hn⟩ := (h.lists n).1 ⟨w, hw⟩
  have hchance : w = r.integral fun k => if k = n then 1 else 0 := by
    rw [integral_indicator, chance?_eq_some_iff.2 hw, Option.getD_some]
  have hindicator : ∀ k : Outcome, (0 : Rat) ≤ if k = n then 1 else 0 := fun k => by
    split_ifs <;> decide
  rw [hchance, h.integral]
  refine hp.integral_pos (fun a => hq.integral_nonneg fun b => hindicator _)
    (hp.occurs_iff.1 ha) ?_
  refine hq.integral_pos (fun b => hindicator _) (hq.occurs_iff.1 hb) ?_
  rw [hn, Option.getD_some, if_pos rfl]
  exact one_pos

/-! ### Laws of convolutions -/

/-- The sides of a convolution may be exchanged. -/
theorem Convolves.swap (hop : op.Monoidal unit) (h : Convolves op p q r) : Convolves op q p r where
  fits hb ha := by
    rw [hop.apply_comm]
    exact h.fits ha hb
  integral g := by
    rw [h.integral, integral_comm]
    simp only [hop.apply_comm]
  lists n := by
    rw [h.lists]
    refine ⟨?_, ?_⟩
    · rintro ⟨a, b, ha, hb, hn⟩
      exact ⟨b, a, hb, ha, hop.apply_comm a b ▸ hn⟩
    · rintro ⟨b, a, hb, ha, hn⟩
      exact ⟨a, b, ha, hb, hop.apply_comm b a ▸ hn⟩

/-- The outcomes of three distributions, grouped to the left, are those grouped to the right. -/
theorem lists_grouping_iff (hop : op.Monoidal unit) (hp : p.Positive) (hq : q.Positive)
    (hr : r.Positive) (hpq : Convolves op p q pq) (hs : Convolves op pq r s)
    (hqr : Convolves op q r qr) (hs' : Convolves op p qr s') (n : Outcome) :
    s.Lists n ↔ s'.Lists n := by
  have hm : ∀ m, pq.Occurs m ↔ ∃ a b, p.Occurs a ∧ q.Occurs b ∧ op.apply a b = some m :=
    fun m => (hpq.positive hp hq).occurs_iff.trans (hpq.lists m)
  have hk : ∀ k, qr.Occurs k ↔ ∃ b c, q.Occurs b ∧ r.Occurs c ∧ op.apply b c = some k :=
    fun k => (hqr.positive hq hr).occurs_iff.trans (hqr.lists k)
  rw [hs.lists, hs'.lists]
  refine ⟨?_, ?_⟩
  · rintro ⟨m, c, hpqm, hc, hn⟩
    obtain ⟨a, b, ha, hb, hab⟩ := (hm m).1 hpqm
    obtain ⟨k, hbc⟩ := hqr.fits hb hc
    exact ⟨a, k, ha, (hk k).2 ⟨b, c, hb, hc, hbc⟩, hop.apply_assoc hab hbc ▸ hn⟩
  · rintro ⟨a, k, ha, hqrk, hn⟩
    obtain ⟨b, c, hb, hc, hbc⟩ := (hk k).1 hqrk
    obtain ⟨m, hab⟩ := hpq.fits ha hb
    exact ⟨m, c, (hm m).2 ⟨a, b, ha, hb, hab⟩, hc, (hop.apply_assoc hab hbc).trans hn⟩

/-- Where both groupings of three distributions exist, they are equal. -/
theorem Convolves.eq_of_groupings (hop : op.Monoidal unit) (hp : p.Positive) (hq : q.Positive)
    (hr : r.Positive) (hpq : Convolves op p q pq) (hs : Convolves op pq r s)
    (hqr : Convolves op q r qr) (hs' : Convolves op p qr s') : s = s' := by
  refine ext_of_integral (lists_grouping_iff hop hp hq hr hpq hs hqr hs') fun g => ?_
  rw [hs.integral, hpq.integral, hs'.integral]
  refine integral_congr fun a ha => ?_
  rw [hqr.integral]
  refine integral_congr fun b hb => integral_congr fun c hc => ?_
  -- The inner results fit because these outcomes occur.
  obtain ⟨m, hab⟩ := hpq.fits ha hb
  obtain ⟨k, hbc⟩ := hqr.fits hb hc
  rw [hab, hbc, Option.getD_some, Option.getD_some, hop.apply_assoc hab hbc]

/-- The unit is a right unit of convolutions. -/
theorem convolves_certain (hop : op.Monoidal unit) (hp : p.Positive) :
    Convolves op p (certain unit) p where
  fits {a b} _ hb := by
    rw [occurs_certain.1 hb]
    exact ⟨a, hop.apply_unit a⟩
  integral g := by
    simp only [integral_certain, hop.apply_unit, Option.getD_some]
  lists n := by
    rw [← hp.occurs_iff]
    refine ⟨fun hn => ⟨n, unit, hn, occurs_certain.2 rfl, hop.apply_unit n⟩, ?_⟩
    rintro ⟨a, b, ha, hb, hn⟩
    rw [occurs_certain.1 hb, hop.apply_unit] at hn
    cases hn
    exact ha

/-! ### Combinations -/

/-- **Sums and products form a partial commutative monoid.** For distributions with positive chances
the order of the sides does not matter, neither for what is given nor for whether anything is given;
two groupings of three distributions give the same if both give anything; and a constant zero for
sums, a constant one for products, on either side changes nothing. -/
theorem combine_partial_commutative_monoid {op : Operator} {unit : Outcome}
    (hop : op = .add ∧ unit = 0 ∨ op = .mul ∧ unit = 1) {p q r : Distribution Rat}
    (hp : p.Positive) (hq : q.Positive) (hr : r.Positive) :
    (∀ s, combine op p q = .ok s ↔ combine op q p = .ok s) ∧
      (∀ pq s qr s', combine op p q = .ok pq → combine op pq r = .ok s →
        combine op q r = .ok qr → combine op p qr = .ok s' → s = s') ∧
      combine op p (certain unit) = .ok p ∧ combine op (certain unit) p = .ok p := by
  have hmonoidal : op.Monoidal unit := by
    rcases hop with ⟨rfl, rfl⟩ | ⟨rfl, rfl⟩
    · exact Operator.monoidal_add
    · exact Operator.monoidal_mul
  have hunit := convolves_certain hmonoidal hp
  refine ⟨fun s => ?_, fun pq s qr s' hpq hs hqr hs' => ?_, combine_eq_ok_iff.2 hunit,
    combine_eq_ok_iff.2 (hunit.swap hmonoidal)⟩
  · rw [combine_eq_ok_iff, combine_eq_ok_iff]
    exact ⟨Convolves.swap hmonoidal, Convolves.swap hmonoidal⟩
  · rw [combine_eq_ok_iff] at hpq hs hqr hs'
    exact Convolves.eq_of_groupings hmonoidal hp hq hr hpq hs hqr hs'

/-- Both groupings exist here, though the sum of the outer two distributions does not. -/
theorem combine_partial_commutative_monoid_greatest :
    let p : Distribution Rat := ⟨[(9223372036854775807, 1)], by decide⟩
    let q : Distribution Rat := ⟨[(-2, 1 / 2), (-1, 1 / 2)], by decide⟩
    let r : Distribution Rat := ⟨[(0, 1 / 3), (1, 2 / 3)], by decide⟩
    (p.Positive ∧ q.Positive ∧ r.Positive) ∧
      combine .add p r = .error (.overflow .add 9223372036854775807 1) ∧
      ∃ pq s qr s', combine .add p q = .ok pq ∧ combine .add pq r = .ok s ∧
        combine .add q r = .ok qr ∧ combine .add p qr = .ok s' ∧
        combine .add q p = .ok pq ∧ s = s' ∧ combine .add p (certain 0) = .ok p := by
  intro p q r
  have hp : p.Positive := by simp [p, Positive]
  have hq : q.Positive := by simp [q, Positive]
  have hr : r.Positive := by simp [r, Positive]
  obtain ⟨hcomm, hassoc, hunit, -⟩ :=
    combine_partial_commutative_monoid (.inl ⟨rfl, rfl⟩) hp hq hr
  have hpq : combine .add p q =
      .ok ⟨[(9223372036854775805, 1 / 2), (9223372036854775806, 1 / 2)], by decide⟩ := by
    decide +kernel
  have hs : combine .add ⟨[(9223372036854775805, 1 / 2), (9223372036854775806, 1 / 2)], by decide⟩
      r = .ok ⟨[(9223372036854775805, 1 / 6), (9223372036854775806, 1 / 2),
        (9223372036854775807, 1 / 3)], by decide⟩ := by
    decide +kernel
  have hqr : combine .add q r = .ok ⟨[(-2, 1 / 6), (-1, 1 / 2), (0, 1 / 3)], by decide⟩ := by
    decide +kernel
  have hs' : combine .add p ⟨[(-2, 1 / 6), (-1, 1 / 2), (0, 1 / 3)], by decide⟩ =
      .ok ⟨[(9223372036854775805, 1 / 6), (9223372036854775806, 1 / 2),
        (9223372036854775807, 1 / 3)], by decide⟩ := by
    decide +kernel
  exact ⟨⟨hp, hq, hr⟩, by decide +kernel, _, _, _, _, hpq, hs, hqr, hs', (hcomm _).1 hpq,
    hassoc _ _ _ _ hpq hs hqr hs', hunit⟩

end Distribution

end DiceOdds
