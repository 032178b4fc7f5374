import DiceOdds.Proofs.Distribution.Moments
import DiceOdds.Proofs.Distribution.Monoid
import DiceOdds.Proofs.Expr.Law
import Mathlib.Algebra.BigOperators.Intervals
import Mathlib.Tactic.Linarith

/-!
# Pools of dice

The sum of any number of dice of one kind takes every value between the number of the dice and the
sum of their greatest faces. Turning every die upside down turns the sum round the middle of this
range, so the distribution is symmetric and its mean is the middle. The sum of two pools of the same
dice is a pool again, and the only sum that can be too large is the greatest one.

## Main definitions

* `Distribution.Mirrored`: a distribution that is symmetric about the middle of a number.
* `Expr.Pooled`: the distribution of a number of dice.

## Main results

* `Expr.Pooled.sum`: two pools of the same dice make up a pool.
* `Expr.pooled_or_overflow`: a pool has its distribution, or the greatest sum is too large.
* `Expr.pool_distribution`: support, symmetry, mean and variance of a pool.
-/

namespace DiceOdds

/-- The integers from zero to the greatest outcome are outcomes. -/
theorem Outcome.exists_toInt_eq {x : Int} (h₀ : 0 ≤ x) (h : x ≤ 9223372036854775807) :
    ∃ k : Outcome, k.toInt = x := by
  cases hx : ofInt? x with
  | some k => exact ⟨k, ofInt?_eq_some_iff.1 hx⟩
  | none =>
    have hout := ofInt?_eq_none_iff.1 hx
    omega

/-! ### Symmetry -/

namespace Distribution

variable {p q r : Distribution Rat} {x y : Int}

/-- Integrals do not change when every outcome is subtracted from a number. -/
def Mirrored (p : Distribution Rat) (x : Int) : Prop :=
  ∀ g : Int → Rat, (p.integral fun k => g k.toInt) = p.integral fun k => g (x - k.toInt)

/-- The mean is the middle. -/
theorem Mirrored.expectation (h : p.Mirrored x) (hp : p.mass = 1) : p.expectation = x / 2 := by
  have hmirror : p.expectation = p.integral fun k => ((x - k.toInt : Int) : Rat) :=
    h fun y => (y : Rat)
  simp only [Int.cast_sub, integral_sub, integral_const, hp, mul_one] at hmirror
  rw [← Distribution.expectation] at hmirror
  linarith

/-- Two outcomes that are exchanged have the same chance. -/
theorem Mirrored.chance?_eq (h : p.Mirrored x) {k k' : Outcome} (hk : p.Lists k)
    (hk' : p.Lists k') (hsum : k'.toInt = x - k.toInt) : p.chance? k' = p.chance? k := by
  obtain ⟨w, hw⟩ := hk
  obtain ⟨w', hw'⟩ := hk'
  have hmirror := h fun y => if y = k'.toInt then 1 else 0
  have hleft : ∀ j : Outcome, j.toInt = k'.toInt ↔ j = k' := fun j => Int64.toInt_inj
  have hright : ∀ j : Outcome, x - j.toInt = k'.toInt ↔ j = k := fun j => by
    rw [hsum, sub_right_inj, Int64.toInt_inj]
  simp only [hleft, hright, integral_indicator] at hmirror
  rw [chance?_eq_some_iff.2 hw, chance?_eq_some_iff.2 hw'] at hmirror ⊢
  exact congrArg some hmirror

/-- With both sides, their sum is symmetric. -/
theorem Convolves.mirrored (h : Convolves .add p q r) (hp : p.Mirrored x) (hq : q.Mirrored y) :
    r.Mirrored (x + y) := by
  intro g
  rw [h.integral_exact, h.integral_exact fun k => g (x + y - k)]
  calc (p.integral fun a => q.integral fun b => g (a.toInt + b.toInt))
      = p.integral fun a => q.integral fun b => g (a.toInt + (y - b.toInt)) :=
        integral_congr fun a _ => hq fun k => g (a.toInt + k)
    _ = p.integral fun a => q.integral fun b => g (x - a.toInt + (y - b.toInt)) :=
        hp fun k => q.integral fun b => g (k + (y - b.toInt))
    _ = p.integral fun a => q.integral fun b => g (x + y - (a.toInt + b.toInt)) := by
        simp only [sub_add_sub_comm]

end Distribution

namespace Expr

variable {m n : Nat} {faces : Outcome} {p q r : Distribution Rat}

/-- The distribution of a number of dice with the same faces. -/
structure Pooled (count : Nat) (faces : Outcome) (p : Distribution Rat) : Prop where
  fits : count * faces.toInt ≤ 9223372036854775807
  positive : p.Positive
  lists (k : Outcome) : p.Lists k ↔ count ≤ k.toInt ∧ k.toInt ≤ count * faces.toInt
  mass : p.mass = 1
  mirrored : p.Mirrored (count * (faces.toInt + 1))
  spread : p.spread = count * (faces.toInt ^ 2 - 1) / 12

theorem Pooled.occurs_iff (hp : Pooled m faces p) {k : Outcome} :
    p.Occurs k ↔ m ≤ k.toInt ∧ k.toInt ≤ m * faces.toInt :=
  hp.positive.occurs_iff.trans (hp.lists k)

/-! ### One die -/

/-- An integral against a die is an average over its faces. -/
theorem integral_die (hfaces : 1 ≤ faces.toInt) (hp : Distribution.die faces = .ok p)
    (g : Int → Rat) : (p.integral fun k => g k.toInt) * faces.toInt =
      ∑ k ∈ Finset.range faces.toNatClampNeg, g (k + 1) := by
  have hclamp := faces.toNat_toInt
  have hbound := faces.toInt_lt
  have hworlds : ((die faces).worlds : Rat) = faces.toInt := (cast_faces hfaces).symm
  rw [← hworlds, (law_of_die hfaces hp).integral, sum_assignment_die, ← Fin.sum_univ_eq_sum_range]
  refine Finset.sum_congr rfl fun k _ => congrArg g ?_
  have hk := k.isLt
  have hvalue : (Int64.ofNat (k.val + 1)).toInt = ((k.val + 1 : Nat) : Int) :=
    Int64.toInt_ofNat_of_lt (by omega)
  exact hvalue.trans (Nat.cast_succ k.val)

/-- Squared distances of the first positive numbers from a number. -/
theorem sum_range_sub_sq (n : Nat) (c : Rat) :
    ∑ k ∈ Finset.range n, ((k : Rat) + 1 - c) ^ 2 =
      n * (n + 1) * (2 * n + 1) / 6 - c * n * (n + 1) + n * c ^ 2 := by
  induction n with
  | zero => simp
  | succ n ih =>
    rw [Finset.sum_range_succ, ih]
    push_cast
    ring

theorem mass_die (hfaces : 1 ≤ faces.toInt) (hp : Distribution.die faces = .ok p) : p.mass = 1 := by
  have hsum := integral_die hfaces hp fun _ => 1
  rw [← Distribution.mass, Finset.sum_const, Finset.card_range, nsmul_one, ← cast_faces hfaces]
    at hsum
  exact (mul_eq_right₀ (cast_faces_ne_zero hfaces)).1 hsum

theorem mirrored_die (hfaces : 1 ≤ faces.toInt) (hp : Distribution.die faces = .ok p) :
    p.Mirrored (faces.toInt + 1) := by
  intro g
  refine mul_right_cancel₀ (cast_faces_ne_zero hfaces) ?_
  rw [integral_die hfaces hp, integral_die hfaces hp fun k => g (faces.toInt + 1 - k),
    ← Finset.sum_range_reflect]
  refine Finset.sum_congr rfl fun k hk => congrArg g ?_
  have hclamp := faces.toNat_toInt
  rw [Finset.mem_range] at hk
  omega

theorem spread_die (hfaces : 1 ≤ faces.toInt) (hp : Distribution.die faces = .ok p) :
    p.spread = (faces.toInt ^ 2 - 1) / 12 := by
  refine mul_right_cancel₀ (cast_faces_ne_zero hfaces) ?_
  have hmean := (mirrored_die hfaces hp).expectation (mass_die hfaces hp)
  rw [Distribution.spread, integral_die hfaces hp fun k => (k - p.expectation) ^ 2, hmean]
  push_cast
  rw [sum_range_sub_sq, ← cast_faces hfaces]
  ring

/-- A die is a pool of one. -/
theorem pooled_die (hfaces : 1 ≤ faces.toInt) (hp : Distribution.die faces = .ok p) :
    Pooled 1 faces p := by
  refine ⟨?_, ?_, fun k => ?_, mass_die hfaces hp, ?_, ?_⟩
  · have hbound := faces.toInt_lt
    rw [Nat.cast_one, one_mul]
    omega
  · obtain ⟨p', hp', hentries⟩ := exists_die_entries hfaces
    obtain rfl := Except.ok.inj (hp.symm.trans hp')
    intro x hx
    rw [hentries] at hx
    obtain ⟨k, -, rfl⟩ := List.mem_map.1 hx
    exact one_div_pos.2 (Nat.cast_pos.2 (toNatClampNeg_pos hfaces))
  · rw [(law_of_die hfaces hp).lists, exists_value_die_iff, Nat.cast_one, one_mul]
  · rw [Nat.cast_one, one_mul]
    exact mirrored_die hfaces hp
  · rw [Nat.cast_one, one_mul]
    exact spread_die hfaces hp

/-! ### Sums of pools -/

/-- Every number in the range of a sum is the sum of two numbers in the ranges of its sides. -/
theorem exists_add_eq {m n f k : Int} (hm : m ≤ m * f) (hn : n ≤ n * f) (hlow : m + n ≤ k)
    (hhigh : k ≤ m * f + n * f) :
    ∃ a b, (m ≤ a ∧ a ≤ m * f) ∧ (n ≤ b ∧ b ≤ n * f) ∧ a + b = k := by
  refine ⟨max m (k - n * f), k - max m (k - n * f), ?_, ?_, by omega⟩ <;> omega

theorem le_mul_faces (hfaces : 1 ≤ faces.toInt) (m : Nat) : (m : Int) ≤ m * faces.toInt :=
  le_mul_of_one_le_right (Int.natCast_nonneg m) hfaces

/-- All dice can show their greatest face at once. -/
theorem Pooled.exists_greatest (hfaces : 1 ≤ faces.toInt) (hp : Pooled m faces p) :
    ∃ k, p.Occurs k ∧ k.toInt = m * faces.toInt := by
  have hm := le_mul_faces hfaces m
  have hfits := hp.fits
  obtain ⟨k, hk⟩ := Outcome.exists_toInt_eq (x := m * faces.toInt) (by omega) hfits
  exact ⟨k, hp.occurs_iff.2 (by omega), hk⟩

/-- The greatest faces of two pools that have a sum fit together. -/
theorem Pooled.fits_sum (hfaces : 1 ≤ faces.toInt) (hp : Pooled m faces p) (hq : Pooled n faces q)
    (h : Distribution.Convolves .add p q r) :
    (m + n : Nat) * faces.toInt ≤ 9223372036854775807 := by
  obtain ⟨a, ha, hvaluea⟩ := hp.exists_greatest hfaces
  obtain ⟨b, hb, hvalueb⟩ := hq.exists_greatest hfaces
  obtain ⟨k, hk⟩ := h.fits ha hb
  have hsum := Operator.toInt_of_apply hk
  have hbound := k.toInt_lt
  simp only [Operator.exact] at hsum
  rw [Nat.cast_add, add_mul]
  omega

/-- The sums of two pools leave no number out. -/
theorem Pooled.lists_sum (hfaces : 1 ≤ faces.toInt) (hp : Pooled m faces p) (hq : Pooled n faces q)
    (h : Distribution.Convolves .add p q r) (k : Outcome) :
    r.Lists k ↔ (m + n : Nat) ≤ k.toInt ∧ k.toInt ≤ (m + n : Nat) * faces.toInt := by
  rw [h.lists, Nat.cast_add, add_mul]
  simp only [hp.occurs_iff, hq.occurs_iff]
  refine ⟨?_, ?_⟩
  · rintro ⟨a, b, ha, hb, hk⟩
    have hsum := Operator.toInt_of_apply hk
    simp only [Operator.exact] at hsum
    omega
  · rintro ⟨hlow, hhigh⟩
    have hm := le_mul_faces hfaces m
    have hn := le_mul_faces hfaces n
    have hbound := k.toInt_lt
    obtain ⟨a, b, ha, hb, hk⟩ := exists_add_eq hm hn hlow hhigh
    obtain ⟨a, rfl⟩ := Outcome.exists_toInt_eq (x := a) (by omega) (by omega)
    obtain ⟨b, rfl⟩ := Outcome.exists_toInt_eq (x := b) (by omega) (by omega)
    exact ⟨a, b, ha, hb, Outcome.ofInt?_eq_some_iff.2 hk.symm⟩

/-- Two pools of the same dice make up a pool. -/
theorem Pooled.sum (hfaces : 1 ≤ faces.toInt) (hp : Pooled m faces p) (hq : Pooled n faces q)
    (h : Distribution.Convolves .add p q r) : Pooled (m + n) faces r where
  fits := hp.fits_sum hfaces hq h
  positive := h.positive hp.positive hq.positive
  lists := hp.lists_sum hfaces hq h
  mass := by
    rw [Distribution.mass, h.total, ← Distribution.mass, ← Distribution.mass, hp.mass, hq.mass,
      mul_one]
  mirrored := by
    rw [Nat.cast_add, add_mul]
    exact h.mirrored hp.mirrored hq.mirrored
  spread := by
    rw [h.spread_linear Operator.linearRight_add hp.mass hq.mass, hp.spread, hq.spread]
    push_cast
    ring

/-- If two pools cannot be added, then their greatest sum is too large. -/
theorem Pooled.of_combine_eq_error (hp : Pooled m faces p) (hq : Pooled n faces q) {x : EvalError}
    (h : Distribution.combine .add p q = .error x) :
    (∃ a b, x = .overflow .add a b) ∧ 9223372036854775807 < (m + n : Nat) * faces.toInt := by
  obtain ⟨a, b, ha, hb, hnone, hx⟩ := Distribution.of_combine_eq_error h
  rw [hp.occurs_iff] at ha
  rw [hq.occurs_iff] at hb
  have hout := Outcome.ofInt?_eq_none_iff.1 hnone
  refine ⟨⟨a, b, hx⟩, ?_⟩
  rw [Nat.cast_add, add_mul]
  omega

/-! ### Pools -/

/-- A pool has its distribution, or the greatest sum is too large. -/
theorem pooled_or_overflow (hfaces : 1 ≤ faces.toInt) (n : Nat) :
    (∃ p, (pool (n + 1) faces).distribution .unbounded = .ok p ∧ Pooled (n + 1) faces p) ∨
      (∃ a b, (pool (n + 1) faces).distribution (α := Rat) .unbounded =
        .error (.overflow .add a b)) ∧ 9223372036854775807 < (n + 1 : Nat) * faces.toInt := by
  obtain ⟨d, hd, -⟩ := exists_law_die hfaces
  have hdie : (die faces).distribution .unbounded = .ok d := by
    rw [distribution_die, odds_die_unbounded, hd]
  have hpooled := pooled_die hfaces hd
  induction n with
  | zero => exact .inl ⟨d, hdie, hpooled⟩
  | succ n ih =>
    have hpool := distribution_binary_unbounded (α := Rat) .add (pool (n + 1) faces) (die faces)
    obtain ⟨p, hp, hpooledp⟩ | ⟨⟨a, b, hab⟩, hout⟩ := ih
    · rw [hp, hdie] at hpool
      cases hcombine : Distribution.combine .add p d with
      | ok r =>
        have hconvolves := Distribution.convolves_of_combine hcombine
        exact .inl ⟨r, hpool.trans hcombine, hpooledp.sum hfaces hpooled hconvolves⟩
      | error x =>
        obtain ⟨⟨a, b, rfl⟩, hout⟩ := hpooledp.of_combine_eq_error hpooled hcombine
        exact .inr ⟨⟨a, b, hpool.trans hcombine⟩, hout⟩
    · rw [hab] at hpool
      refine .inr ⟨⟨a, b, hpool⟩, ?_⟩
      rw [Nat.cast_succ, add_mul]
      omega

/-- **Pools of any size.** A pool of dice with at least one face has a distribution exactly when the
sum of all greatest faces is an outcome; otherwise the failure is an overflow of a sum. The outcomes
are then all numbers from the number of dice to this sum, outcomes at the same distance from both
ends have the same chance, and mean and variance are those of one die times the number of dice. -/
theorem pool_distribution {count : Nat} {faces : Outcome} (hcount : 1 ≤ count)
    (hfaces : 1 ≤ faces.toInt) :
    match (pool count faces).distribution (α := Rat) .unbounded with
    | .ok p => count * faces.toInt ≤ 9223372036854775807 ∧
        (∀ k : Outcome, p.Lists k ↔ count ≤ k.toInt ∧ k.toInt ≤ count * faces.toInt) ∧
        (∀ k, p.Lists k → ∃ k' : Outcome, k'.toInt = count * (faces.toInt + 1) - k.toInt ∧
          p.chance? k = p.chance? k') ∧
        p.mean = .ok (count * (faces.toInt + 1) / 2) ∧
        p.variance = .ok (count * (faces.toInt * faces.toInt - 1) / 12)
    | .error x => 9223372036854775807 < count * faces.toInt ∧ ∃ a b, x = .overflow .add a b := by
  obtain ⟨n, rfl⟩ := Nat.exists_eq_add_of_le' hcount
  obtain ⟨p, hp, hpooled⟩ | ⟨⟨a, b, hab⟩, hout⟩ := pooled_or_overflow hfaces n
  · rw [hp]
    refine ⟨hpooled.fits, hpooled.lists, fun k hk => ?_, ?_, ?_⟩
    · have hfits := hpooled.fits
      have hends := (hpooled.lists k).1 hk
      obtain ⟨k', hk'⟩ := Outcome.exists_toInt_eq
        (x := (n + 1 : Nat) * (faces.toInt + 1) - k.toInt) (by rw [mul_add]; omega)
        (by rw [mul_add]; omega)
      have hlists : p.Lists k' := (hpooled.lists k').2 (by rw [hk', mul_add]; omega)
      exact ⟨k', hk', (hpooled.mirrored.chance?_eq hk hlists hk').symm⟩
    · rw [Distribution.mean_eq_expectation, hpooled.mirrored.expectation hpooled.mass]
      push_cast
      rfl
    · rw [Distribution.variance_eq_spread, hpooled.spread, sq]
  · rw [hab]
    exact ⟨hout, a, b, rfl⟩

/-- Of the greatest number of dice a pool can have, those with 2147483648 faces still have a
distribution, and those with one more do not. -/
theorem pool_distribution_greatest_count :
    (1 ≤ 4294967295 ∧ 1 ≤ (2147483648 : Outcome).toInt ∧ 1 ≤ (2147483649 : Outcome).toInt) ∧
      (∃ p, (pool 4294967295 2147483648).distribution (α := Rat) .unbounded = .ok p ∧
        (∀ k : Outcome, p.Lists k ↔ 4294967295 ≤ k.toInt ∧ k.toInt ≤ 9223372034707292160) ∧
        p.mean = .ok (9223372039002259455 / 2) ∧
        p.variance = .ok (6602346874651466125221210795 / 4)) ∧
      ∃ a b, (pool 4294967295 2147483649).distribution (α := Rat) .unbounded =
        .error (.overflow .add a b) := by
  have hfaces : 1 ≤ (2147483648 : Outcome).toInt := by decide
  have hfaces' : 1 ≤ (2147483649 : Outcome).toInt := by decide
  have hlast := @pool_distribution 4294967295 _ (by decide) hfaces
  have hnext := @pool_distribution 4294967295 _ (by decide) hfaces'
  have hvalue : (2147483648 : Outcome).toInt = 2147483648 := by decide
  have hvalue' : (2147483649 : Outcome).toInt = 2147483649 := by decide
  refine ⟨⟨by decide, hfaces, hfaces'⟩, ?_, ?_⟩
  · split at hlast
    · next p hp =>
      obtain ⟨-, hlists, -, hmean, hvariance⟩ := hlast
      rw [hvalue] at hlists hmean hvariance
      norm_num at hlists hmean hvariance
      exact ⟨p, hp, hlists, hmean, hvariance⟩
    · rw [hvalue] at hlast
      norm_num at hlast
  · split at hnext
    · rw [hvalue'] at hnext
      norm_num at hnext
    · next x hx =>
      obtain ⟨-, a, b, rfl⟩ := hnext
      exact ⟨a, b, hx⟩

end Expr

end DiceOdds
