import DiceOdds.Expr.Odds
import DiceOdds.Proofs.Distribution.Convolution
import DiceOdds.Proofs.Expr.Assignment
import Mathlib.Algebra.BigOperators.Ring.Finset

/-!
# The distribution of an expression is its law

Counting assignments gives every expression a law: the chance of an outcome is the number of
assignments under which the expression has this value, over the number of all assignments. Without
limits, the distribution of an expression is this law. The induction is on the expression, with the
integrals against all observables: those of an operator node are taken over the assignments of the
left operand first and of the right operand then, just as the convolution does.

## Main definitions

* `Expr.Law`: a distribution is the law of an expression.

## Main results

* `Expr.law_constant`, `Expr.exists_law_die`, `Expr.law_of_die`, `Expr.Law.binary`: the laws node by
  node.
* `Expr.distribution_unbounded`: which expressions have a distribution, and which one.
-/

namespace DiceOdds

namespace Expr

/-- A distribution is the law of an expression: there is a value under every assignment, integrals
are averages over all assignments, and the values are the outcomes that are listed. -/
structure Law (e : Expr) (p : Distribution Rat) : Prop where
  total : e.Total
  integral (g : Outcome → Rat) : p.integral g * e.worlds = ∑ x, g ((e.value x).getD 0)
  lists (n : Outcome) : p.Lists n ↔ ∃ x, e.value x = some n

variable {e left right : Expr} {op : Operator} {p q r : Distribution Rat}

/-- The chance of an outcome is the number of its assignments over that of all. -/
theorem Law.chance_mul_worlds (h : e.Law p) (n : Outcome) :
    (p.chance? n).getD 0 * e.worlds = e.ways n := by
  rw [← p.integral_indicator, h.integral, ways, Finset.natCast_card_filter]
  refine Finset.sum_congr rfl fun x _ => ?_
  obtain ⟨a, ha⟩ := h.total x
  rw [ha]
  simp

/-- Every outcome that is listed occurs. -/
theorem Law.occurs_iff (h : e.Law p) {n : Outcome} : p.Occurs n ↔ ∃ x, e.value x = some n := by
  rw [← h.lists]
  refine ⟨fun ⟨w, hw, _⟩ => ⟨w, hw⟩, fun hlists => ?_⟩
  obtain ⟨w, hw⟩ := hlists
  refine ⟨w, hw, ?_⟩
  rintro rfl
  have hways := h.chance_mul_worlds n
  rw [Distribution.chance?_eq_some_iff.2 hw, Option.getD_some, zero_mul, eq_comm,
    Nat.cast_eq_zero] at hways
  exact ways_ne_zero_iff.2 ((h.lists n).1 ⟨0, hw⟩) hways

theorem Law.occurs_iff_lists (h : e.Law p) {n : Outcome} : p.Occurs n ↔ p.Lists n :=
  h.occurs_iff.trans (h.lists n).symm

/-! ### Leaves -/

theorem law_constant (n : Outcome) : (constant n).Law (.certain n) := by
  refine ⟨fun _ => ⟨n, rfl⟩, fun g => ?_, fun k => ?_⟩
  · rw [sum_assignment_constant]
    simp [Distribution.integral, Distribution.certain, worlds, value, Chance.one]
  · refine ⟨?_, ?_⟩
    · rintro ⟨w, hw⟩
      cases List.mem_singleton.1 hw
      exact ⟨(), rfl⟩
    · rintro ⟨x, hx⟩
      cases hx
      exact ⟨1, List.mem_singleton.2 rfl⟩

/-- The number of faces of a die, as a fraction. -/
theorem cast_faces {faces : Outcome} (h : 1 ≤ faces.toInt) :
    (faces.toInt : Rat) = faces.toNatClampNeg := by
  have hclamp : ((faces.toNatClampNeg : Nat) : Int) = faces.toInt := by
    rw [← Int64.toNat_toInt]
    omega
  rw [← hclamp]
  rfl

theorem cast_faces_ne_zero {faces : Outcome} (h : 1 ≤ faces.toInt) : (faces.toInt : Rat) ≠ 0 := by
  rw [cast_faces h]
  exact Nat.cast_ne_zero.2 (toNatClampNeg_pos h).ne'

theorem exists_die_entries {faces : Outcome} (h : 1 ≤ faces.toInt) :
    ∃ p : Distribution Rat, Distribution.die faces = .ok p ∧
      p.entries = (List.range faces.toNatClampNeg).map fun k =>
        (Int64.ofNat (k + 1), 1 / (faces.toNatClampNeg : Rat)) := by
  have hpositive : ¬ faces ≤ 0 := fun hle => le_zero_iff.1 hle h
  have hzero := cast_faces_ne_zero h
  have houtcome : (Chance.ofOutcome? faces : Option Rat) = some (faces.toInt : Rat) := rfl
  rw [Distribution.die, if_neg hpositive, houtcome]
  simp only [Chance.div?_rat hzero]
  exact ⟨_, rfl, by simp only [Chance.one, cast_faces h]⟩

/-- The distribution of a fair die that has a face. -/
theorem exists_law_die {faces : Outcome} (h : 1 ≤ faces.toInt) :
    ∃ p : Distribution Rat, Distribution.die faces = .ok p ∧ (die faces).Law p := by
  have hzero : (faces.toNatClampNeg : Rat) ≠ 0 := Nat.cast_ne_zero.2 (toNatClampNeg_pos h).ne'
  obtain ⟨p, hp, hentries⟩ := exists_die_entries h
  refine ⟨p, hp, fun _ => ⟨_, rfl⟩, fun g => ?_, fun n => ?_⟩
  · rw [sum_assignment_die, worlds, Distribution.integral, hentries, List.map_map]
    simp only [Function.comp_def, value, Option.getD_some]
    rw [List.sum_map_mul_left, mul_right_comm, one_div_mul_cancel hzero, one_mul]
    exact (Fin.sum_univ_eq_sum_range (fun k => g (Int64.ofNat (k + 1))) _).symm
  · simp only [Distribution.Lists, hentries, List.mem_map, List.mem_range]
    refine ⟨?_, ?_⟩
    · rintro ⟨w, k, hk, hkw⟩
      cases hkw
      exact ⟨⟨k, hk⟩, rfl⟩
    · rintro ⟨k, hk⟩
      cases hk
      exact ⟨_, (k : Fin _).val, (k : Fin _).isLt, rfl⟩

theorem law_of_die {faces : Outcome} (h : 1 ≤ faces.toInt) (hp : Distribution.die faces = .ok p) :
    (die faces).Law p := by
  obtain ⟨p', hp', hlaw⟩ := exists_law_die h
  obtain rfl := Except.ok.inj (hp.symm.trans hp')
  exact hlaw

theorem die_eq_error {faces : Outcome} (h : ¬ 1 ≤ faces.toInt) :
    (Distribution.die faces : Except EvalError (Distribution Rat)) = .error (.noFaces faces) :=
  if_pos (le_zero_iff.2 h)

/-! ### Operators -/

/-- The convolution of the laws of both operands is the law of an operator node. -/
theorem Law.binary (hleft : left.Law p) (hright : right.Law q)
    (h : Distribution.Convolves op p q r) : (binary op left right).Law r := by
  refine ⟨?_, fun g => ?_, fun n => ?_⟩
  · rintro ⟨x, y⟩
    obtain ⟨a, ha⟩ := hleft.total x
    obtain ⟨b, hb⟩ := hright.total y
    obtain ⟨n, hn⟩ := h.fits (hleft.occurs_iff.2 ⟨x, ha⟩) (hright.occurs_iff.2 ⟨y, hb⟩)
    exact ⟨n, value_binary_eq_some_iff.2 ⟨a, b, ha, hb, hn⟩⟩
  · rw [h.integral, sum_assignment_binary, worlds, Nat.cast_mul, ← mul_assoc, hleft.integral,
      Finset.sum_mul]
    refine Finset.sum_congr rfl fun x _ => ?_
    rw [hright.integral]
    refine Finset.sum_congr rfl fun y _ => ?_
    obtain ⟨a, ha⟩ := hleft.total x
    obtain ⟨b, hb⟩ := hright.total y
    simp only [value, ha, hb, Option.bind_some, Option.getD_some]
  · rw [h.lists]
    refine ⟨?_, ?_⟩
    · rintro ⟨a, b, ha, hb, hn⟩
      obtain ⟨x, hx⟩ := hleft.occurs_iff.1 ha
      obtain ⟨y, hy⟩ := hright.occurs_iff.1 hb
      exact ⟨(x, y), value_binary_eq_some_iff.2 ⟨a, b, hx, hy, hn⟩⟩
    · rintro ⟨⟨x, y⟩, hxy⟩
      obtain ⟨a, b, ha, hb, hn⟩ := value_binary_eq_some_iff.1 hxy
      exact ⟨a, b, hleft.occurs_iff.2 ⟨x, ha⟩, hright.occurs_iff.2 ⟨y, hb⟩, hn⟩

/-! ### Without limits -/

variable {α : Type} [Chance α]

theorem odds_die_unbounded (faces : Outcome) :
    (Odds.die .unbounded faces : Except EvalError (Distribution α)) = Distribution.die faces := by
  refine if_neg ?_
  rintro ⟨_, hlt⟩
  have hclamp := faces.toNatClampNeg_lt
  exact absurd (Nat.lt_trans hlt hclamp) (by decide)

theorem odds_combine_unbounded (op : Operator) (p q : Distribution α) :
    Odds.combine .unbounded op p q = Distribution.combine op p q := by
  have hpairs : ¬ Limits.unbounded.maxPairs < Odds.pairs p q := Nat.not_lt.2 (Limits.saturate_le _)
  rw [Odds.combine, if_neg hpairs]
  cases Distribution.combine op p q with
  | error x => rfl
  | ok r =>
    have hsize : ¬ Limits.unbounded.maxOutcomes < Limits.saturate r.size :=
      Nat.not_lt.2 (Limits.saturate_le _)
    exact if_neg hsize

theorem distribution_binary_unbounded (op : Operator) (left right : Expr) :
    (binary op left right).distribution (α := α) .unbounded =
      (left.distribution .unbounded).bind fun p =>
        (right.distribution .unbounded).bind fun q => Distribution.combine op p q := by
  rw [distribution_binary]
  simp only [odds_combine_unbounded]

/-- Without limits, the distribution of an expression is its law; it is missing if a die has no
face or there is an assignment without a value. -/
theorem law_or_error (e : Expr) :
    (∃ p : Distribution Rat, e.distribution .unbounded = .ok p ∧ e.HasFaces ∧ e.Law p) ∨
      (∃ x, e.distribution (α := Rat) .unbounded = .error x) ∧ ¬ (e.HasFaces ∧ e.Total) := by
  induction e with
  | constant n => exact .inl ⟨_, distribution_constant _ n, trivial, law_constant n⟩
  | die faces =>
    rw [distribution_die, odds_die_unbounded]
    by_cases hfaces : 1 ≤ faces.toInt
    · obtain ⟨p, hp, hlaw⟩ := exists_law_die hfaces
      exact .inl ⟨p, hp, hfaces, hlaw⟩
    · exact .inr ⟨⟨_, die_eq_error hfaces⟩, fun h => hfaces h.1⟩
  | binary op left right ihl ihr =>
    rw [distribution_binary_unbounded]
    obtain ⟨p, hp, hfacesl, hlawl⟩ | ⟨⟨x, hx⟩, hnot⟩ := ihl
    · obtain ⟨q, hq, hfacesr, hlawr⟩ | ⟨⟨x, hx⟩, hnot⟩ := ihr
      · rw [hp, hq]
        simp only [Except.bind]
        cases hcombine : Distribution.combine op p q with
        | ok r =>
          have hconvolves := Distribution.convolves_of_combine hcombine
          exact .inl ⟨r, rfl, ⟨hfacesl, hfacesr⟩, hlawl.binary hlawr hconvolves⟩
        | error x =>
          -- The pair of outcomes that does not fit is one of values under an assignment.
          obtain ⟨a, b, ha, hb, hnone, _⟩ := Distribution.of_combine_eq_error hcombine
          obtain ⟨y, hy⟩ := hlawl.occurs_iff.1 ha
          obtain ⟨z, hz⟩ := hlawr.occurs_iff.1 hb
          refine .inr ⟨⟨x, rfl⟩, fun h => ?_⟩
          obtain ⟨n, hn⟩ := h.2.apply hy hz
          rw [hnone] at hn
          cases hn
      · rw [hp, hx]
        exact .inr ⟨⟨x, rfl⟩, fun h => hnot ⟨h.1.2, (h.2.of_binary h.1).2⟩⟩
    · rw [hx]
      exact .inr ⟨⟨x, rfl⟩, fun h => hnot ⟨h.1.1, (h.2.of_binary h.1).1⟩⟩

theorem law_of_distribution {p : Distribution Rat} (h : e.distribution .unbounded = .ok p) :
    e.HasFaces ∧ e.Law p := by
  obtain ⟨q, hq, hfaces, hlaw⟩ | ⟨⟨x, hx⟩, -⟩ := e.law_or_error
  · rw [h] at hq
    cases hq
    exact ⟨hfaces, hlaw⟩
  · rw [h] at hx
    cases hx

theorem Law.chance?_eq (h : e.Law p) (hfaces : e.HasFaces) (n : Outcome) :
    p.chance? n =
      if ∃ x, e.value x = some n then some ((e.ways n : Rat) / e.worlds) else none := by
  have hworlds : (e.worlds : Rat) ≠ 0 := Nat.cast_ne_zero.2 (worlds_pos hfaces).ne'
  split
  · next hn =>
    obtain ⟨w, hw⟩ := (h.lists n).2 hn
    have hchance := Distribution.chance?_eq_some_iff.2 hw
    have hways := h.chance_mul_worlds n
    rw [hchance, Option.getD_some] at hways
    rw [hchance, ← hways, mul_div_cancel_right₀ _ hworlds]
  · next hn => exact Distribution.chance?_eq_none_iff.2 fun hlists => hn ((h.lists n).1 hlists)

/-- **The distribution is exact.** Without limits and over exact fractions, an expression has a
distribution exactly when every die has a face and there is a value under every assignment of faces
to dice. It then lists the values there are under some assignment, and the chance of each is the
number of assignments with this value over the number of all assignments. -/
theorem distribution_unbounded (e : Expr) :
    match e.distribution (α := Rat) .unbounded with
    | .ok p => (e.HasFaces ∧ e.Total) ∧ ∀ n, p.chance? n =
        if ∃ x, e.value x = some n then some ((e.ways n : Rat) / e.worlds) else none
    | .error _ => ¬ (e.HasFaces ∧ e.Total) := by
  obtain ⟨p, hp, hfaces, hlaw⟩ | ⟨⟨x, hx⟩, hnot⟩ := e.law_or_error
  · rw [hp]
    exact ⟨⟨hfaces, hlaw.total⟩, hlaw.chance?_eq hfaces⟩
  · rw [hx]
    exact hnot

end Expr

end DiceOdds
