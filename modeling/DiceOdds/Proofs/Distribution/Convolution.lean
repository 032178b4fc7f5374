import DiceOdds.Proofs.Distribution.Integral
import Mathlib.Data.List.ProdSigma

/-!
# Convolutions of exact distributions

Combining two distributions goes through the pairs of an outcome of the left one and an outcome of
the right one, both with a chance that is not zero. Over exact fractions the only thing that can go
wrong is a pair whose result does not fit. Otherwise integrating against the combination is
integrating the result of the operator against both sides, one after the other.

## Main definitions

* `Distribution.addPairs`: adding the results of a list of pairs to a tally.
* `Distribution.Convolves`: a distribution is the convolution of two others.

## Main results

* `Distribution.addRows_eq_addPairs`: rows and columns are a list of pairs.
* `Distribution.convolves_of_combine`, `Distribution.of_combine_eq_error`: what combining gives.
* `Distribution.combine_eq_ok_iff`: combining gives the convolution wherever there is one.
-/

namespace DiceOdds

namespace Distribution

variable {op : Operator}

/-- Two entries, one from each side. -/
abbrev EntryPair := (Outcome × Rat) × (Outcome × Rat)

/-- Adds the results of a list of pairs to a tally. -/
def addPairs (op : Operator) : List EntryPair → Tally Rat → Except EvalError (Tally Rat)
  | [], t => .ok t
  | (x, y) :: pairs, t =>
    match op.apply x.1 y.1 with
    | none => .error (.overflow op x.1 y.1)
    | some n => addPairs op pairs (t.plus n (x.2 * y.2))

/-! ### Rows -/

theorem addPairs_append (pairs pairs' : List EntryPair) (t : Tally Rat) :
    addPairs op (pairs ++ pairs') t = (addPairs op pairs t).bind (addPairs op pairs') := by
  induction pairs generalizing t with
  | nil => rfl
  | cons c pairs ih =>
    rw [List.cons_append, addPairs, addPairs]
    cases op.apply c.1.1 c.2.1 with
    | none => rfl
    | some n => exact ih _

theorem addRow_eq_addPairs (x : Outcome × Rat) (right : List (Outcome × Rat)) (t : Tally Rat) :
    addRow op x.1 x.2 right t = addPairs op (right.map (Prod.mk x)) t := by
  induction right generalizing t with
  | nil => rfl
  | cons y right ih =>
    rw [addRow, List.map_cons, addPairs]
    cases op.apply x.1 y.1 with
    | none => rfl
    | some n =>
      simp only [Chance.mul?_rat, Option.bind_some, Tally.add?_eq_plus]
      exact ih _

/-- Rows and columns are gone through as a list of pairs. -/
theorem addRows_eq_addPairs (left right : List (Outcome × Rat)) (t : Tally Rat) :
    addRows op right left t = addPairs op (left ×ˢ right) t := by
  induction left generalizing t with
  | nil => rfl
  | cons x left ih =>
    rw [addRows, addRow_eq_addPairs, List.product_cons, addPairs_append]
    cases addPairs op (right.map (Prod.mk x)) t with
    | error error => rfl
    | ok t => exact ih t

/-! ### Pairs -/

/-- The result of a pair, where it fits. -/
def result (op : Operator) (c : EntryPair) : Outcome := (op.apply c.1.1 c.2.1).getD 0

/-- The only failures are results that do not fit. -/
theorem of_addPairs_eq_error {pairs : List EntryPair} {t : Tally Rat} {x : EvalError}
    (h : addPairs op pairs t = .error x) :
    ∃ c ∈ pairs, op.apply c.1.1 c.2.1 = none ∧ x = .overflow op c.1.1 c.2.1 := by
  induction pairs generalizing t with
  | nil => cases h
  | cons c pairs ih =>
    rw [addPairs] at h
    split at h
    · next hnone =>
      cases h
      exact ⟨c, List.mem_cons_self, hnone, rfl⟩
    · obtain ⟨c', hc', hx⟩ := ih h
      exact ⟨c', List.mem_cons_of_mem _ hc', hx⟩

/-- A tally with the results of a list of pairs: all fit, and each adds its own part. -/
structure Adds (op : Operator) (pairs : List EntryPair) (t t' : Tally Rat) : Prop where
  fits : ∀ c ∈ pairs, ∃ n, op.apply c.1.1 c.2.1 = some n
  integral (g : Outcome → Rat) : (ofTally t').integral g = (ofTally t).integral g +
    (pairs.map fun c => c.1.2 * c.2.2 * g (result op c)).sum
  lists (n : Outcome) : (ofTally t').Lists n ↔
    (∃ c ∈ pairs, op.apply c.1.1 c.2.1 = some n) ∨ (ofTally t).Lists n

theorem adds_of_addPairs {pairs : List EntryPair} {t t' : Tally Rat}
    (h : addPairs op pairs t = .ok t') : Adds op pairs t t' := by
  induction pairs generalizing t with
  | nil =>
    cases h
    exact ⟨by simp, by simp, by simp⟩
  | cons c pairs ih =>
    rw [addPairs] at h
    split at h
    · cases h
    · next n hn =>
      obtain ⟨hfits, hintegral, hlists⟩ := ih h
      have hresult : result op c = n := by rw [result, hn, Option.getD_some]
      refine ⟨?_, fun g => ?_, fun k => ?_⟩
      · intro c' hc'
        rcases List.mem_cons.1 hc' with rfl | hc'
        · exact ⟨n, hn⟩
        · exact hfits c' hc'
      · rw [hintegral, Tally.integral_plus, List.map_cons, List.sum_cons, hresult]
        ring
      · rw [hlists, Tally.lists_plus, List.exists_mem_cons_iff, hn, Option.some.injEq, eq_comm,
          or_left_comm, or_assoc]

/-! ### Combinations -/

/-- A distribution is the convolution of two others under an operator. -/
structure Convolves (op : Operator) (p q r : Distribution Rat) : Prop where
  fits {a b : Outcome} : p.Occurs a → q.Occurs b → ∃ n, op.apply a b = some n
  integral (g : Outcome → Rat) :
    r.integral g = p.integral fun a => q.integral fun b => g ((op.apply a b).getD 0)
  lists (n : Outcome) : r.Lists n ↔ ∃ a b, p.Occurs a ∧ q.Occurs b ∧ op.apply a b = some n

theorem sum_product (left right : List (Outcome × Rat)) (g : Outcome → Outcome → Rat) :
    ((left ×ˢ right).map fun c => c.1.2 * c.2.2 * g c.1.1 c.2.1).sum =
      (left.map fun x => x.2 * (right.map fun y => y.2 * g x.1 y.1).sum).sum := by
  induction left with
  | nil => rfl
  | cons x left ih =>
    rw [List.product_cons, List.map_append, List.sum_append, ih, List.map_cons, List.sum_cons,
      ← List.sum_map_mul_left, List.map_map]
    simp only [Function.comp_def, mul_assoc]

variable {p q r : Distribution Rat}

/-- Integrating against the pairs that occur is integrating against one side after the other. -/
theorem sum_product_support (p q : Distribution Rat) (g : Outcome → Outcome → Rat) :
    ((p.support ×ˢ q.support).map fun c => c.1.2 * c.2.2 * g c.1.1 c.2.1).sum =
      p.integral fun a => q.integral (g a) := by
  have hright : ∀ a, (q.support.map fun y => y.2 * g a y.1).sum = q.integral (g a) :=
    fun a => q.sum_support (g a)
  rw [sum_product]
  simp only [hright]
  exact p.sum_support fun a => q.integral (g a)

theorem mem_product_support {c : EntryPair} :
    c ∈ p.support ×ˢ q.support ↔ c.1 ∈ p.support ∧ c.2 ∈ q.support :=
  List.mem_product

/-- What combining gives is the convolution. -/
theorem convolves_of_combine (h : combine op p q = .ok r) : Convolves op p q r := by
  rw [combine] at h
  rw [addRows_eq_addPairs] at h
  split at h
  · next t ht =>
    cases h
    obtain ⟨hfits, hintegral, hlists⟩ := adds_of_addPairs ht
    refine ⟨?_, fun g => ?_, fun n => ?_⟩
    · intro a b ha hb
      obtain ⟨w, hw⟩ := occurs_iff.1 ha
      obtain ⟨w', hw'⟩ := occurs_iff.1 hb
      exact hfits ((a, w), (b, w')) (mem_product_support.2 ⟨hw, hw'⟩)
    · rw [hintegral]
      have hempty : (ofTally (∅ : Tally Rat)).integral g = 0 := rfl
      rw [hempty, zero_add]
      exact sum_product_support p q fun a b => g ((op.apply a b).getD 0)
    · have hempty : ¬ (ofTally (∅ : Tally Rat)).Lists n := by
        rintro ⟨w, hw⟩
        cases hw
      rw [hlists, or_iff_left hempty]
      refine ⟨?_, ?_⟩
      · rintro ⟨c, hc, hn⟩
        obtain ⟨hleft, hright⟩ := mem_product_support.1 hc
        exact ⟨c.1.1, c.2.1, occurs_iff.2 ⟨c.1.2, hleft⟩, occurs_iff.2 ⟨c.2.2, hright⟩, hn⟩
      · rintro ⟨a, b, ha, hb, hn⟩
        obtain ⟨w, hw⟩ := occurs_iff.1 ha
        obtain ⟨w', hw'⟩ := occurs_iff.1 hb
        exact ⟨((a, w), (b, w')), mem_product_support.2 ⟨hw, hw'⟩, hn⟩
  · cases h

/-- Only a pair of outcomes that both occur makes combining fail. -/
theorem of_combine_eq_error {x : EvalError} (h : combine op p q = .error x) :
    ∃ a b, p.Occurs a ∧ q.Occurs b ∧ op.apply a b = none ∧ x = .overflow op a b := by
  rw [combine] at h
  rw [addRows_eq_addPairs] at h
  split at h
  · cases h
  · next hpairs =>
    cases h
    obtain ⟨c, hc, hnone, hx⟩ := of_addPairs_eq_error hpairs
    obtain ⟨hleft, hright⟩ := mem_product_support.1 hc
    exact ⟨c.1.1, c.2.1, occurs_iff.2 ⟨c.1.2, hleft⟩, occurs_iff.2 ⟨c.2.2, hright⟩, hnone, hx⟩

/-- There is at most one convolution. -/
theorem Convolves.unique {r' : Distribution Rat} (h : Convolves op p q r)
    (h' : Convolves op p q r') : r = r' :=
  ext_of_integral (fun n => (h.lists n).trans (h'.lists n).symm)
    fun g => (h.integral g).trans (h'.integral g).symm

/-- If the results of all pairs of outcomes that occur fit, combining succeeds. -/
theorem exists_combine_eq_ok
    (h : ∀ a b, p.Occurs a → q.Occurs b → ∃ n, op.apply a b = some n) :
    ∃ r, combine op p q = .ok r := by
  cases hcombine : combine op p q with
  | ok r => exact ⟨r, rfl⟩
  | error x =>
    obtain ⟨a, b, ha, hb, hnone, -⟩ := of_combine_eq_error hcombine
    obtain ⟨n, hn⟩ := h a b ha hb
    rw [hnone] at hn
    cases hn

/-- Combining gives the convolution wherever there is one. -/
theorem combine_eq_ok_iff : combine op p q = .ok r ↔ Convolves op p q r := by
  refine ⟨convolves_of_combine, fun h => ?_⟩
  obtain ⟨r', hr'⟩ := exists_combine_eq_ok fun a b ha hb => h.fits ha hb
  rw [hr', h.unique (convolves_of_combine hr')]

end Distribution

end DiceOdds
