import DiceOdds.Distribution.Convolution
import Mathlib.Algebra.BigOperators.Ring.List
import Mathlib.Algebra.Field.Rat
import Mathlib.Data.List.Sort
import Mathlib.Tactic.Ring

/-!
# Integrals against distributions

A distribution over exact fractions is known from its integrals: the sum over its entries of the
chance times the value of an observable. The integral of the indicator of an outcome is the chance
of this outcome, and a further chance added to a tally adds its own part to every integral.

## Main definitions

* `Distribution.integral`: the sum of an observable, weighted with the chances.
* `Distribution.Lists`, `Distribution.Occurs`: the outcomes with an entry, and with a chance that is
  not zero.
* `Tally.plus`: a further chance of an outcome, exactly.

## Main results

* `Distribution.integral_indicator`: the chance of an outcome is an integral.
* `Distribution.integral_comm`: the order of two integrals does not matter.
* `Distribution.ext_of_integral`: integrals and listed outcomes determine a distribution.
* `Tally.add?_eq_plus`, `Tally.integral_plus`, `Tally.lists_plus`: adding to a tally.
-/

namespace DiceOdds

namespace Distribution

variable {α : Type}

/-- The outcome has an entry. -/
def Lists (p : Distribution α) (n : Outcome) : Prop := ∃ w, (n, w) ∈ p.entries

/-- The outcome has an entry with a chance that is not zero. -/
def Occurs (p : Distribution Rat) (n : Outcome) : Prop := ∃ w, (n, w) ∈ p.entries ∧ w ≠ 0

/-- The sum of an observable over the entries, weighted with their chances. -/
def integral (p : Distribution Rat) (g : Outcome → Rat) : Rat :=
  (p.entries.map fun x => x.2 * g x.1).sum

/-! ### Entries -/

theorem chance?_eq_some_iff {p : Distribution α} {n : Outcome} {w : α} :
    p.chance? n = some w ↔ (n, w) ∈ p.entries := by
  obtain ⟨entries, hsorted⟩ := p
  simp only [chance?]
  induction entries with
  | nil => simp
  | cons x entries ih =>
    obtain ⟨k, v⟩ := x
    obtain ⟨hhead, htail⟩ := List.pairwise_cons.1 hsorted
    by_cases hn : n = k
    · subst hn
      have hnot : ∀ w, (n, w) ∉ entries := fun w hw => absurd (hhead _ hw) (Int64.lt_irrefl)
      simp [hnot, eq_comm]
    · have hbeq : (n == k) = false := by simpa using hn
      simp [List.lookup_cons, hbeq, ih htail, hn]

theorem chance?_eq_none_iff {p : Distribution α} {n : Outcome} :
    p.chance? n = none ↔ ¬ p.Lists n := by
  rw [Option.eq_none_iff_forall_ne_some]
  simp [Lists, chance?_eq_some_iff]

/-- The chance of an outcome is the integral of its indicator. -/
theorem integral_indicator (p : Distribution Rat) (n : Outcome) :
    p.integral (fun k => if k = n then 1 else 0) = (p.chance? n).getD 0 := by
  obtain ⟨entries, hsorted⟩ := p
  simp only [integral, chance?]
  induction entries with
  | nil => rfl
  | cons x entries ih =>
    obtain ⟨k, v⟩ := x
    obtain ⟨hhead, htail⟩ := List.pairwise_cons.1 hsorted
    rw [List.map_cons, List.sum_cons, ih htail]
    by_cases hn : n = k
    · subst hn
      have hnone : entries.lookup n = none := by
        refine List.lookup_eq_none_iff.2 fun x hx => ?_
        have hne : n ≠ x.1 := fun h => Int64.lt_irrefl (h ▸ hhead x hx)
        simpa using hne
      simp [hnone]
    · have hbeq : (n == k) = false := by simpa using hn
      simp [List.lookup_cons, hbeq, Ne.symm hn]

theorem mem_support {p : Distribution Rat} {x : Outcome × Rat} :
    x ∈ p.support ↔ x ∈ p.entries ∧ x.2 ≠ 0 := by
  have hzero : (!(x.2 == Chance.zero)) = !decide (x.2 = 0) := rfl
  rw [support, List.mem_filter, hzero]
  simp

theorem occurs_iff {p : Distribution Rat} {n : Outcome} :
    p.Occurs n ↔ ∃ w, (n, w) ∈ p.support := by
  simp only [Occurs, mem_support]

/-- Outcomes of chance zero do not matter for integrals. -/
theorem sum_support (p : Distribution Rat) (g : Outcome → Rat) :
    (p.support.map fun x => x.2 * g x.1).sum = p.integral g := by
  have hzero : ∀ x : Outcome × Rat, (!(x.2 == Chance.zero)) = !decide (x.2 = 0) := fun _ => rfl
  unfold support integral
  induction p.entries with
  | nil => rfl
  | cons x entries ih =>
    rw [List.filter_cons, hzero, List.map_cons, List.sum_cons, ← ih]
    by_cases hx : x.2 = 0
    · simp [hx]
    · simp [hx]

/-! ### Observables -/

/-- Only outcomes that occur matter for integrals. -/
theorem integral_congr {p : Distribution Rat} {g g' : Outcome → Rat}
    (h : ∀ n, p.Occurs n → g n = g' n) : p.integral g = p.integral g' := by
  refine congrArg List.sum (List.map_congr_left fun x hx => ?_)
  by_cases hzero : x.2 = 0
  · rw [hzero, zero_mul, zero_mul]
  · rw [h x.1 ⟨x.2, hx, hzero⟩]

theorem integral_add (p : Distribution Rat) (g g' : Outcome → Rat) :
    p.integral (fun n => g n + g' n) = p.integral g + p.integral g' := by
  simp only [integral, mul_add, List.sum_map_add]

theorem integral_mul_left (p : Distribution Rat) (c : Rat) (g : Outcome → Rat) :
    p.integral (fun n => c * g n) = c * p.integral g := by
  simp only [integral, mul_left_comm _ c, List.sum_map_mul_left]

theorem integral_mul_right (p : Distribution Rat) (c : Rat) (g : Outcome → Rat) :
    p.integral (fun n => g n * c) = p.integral g * c := by
  simp only [mul_comm _ c, integral_mul_left]

theorem integral_sub (p : Distribution Rat) (g g' : Outcome → Rat) :
    p.integral (fun n => g n - g' n) = p.integral g - p.integral g' := by
  rw [eq_sub_iff_add_eq, ← integral_add]
  simp only [sub_add_cancel]

/-- Two distributions may be integrated against in either order. -/
theorem integral_comm (p q : Distribution Rat) (f : Outcome → Outcome → Rat) :
    (p.integral fun a => q.integral (f a)) = q.integral fun b => p.integral fun a => f a b := by
  simp only [integral]
  induction p.entries with
  | nil => simp
  | cons x entries ih =>
    simp only [List.map_cons, List.sum_cons, mul_add, List.sum_map_add, ih]
    simp only [mul_left_comm _ x.2, List.sum_map_mul_left]

/-! ### Constants -/

theorem integral_certain (n : Outcome) (g : Outcome → Rat) : (certain n).integral g = g n := by
  simp [integral, certain, Chance.one]

theorem occurs_certain {n k : Outcome} : (certain n).Occurs k ↔ k = n := by
  simp [Occurs, certain, Chance.one]

/-! ### Equal distributions -/

theorem ext_of_chance? {p q : Distribution α} (h : ∀ n, p.chance? n = q.chance? n) : p = q := by
  have : Std.Antisymm fun x y : Outcome × α => x.1 < y.1 :=
    ⟨fun _ _ h h' => absurd (Int64.lt_trans h h') Int64.lt_irrefl⟩
  have : Std.Irrefl fun x y : Outcome × α => x.1 < y.1 := ⟨fun _ => Int64.lt_irrefl⟩
  refine ext (p.sorted.eq_of_mem_iff q.sorted fun x => ?_)
  rw [← chance?_eq_some_iff, ← chance?_eq_some_iff, h]

/-- A distribution is known from the outcomes it lists and from its integrals. -/
theorem ext_of_integral {p q : Distribution Rat} (hlists : ∀ n, p.Lists n ↔ q.Lists n)
    (hintegral : ∀ g, p.integral g = q.integral g) : p = q := by
  refine ext_of_chance? fun n => ?_
  have hchance : (p.chance? n).getD 0 = (q.chance? n).getD 0 := by
    rw [← integral_indicator, ← integral_indicator, hintegral]
  by_cases hn : p.Lists n
  · obtain ⟨w, hw⟩ := hn
    obtain ⟨w', hw'⟩ := (hlists n).1 ⟨w, hw⟩
    rw [chance?_eq_some_iff.2 hw, chance?_eq_some_iff.2 hw'] at hchance ⊢
    exact congrArg some hchance
  · rw [chance?_eq_none_iff.2 hn, chance?_eq_none_iff.2 (mt (hlists n).2 hn)]

end Distribution

/-! ### Tallies -/

namespace Tally

/-- A further chance of an outcome. -/
def plus (t : Tally Rat) (n : Outcome) (w : Rat) : Tally Rat := t.insert n (t[n]?.getD 0 + w)

theorem add?_eq_plus (t : Tally Rat) (n : Outcome) (w : Rat) : t.add? n w = some (t.plus n w) := by
  unfold add? plus
  cases h : t[n]? with
  | none => simp
  | some q => rfl

theorem mem_entries_ofTally {α : Type} {t : Tally α} {n : Outcome} {w : α} :
    (n, w) ∈ (Distribution.ofTally t).entries ↔ t[n]? = some w :=
  Std.TreeMap.mem_toList_iff_getElem?_eq_some

theorem lists_ofTally {t : Tally Rat} {n : Outcome} :
    (Distribution.ofTally t).Lists n ↔ n ∈ t := by
  rw [Std.TreeMap.mem_iff_isSome_getElem?, Option.isSome_iff_exists]
  simp only [Distribution.Lists, mem_entries_ofTally]

theorem lists_plus (t : Tally Rat) (n k : Outcome) (w : Rat) :
    (Distribution.ofTally (t.plus n w)).Lists k ↔ k = n ∨ (Distribution.ofTally t).Lists k := by
  rw [lists_ofTally, lists_ofTally, plus, Std.TreeMap.mem_insert, Std.compare_eq_iff_eq, eq_comm]

/-- An entry that is set replaces the one there was. -/
theorem integral_insert (t : Tally Rat) (n : Outcome) (w : Rat) (g : Outcome → Rat) :
    (Distribution.ofTally (t.insert n w)).integral g =
      w * g n + ((t.toList.filter fun x => ¬ (n == x.1)).map fun x => x.2 * g x.1).sum := by
  have hperm := (Std.TreeMap.toList_insert_perm (t := t) (k := n) (v := w)).map
    fun x => x.2 * g x.1
  rw [Distribution.integral, Distribution.ofTally, hperm.sum_eq, List.map_cons, List.sum_cons]

/-- The part of one outcome apart from that of all others. -/
theorem integral_eq_add_filter (t : Tally Rat) (n : Outcome) (g : Outcome → Rat) :
    (Distribution.ofTally t).integral g =
      t[n]?.getD 0 * g n +
        ((t.toList.filter fun x => ¬ (n == x.1)).map fun x => x.2 * g x.1).sum := by
  cases h : t[n]? with
  | none =>
    have hfilter : (t.toList.filter fun x => ¬ (n == x.1)) = t.toList := by
      refine List.filter_eq_self.2 fun x hx => ?_
      have hsome : t[x.1]? = some x.2 := Std.TreeMap.mem_toList_iff_getElem?_eq_some.1 hx
      have hne : n ≠ x.1 := by
        rintro rfl
        rw [h] at hsome
        cases hsome
      simpa using hne
    rw [hfilter, Option.getD_none, zero_mul, zero_add]
    rfl
  | some q =>
    have hequiv : (t.insert n q).Equiv t := by
      refine Std.TreeMap.Equiv.of_forall_constGet?_eq fun k => ?_
      rw [Std.TreeMap.getElem?_insert]
      split
      · next hk => rw [← Std.compare_eq_iff_eq.1 hk, h]
      · rfl
    rw [Option.getD_some, ← integral_insert]
    exact congrArg (fun l => (l.map fun x => x.2 * g x.1).sum) hequiv.toList_eq.symm

/-- A further chance adds its own part to every integral. -/
theorem integral_plus (t : Tally Rat) (n : Outcome) (w : Rat) (g : Outcome → Rat) :
    (Distribution.ofTally (t.plus n w)).integral g =
      (Distribution.ofTally t).integral g + w * g n := by
  rw [plus, integral_insert, integral_eq_add_filter t n g]
  ring

end Tally

end DiceOdds
