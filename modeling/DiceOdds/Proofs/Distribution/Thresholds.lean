import DiceOdds.Distribution.Sampling
import DiceOdds.Proofs.Distribution.Integral
import DiceOdds.Proofs.Words.Coverage

/-!
# Thresholds of a sampler

With whole numbers as weights, a sampler divides the numbers below the total weight into one stretch
for each outcome, in the order of the outcomes. A threshold lies in the stretch behind all those
that end at it or below it, so the stretch of an outcome holds as many thresholds as the outcome has
weight, and the stretch of an outcome without weight is empty, wherever it stands.

## Main definitions

* `Stretches`: outcomes with the widths of their stretches.
* `Stretches.find?`: the outcome of the stretch that holds a threshold.
* `Stretches.index`: how many running sums, the last one left out, a threshold is not below.
* `Distribution.Samplable`: the distributions that have a sampler.

## Main results

* `Stretches.countP_find?`: how many thresholds an outcome has.
* `Stretches.find?_eq_getElem?`: the outcome of a threshold stands at its index.
* `Distribution.exists_sampler_iff`: which distributions have a sampler.
* `Distribution.sampler_thresholds`: samples of whole weights.
-/

namespace DiceOdds

/-- Outcomes with the widths of their stretches. -/
abbrev Stretches := List (Outcome × Nat)

namespace Stretches

/-- The width of all stretches together. -/
def width (l : Stretches) : Nat := (l.map (·.2)).sum

/-- The outcome of the stretch that holds a threshold. -/
def find? : Stretches → Nat → Option Outcome
  | [], _ => none
  | (n, k) :: l, x => if x < k then some n else find? l (x - k)

/-- The running sums of some numbers: the first one, the sum of the first two and so on. -/
def runningSums : List Nat → List Nat
  | [] => []
  | k :: ks => k :: (runningSums ks).map (k + ·)

/-- How many running sums of the widths, the last one left out, come before the first one that is
above a threshold. -/
def index (l : Stretches) (x : Nat) : Nat :=
  ((runningSums (l.map (·.2))).dropLast.takeWhile (· ≤ x)).length

variable {l : Stretches} {n : Outcome} {k x : Nat}

theorem width_cons : width ((n, k) :: l) = k + width l := by
  rw [width, List.map_cons, List.sum_cons, width]

/-- Every threshold below the width lies in the stretch of an outcome that has one. -/
theorem exists_find?_eq (h : x < width l) : ∃ n k, find? l x = some n ∧ (n, k) ∈ l ∧ 0 < k := by
  induction l generalizing x with
  | nil => exact absurd h (Nat.not_lt_zero x)
  | cons y l ih =>
    obtain ⟨n, k⟩ := y
    rw [width_cons] at h
    by_cases hx : x < k
    · exact ⟨n, k, by rw [find?, if_pos hx], List.mem_cons_self, Nat.zero_lt_of_lt hx⟩
    · obtain ⟨m, j, hm, hmem, hj⟩ := ih (x := x - k) (by omega)
      exact ⟨m, j, by rw [find?, if_neg hx, hm], List.mem_cons_of_mem _ hmem, hj⟩

/-- **An outcome has as many thresholds as its stretches are wide.** -/
theorem countP_find? (l : Stretches) (n : Outcome) :
    ((List.range (width l)).countP fun x => find? l x = some n) =
      width (l.filter fun y => y.1 = n) := by
  induction l with
  | nil => rfl
  | cons y l ih =>
    obtain ⟨m, k⟩ := y
    rw [width_cons, List.range_add, List.countP_append, List.countP_map]
    -- The thresholds of the first stretch come first, the others are counted on from its end.
    have hfirst : ((List.range k).countP fun x => find? ((m, k) :: l) x = some n) =
        (List.range k).countP fun _ => m = n :=
      List.countP_congr fun x hx => by simp [find?, List.mem_range.1 hx]
    have hrest : (List.range (width l)).countP
        ((fun x => decide (find? ((m, k) :: l) x = some n)) ∘ (k + ·)) =
        (List.range (width l)).countP fun x => find? l x = some n :=
      List.countP_congr fun x _ => by simp [find?]
    rw [hfirst, hrest, ih, List.filter_cons]
    by_cases hmn : m = n
    · simp [hmn, width_cons]
    · simp [hmn]

theorem index_cons (hl : l ≠ []) :
    index ((n, k) :: l) x = if k ≤ x then index l (x - k) + 1 else 0 := by
  obtain ⟨⟨m, j⟩, l, rfl⟩ := List.exists_cons_of_ne_nil hl
  have hsums : (runningSums (((n, k) :: (m, j) :: l).map (·.2))).dropLast =
      k :: ((runningSums (((m, j) :: l).map (·.2))).dropLast.map (k + ·)) := by
    simp [runningSums, List.map_dropLast]
  rw [index, hsums, List.takeWhile_cons]
  by_cases hx : k ≤ x
  · simp only [hx, decide_true, if_true, List.length_cons, List.takeWhile_map, List.length_map]
    have hshift : (fun y => decide (y ≤ x)) ∘ (k + ·) = fun y => decide (y ≤ x - k) := by
      funext y
      simp only [Function.comp, decide_eq_decide]
      omega
    rw [hshift, index]
  · simp only [hx, decide_false, if_false, Bool.false_eq_true, List.length_nil]

/-- **The outcome of a threshold stands at its index.** -/
theorem find?_eq_getElem? (h : x < width l) : find? l x = (l.map (·.1))[index l x]? := by
  induction l generalizing x with
  | nil => exact absurd h (Nat.not_lt_zero x)
  | cons y l ih =>
    obtain ⟨n, k⟩ := y
    rw [width_cons] at h
    by_cases hl : l = []
    · subst hl
      rw [find?, if_pos (by simpa [width] using h)]
      rfl
    · rw [index_cons hl, find?]
      by_cases hx : x < k
      · rw [if_pos hx, if_neg (Nat.not_le.2 hx)]
        rfl
      · rw [if_neg hx, if_pos (Nat.not_lt.1 hx), ih (by omega), List.map_cons,
          List.getElem?_cons_succ]

end Stretches

/-! ### The sampler of some outcomes -/

namespace Sampler

/-- The stretches of some outcomes with their weights. -/
def stretches (entries : List (Outcome × Int64)) : Stretches :=
  entries.map fun x => (x.1, x.2.toNatClampNeg)

/-- The sum of the weights. -/
def weight (entries : List (Outcome × Int64)) : Int := (entries.map fun x => x.2.toInt).sum

variable {entries : List (Outcome × Int64)} {n last : Outcome} {w sum : Int64} {s : Sampler Int64}

theorem stretches_cons (n : Outcome) (w : Int64) (entries : List (Outcome × Int64)) :
    stretches ((n, w) :: entries) = (n, w.toNatClampNeg) :: stretches entries := rfl

theorem weight_cons (n : Outcome) (w : Int64) (entries : List (Outcome × Int64)) :
    weight ((n, w) :: entries) = w.toInt + weight entries := by
  rw [weight, List.map_cons, List.sum_cons, weight]

theorem weight_eq_width (h : ∀ x ∈ entries, 0 ≤ x.2.toInt) :
    weight entries = (stretches entries).width := by
  induction entries with
  | nil => rfl
  | cons x entries ih =>
    obtain ⟨n, w⟩ := x
    obtain ⟨hw, hentries⟩ := List.forall_mem_cons.1 h
    have hw : 0 ≤ w.toInt := hw
    have hclamp := w.toNat_toInt
    rw [weight_cons, ih hentries, stretches_cons, Stretches.width_cons]
    omega

theorem weight_nonneg (h : ∀ x ∈ entries, 0 ≤ x.2.toInt) : 0 ≤ weight entries := by
  rw [weight_eq_width h]
  exact Int.natCast_nonneg _

theorem atMost_iff {x y : Int64} : Weight.atMost x y = true ↔ x.toInt ≤ y.toInt :=
  decide_eq_true_iff.trans Int64.le_iff_toInt_le

theorem zero_atMost_iff : Weight.atMost Chance.zero w = true ↔ 0 ≤ w.toInt :=
  decide_eq_true_iff.trans Int64.le_iff_toInt_le

/-- One more outcome is added when its weight is not negative and the sum fits. -/
theorem extend_cons_eq_ok_iff {ends : List (Outcome × Int64)} :
    extend ends last sum ((n, w) :: entries) = .ok s ↔
      0 ≤ w.toInt ∧ ∃ next : Int64, next.toInt = sum.toInt + w.toInt ∧
        extend ((last, sum) :: ends) n next entries = .ok s := by
  have hadd : Chance.add? sum w = Outcome.ofInt? (sum.toInt + w.toInt) := rfl
  rw [extend, hadd]
  by_cases hw : 0 ≤ w.toInt
  · rw [if_pos (zero_atMost_iff.2 hw)]
    cases hnext : Outcome.ofInt? (sum.toInt + w.toInt) with
    | none =>
      refine ⟨nofun, ?_⟩
      rintro ⟨-, next, hsum, -⟩
      rw [Outcome.ofInt?_eq_some_iff.2 hsum] at hnext
      cases hnext
    | some next =>
      refine ⟨fun h => ⟨hw, next, Outcome.ofInt?_eq_some_iff.1 hnext, h⟩, ?_⟩
      rintro ⟨-, next', hsum, h⟩
      rw [Outcome.ofInt?_eq_some_iff.2 hsum] at hnext
      cases hnext
      exact h
  · rw [if_neg (mt zero_atMost_iff.1 hw)]
    exact ⟨nofun, fun h => absurd h.1 hw⟩

/-- There is a sampler of further outcomes when no weight is negative and the sums fit. -/
theorem exists_extend_eq_ok_iff {ends : List (Outcome × Int64)} :
    (∃ s, extend ends last sum entries = .ok s) ↔
      (∀ x ∈ entries, 0 ≤ x.2.toInt) ∧ sum.toInt + weight entries ≤ 9223372036854775807 := by
  induction entries generalizing ends last sum with
  | nil =>
    have hsum := sum.toInt_lt
    refine ⟨fun _ => ⟨nofun, ?_⟩, fun _ => ⟨_, rfl⟩⟩
    rw [weight, List.map_nil, List.sum_nil]
    omega
  | cons x entries ih =>
    obtain ⟨n, w⟩ := x
    rw [List.forall_mem_cons, weight_cons]
    constructor
    · rintro ⟨s, hs⟩
      obtain ⟨hw, next, hnext, hs⟩ := extend_cons_eq_ok_iff.1 hs
      obtain ⟨hentries, hfits⟩ := ih.1 ⟨s, hs⟩
      exact ⟨⟨hw, hentries⟩, by omega⟩
    · rintro ⟨⟨hw, hentries⟩, hfits⟩
      have hlow := sum.le_toInt
      have hrest := weight_nonneg hentries
      have hw : 0 ≤ w.toInt := hw
      cases hnext : Outcome.ofInt? (sum.toInt + w.toInt) with
      | none =>
        have hout := Outcome.ofInt?_eq_none_iff.1 hnext
        omega
      | some next =>
        have hnext := Outcome.ofInt?_eq_some_iff.1 hnext
        have hfits : next.toInt + weight entries ≤ 9223372036854775807 := by omega
        obtain ⟨s, hs⟩ := ih.2 ⟨hentries, hfits⟩
        exact ⟨s, extend_cons_eq_ok_iff.2 ⟨hw, next, hnext, hs⟩⟩

/-- Numbers can be drawn below any total but zero. -/
theorem checkTotal_eq_ok_iff {s' : Sampler Int64} :
    s'.checkTotal = .ok s ↔ s' = s ∧ s.total.toInt ≠ 0 := by
  have hzero : (s'.total == Chance.zero) = decide (s'.total.toInt = 0) := by
    rw [beq_eq_decide, decide_eq_decide]
    exact Int64.toInt_inj.symm
  have hfinite : Weight.isFinite s'.total = true := rfl
  rw [checkTotal, hzero]
  by_cases htotal : s'.total.toInt = 0
  · simp only [htotal, decide_true, if_true]
    refine ⟨nofun, ?_⟩
    rintro ⟨rfl, hne⟩
    exact absurd htotal hne
  · simp only [htotal, decide_false, Bool.false_eq_true, if_false, hfinite, if_true]
    refine ⟨?_, ?_⟩
    · rintro ⟨⟩
      exact ⟨rfl, htotal⟩
    · rintro ⟨rfl, -⟩
      rfl

/-- The stretch of the last outcome so far and those of further outcomes are told apart by the sums
that are added to the sampler. -/
theorem of_extend_eq_ok {ends : List (Outcome × Int64)}
    (h : extend ends last sum entries = .ok s) :
    s.total.toInt = sum.toInt + weight entries ∧
    ∃ further, s.ends = ends.reverse ++ further ∧
      ∀ start width x : Nat, sum.toInt = start + width → (start + x : Nat) < s.total.toInt →
        Stretches.find? ((last, width) :: stretches entries) x =
          some (pickFrom (.ofNat (start + x)) s.last further) := by
  induction entries generalizing ends last sum with
  | nil =>
    cases h
    refine ⟨(Int.add_zero _).symm, [], (List.append_nil _).symm, fun start width x hsum hx => ?_⟩
    have hx : (start + x : Nat) < sum.toInt := hx
    rw [Stretches.find?, if_pos (by omega), pickFrom]
  | cons y entries ih =>
    obtain ⟨n, w⟩ := y
    obtain ⟨hw, next, hnext, h⟩ := extend_cons_eq_ok_iff.1 h
    obtain ⟨htotal, further, hends, hfind⟩ := ih h
    rw [List.reverse_cons, List.append_assoc, List.singleton_append] at hends
    refine ⟨by rw [htotal, weight_cons]; omega, _, hends, fun start width x hsum hx => ?_⟩
    have hlt := s.total.toInt_lt
    have hthreshold : (Int64.ofNat (start + x)).toInt = (start + x : Nat) :=
      Int64.toInt_ofNat_of_lt (by omega)
    rw [Stretches.find?, pickFrom]
    by_cases hwidth : x < width
    · have hbelow : ¬ sum.toInt ≤ (Int64.ofNat (start + x)).toInt := by omega
      rw [if_pos hwidth, if_neg (mt atMost_iff.1 hbelow)]
    · -- The threshold is not below the sum, so it lies in a stretch that starts there.
      have habove : sum.toInt ≤ (Int64.ofNat (start + x)).toInt := by omega
      have hclamp := w.toNat_toInt
      have hshift : start + width + (x - width) = start + x := by omega
      rw [if_neg hwidth, if_pos (atMost_iff.2 habove), stretches_cons,
        hfind (start + width) w.toNatClampNeg (x - width) (by omega) (by rwa [hshift]), hshift]

end Sampler

namespace Distribution

open Sampler (stretches weight)

variable {p : Distribution Int64} {s : Sampler Int64}

/-- No weight is negative, and the sum of the weights is positive and fits. -/
structure Samplable (p : Distribution Int64) : Prop where
  nonneg : ∀ x ∈ p.entries, 0 ≤ x.2.toInt
  fits : weight p.entries ≤ 9223372036854775807
  positive : 0 < weight p.entries

theorem sampler_eq_ok_iff {n : Outcome} {w : Int64} {entries : List (Outcome × Int64)}
    (hp : p.entries = (n, w) :: entries) :
    p.sampler = .ok s ↔
      0 ≤ w.toInt ∧ Sampler.extend [] n w entries = .ok s ∧ s.total.toInt ≠ 0 := by
  rw [sampler, hp]
  dsimp only
  by_cases hw : 0 ≤ w.toInt
  · rw [if_pos (Sampler.zero_atMost_iff.2 hw)]
    cases hextend : Sampler.extend [] n w entries with
    | error x => exact ⟨nofun, fun h => nomatch h.2.1⟩
    | ok s' =>
      refine Sampler.checkTotal_eq_ok_iff.trans ⟨?_, ?_⟩
      · rintro ⟨rfl, htotal⟩
        exact ⟨hw, rfl, htotal⟩
      · rintro ⟨-, h, htotal⟩
        cases h
        exact ⟨rfl, htotal⟩
  · rw [if_neg (mt Sampler.zero_atMost_iff.1 hw)]
    exact ⟨nofun, fun h => absurd h.1 hw⟩

/-- **The distributions that have a sampler.** -/
theorem exists_sampler_iff : (∃ s, p.sampler = .ok s) ↔ p.Samplable := by
  cases hp : p.entries with
  | nil =>
    constructor
    · rintro ⟨s, hs⟩
      rw [sampler, hp] at hs
      cases hs
    · intro h
      have hpos := h.positive
      rw [hp] at hpos
      exact absurd hpos (Int.lt_irrefl 0)
  | cons x entries =>
    obtain ⟨n, w⟩ := x
    constructor
    · rintro ⟨s, hs⟩
      obtain ⟨hw, hextend, htotal⟩ := (sampler_eq_ok_iff hp).1 hs
      obtain ⟨hentries, hfits⟩ := Sampler.exists_extend_eq_ok_iff.1 ⟨s, hextend⟩
      have hsum := (Sampler.of_extend_eq_ok hextend).1
      have hrest := Sampler.weight_nonneg hentries
      refine ⟨?_, ?_, ?_⟩
      · rw [hp]
        exact List.forall_mem_cons.2 ⟨hw, hentries⟩
      · rw [hp, Sampler.weight_cons]
        exact hfits
      · rw [hp, Sampler.weight_cons]
        omega
    · rintro ⟨hnonneg, hfits, hpos⟩
      rw [hp] at hnonneg hfits hpos
      rw [Sampler.weight_cons] at hfits hpos
      obtain ⟨hw, hentries⟩ := List.forall_mem_cons.1 hnonneg
      obtain ⟨s, hs⟩ : ∃ s, Sampler.extend [] n w entries = .ok s :=
        Sampler.exists_extend_eq_ok_iff.2 ⟨hentries, hfits⟩
      have hsum := (Sampler.of_extend_eq_ok hs).1
      exact ⟨s, (sampler_eq_ok_iff hp).2 ⟨hw, hs, by omega⟩⟩

/-- The total of a sampler is the sum of the weights, and it picks the outcomes whose stretches
hold the thresholds. -/
theorem of_sampler_eq_ok (h : p.sampler = .ok s) :
    s.total.toInt = weight p.entries ∧ ∀ x : Nat, x < weight p.entries →
      (stretches p.entries).find? x = some (s.pick (.ofNat x)) := by
  cases hp : p.entries with
  | nil =>
    rw [sampler, hp] at h
    cases h
  | cons y entries =>
    obtain ⟨n, w⟩ := y
    obtain ⟨hw, hextend, -⟩ := (sampler_eq_ok_iff hp).1 h
    obtain ⟨htotal, further, hends, hfind⟩ := Sampler.of_extend_eq_ok hextend
    rw [List.reverse_nil, List.nil_append] at hends
    have hclamp := w.toNat_toInt
    rw [Sampler.weight_cons, ← htotal]
    refine ⟨rfl, fun x hx => ?_⟩
    rw [Sampler.stretches_cons, Sampler.pick, hends]
    have hx' := hfind 0 w.toNatClampNeg x (by omega) (by rwa [Nat.zero_add])
    rwa [Nat.zero_add] at hx'

/-- The stretches of an outcome are as wide as its weight, because it is listed once. -/
theorem width_filter_stretches {entries : List (Outcome × Int64)}
    (hsorted : entries.Pairwise fun x y => x.1 < y.1) {n : Outcome} {w : Int64}
    (h : (n, w) ∈ entries) :
    Stretches.width ((stretches entries).filter fun y => y.1 = n) = w.toNatClampNeg := by
  induction entries with
  | nil => cases h
  | cons x entries ih =>
    obtain ⟨m, v⟩ := x
    obtain ⟨hhead, htail⟩ := List.pairwise_cons.1 hsorted
    rw [Sampler.stretches_cons, List.filter_cons]
    rcases List.mem_cons.1 h with heq | hmem
    · cases heq
      have hnone : (stretches entries).filter (fun y => y.1 = n) = [] := by
        refine List.filter_eq_nil_iff.2 fun y hy => ?_
        obtain ⟨z, hz, rfl⟩ := List.mem_map.1 hy
        have hne : z.1 ≠ n := fun heq => Int64.lt_irrefl (heq ▸ hhead z hz)
        simpa using hne
      rw [hnone]
      simp [Stretches.width]
    · have hne : m ≠ n := fun heq => Int64.lt_irrefl (heq ▸ hhead _ hmem)
      simp only [hne, decide_false, Bool.false_eq_true, if_false]
      exact ih htail hmem

/-! ### What is picked and sampled -/

/-- The outcome that is picked stands at the index of the threshold. -/
theorem getElem?_index (h : p.sampler = .ok s) {x : Nat} (hx : x < weight p.entries) :
    (p.entries.map (·.1))[(stretches p.entries).index x]? = some (s.pick (.ofNat x)) := by
  have hwidth := Sampler.weight_eq_width (exists_sampler_iff.1 ⟨s, h⟩).nonneg
  rw [← (of_sampler_eq_ok h).2 x hx, Stretches.find?_eq_getElem? (by omega), stretches,
    List.map_map]
  rfl

/-- The outcome that is picked has a positive weight. -/
theorem exists_chance?_pick (h : p.sampler = .ok s) {x : Nat} (hx : x < weight p.entries) :
    ∃ w, p.chance? (s.pick (.ofNat x)) = some w ∧ 0 < w.toInt := by
  have hwidth := Sampler.weight_eq_width (exists_sampler_iff.1 ⟨s, h⟩).nonneg
  have hlt : x < (stretches p.entries).width := by omega
  obtain ⟨n, k, hn, hmem, hk⟩ := Stretches.exists_find?_eq hlt
  cases hn.symm.trans ((of_sampler_eq_ok h).2 x hx)
  obtain ⟨⟨m, w⟩, hentry, heq⟩ := List.mem_map.1 hmem
  cases heq
  have hk : 0 < w.toNatClampNeg := hk
  have hclamp := w.toNat_toInt
  exact ⟨w, chance?_eq_some_iff.2 hentry, by omega⟩

/-- An outcome is picked by as many thresholds as it has weight. -/
theorem countP_pick (h : p.sampler = .ok s) {n : Outcome} {w : Int64} (hw : p.chance? n = some w) :
    ((List.range (weight p.entries).toNat).countP fun x => s.pick (.ofNat x) = n) = w.toInt := by
  have hentry := chance?_eq_some_iff.1 hw
  have hsamplable := exists_sampler_iff.1 ⟨s, h⟩
  have hwidth := Sampler.weight_eq_width hsamplable.nonneg
  have hcount := Stretches.countP_find? (stretches p.entries) n
  rw [width_filter_stretches p.sorted hentry, ← Int.toNat_natCast (Stretches.width _), ← hwidth]
    at hcount
  have hpick : ((List.range (weight p.entries).toNat).countP fun x => s.pick (.ofNat x) = n) =
      (List.range (weight p.entries).toNat).countP
        fun x => (stretches p.entries).find? x = some n :=
    List.countP_congr fun x hx => by
      have hx := List.mem_range.1 hx
      simp [(of_sampler_eq_ok h).2 x (by omega)]
  have hclamp := w.toNat_toInt
  have hnonneg : 0 ≤ w.toInt := hsamplable.nonneg _ hentry
  rw [hpick, hcount]
  omega

/-- A sample is picked by a number that is drawn below the sum of the weights. -/
theorem sample_eq (h : p.sampler = .ok s) (words : Words) :
    (s.sample words).1 =
      s.pick (.ofNat (Draw.below (weight p.entries).toNat words).1) := by
  have htotal := (of_sampler_eq_ok h).1
  have hclamp := s.total.toNat_toInt
  have hbound : (weight p.entries).toNat = s.total.toNatClampNeg := by rw [← htotal, hclamp]
  rw [hbound]
  rfl

/-- A sample that is drawn is picked by a threshold below the sum of the weights. -/
theorem exists_sample_eq (h : p.sampler = .ok s) {words : Words}
    (hends : Draw.Ends (weight p.entries).toNat words) :
    ∃ x : Nat, x < weight p.entries ∧ (s.sample words).1 = s.pick (.ofNat x) := by
  have hpositive := (exists_sampler_iff.1 ⟨s, h⟩).positive
  have hbelow := Draw.below_lt (by omega) hends
  exact ⟨_, by omega, sample_eq h words⟩

/-- Every threshold below the sum of the weights picks the sample for some words. -/
theorem exists_word_sample_eq (h : p.sampler = .ok s) {x : Nat} (hx : x < weight p.entries) :
    ∃ y : UInt64, ∀ words : Words, words.word words.used = y →
      (s.sample words).1 = s.pick (.ofNat x) := by
  have hfits := (exists_sampler_iff.1 ⟨s, h⟩).fits
  obtain ⟨y, hy⟩ := Draw.exists_below_eq (show x < (weight p.entries).toNat by omega)
    (by unfold Draw.wordCount; omega)
  exact ⟨y, fun words hwords => by rw [sample_eq h, hy words hwords]⟩

/-- **Samples of whole weights.** A distribution with whole weights has a sampler exactly when no
weight is negative and their sum is positive and fits. Below this sum every threshold picks the
outcome at the number of leading running sums that it is not below, the last sum left out; this
outcome is listed with a positive weight; and every listed outcome is picked by as many thresholds
as it has weight. A sample is always picked by one of these thresholds, as far as the words let the
draw end, and each of the thresholds picks it for some words. -/
theorem sampler_thresholds (p : Distribution Int64) :
    match p.sampler with
    | .error _ => ¬ p.Samplable
    | .ok s =>
      p.Samplable ∧
        (∀ x : Nat, x < weight p.entries →
          (p.entries.map (·.1))[(stretches p.entries).index x]? = some (s.pick (.ofNat x)) ∧
            ∃ w, p.chance? (s.pick (.ofNat x)) = some w ∧ 0 < w.toInt) ∧
        (∀ n w, p.chance? n = some w →
          ((List.range (weight p.entries).toNat).countP fun x => s.pick (.ofNat x) = n) =
            w.toInt) ∧
        (∀ words : Words, Draw.Ends (weight p.entries).toNat words →
          ∃ x : Nat, x < weight p.entries ∧ (s.sample words).1 = s.pick (.ofNat x)) ∧
        ∀ x : Nat, x < weight p.entries → ∃ y : UInt64, ∀ words : Words,
          words.word words.used = y → (s.sample words).1 = s.pick (.ofNat x) := by
  cases h : p.sampler with
  | error x =>
    intro hsamplable
    obtain ⟨s, hs⟩ := exists_sampler_iff.2 hsamplable
    cases hs.symm.trans h
  | ok s =>
    exact ⟨exists_sampler_iff.1 ⟨s, h⟩, fun x hx => ⟨getElem?_index h hx, exists_chance?_pick h hx⟩,
      fun n w hw => countP_pick h hw, fun words hends => exists_sample_eq h hends,
      fun x hx => exists_word_sample_eq h hx⟩

end Distribution

end DiceOdds
