import DiceOdds.Proofs.Expr.Postorder
import DiceOdds.Proofs.Range.Corners

/-!
# The range of an expression is that of its distribution

The range of an expression is found without its distribution, from the ranges of the operands. It
exists exactly when the distribution without limits does, and its ends are the least and the
greatest outcome of the distribution. If neither exists, both computations stop at the same node,
for the same reason; only the operands reported with a result that does not fit may differ.

## Main definitions

* `EvalError.Alike`: failures that differ at most in the operands reported.

## Main results

* `Distribution.least?_eq`, `Distribution.greatest?_eq`: the ends of a distribution.
* `Expr.spans_or_error`: the range is spanned by the outcomes of the distribution.
* `Expr.range_distribution`: both computations, with their failures.
-/

namespace DiceOdds

/-! ### Ends of a distribution -/

namespace Distribution

variable {α : Type} {p : Distribution α} {r : Range}

theorem least?_eq (h : r.Spans p.Lists) : p.least? = some r.low := by
  obtain ⟨w, hw⟩ := h.low
  obtain ⟨x, rest, hentries⟩ := List.exists_cons_of_ne_nil (List.ne_nil_of_mem hw)
  have hx : r.low.toInt ≤ x.1.toInt := (h.covers ⟨x.2, hentries ▸ List.mem_cons_self⟩).1
  have hlow : r.low = x.1 := by
    have hsorted := p.sorted
    rw [hentries] at hw hsorted
    rcases List.mem_cons.1 hw with rfl | hw
    · rfl
    · have hlt := Int64.lt_iff_toInt_lt.1 (List.rel_of_pairwise_cons hsorted hw)
      exact absurd hlt (Int.not_lt.2 hx)
  rw [least?, hentries, hlow]
  rfl

theorem greatest?_eq (h : r.Spans p.Lists) : p.greatest? = some r.high := by
  obtain ⟨w, hw⟩ := h.high
  obtain ⟨rest, x, hentries⟩ := (List.eq_nil_or_concat _).resolve_left (List.ne_nil_of_mem hw)
  rw [List.concat_eq_append] at hentries
  have hx : x.1.toInt ≤ r.high.toInt :=
    (h.covers ⟨x.2, hentries ▸ List.mem_append_right _ (List.mem_singleton.2 rfl)⟩).2
  have hhigh : r.high = x.1 := by
    have hsorted := p.sorted
    rw [hentries] at hw hsorted
    rcases List.mem_append.1 hw with hw | hw
    · have hbefore := (List.pairwise_append.1 hsorted).2.2 _ hw x (List.mem_singleton.2 rfl)
      exact absurd (Int64.lt_iff_toInt_lt.1 hbefore) (Int.not_lt.2 hx)
    · rw [← List.mem_singleton.1 hw]
  rw [greatest?, hentries, List.getLast?_append, hhigh]
  rfl

end Distribution

/-! ### Failures -/

/-- Two failures have the same reason: a die without faces and its number of faces, or a result of
an operator that does not fit, whatever the operands reported. -/
def EvalError.Alike : EvalError → EvalError → Prop
  | noFaces faces, noFaces faces' => faces = faces'
  | overflow op _ _, overflow op' _ _ => op = op'
  | _, _ => False

namespace Expr

variable {e left right : Expr} {op : Operator} {p q : Distribution Rat} {a b : Range}

theorem nodeByNode_range : NodeByNode range Range.combine := range_binary

/-! ### Node by node -/

theorem spans_constant (n : Outcome) :
    (Range.single n).Spans (Distribution.certain (α := Rat) n).Lists := by
  have hlists : (Distribution.certain (α := Rat) n).Lists = (· = n) := by
    funext k
    rw [(law_constant n).lists]
    refine propext ⟨?_, ?_⟩
    · rintro ⟨x, hx⟩
      exact (Option.some.inj hx).symm
    · rintro rfl
      exact ⟨(), rfl⟩
  rw [hlists]
  exact Range.spans_single n

theorem dieRange_eq_ok {faces : Outcome} (h : 1 ≤ faces.toInt) :
    dieRange faces = .ok ⟨1, faces⟩ :=
  if_neg fun hle => le_zero_iff.1 hle h

theorem dieRange_eq_error {faces : Outcome} (h : ¬ 1 ≤ faces.toInt) :
    dieRange faces = .error (.noFaces faces) :=
  if_pos (le_zero_iff.2 h)

theorem spans_die {faces : Outcome} (h : 1 ≤ faces.toInt) (hp : (die faces).Law p) :
    Range.Spans ⟨1, faces⟩ p.Lists := by
  have hlists : ∀ n, p.Lists n ↔ 1 ≤ n.toInt ∧ n.toInt ≤ faces.toInt := fun n =>
    (hp.lists n).trans exists_value_die_iff
  exact ⟨(hlists 1).2 ⟨Int.le_refl 1, h⟩, (hlists faces).2 ⟨h, Int.le_refl _⟩, (hlists _).1⟩

/-- The range of an operator is spanned by its outcomes, or both are missing. -/
theorem spans_or_error_binary (hp : left.Law p) (hq : right.Law q) (ha : a.Spans p.Lists)
    (hb : b.Spans q.Lists) :
    (∃ r d, Range.combine op a b = .ok r ∧ Distribution.combine op p q = .ok d ∧
        r.Spans d.Lists) ∨
      ∃ x y, Range.combine op a b = .error x ∧ Distribution.combine op p q = .error y := by
  cases hrange : Range.combine op a b with
  | ok r =>
    obtain ⟨hfits, hspans⟩ := ha.combine hb hrange
    cases hcombine : Distribution.combine op p q with
    | ok d =>
      have hconvolves := Distribution.convolves_of_combine hcombine
      have hlists : d.Lists = op.Results p.Lists q.Lists := by
        funext n
        rw [hconvolves.lists]
        simp only [hp.occurs_iff_lists, hq.occurs_iff_lists, Operator.Results]
      exact .inl ⟨r, d, rfl, rfl, hlists ▸ hspans⟩
    | error y =>
      obtain ⟨u, v, hu, hv, hnone, -⟩ := Distribution.of_combine_eq_error hcombine
      obtain ⟨n, hn⟩ := hfits u v (hp.occurs_iff_lists.1 hu) (hq.occurs_iff_lists.1 hv)
      rw [hnone] at hn
      cases hn
  | error x =>
    obtain ⟨u, v, hu, hv, hnone⟩ := ha.exists_apply_eq_none hb hrange
    cases hcombine : Distribution.combine op p q with
    | ok d =>
      obtain ⟨n, hn⟩ := (Distribution.convolves_of_combine hcombine).fits
        (hp.occurs_iff_lists.2 hu) (hq.occurs_iff_lists.2 hv)
      rw [hnone] at hn
      cases hn
    | error y => exact .inr ⟨x, y, rfl, rfl⟩

/-- The range of an expression is spanned by the outcomes of its distribution, or both are
missing. -/
theorem spans_or_error (e : Expr) :
    (∃ r p, e.range = .ok r ∧ e.distribution (α := Rat) .unbounded = .ok p ∧ r.Spans p.Lists) ∨
      ∃ x y, e.range = .error x ∧ e.distribution (α := Rat) .unbounded = .error y := by
  induction e with
  | constant n =>
    exact .inl ⟨_, _, range_constant n, distribution_constant _ n, spans_constant n⟩
  | die faces =>
    rw [range_die, distribution_die, odds_die_unbounded]
    by_cases hfaces : 1 ≤ faces.toInt
    · obtain ⟨p, hp, hlaw⟩ := exists_law_die hfaces
      exact .inl ⟨_, p, dieRange_eq_ok hfaces, hp, spans_die hfaces hlaw⟩
    · exact .inr ⟨_, _, dieRange_eq_error hfaces, die_eq_error hfaces⟩
  | binary op left right ihl ihr =>
    rw [range_binary, distribution_binary_unbounded]
    obtain ⟨a, p, ha, hp, hspansl⟩ | ⟨x, y, hx, hy⟩ := ihl
    · obtain ⟨b, q, hb, hq, hspansr⟩ | ⟨x, y, hx, hy⟩ := ihr
      · rw [ha, hp, hb, hq]
        exact spans_or_error_binary (law_of_distribution hp).2 (law_of_distribution hq).2 hspansl
          hspansr
      · rw [ha, hp, hx, hy]
        exact .inr ⟨x, y, rfl, rfl⟩
    · rw [hx, hy]
      exact .inr ⟨x, y, rfl, rfl⟩

/-! ### Failing alike -/

theorem exists_range_iff_exists_distribution (e : Expr) :
    (∃ r, e.range = .ok r) ↔ ∃ p : Distribution Rat, e.distribution .unbounded = .ok p := by
  obtain ⟨r, p, hr, hp, -⟩ | ⟨x, y, hx, hy⟩ := e.spans_or_error
  · simp [hr, hp]
  · simp [hx, hy]

/-- At the node where both computations stop they fail alike. -/
theorem alike_of_stopsAt {done : List Expr} {node : Expr} {x y : EvalError}
    (h : StopsAt range e done node x)
    (h' : StopsAt (distribution (α := Rat) .unbounded) e done node y) : x.Alike y := by
  have hx := h.error
  have hy := h'.error
  cases node with
  | constant n =>
    rw [range_constant] at hx
    cases hx
  | die faces =>
    rw [distribution_die, odds_die_unbounded] at hy
    rw [range_die] at hx
    by_cases hfaces : 1 ≤ faces.toInt
    · rw [dieRange_eq_ok hfaces] at hx
      cases hx
    · rw [dieRange_eq_error hfaces] at hx
      rw [die_eq_error hfaces] at hy
      cases hx
      cases hy
      rfl
  | binary op left right =>
    obtain ⟨⟨a, ha⟩, ⟨b, hb⟩⟩ := h.operands rfl
    obtain ⟨⟨p, hp⟩, ⟨q, hq⟩⟩ := h'.operands rfl
    rw [range_binary, ha, hb] at hx
    rw [distribution_binary_unbounded, hp, hq] at hy
    obtain ⟨u, v, -, -, -, rfl⟩ := Range.exists_of_combine_eq_error hx
    obtain ⟨u', v', -, -, -, rfl⟩ := Distribution.of_combine_eq_error hy
    rfl

/-- **The range is that of the distribution.** -/
theorem range_distribution (e : Expr) :
    match e.range, e.distribution (α := Rat) .unbounded with
    | .ok r, .ok p => p.least? = some r.low ∧ p.greatest? = some r.high ∧ r.low ≤ r.high
    | .error x, .error y => x.Alike y ∧ ∃ done node, StopsAt range e done node x ∧
        StopsAt (distribution (α := Rat) .unbounded) e done node y
    | _, _ => False := by
  obtain ⟨r, p, hr, hp, hspans⟩ | ⟨x, y, hx, hy⟩ := e.spans_or_error
  · rw [hr, hp]
    have hends := hspans.covers hspans.low
    exact ⟨Distribution.least?_eq hspans, Distribution.greatest?_eq hspans,
      Int64.le_iff_toInt_le.2 (hends.1.trans hends.2)⟩
  · obtain ⟨done, node, hstop, hstop'⟩ := exists_stopsAt nodeByNode_range nodeByNode_distribution
      exists_range_iff_exists_distribution hx hy
    rw [hx, hy]
    exact ⟨alike_of_stopsAt hstop hstop', done, node, hstop, hstop'⟩

end Expr

end DiceOdds
