import DiceOdds.Proofs.Expr.Postorder

/-!
# Limits only filter

Under limits an expression has the distribution that it has without them, or none. It has one if all
its nodes keep the limits, not only the one on top, since every node gets a distribution on the way.
Otherwise the failure is that of the first node in post-order that fails a check. A die is checked
for its faces. An operator is checked for the pairs it would combine, then for results that do not
fit, and for its outcomes in the end.

## Main definitions

* `Expr.Keeps`: a node is within limits.
* `Odds.Fails`, `Expr.Fails`: the first check that an operator and a node fail.
* `Expr.FirstFailure`: a node is the first one that fails.

## Main results

* `Expr.distribution_eq_ok_iff`: which distributions remain under limits.
* `Expr.distribution_eq_error_iff`: which failure is reported.
* `Expr.distribution_limits`: both in one.
-/

namespace DiceOdds

variable {limits : Limits} {op : Operator} {p q r : Distribution Rat} {x : EvalError}

/-! ### Operators within limits -/

namespace Odds

/-- The check that an operator on two distributions fails first, and what is reported. Pairs and
outcomes are those of the entries that the distributions list. -/
inductive Fails (limits : Limits) (op : Operator) (p q : Distribution Rat) : EvalError → Prop
  | tooManyPairs
      (h : limits.maxPairs < Limits.saturate (p.entries.length * q.entries.length)) :
      Fails limits op p q
        (.tooManyPairs op (Limits.saturate (p.entries.length * q.entries.length)) limits.maxPairs)
  | overflow {a b : Outcome}
      (hpairs : Limits.saturate (p.entries.length * q.entries.length) ≤ limits.maxPairs)
      (h : Distribution.combine op p q = .error (.overflow op a b)) :
      Fails limits op p q (.overflow op a b)
  | tooManyOutcomes {r : Distribution Rat}
      (hpairs : Limits.saturate (p.entries.length * q.entries.length) ≤ limits.maxPairs)
      (hr : Distribution.combine op p q = .ok r)
      (h : limits.maxOutcomes < Limits.saturate r.entries.length) :
      Fails limits op p q
        (.tooManyOutcomes (Limits.saturate r.entries.length) limits.maxOutcomes)

theorem pairs_eq (p q : Distribution Rat) :
    pairs p q = Limits.saturate (p.entries.length * q.entries.length) := rfl

theorem checkSize_eq (limits : Limits) (r : Distribution Rat) :
    checkSize limits r =
      if limits.maxOutcomes < Limits.saturate r.entries.length then
        .error (.tooManyOutcomes (Limits.saturate r.entries.length) limits.maxOutcomes)
      else .ok r := rfl

theorem combine_eq_ok_iff :
    combine limits op p q = .ok r ↔
      Limits.saturate (p.entries.length * q.entries.length) ≤ limits.maxPairs ∧
        Distribution.combine op p q = .ok r ∧
        Limits.saturate r.entries.length ≤ limits.maxOutcomes := by
  rw [combine, pairs_eq]
  split
  · next hpairs => simp [Nat.not_le.2 hpairs]
  · next hpairs =>
    simp only [bind_eq_ok_iff, checkSize_eq]
    refine ⟨?_, ?_⟩
    · rintro ⟨s, hs, hcheck⟩
      split at hcheck
      · cases hcheck
      · next hsize =>
        cases hcheck
        exact ⟨Nat.not_lt.1 hpairs, hs, Nat.not_lt.1 hsize⟩
    · rintro ⟨-, hr, hsize⟩
      exact ⟨r, hr, if_neg (Nat.not_lt.2 hsize)⟩

theorem combine_eq_error_iff : combine limits op p q = .error x ↔ Fails limits op p q x := by
  refine ⟨fun h => ?_, fun h => ?_⟩
  · rw [combine, pairs_eq] at h
    split at h
    · next hpairs =>
      cases h
      exact .tooManyPairs hpairs
    · next hpairs =>
      rcases bind_eq_error_iff.1 h with h | ⟨r, hr, h⟩
      · obtain ⟨a, b, -, -, -, rfl⟩ := Distribution.of_combine_eq_error h
        exact .overflow (Nat.not_lt.1 hpairs) h
      · rw [checkSize_eq] at h
        split at h
        · next hsize =>
          cases h
          exact .tooManyOutcomes (Nat.not_lt.1 hpairs) hr hsize
        · cases h
  · rw [combine, pairs_eq]
    cases h with
    | tooManyPairs hpairs => exact if_pos hpairs
    | overflow hpairs h => rw [if_neg (Nat.not_lt.2 hpairs), h, Except.bind]
    | tooManyOutcomes hpairs hr h =>
      rw [if_neg (Nat.not_lt.2 hpairs), hr]
      exact if_pos h

end Odds

namespace Expr

variable {e left right : Expr} {faces : Outcome}

/-! ### Nodes within limits -/

/-- A node is within limits. An operator is, if its operands and itself, as far as they have
distributions, have no more pairs and outcomes than allowed. Both numbers are 64-bit counts, so one
that does not fit is compared as the largest count. -/
def Keeps (limits : Limits) : Expr → Prop
  | constant _ => True
  | die faces => faces.toInt ≤ limits.maxOutcomes
  | binary op left right => ∀ p q r : Distribution Rat, left.distribution .unbounded = .ok p →
      right.distribution .unbounded = .ok q →
      (binary op left right).distribution .unbounded = .ok r →
      Limits.saturate (p.entries.length * q.entries.length) ≤ limits.maxPairs ∧
        Limits.saturate r.entries.length ≤ limits.maxOutcomes

/-- The check that a node fails first, and what is reported. A node whose operands have no
distributions is not checked. -/
inductive Fails (limits : Limits) : Expr → EvalError → Prop
  | noFaces {faces : Outcome} (h : faces.toInt ≤ 0) : Fails limits (die faces) (.noFaces faces)
  | tooManyFaces {faces : Outcome} (h : limits.maxOutcomes < faces.toInt) :
      Fails limits (die faces) (.tooManyOutcomes faces.toNatClampNeg limits.maxOutcomes)
  | operator {op : Operator} {left right : Expr} {p q : Distribution Rat} {x : EvalError}
      (hp : left.distribution .unbounded = .ok p) (hq : right.distribution .unbounded = .ok q)
      (h : Odds.Fails limits op p q x) : Fails limits (binary op left right) x

/-- A node is the first one that fails: the nodes before it in post-order do not. -/
structure FirstFailure (limits : Limits) (e : Expr) (done : List Expr) (node : Expr)
    (x : EvalError) : Prop where
  position : ∃ rest, e.postorder = done ++ node :: rest
  done : ∀ m ∈ done, ∀ y, ¬ m.Fails limits y
  fails : node.Fails limits x

theorem nodeByNode_distribution_limits (limits : Limits) :
    NodeByNode (distribution (α := Rat) limits) (Odds.combine limits) :=
  distribution_binary limits

/-! ### Dice within limits -/

theorem odds_die_eq (limits : Limits) (faces : Outcome) :
    (Odds.die limits faces : Except EvalError (Distribution Rat)) =
      if limits.maxOutcomes < faces.toInt then
        .error (.tooManyOutcomes faces.toNatClampNeg limits.maxOutcomes)
      else Distribution.die faces := by
  have hclamp := faces.toNat_toInt
  refine if_congr ?_ rfl rfl
  rw [Int64.lt_iff_toInt_lt, Int64.toInt_zero]
  omega

theorem distribution_die_eq_ok_iff (limits : Limits) :
    (die faces).distribution limits = .ok p ↔
      (die faces).distribution .unbounded = .ok p ∧ faces.toInt ≤ limits.maxOutcomes := by
  rw [distribution_die, distribution_die, odds_die_unbounded, odds_die_eq]
  split
  · next h => simp [Int.not_le.2 h]
  · next h => simp [Int.not_lt.1 h]

theorem fails_die_iff :
    (die faces).Fails limits x ↔ (die faces).distribution (α := Rat) limits = .error x := by
  rw [distribution_die, odds_die_eq]
  refine ⟨fun h => ?_, fun h => ?_⟩
  · cases h with
    | noFaces h =>
      rw [if_neg (Int.not_lt.2 (h.trans (Int.natCast_nonneg _))), die_eq_error (Int.not_lt.2 h)]
    | tooManyFaces h => rw [if_pos h]
  · split at h
    · next hmany =>
      cases h
      exact .tooManyFaces hmany
    · by_cases hfaces : 1 ≤ faces.toInt
      · obtain ⟨p, hp, -⟩ := exists_law_die hfaces
        rw [hp] at h
        cases h
      · rw [die_eq_error hfaces] at h
        cases h
        exact .noFaces (Int.not_lt.1 hfaces)

/-! ### Distributions within limits -/

/-- Limits filter the distributions of a node and of all its parts. -/
theorem distribution_eq_ok_iff :
    e.distribution limits = .ok p ↔
      e.distribution .unbounded = .ok p ∧ ∀ m ∈ e.postorder, m.Keeps limits := by
  induction e generalizing p with
  | constant n => simp [distribution_constant, postorder, Keeps]
  | die faces => simp [distribution_die_eq_ok_iff limits, postorder, Keeps]
  | binary op left right ihl ihr =>
    rw [(nodeByNode_distribution_limits limits).eq_ok_iff]
    simp only [postorder, List.forall_mem_append, List.forall_mem_singleton]
    refine ⟨?_, ?_⟩
    · rintro ⟨a, ha, b, hb, hab⟩
      obtain ⟨ha, hkeepsl⟩ := ihl.1 ha
      obtain ⟨hb, hkeepsr⟩ := ihr.1 hb
      obtain ⟨hpairs, hab, houtcomes⟩ := Odds.combine_eq_ok_iff.1 hab
      have hp := nodeByNode_distribution.eq_ok_iff.2 ⟨a, ha, b, hb, hab⟩
      refine ⟨hp, hkeepsl, hkeepsr, fun a' b' p' ha' hb' hp' => ?_⟩
      rw [ha] at ha'
      rw [hb] at hb'
      rw [hp] at hp'
      cases ha'
      cases hb'
      cases hp'
      exact ⟨hpairs, houtcomes⟩
    · rintro ⟨hp, hkeepsl, hkeepsr, hkeeps⟩
      obtain ⟨a, ha, b, hb, hab⟩ := nodeByNode_distribution.eq_ok_iff.1 hp
      obtain ⟨hpairs, houtcomes⟩ := hkeeps a b p ha hb hp
      exact ⟨a, ihl.2 ⟨ha, hkeepsl⟩, b, ihr.2 ⟨hb, hkeepsr⟩,
        Odds.combine_eq_ok_iff.2 ⟨hpairs, hab, houtcomes⟩⟩

/-! ### The first failure -/

/-- A node whose operands have distributions fails just when it has none. -/
theorem fails_iff (h : ∀ op left right, e = binary op left right →
    (∃ p : Distribution Rat, left.distribution limits = .ok p) ∧
      ∃ q : Distribution Rat, right.distribution limits = .ok q) :
    e.Fails limits x ↔ e.distribution (α := Rat) limits = .error x := by
  cases e with
  | constant n =>
    rw [distribution_constant]
    exact ⟨nofun, nofun⟩
  | die faces => exact fails_die_iff
  | binary op left right =>
    obtain ⟨⟨p, hp⟩, ⟨q, hq⟩⟩ := h op left right rfl
    rw [distribution_binary, hp, hq]
    refine Iff.trans ⟨?_, ?_⟩ Odds.combine_eq_error_iff.symm
    · rintro (_ | _ | ⟨hp', hq', h⟩)
      rw [(distribution_eq_ok_iff.1 hp).1] at hp'
      rw [(distribution_eq_ok_iff.1 hq).1] at hq'
      cases hp'
      cases hq'
      exact h
    · exact .operator (distribution_eq_ok_iff.1 hp).1 (distribution_eq_ok_iff.1 hq).1

/-- A node with a distribution does not fail. -/
theorem not_fails (h : ∃ p : Distribution Rat, e.distribution limits = .ok p) :
    ¬ e.Fails limits x := by
  obtain ⟨p, hp⟩ := h
  rw [fails_iff, hp]
  · nofun
  · rintro op left right rfl
    obtain ⟨a, ha, b, hb, -⟩ := (nodeByNode_distribution_limits limits).eq_ok_iff.1 hp
    exact ⟨⟨a, ha⟩, ⟨b, hb⟩⟩

theorem firstFailure_of_stopsAt {done : List Expr} {node : Expr}
    (h : StopsAt (distribution (α := Rat) limits) e done node x) :
    e.FirstFailure limits done node x :=
  ⟨h.position, fun m hm _ => not_fails (h.done m hm),
    (fails_iff fun _ _ _ hnode => h.operands hnode).2 h.error⟩

open Classical in
theorem FirstFailure.find?_eq {done : List Expr} {node : Expr}
    (h : e.FirstFailure limits done node x) :
    e.postorder.find? (fun m => decide (∃ y, m.Fails limits y)) = some node := by
  obtain ⟨rest, hrest⟩ := h.position
  refine List.find?_eq_some_iff_append.2 ⟨decide_eq_true ⟨x, h.fails⟩, done, rest, hrest, ?_⟩
  intro m hm
  simpa using h.done m hm

/-- The failure of the first node that fails is reported. -/
theorem distribution_eq_error_iff :
    e.distribution (α := Rat) limits = .error x ↔
      ∃ done node, e.FirstFailure limits done node x := by
  have hnodes := nodeByNode_distribution_limits limits
  refine ⟨fun h => ?_, ?_⟩
  · obtain ⟨done, node, hstop⟩ := exists_stopsAt_of_eq_error hnodes h
    exact ⟨done, node, firstFailure_of_stopsAt hstop⟩
  · rintro ⟨done, node, hfirst⟩
    cases h : e.distribution (α := Rat) limits with
    | ok p =>
      obtain ⟨rest, hrest⟩ := hfirst.position
      have hmem : node ∈ e.postorder := hrest ▸ List.mem_append_right _ List.mem_cons_self
      exact absurd hfirst.fails (not_fails (exists_ok_of_mem_postorder hnodes ⟨p, h⟩ hmem))
    | error y =>
      -- The work stops at the first node that fails, and fails there with one error only.
      obtain ⟨done', node', hstop⟩ := exists_stopsAt_of_eq_error hnodes h
      have hnode := hfirst.find?_eq.symm.trans (firstFailure_of_stopsAt hstop).find?_eq
      obtain rfl := Option.some.inj hnode
      have herror := (fails_iff fun _ _ _ hnode => hstop.operands hnode).1 hfirst.fails
      rw [hstop.error] at herror
      exact herror

/-- **Limits only filter.** Over exact fractions, an expression has a distribution within limits
exactly when it has the same one without limits and all its nodes keep the limits. Otherwise the
first node that fails a check is reported, with the first check that it fails. -/
theorem distribution_limits (limits : Limits) (e : Expr) :
    (∀ p : Distribution Rat, e.distribution limits = .ok p ↔
        e.distribution .unbounded = .ok p ∧ ∀ m ∈ e.postorder, m.Keeps limits) ∧
      ∀ x, e.distribution (α := Rat) limits = .error x ↔
        ∃ done node, e.FirstFailure limits done node x :=
  ⟨fun _ => distribution_eq_ok_iff, fun _ => distribution_eq_error_iff⟩

end Expr

end DiceOdds
