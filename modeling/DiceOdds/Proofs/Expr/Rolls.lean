import DiceOdds.Expr.Roll
import DiceOdds.Proofs.Expr.Postorder
import DiceOdds.Proofs.Words.Bounded
import Mathlib.Algebra.Order.Field.Basic
import Mathlib.Algebra.Order.Ring.Rat

/-!
# Rolls are the events of the distribution

What can happen when an expression is rolled is a relation on expressions: each die shows one of its
faces, and the first failure ends the roll. Every roll is such an event, and every event is brought
about by some words, because the dice of both operands take their words one after the other. The
distribution without limits describes the same events: its outcomes with their positive chances are
the outcomes of rolls, and if it does not exist, then a roll can fail for the very reason it
reports.

## Main definitions

* `Expr.Rolls`: the events of an expression.

## Main results

* `Expr.rolls_eval`, `Expr.exists_script`: rolls are the events.
* `Expr.rolls_ok_iff`, `Expr.not_rolls_error`: which outcomes and failures are possible.
* `Expr.rolls_of_distribution_eq_error`: the failure of the distribution is one of them.
* `Expr.roll_distribution`: rolling and the distribution agree on what is possible.
-/

namespace DiceOdds

namespace Expr

/-- What can happen when an expression is rolled: an outcome, or a failure of the first node that
fails. -/
inductive Rolls : Expr → Except EvalError Outcome → Prop
  | constant (n : Outcome) : Rolls (constant n) (.ok n)
  | noFaces {faces : Outcome} (h : faces ≤ 0) : Rolls (die faces) (.error (.noFaces faces))
  | face {faces n : Outcome} (hlow : 1 ≤ n.toInt) (hhigh : n.toInt ≤ faces.toInt) :
      Rolls (die faces) (.ok n)
  | left {op : Operator} {left right : Expr} {x : EvalError} (h : Rolls left (.error x)) :
      Rolls (binary op left right) (.error x)
  | right {op : Operator} {left right : Expr} {a : Outcome} {x : EvalError}
      (hleft : Rolls left (.ok a)) (h : Rolls right (.error x)) :
      Rolls (binary op left right) (.error x)
  | operator {op : Operator} {left right : Expr} {a b : Outcome} (hleft : Rolls left (.ok a))
      (hright : Rolls right (.ok b)) : Rolls (binary op left right) (op.evaluate a b)

variable {e left right : Expr} {op : Operator} {r : Except EvalError Outcome}

/-! ### Rolling -/

/-- Every roll is one of the events. -/
theorem rolls_eval (e : Expr) (w : Words) : e.Rolls (roller.eval e w).1 := by
  induction e generalizing w with
  | constant n => exact .constant n
  | die faces =>
    show (die faces).Rolls (rollDie faces w).1
    rw [rollDie]
    split
    · next h => exact .noFaces h
    · next h =>
      obtain ⟨hlow, hhigh⟩ := Draw.oneTo_mem (not_not.1 fun hnot => h (le_zero_iff.2 hnot)) w
      exact .face hlow hhigh
  | binary op left right ihl ihr =>
    rw [Analysis.eval_binary]
    have hleft := ihl w
    generalize roller.eval left w = l at hleft ⊢
    obtain ⟨x | a, w₁⟩ := l
    · exact .left hleft
    · have hright := ihr w₁
      dsimp only
      generalize roller.eval right w₁ = r at hright ⊢
      obtain ⟨x | b, w₂⟩ := r
      · exact .right hleft hright
      · exact .operator hleft hright

/-- Every event is brought about by some words, whatever words were used before. -/
theorem exists_script (h : e.Rolls r) :
    ∃ script, ∀ w : Words, w.Begins script → roller.eval e w = (r, w.skip script.length) := by
  induction h with
  | constant n => exact ⟨[], fun w _ => rfl⟩
  | @noFaces faces h =>
    refine ⟨[], fun w _ => ?_⟩
    show rollDie faces w = _
    rw [rollDie, if_pos h]
    rfl
  | @face faces n hlow hhigh =>
    obtain ⟨x, hx⟩ := Draw.exists_oneTo_eq hlow hhigh
    refine ⟨[x], fun w hw => ?_⟩
    have hfaces : ¬ faces ≤ 0 := fun hle => le_zero_iff.1 hle (hlow.trans hhigh)
    show rollDie faces w = _
    rw [rollDie, if_neg hfaces, hx w (hw 0 x rfl)]
    rfl
  | left _ ih =>
    obtain ⟨script, hscript⟩ := ih
    exact ⟨script, fun w hw => by rw [Analysis.eval_binary, hscript w hw]⟩
  | right _ _ ihl ihr =>
    obtain ⟨scriptl, hscriptl⟩ := ihl
    obtain ⟨scriptr, hscriptr⟩ := ihr
    refine ⟨scriptl ++ scriptr, fun w hw => ?_⟩
    rw [Analysis.eval_binary, hscriptl w hw.left]
    dsimp only
    rw [hscriptr _ hw.right, Words.skip_skip, List.length_append]
  | operator _ _ ihl ihr =>
    obtain ⟨scriptl, hscriptl⟩ := ihl
    obtain ⟨scriptr, hscriptr⟩ := ihr
    refine ⟨scriptl ++ scriptr, fun w hw => ?_⟩
    rw [Analysis.eval_binary, hscriptl w hw.left]
    dsimp only
    rw [hscriptr _ hw.right, Words.skip_skip, List.length_append]
    rfl

theorem rolls_roll (e : Expr) (w : Words) : e.Rolls (e.roll w).1 := by
  rw [roll, Analysis.walk_eq_eval]
  exact e.rolls_eval w

theorem exists_roll_eq (h : e.Rolls r) : ∃ word, (e.roll (.fresh word)).1 = r := by
  obtain ⟨script, hscript⟩ := exists_script h
  refine ⟨fun k => script[k]?.getD 0, ?_⟩
  rw [roll, Analysis.walk_eq_eval, hscript _ (Words.begins_fresh script)]

/-! ### Events of the distribution -/

/-- The outcomes of rolls are the values under assignments. -/
theorem rolls_ok_iff {n : Outcome} : e.Rolls (.ok n) ↔ ∃ x, e.value x = some n := by
  induction e generalizing n with
  | constant k =>
    refine ⟨?_, ?_⟩
    · rintro ⟨⟩
      exact ⟨(), rfl⟩
    · rintro ⟨x, hx⟩
      cases hx
      exact .constant k
  | die faces =>
    rw [exists_value_die_iff]
    refine ⟨?_, fun ⟨hlow, hhigh⟩ => .face hlow hhigh⟩
    rintro (⟨⟩ | ⟨⟩ | ⟨hlow, hhigh⟩)
    exact ⟨hlow, hhigh⟩
  | binary op left right ihl ihr =>
    refine ⟨fun h => ?_, ?_⟩
    · generalize hr : Except.ok n = r at h
      cases h with
      | left h => cases hr
      | right hleft h => cases hr
      | @operator _ _ _ a b hleft hright =>
        obtain ⟨x, hx⟩ := ihl.1 hleft
        obtain ⟨y, hy⟩ := ihr.1 hright
        have hn := Operator.evaluate_eq_ok_iff.1 hr.symm
        exact ⟨(x, y), value_binary_eq_some_iff.2 ⟨a, b, hx, hy, hn⟩⟩
    · rintro ⟨⟨x, y⟩, hxy⟩
      obtain ⟨a, b, ha, hb, hn⟩ := value_binary_eq_some_iff.1 hxy
      rw [← Operator.evaluate_eq_ok_iff.2 hn]
      exact .operator (ihl.2 ⟨x, ha⟩) (ihr.2 ⟨y, hb⟩)

/-- A roll cannot fail if there is a value under every assignment. -/
theorem not_rolls_error {x : EvalError} (hfaces : e.HasFaces) (htotal : e.Total) :
    ¬ e.Rolls (.error x) := by
  induction e generalizing x with
  | constant n => nofun
  | die faces =>
    intro h
    cases h with
    | noFaces hle =>
      exact le_zero_iff.1 hle hfaces
  | binary op left right ihl ihr =>
    obtain ⟨htotall, htotalr⟩ := htotal.of_binary hfaces
    intro h
    generalize hr : Except.error x = r at h
    cases h with
    | left h => exact ihl hfaces.1 htotall h
    | right hleft h => exact ihr hfaces.2 htotalr h
    | operator hleft hright =>
      obtain ⟨y, hy⟩ := rolls_ok_iff.1 hleft
      obtain ⟨z, hz⟩ := rolls_ok_iff.1 hright
      obtain ⟨n, hn⟩ := htotal.apply hy hz
      rw [Operator.evaluate_eq_ok_iff.2 hn] at hr
      cases hr

/-- An expression without a distribution can fail for the reason that is reported. -/
theorem rolls_of_distribution_eq_error {x : EvalError}
    (h : e.distribution (α := Rat) .unbounded = .error x) : e.Rolls (.error x) := by
  induction e with
  | constant n =>
    rw [distribution_constant] at h
    cases h
  | die faces =>
    rw [distribution_die, odds_die_unbounded] at h
    by_cases hfaces : 1 ≤ faces.toInt
    · obtain ⟨p, hp, -⟩ := exists_law_die hfaces
      rw [hp] at h
      cases h
    · rw [die_eq_error hfaces] at h
      cases h
      exact .noFaces (le_zero_iff.2 hfaces)
  | binary op left right ihl ihr =>
    obtain hleft | ⟨p, hp, hright | ⟨q, hq, hpq⟩⟩ := nodeByNode_distribution.eq_error_iff.1 h
    · exact .left (ihl hleft)
    · obtain ⟨hfaces, hlaw⟩ := law_of_distribution hp
      obtain ⟨y⟩ := nonempty_assignment hfaces
      obtain ⟨a, ha⟩ := hlaw.total y
      exact .right (rolls_ok_iff.2 ⟨y, ha⟩) (ihr hright)
    · -- The pair of outcomes that is reported occurs, so it can be rolled.
      obtain ⟨a, b, ha, hb, hnone, rfl⟩ := Distribution.of_combine_eq_error hpq
      rw [← Operator.evaluate_eq_error_iff.2 ⟨hnone, rfl⟩]
      exact .operator (rolls_ok_iff.2 ((law_of_distribution hp).2.occurs_iff.1 ha))
        (rolls_ok_iff.2 ((law_of_distribution hq).2.occurs_iff.1 hb))

/-! ### Rolling and the distribution -/

theorem Law.chance?_pos {p : Distribution Rat} (h : e.Law p) (hfaces : e.HasFaces) {n : Outcome}
    (hn : ∃ x, e.value x = some n) : ∃ c, p.chance? n = some c ∧ 0 < c := by
  refine ⟨_, by rw [h.chance?_eq hfaces, if_pos hn], div_pos ?_ ?_⟩
  · exact Nat.cast_pos.2 (Nat.pos_of_ne_zero (ways_ne_zero_iff.2 hn))
  · exact Nat.cast_pos.2 (worlds_pos hfaces)

/-- **Rolls are the events of the distribution.** If there is a distribution without limits, every
roll gives one of its outcomes, which has a positive chance, and every one of its outcomes is rolled
with some words. Otherwise some words make the roll fail for the very reason that is reported. -/
theorem roll_distribution (e : Expr) :
    match e.distribution (α := Rat) .unbounded with
    | .ok p =>
      (∀ w : Words, ∃ n c, (e.roll w).1 = .ok n ∧ p.chance? n = some c ∧ 0 < c) ∧
        ∀ n c, p.chance? n = some c → ∃ word, (e.roll (.fresh word)).1 = .ok n
    | .error x => ∃ word, (e.roll (.fresh word)).1 = .error x := by
  cases h : e.distribution (α := Rat) .unbounded with
  | ok p =>
    obtain ⟨hfaces, hlaw⟩ := law_of_distribution h
    refine ⟨fun w => ?_, fun n c hc => ?_⟩
    · have hroll := e.rolls_roll w
      cases hresult : (e.roll w).1 with
      | ok n =>
        rw [hresult] at hroll
        obtain ⟨c, hc, hpos⟩ := hlaw.chance?_pos hfaces (rolls_ok_iff.1 hroll)
        exact ⟨n, c, rfl, hc, hpos⟩
      | error x =>
        rw [hresult] at hroll
        exact absurd hroll (not_rolls_error hfaces hlaw.total)
    · have hlists : p.Lists n := ⟨c, Distribution.chance?_eq_some_iff.1 hc⟩
      exact exists_roll_eq (rolls_ok_iff.2 ((hlaw.lists n).1 hlists))
  | error x => exact exists_roll_eq (rolls_of_distribution_eq_error h)

end Expr

end DiceOdds
