import DiceOdds.Proofs.Reading.Printing
import Mathlib.Control.Monad.Basic

/-!
# How deep printed parentheses nest

Printing an expression that was read leaves out the parentheses that are not needed, but it writes a
pool of several dice as a sum, and a sum needs parentheses where a pool does not: on both sides of a
product, and on the right of a sum or a difference. So the printed text nests parentheses at most
one level deeper than the text that was read, and no deeper if no pool stands in such a place.
Whatever the text was, the nesting is the only limit that the printed text can exceed.

## Main definitions

* `Descent.Nests`: a text that can stand anywhere, with the nesting of its parentheses.
* `Expr.nesting`: the nesting of a printed expression.
* `Derivation.spreadDepth`: the nesting of a derivation, once pools are written as sums.
* `Derivation.PoolsStandAsSums`: no pool stands where a sum needs parentheses.

## Main results

* `Expr.nests_print`: the nesting of a printed expression is the one of its text.
* `Derivation.nesting_expr`: printing nests no deeper than writing pools as sums.
* `Expr.parse_print_of_parse`: which expressions that were read are read back.
-/

namespace DiceOdds

/-! ### Nesting of texts -/

namespace Descent

/-- Wherever the text stands, the depth behind it is as in front of it, and its parentheses nest to
the given depth. -/
def Nests (t : List Char) (k : Nat) : Prop :=
  ∀ (depth deepest : Nat) (rest : List Char), depth ≤ deepest →
    nesting depth deepest (t ++ rest) = nesting depth (max deepest (depth + k)) rest

variable {t t' : List Char} {k k' : Nat}

theorem Nests.nesting_eq (h : Nests t k) : nesting 0 0 t = k := by
  have ht := h 0 0 [] (Nat.le_refl 0)
  rw [List.append_nil, nesting] at ht
  omega

theorem nests_plain (h : ∀ c ∈ t, Plain c) : Nests t 0 := by
  intro depth deepest rest hle
  rw [nesting_append hle h, Nat.add_zero, Nat.max_eq_left hle]

theorem Nests.append (h : Nests t k) (h' : Nests t' k') : Nests (t ++ t') (max k k') := by
  intro depth deepest rest hle
  rw [List.append_assoc, h depth deepest (t' ++ rest) hle, h' depth _ rest (by omega)]
  congr 1
  omega

theorem Nests.parentheses (h : Nests t k) : Nests ('(' :: (t ++ [')'])) (k + 1) := by
  intro depth deepest rest hle
  have hopening : depthBehind depth '(' = depth + 1 := rfl
  have hclosing : depthBehind (depth + 1) ')' = depth := rfl
  rw [List.cons_append, List.append_assoc, nesting, hopening, h (depth + 1) _ _ (by omega)]
  show nesting _ _ (')' :: rest) = _
  rw [nesting, hclosing]
  congr 1
  omega

theorem Nests.enclose {s : String} (h : Nests s.toList k) (needed : Bool) :
    Nests (Printed.enclose needed s).toList (k + needed.toNat) := by
  rw [Printed.toList_enclose]
  cases needed with
  | false => exact h
  | true => exact h.parentheses

theorem nests_digits (n : Digits) : Nests n.chars 0 :=
  nests_plain fun c hc => plain_of_isDigit (n.all_digit c hc)

end Descent

/-! ### Nesting of printed expressions -/

namespace Expr

/-- How deep the parentheses of a printed expression nest. -/
def nesting : Expr → Nat
  | constant _ => 0
  | die _ => 0
  | binary op left right =>
    max (left.nesting + (decide (left.printed.strength < op.precedence)).toNat)
      (right.nesting + (decide (right.printed.strength ≤ op.precedence)).toNat)

theorem nests_print {e : Expr} (h : e.Nonneg) : Descent.Nests e.print.toList e.nesting := by
  induction e with
  | constant n =>
    obtain ⟨k, hchars, -, -⟩ := Digits.exists_of_nonneg h
    rw [toList_print_constant, ← hchars]
    exact Descent.nests_digits k
  | die faces =>
    obtain ⟨k, hchars, -, -⟩ := Digits.exists_of_nonneg h
    have hletter : Descent.Nests ['d'] 0 :=
      Descent.nests_plain (by simpa using Descent.plain_letter)
    rw [toList_print_die, ← hchars]
    exact hletter.append (Descent.nests_digits k)
  | binary op left right ihl ihr =>
    have hblank : Descent.Plain ' ' := ⟨by decide, by decide⟩
    have hmiddle : Descent.Nests [' ', op.symbol, ' '] 0 :=
      Descent.nests_plain (by simpa [hblank] using Descent.plain_symbol op)
    have hright := hmiddle.append ((ihr h.2).enclose (right.printed.strength ≤ op.precedence))
    rw [Nat.zero_max] at hright
    rw [toList_print_binary]
    exact ((ihl h.1).enclose _).append hright

/-! ### Pools as sums -/

theorem strength_constant (n : Outcome) : (constant n).printed.strength = Printed.atomStrength := by
  rw [printed_constant, Printed.atom]

theorem strength_die (faces : Outcome) : (die faces).printed.strength = Printed.atomStrength := by
  rw [printed_die, Printed.atom]

theorem strength_binary (op : Operator) (left right : Expr) :
    (binary op left right).printed.strength = op.precedence := by
  rw [printed_binary, Printed.join]

theorem strength_pool (n : Nat) (faces : Outcome) :
    (pool (n + 2) faces).printed.strength = Operator.add.precedence := by
  rw [pool_succ]
  exact strength_binary .add _ _

theorem nesting_pool (n : Nat) (faces : Outcome) : (pool (n + 1) faces).nesting = 0 := by
  induction n with
  | zero => rfl
  | succ n ih =>
    have hleft : ¬ (pool (n + 1) faces).printed.strength < Operator.add.precedence := by
      cases n with
      | zero =>
        rw [pool_one, strength_die]
        decide
      | succ n =>
        rw [strength_pool]
        exact Nat.lt_irrefl _
    have hright : ¬ (die faces).printed.strength ≤ Operator.add.precedence := by
      rw [strength_die]
      decide
    rw [pool_succ]
    show (binary .add (pool (n + 1) faces) (die faces)).nesting = 0
    rw [nesting, ih, decide_eq_false hleft, decide_eq_false hright]
    rfl

theorem nonneg_pool {n : Nat} {faces : Outcome} (h : 0 ≤ faces.toInt) :
    (pool (n + 1) faces).Nonneg := by
  induction n with
  | zero => exact h
  | succ n ih => exact ⟨ih, h⟩

end Expr

/-- Only products bind more strongly than sums. -/
theorem Operator.eq_mul_of_lt {op : Operator} (h : add.precedence < op.precedence) : op = .mul := by
  cases op <;> first | rfl | exact absurd h (by decide)

/-- Only comparisons bind more loosely than sums. -/
theorem Operator.ne_greater_of_le {op : Operator} (h : add.precedence ≤ op.precedence) :
    op ≠ .greater := by
  rintro rfl
  exact absurd h (by decide)

namespace Derivation

/-- Numbers that are read are not negative. -/
theorem nonneg_expr {maxDice : Nat} {l : Tier} {d : Derivation l} (h : d.Fits maxDice) :
    d.expr.Nonneg := by
  have hdigits : ∀ n : Digits, n.Fits → 0 ≤ n.outcome.toInt := fun n hn => by
    rw [Digits.toInt_outcome hn]
    exact Int.natCast_nonneg _
  induction d with
  | number n => exact hdigits n h
  | die faces => exact hdigits faces h
  | pool count faces =>
    obtain ⟨k, hk⟩ := Nat.exists_eq_add_of_le' h.2.1
    rw [expr, hk]
    exact Expr.nonneg_pool (hdigits faces h.1)
  | enclosed _ _ _ ih => exact ih h
  | single _ _ ih => exact ih h
  | repeated _ _ _ _ _ _ ihl ihr => exact ⟨ihl h.1, ihr h.2⟩

/-- Whether the text is a pool of several dice. -/
def isPool {l : Tier} : Derivation l → Bool
  | number _ => false
  | die _ => false
  | pool count _ => decide (2 ≤ count.value)
  | enclosed _ _ _ => false
  | single _ part => part.isPool
  | repeated _ _ _ _ _ _ => false

/-- How deep parentheses nest once pools of several dice are written as sums. A sum needs
parentheses as a factor, and on the right of a sum or a difference. -/
def spreadDepth {l : Tier} : Derivation l → Nat
  | number _ => 0
  | die _ => 0
  | pool _ _ => 0
  | enclosed _ inner _ => inner.spreadDepth + 1
  | single _ part => part.spreadDepth
  | repeated left _ op _ _ right =>
    max (left.spreadDepth + (left.isPool && decide (op = .mul)).toNat)
      (right.spreadDepth + (right.isPool && decide (op ≠ .greater)).toNat)

/-- No pool of several dice is a factor or stands on the right of a sum or a difference, unless in
parentheses. -/
def PoolsStandAsSums {l : Tier} : Derivation l → Prop
  | number _ => True
  | die _ => True
  | pool _ _ => True
  | enclosed _ inner _ => inner.PoolsStandAsSums
  | single _ part => part.PoolsStandAsSums
  | repeated left _ op _ _ right =>
    left.PoolsStandAsSums ∧ right.PoolsStandAsSums ∧
      (left.isPool = true → op ≠ .mul) ∧ (right.isPool = true → op = .greater)

variable {l : Tier}

theorem spreadDepth_of_isPool {d : Derivation l} (h : d.isPool = true) : d.spreadDepth = 0 := by
  induction d with
  | number _ | die _ | enclosed _ _ _ _ | repeated _ _ _ _ _ _ _ _ => cases h
  | pool count faces => rfl
  | single _ part ih => exact ih h

/-- Writing pools as sums nests at most one level deeper. -/
theorem spreadDepth_le (d : Derivation l) : d.spreadDepth ≤ d.depth + 1 := by
  induction d with
  | number _ => exact Nat.zero_le _
  | die _ => exact Nat.zero_le _
  | pool _ _ => exact Nat.zero_le _
  | enclosed _ _ _ ih => exact Nat.succ_le_succ ih
  | single _ _ ih => exact ih
  | repeated left _ op _ _ right ihl ihr =>
    -- A pool itself has no parentheses, so those around it are the first level.
    have hspread : ∀ {l' : Tier} {part : Derivation l'} (needed : Bool),
        part.spreadDepth ≤ part.depth + 1 →
          part.spreadDepth + (part.isPool && needed).toNat ≤ part.depth + 1 := by
      intro l' part needed hle
      cases hpool : part.isPool with
      | false => exact hle
      | true =>
        rw [spreadDepth_of_isPool hpool, Nat.zero_add]
        exact Nat.le_trans (Bool.toNat_le _) (Nat.le_add_left 1 _)
    rw [spreadDepth, depth]
    have hleft := hspread (decide (op = .mul)) ihl
    have hright := hspread (decide (op ≠ .greater)) ihr
    omega

theorem spreadDepth_eq {d : Derivation l} (h : d.PoolsStandAsSums) : d.spreadDepth = d.depth := by
  induction d with
  | number _ => rfl
  | die _ => rfl
  | pool _ _ => rfl
  | enclosed _ _ _ ih => exact congrArg (· + 1) (ih h)
  | single _ _ ih => exact ih h
  | repeated left _ op _ _ right ihl ihr =>
    obtain ⟨hleft, hright, hfactor, hlast⟩ := h
    have hnone : (left.isPool && decide (op = .mul)) = false := by
      cases hpool : left.isPool with
      | false => rfl
      | true => exact decide_eq_false (hfactor hpool)
    have hnone' : (right.isPool && decide (op ≠ .greater)) = false := by
      cases hpool : right.isPool with
      | false => rfl
      | true => exact decide_eq_false fun hne => hne (hlast hpool)
    rw [spreadDepth, depth, ihl hleft, ihr hright, hnone, hnone']
    rfl

/-! ### Printing what was read -/

theorem strength_of_isPool {d : Derivation l} (h : d.isPool = true) :
    d.expr.printed.strength = Operator.add.precedence := by
  induction d with
  | number _ | die _ | enclosed _ _ _ _ | repeated _ _ _ _ _ _ _ _ => cases h
  | pool count faces =>
    obtain ⟨k, hk⟩ := Nat.exists_eq_add_of_le' (of_decide_eq_true h)
    rw [expr, hk, Expr.strength_pool]
  | single _ part ih => exact ih h

/-- Parentheses around an operand are printed only around a pool, or where there were some. -/
theorem nesting_operand_le {part : Derivation l} {needed factor : Bool}
    (h : part.expr.nesting ≤ part.spreadDepth)
    (hneeded : needed = true → (part.isPool && factor) = true ∨
      part.expr.nesting + 1 ≤ part.spreadDepth) :
    part.expr.nesting + needed.toNat ≤ part.spreadDepth + (part.isPool && factor).toNat := by
  cases needed with
  | false => exact Nat.le_add_right_of_le h
  | true =>
    rcases hneeded rfl with hpool | hdeeper
    · rw [hpool]
      exact Nat.succ_le_succ h
    · exact Nat.le_add_right_of_le hdeeper

/-- Printing nests no deeper than writing pools as sums. What binds more loosely than its tier
stands in parentheses, unless it is a pool, and these are printed only if needed. -/
theorem nesting_expr {maxDice : Nat} {d : Derivation l} (h : d.Fits maxDice) :
    d.expr.nesting ≤ d.spreadDepth ∧
      (d.expr.printed.strength < l.strength →
        d.isPool = true ∨ d.expr.nesting + 1 ≤ d.spreadDepth) := by
  induction d with
  | number n =>
    refine ⟨Nat.zero_le _, fun hlt => ?_⟩
    rw [expr, Expr.strength_constant] at hlt
    exact absurd hlt (by decide)
  | die faces =>
    refine ⟨Nat.zero_le _, fun hlt => ?_⟩
    rw [expr, Expr.strength_die] at hlt
    exact absurd hlt (by decide)
  | pool count faces =>
    obtain ⟨k, hk⟩ := Nat.exists_eq_add_of_le' h.2.1
    refine ⟨Nat.le_of_eq (by rw [expr, hk, Expr.nesting_pool, spreadDepth]), fun hlt => .inl ?_⟩
    cases k with
    | zero =>
      rw [expr, hk, Expr.pool_one, Expr.strength_die] at hlt
      exact absurd hlt (by decide)
    | succ k => exact decide_eq_true (by omega)
  | enclosed _ inner _ ih =>
    exact ⟨Nat.le_succ_of_le (ih h).1, fun _ => .inr (Nat.succ_le_succ (ih h).1)⟩
  | @single l hl part ih =>
    exact ⟨(ih h).1, fun hlt => (ih h).2 (Nat.lt_of_lt_of_le hlt l.strength_le_operand)⟩
  | repeated left _ op hop _ right ihl ihr =>
    subst hop
    obtain ⟨hleft, hlooseleft⟩ := ihl h.1
    obtain ⟨hright, hlooseright⟩ := ihr h.2
    -- A pool that is printed in parentheses is a factor or stands on the right of a sum.
    have hfactor : decide (left.expr.printed.strength < op.precedence) = true →
        (left.isPool && decide (op = .mul)) = true ∨
          left.expr.nesting + 1 ≤ left.spreadDepth := by
      intro hneeded
      have hlt := of_decide_eq_true hneeded
      refine (hlooseleft (op.strength_tier.symm ▸ hlt)).imp_left fun hpool => ?_
      rw [strength_of_isPool hpool] at hlt
      rw [hpool, Bool.true_and]
      exact decide_eq_true (Operator.eq_mul_of_lt hlt)
    have hlast : decide (right.expr.printed.strength ≤ op.precedence) = true →
        (right.isPool && decide (op ≠ .greater)) = true ∨
          right.expr.nesting + 1 ≤ right.spreadDepth := by
      intro hneeded
      have hle := of_decide_eq_true hneeded
      refine (hlooseright (Nat.lt_of_le_of_lt hle op.precedence_lt_operand)).imp_left
        fun hpool => ?_
      rw [strength_of_isPool hpool] at hle
      rw [hpool, Bool.true_and]
      exact decide_eq_true (Operator.ne_greater_of_le hle)
    refine ⟨?_, fun hlt => ?_⟩
    · have hboth := And.intro (nesting_operand_le hleft hfactor) (nesting_operand_le hright hlast)
      rw [expr, Expr.nesting, spreadDepth]
      omega
    · rw [expr, Expr.strength_binary, op.strength_tier] at hlt
      exact absurd hlt (Nat.lt_irrefl _)

end Derivation

/-! ### Reading back what was read -/

namespace Expr

variable {strategy : Strategy} {limits : Limits} {s : String} {e : Expr}

theorem parse_print_iff_of_nonneg (h : e.Nonneg) : parse strategy limits e.print = .ok e ↔
    e.nodes ≤ limits.maxNodes ∧ Descent.nesting 0 0 e.print.toList ≤ limits.maxDepth := by
  obtain ⟨u, hu, hexpr, hlimits⟩ := exists_sentence h
  refine ⟨fun hparse => ?_, fun hwithin => ?_⟩
  · have hkept := (Priority.leads_parse hu).of_eq_ok (parse_priority_of_parse hparse)
    exact (hlimits limits).1 hkept.1
  · exact parse_iff_sentence.2 ⟨u, hu, hexpr, (hlimits limits).2 hwithin⟩

/-- **Reading back what was read.** The text of an expression that was read nests parentheses at
most one level deeper than the text it was read from. It is read back under the same limits, in the
same way, exactly when it does not exceed the limit on nesting; in particular, if no pool of several
dice was read where a sum needs parentheses. -/
theorem parse_print_of_parse (h : parse strategy limits s = .ok e) :
    Descent.nesting 0 0 e.print.toList ≤ Descent.nesting 0 0 s.toList + 1 ∧
      (parse strategy limits e.print = .ok e ↔
        Descent.nesting 0 0 e.print.toList ≤ limits.maxDepth) ∧
      ((∃ u : Sentence, u.text = s.toList ∧ u.body.PoolsStandAsSums) →
        parse strategy limits e.print = .ok e) := by
  obtain ⟨u, hu, rfl, hfits, hdepth, hnodes⟩ := parse_iff_sentence.1 h
  have hnonneg : u.expr.Nonneg := Derivation.nonneg_expr hfits
  have hnesting := (nests_print hnonneg).nesting_eq
  have hprinted : u.expr.nesting ≤ u.body.spreadDepth := (Derivation.nesting_expr hfits).1
  have hspread := Derivation.spreadDepth_le u.body
  have hread : parse strategy limits u.expr.print = .ok u.expr ↔
      Descent.nesting 0 0 u.expr.print.toList ≤ limits.maxDepth := by
    rw [parse_print_iff_of_nonneg hnonneg]
    exact and_iff_right hnodes
  refine ⟨?_, hread, ?_⟩
  · rw [hnesting, ← hu, Descent.nesting_sentence]
    omega
  · -- The text has one expression, so it does not matter which derivation is meant.
    rintro ⟨u', hu', hpools⟩
    obtain ⟨⟨hfits', hdepth', -⟩, hexpr⟩ :=
      (Priority.leads_parse hu').of_eq_ok (parse_priority_of_parse h)
    have hprinted' : u'.expr.nesting ≤ u'.body.spreadDepth := (Derivation.nesting_expr hfits').1
    rw [Derivation.spreadDepth_eq hpools, hexpr] at hprinted'
    rw [hread, hnesting]
    omega

/-- A pool on the left of a comparison is printed without parentheses and read back. -/
theorem parse_print_compared_pool :
    parse .descent { maxDepth := 0 } "2d6>3" = .ok (greater (die 6 + die 6) (constant 3)) ∧
      parse .descent { maxDepth := 0 } (greater (die 6 + die 6) (constant 3)).print =
        .ok (greater (die 6 + die 6) (constant 3)) := by
  have h : parse .descent { maxDepth := 0 } "2d6>3" =
      .ok (greater (die 6 + die 6) (constant 3)) := by
    decide +kernel
  let pool : Derivation .primary := .pool (.ofNat 2) (.ofNat 6)
  let three : Derivation .primary := .number (.ofNat 3)
  let body : Derivation .compare :=
    .repeated (.single nofun (.single nofun (.single nofun pool))) .none .greater rfl .none
      (.single nofun (.single nofun three))
  have hpools : body.PoolsStandAsSums := ⟨trivial, trivial, nofun, fun _ => rfl⟩
  exact ⟨h, (parse_print_of_parse h).2.2 ⟨⟨.none, body, .none⟩, rfl, hpools⟩⟩

/-- A pool on the right of a difference is printed in parentheses. If none are allowed, what was
read is not read back. -/
theorem parse_print_subtracted_pool :
    (∀ strategy, parse strategy { maxDepth := 0 } "1-2d6" =
        .ok (constant 1 - (die 6 + die 6))) ∧
      ∀ strategy, parse strategy { maxDepth := 0 } (constant 1 - (die 6 + die 6)).print =
        .error (.tooDeep 0) := by
  refine ⟨fun strategy => ?_, fun strategy => ?_⟩ <;> cases strategy <;> decide +kernel

end Expr

end DiceOdds
