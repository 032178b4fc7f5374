import DiceOdds.Expr.Bounds
import DiceOdds.Limits
import DiceOdds.Text.Cursor
import Mathlib.Data.List.Induction
import Mathlib.Data.Nat.Digits.Defs

/-!
# The grammar of expressions

An expression is a comparison between blanks. Comparisons, sums and products are repetitions of
tighter parts, grouped to the left; the tightest parts are numbers, dice, pools of dice and
comparisons in parentheses:

```
expression     := ws compare ws
compare        := additive (ws '>' ws additive)*
additive       := multiplicative (ws ('+' | '-') ws multiplicative)*
multiplicative := primary (ws '*' ws primary)*
primary        := N | 'd' M | N 'd' M | '(' ws compare ws ')'
```

A derivation in this grammar keeps every character of the text it derives, so the text, the
expression, the size and the nesting are all read off it. Whether the numbers fit is not a matter
of the grammar but a predicate on derivations.

## Main definitions

* `Digits.value`: the number that digits write, counted by their places.
* `Tier`: the nonterminals between an expression and its operands.
* `Derivation`: the derivations of a nonterminal.
* `Derivation.text`, `Derivation.expr`, `Derivation.nodes`, `Derivation.depth`: what is derived.
* `Derivation.Fits`: the numbers of a derivation fit.
* `Sentence`: the derivations of whole texts, with the limits they may keep
  (`Sentence.Within`).

## Main results

* `Digits.numeral_eq_ofDigits`: reading digits one by one gives their value.
* `Derivation.nodes_expr`: the size of the expression is the size counted on the derivation.
* `Derivation.exists_lift`: what a tighter nonterminal derives, a looser one derives.
* `Derivation.exists_append`: an operator with a right operand continues any derivation that is at
  least as loose.
-/

namespace DiceOdds

/-! ### Characters -/

/-- Any number of blanks. -/
structure Blanks where
  chars : List Char
  all_blank : ∀ c ∈ chars, isBlank c = true

/-- At least one decimal digit. -/
structure Digits where
  chars : List Char
  ne_nil : chars ≠ []
  all_digit : ∀ c ∈ chars, c.isDigit = true

namespace Digits

/-- The number the digits write: a digit counts ten times as much as it would one place further to
the right. -/
def value (n : Digits) : Nat :=
  Nat.ofDigits 10 (n.chars.reverse.map fun c => c.toNat - '0'.toNat)

/-- The number is at most the greatest outcome. -/
def Fits (n : Digits) : Prop := n.value ≤ 9223372036854775807

/-- The outcome equal to a number that fits. -/
def outcome (n : Digits) : Outcome := Int64.ofInt n.value

/-- The number that is built up digit by digit from the left is the value by places, also with zeros
in front. -/
theorem numeral_eq_ofDigits (digits : List Char) :
    numeral digits = Nat.ofDigits 10 (digits.reverse.map fun c => c.toNat - '0'.toNat) := by
  induction digits using List.reverseRecOn with
  | nil => rfl
  | append_singleton digits c ih =>
    have hread : numeral (digits ++ [c]) = 10 * numeral digits + (c.toNat - '0'.toNat) :=
      List.foldl_append
    rw [hread, ih, List.reverse_append, List.reverse_singleton, List.singleton_append,
      List.map_cons, Nat.ofDigits_cons, Nat.add_comm]

theorem numeral_chars (n : Digits) : numeral n.chars = n.value := numeral_eq_ofDigits n.chars

theorem toInt_outcome {n : Digits} (h : n.Fits) : n.outcome.toInt = n.value := by
  rw [Fits] at h
  exact Int64.toInt_ofInt_of_le (by omega) (by omega)

theorem ofInt?_numeral {n : Digits} (h : n.Fits) :
    Outcome.ofInt? (numeral n.chars) = some n.outcome := by
  rw [numeral_chars]
  exact Outcome.ofInt?_eq_some_iff.2 (toInt_outcome h)

theorem ofInt?_numeral_eq_none {n : Digits} (h : ¬ n.Fits) :
    Outcome.ofInt? (numeral n.chars) = none := by
  rw [Fits] at h
  rw [numeral_chars]
  exact Outcome.ofInt?_eq_none_iff.2 (.inr (by omega))

theorem fits_of_ofInt? {n : Digits} {a : Outcome}
    (h : Outcome.ofInt? (numeral n.chars) = some a) : n.Fits := by
  by_cases hn : n.Fits
  · exact hn
  · rw [ofInt?_numeral_eq_none hn] at h
    cases h

theorem not_fits_of_ofInt? {n : Digits} (h : Outcome.ofInt? (numeral n.chars) = none) :
    ¬ n.Fits := by
  intro hn
  rw [ofInt?_numeral hn] at h
  cases h

end Digits

/-! ### Nonterminals -/

/-- The nonterminals between an expression and its operands, the loosest first. -/
inductive Tier where
  | compare
  | additive
  | multiplicative
  | primary
  deriving DecidableEq, Repr

/-- The nonterminal whose repetitions an operator joins. -/
def Operator.tier : Operator → Tier
  | greater => .compare
  | add => .additive
  | sub => .additive
  | mul => .multiplicative

namespace Tier

/-- The parts that a nonterminal repeats; an operand repeats nothing. -/
def operand : Tier → Tier
  | compare => additive
  | additive => multiplicative
  | multiplicative => primary
  | primary => primary

/-- The binding strength of the operators between the parts; an operand is stronger than all
operators. -/
def strength : Tier → Nat
  | compare => 0
  | additive => 3
  | multiplicative => 5
  | primary => 6

theorem strength_le_operand (l : Tier) : l.strength ≤ l.operand.strength := by
  cases l <;> decide

theorem strength_le_primary (l : Tier) : l.strength ≤ primary.strength := by
  cases l <;> decide

theorem strength_lt_operand {l : Tier} (h : l ≠ primary) : l.strength < l.operand.strength := by
  cases l <;> first | decide | contradiction

end Tier

namespace Operator

theorem strength_tier (op : Operator) : op.tier.strength = op.precedence := by
  cases op <;> rfl

/-- A right operand binds more strongly than its operator. -/
theorem precedence_lt_operand (op : Operator) :
    op.precedence < op.tier.operand.strength := by
  cases op <;> decide

theorem strength_operand_le_of_ne {op : Operator} {l : Tier}
    (h : l.strength ≤ op.precedence) (hne : op.tier ≠ l) :
    l.operand.strength ≤ op.precedence := by
  revert h hne
  cases op <;> cases l <;> decide

end Operator

/-! ### Derivations -/

/-- The derivations of a nonterminal, with every character of the text. -/
inductive Derivation : Tier → Type where
  | number (n : Digits) : Derivation .primary
  | die (faces : Digits) : Derivation .primary
  | pool (count faces : Digits) : Derivation .primary
  | enclosed (before : Blanks) (inner : Derivation .compare) (after : Blanks) :
      Derivation .primary
  /-- A single part without a repetition. -/
  | single {l : Tier} (hl : l ≠ .primary) (part : Derivation l.operand) : Derivation l
  /-- A repetition more, to the right of those so far. -/
  | repeated {l : Tier} (left : Derivation l) (before : Blanks) (op : Operator)
      (hop : op.tier = l) (after : Blanks) (right : Derivation l.operand) : Derivation l

namespace Derivation

/-- The text that is derived. -/
def text {l : Tier} : Derivation l → List Char
  | number n => n.chars
  | die faces => 'd' :: faces.chars
  | pool count faces => count.chars ++ 'd' :: faces.chars
  | enclosed before inner after => '(' :: (before.chars ++ (inner.text ++ (after.chars ++ [')'])))
  | single _ part => part.text
  | repeated left before op _ after right =>
    left.text ++ (before.chars ++ op.symbol :: (after.chars ++ right.text))

/-- The expression that is derived; repetitions group to the left. -/
def expr {l : Tier} : Derivation l → Expr
  | number n => .constant n.outcome
  | die faces => .die faces.outcome
  | pool count faces => .pool count.value faces.outcome
  | enclosed _ inner _ => inner.expr
  | single _ part => part.expr
  | repeated left _ op _ _ right => .binary op left.expr right.expr

/-- One for each constant, die and operator, where a pool of `N` dice has `N` dice and the
operators between them. -/
def nodes {l : Tier} : Derivation l → Nat
  | number _ => 1
  | die _ => 1
  | pool count _ => 2 * count.value - 1
  | enclosed _ inner _ => inner.nodes
  | single _ part => part.nodes
  | repeated left _ _ _ _ right => left.nodes + right.nodes + 1

/-- How deep parentheses nest. -/
def depth {l : Tier} : Derivation l → Nat
  | number _ => 0
  | die _ => 0
  | pool _ _ => 0
  | enclosed _ inner _ => inner.depth + 1
  | single _ part => part.depth
  | repeated left _ _ _ _ right => max left.depth right.depth

/-- Constants and numbers of faces fit in an outcome, and pools have at least one die and at most
as many as allowed. -/
def Fits (maxDice : Nat) {l : Tier} : Derivation l → Prop
  | number n => n.Fits
  | die faces => faces.Fits
  | pool count faces =>
    faces.Fits ∧ 1 ≤ count.value ∧ count.value ≤ min maxDice 4294967295
  | enclosed _ inner _ => inner.Fits maxDice
  | single _ part => part.Fits maxDice
  | repeated left _ _ _ _ right => left.Fits maxDice ∧ right.Fits maxDice

end Derivation

/-! ### Size -/

theorem Expr.nodes_pool (n : Nat) (faces : Outcome) : (pool (n + 1) faces).nodes = 2 * n + 1 := by
  induction n with
  | zero => rw [pool_one, nodes_die]
  | succ n ih =>
    rw [pool_succ]
    show (binary .add (pool (n + 1) faces) (die faces)).nodes = _
    rw [nodes_binary, ih, nodes_die]
    omega

namespace Derivation

/-- The size of an expression is the size counted on its derivation. -/
theorem nodes_expr {maxDice : Nat} {l : Tier} {d : Derivation l} (h : d.Fits maxDice) :
    d.expr.nodes = d.nodes := by
  induction d with
  | number n => exact Expr.nodes_constant _
  | die faces => exact Expr.nodes_die _
  | pool count faces =>
    obtain ⟨k, hk⟩ := Nat.exists_eq_add_of_le' h.2.1
    rw [expr, nodes, hk, Expr.nodes_pool]
    omega
  | enclosed _ _ _ ih => exact ih h
  | single _ _ ih => exact ih h
  | repeated _ _ _ _ _ _ ihl ihr =>
    rw [expr, nodes, Expr.nodes_binary, ihl h.1, ihr h.2]

/-! ### Looser nonterminals -/

/-- Two derivations differ at most in the nonterminals they go through. -/
structure Agrees {l l' : Tier} (d : Derivation l) (d' : Derivation l') : Prop where
  text : d.text = d'.text
  expr : d.expr = d'.expr
  nodes : d.nodes = d'.nodes
  depth : d.depth = d'.depth
  fits (maxDice : Nat) : d.Fits maxDice ↔ d'.Fits maxDice

theorem Agrees.rfl {l : Tier} {d : Derivation l} : d.Agrees d :=
  ⟨.refl _, .refl _, .refl _, .refl _, fun _ => .rfl⟩

theorem agrees_single {l : Tier} (hl : l ≠ .primary) {l' : Tier} {part : Derivation l.operand}
    {d : Derivation l'} (h : part.Agrees d) : (single hl part).Agrees d :=
  ⟨h.text, h.expr, h.nodes, h.depth, h.fits⟩

/-- What a tighter nonterminal derives, a looser one derives. -/
theorem exists_lift {l l' : Tier} (h : l.strength ≤ l'.strength) (d : Derivation l') :
    ∃ d' : Derivation l, d'.Agrees d := by
  by_cases hl : l = l'
  · subst hl
    exact ⟨d, .rfl⟩
  · have hprimary : l ≠ .primary := by
      rintro rfl
      revert h hl
      cases l' <;> decide
    have hoperand : l.operand.strength ≤ l'.strength := by
      revert h hl
      cases l <;> cases l' <;> decide
    have hlt := Tier.strength_lt_operand hprimary
    obtain ⟨part, hpart⟩ := exists_lift hoperand d
    exact ⟨.single hprimary part, agrees_single hprimary hpart⟩
termination_by l'.strength - l.strength

/-! ### Further operators -/

/-- A derivation of what another one derives, followed by an operator and a right operand between
blanks. -/
structure Extends {l l' l'' : Tier} (d : Derivation l) (before : Blanks) (op : Operator)
    (after : Blanks) (right : Derivation l') (d' : Derivation l'') : Prop where
  text : d'.text = d.text ++ (before.chars ++ op.symbol :: (after.chars ++ right.text))
  nodes : d'.nodes = d.nodes + right.nodes + 1
  depth : d'.depth = max d.depth right.depth
  fits (maxDice : Nat) : d'.Fits maxDice ↔ d.Fits maxDice ∧ right.Fits maxDice

/-- What continues the rightmost part of a repetition continues the repetition. -/
theorem Extends.repeated {l l' : Tier} {left : Derivation l} {part : Derivation l.operand}
    {b a before after : Blanks} {op op' : Operator} {hop : op'.tier = l} {right : Derivation l'}
    {part' : Derivation l.operand} (h : part.Extends before op after right part') :
    (Derivation.repeated left b op' hop a part).Extends before op after right
      (Derivation.repeated left b op' hop a part') := by
  refine ⟨?_, ?_, ?_, fun maxDice => ?_⟩
  · rw [Derivation.text, h.text, Derivation.text]
    simp only [List.append_assoc, List.cons_append]
  · rw [Derivation.nodes, h.nodes, Derivation.nodes]
    omega
  · rw [Derivation.depth, h.depth, Derivation.depth, Nat.max_assoc]
  · rw [Derivation.Fits, h.fits, Derivation.Fits, and_assoc]

/-- Continuing twice is continuing with two operators. -/
theorem Extends.trans {l l' : Tier} {d d₁ d₂ : Derivation l} {left : Derivation l'}
    {part : Derivation l'.operand} {b a before after : Blanks} {op op' : Operator}
    {hop : op'.tier = l'} (h : d.Extends before op after left d₁)
    (h' : d₁.Extends b op' a part d₂) :
    d.Extends before op after (.repeated left b op' hop a part) d₂ := by
  refine ⟨?_, ?_, ?_, fun maxDice => ?_⟩
  · rw [h'.text, h.text, Derivation.text]
    simp only [List.append_assoc, List.cons_append]
  · rw [h'.nodes, h.nodes, Derivation.nodes]
    omega
  · rw [h'.depth, h.depth, Derivation.depth, Nat.max_assoc]
  · rw [h'.fits, h.fits, Derivation.Fits, and_assoc]

/-- An operator with an operand continues a derivation of any nonterminal that is at least as loose
as the operator; it may end up deep inside the rightmost parts. -/
theorem exists_insert {l : Tier} (d : Derivation l) (op : Operator)
    (h : l.strength ≤ op.precedence) (before after : Blanks) (p : Derivation .primary) :
    ∃ d' : Derivation l, d.Extends before op after p d' := by
  by_cases hop : op.tier = l
  · obtain ⟨right, hright⟩ := exists_lift (Tier.strength_le_primary l.operand) p
    refine ⟨.repeated d before op hop after right, ?_, ?_, ?_, fun maxDice => ?_⟩
    · rw [text, hright.text]
    · rw [nodes, hright.nodes]
    · rw [depth, hright.depth]
    · rw [Fits, hright.fits]
  · have hoperand := Operator.strength_operand_le_of_ne h hop
    have hprimary : l ≠ .primary := by
      rintro rfl
      exact absurd h (by cases op <;> decide)
    cases d with
    | number | die | pool | enclosed => exact absurd rfl hprimary
    | single _ part =>
      obtain ⟨part', hpart⟩ := exists_insert part op hoperand before after p
      exact ⟨.single hprimary part', hpart.text, hpart.nodes, hpart.depth, hpart.fits⟩
    | repeated left b op' hop' a right =>
      obtain ⟨right', hright⟩ := exists_insert right op hoperand before after p
      exact ⟨.repeated left b op' hop' a right', hright.repeated⟩

/-- An operator with a derivation of a nonterminal on its right continues another derivation. -/
theorem exists_append {l l' : Tier} (d : Derivation l) {op : Operator}
    (h : l.strength ≤ op.precedence) (before after : Blanks) (right : Derivation l')
    (hl : l.strength ≤ l'.strength) : ∃ d' : Derivation l, d.Extends before op after right d' := by
  induction right generalizing d op before after with
  | number n => exact exists_insert d op h before after (.number n)
  | die faces => exact exists_insert d op h before after (.die faces)
  | pool count faces => exact exists_insert d op h before after (.pool count faces)
  | enclosed b inner a _ => exact exists_insert d op h before after (.enclosed b inner a)
  | @single l' hprimary part ih =>
    obtain ⟨d', hd'⟩ := ih d h before after (Nat.le_trans hl l'.strength_le_operand)
    exact ⟨d', hd'.text, hd'.nodes, hd'.depth, hd'.fits⟩
  | @repeated l' left b op' hop a right ihl ihr =>
    have hop' : l.strength ≤ op'.precedence := by
      rw [← op'.strength_tier, hop]
      exact hl
    obtain ⟨d₁, hd₁⟩ := ihl d h before after hl
    obtain ⟨d₂, hd₂⟩ := ihr d₁ hop' b a (Nat.le_trans hl l'.strength_le_operand)
    exact ⟨d₂, hd₁.trans hd₂⟩

end Derivation

/-! ### Whole texts -/

/-- A derivation of a whole text: a comparison between blanks. -/
structure Sentence where
  before : Blanks
  body : Derivation .compare
  after : Blanks

namespace Sentence

/-- The text that is derived. -/
def text (t : Sentence) : List Char := t.before.chars ++ (t.body.text ++ t.after.chars)

/-- The expression that is derived. -/
def expr (t : Sentence) : Expr := t.body.expr

/-- The numbers fit, and neither the nesting nor the size is beyond the limits. -/
def Within (limits : Limits) (t : Sentence) : Prop :=
  t.body.Fits limits.maxDice ∧ t.body.depth ≤ limits.maxDepth ∧ t.expr.nodes ≤ limits.maxNodes

end Sentence

end DiceOdds
