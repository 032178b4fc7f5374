import DiceOdds.Token.Fold

/-!
# Groupings of tokens

A grouping puts operands and operator tokens into a tree whose inorder reading is the list of
tokens. It respects the priorities when every operator in the left operand of an operator has at
least its priority and every operator in the right operand has a higher one. Folding the tokens of
such a grouping carries out its operators exactly as they are grouped.

While a grouping is read, its rightmost operators still wait on the stacks. What can be said of the
stacks is therefore not what they are, but that carrying out everything down to a priority that the
grouping does not fall below leaves the expression of the grouping as a single operand.

## Main definitions

* `Grouping`: trees of operands and operator tokens.
* `Grouping.tokens`, `Grouping.expr`: the tokens in order, and the expression.
* `Grouping.AtLeast`, `Grouping.Respects`: bounds on the priorities.

## Main results

* `Grouping.loop_tokens`: folding on past the tokens of a grouping.
* `Grouping.fold_tokens`: folding the tokens of a grouping gives its expression.
-/

namespace DiceOdds

/-- Operands and operator tokens in a tree. -/
inductive Grouping where
  | operand (e : Expr)
  | operator (left : Grouping) (op : Operator) (priority : Nat) (right : Grouping)

namespace Grouping

/-- The tokens in order. -/
def tokens : Grouping → List Token
  | operand e => [.operand e]
  | operator left op priority right => left.tokens ++ .operator op priority :: right.tokens

/-- The expression as it is grouped. -/
def expr : Grouping → Expr
  | operand e => e
  | operator left op _ right => .binary op left.expr right.expr

/-- All operators have at least the given priority. -/
def AtLeast (bound : Nat) : Grouping → Prop
  | operand _ => True
  | operator left _ priority right => bound ≤ priority ∧ left.AtLeast bound ∧ right.AtLeast bound

/-- Operators in a left operand have at least the priority of their operator, those in a right
operand have a higher one. -/
def Respects : Grouping → Prop
  | operand _ => True
  | operator left _ priority right =>
    left.AtLeast priority ∧ right.AtLeast (priority + 1) ∧ left.Respects ∧ right.Respects

theorem AtLeast.mono {bound bound' : Nat} (hle : bound ≤ bound') {g : Grouping}
    (h : g.AtLeast bound') : g.AtLeast bound := by
  induction g with
  | operand e => trivial
  | operator left op priority right ihl ihr =>
    exact ⟨Nat.le_trans hle h.1, ihl h.2.1, ihr h.2.2⟩

theorem atLeast_zero (g : Grouping) : g.AtLeast 0 := by
  induction g with
  | operand e => trivial
  | operator left op priority right ihl ihr => exact ⟨Nat.zero_le _, ihl, ihr⟩

/-! ### Folding -/

/-- Nothing is carried out when the topmost waiting operator has a lower priority. -/
theorem carryOutWhile_of_lt {bound : Nat} {operands : List Expr}
    {operators : List (Operator × Nat)} (h : ∀ x ∈ operators.head?, x.2 < bound) :
    Fold.carryOutWhile bound operands operators = .ok (operands, operators) := by
  match operators with
  | [] => rfl
  | (op, waiting) :: operators =>
    have hlt : waiting < bound := h _ rfl
    simp only [Fold.carryOutWhile, hlt, if_true]

/-- A waiting operator of at least the given priority is carried out. -/
theorem carryOutWhile_of_le {bound waiting : Nat} (h : bound ≤ waiting) (op : Operator)
    (left right : Expr) (operands : List Expr) (operators : List (Operator × Nat)) :
    Fold.carryOutWhile bound (right :: left :: operands) ((op, waiting) :: operators) =
      Fold.carryOutWhile bound (.binary op left right :: operands) operators := by
  have hlt : ¬ waiting < bound := Nat.not_lt.2 h
  simp only [Fold.carryOutWhile, hlt, if_false, Fold.carryOut]

/-- **Folding on past a grouping.** The stacks behind the tokens of a grouping are as good as the
stacks in front of them with the expression of the grouping as a further operand, as soon as
everything is carried out down to a priority that the grouping does not fall below. -/
theorem loop_tokens {g : Grouping} (hg : g.Respects) (operands : List Expr)
    (operators : List (Operator × Nat)) (htop : ∀ x ∈ operators.head?, g.AtLeast (x.2 + 1)) :
    ∃ operands' operators',
      (∀ rest, Fold.loop (g.tokens ++ rest) operands operators =
        Fold.loop rest operands' operators') ∧
      ∀ bound, g.AtLeast bound → Fold.carryOutWhile bound operands' operators' =
        Fold.carryOutWhile bound (g.expr :: operands) operators := by
  induction g generalizing operands operators with
  | operand e => exact ⟨e :: operands, operators, fun _ => rfl, fun _ _ => rfl⟩
  | operator left op priority right ihl ihr =>
    obtain ⟨hleft, hright, hlr, hrr⟩ := hg
    obtain ⟨operands₁, operators₁, hloop₁, hcarry₁⟩ :=
      ihl hlr operands operators fun x hx => (htop x hx).2.1
    -- The operator meets a left operand that is finished, and waits on top.
    have hmeet : Fold.carryOutWhile priority operands₁ operators₁ =
        .ok (left.expr :: operands, operators) := by
      rw [hcarry₁ priority hleft]
      exact carryOutWhile_of_lt fun x hx => (htop x hx).1
    obtain ⟨operands₂, operators₂, hloop₂, hcarry₂⟩ :=
      ihr hrr (left.expr :: operands) ((op, priority) :: operators) fun x hx => by
        cases hx
        exact hright
    refine ⟨operands₂, operators₂, fun rest => ?_, fun bound hbound => ?_⟩
    · rw [tokens, List.append_assoc, hloop₁, List.cons_append, Fold.loop, hmeet]
      exact hloop₂ rest
    · rw [hcarry₂ bound hbound.2.2, carryOutWhile_of_le hbound.1]
      rfl

/-- **Folding undoes reading in order.** The tokens of a grouping that respects the priorities fold
to its expression. -/
theorem fold_tokens {g : Grouping} (hg : g.Respects) : Token.fold g.tokens = .ok g.expr := by
  obtain ⟨operands, operators, hloop, hcarry⟩ := loop_tokens hg [] [] fun x hx => by cases hx
  have hloop := hloop []
  rw [List.append_nil] at hloop
  rw [Token.fold, hloop, Fold.loop, hcarry 0 g.atLeast_zero]
  rfl

end Grouping

end DiceOdds
