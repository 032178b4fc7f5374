import DiceOdds.Proofs.Reading.Faultless

/-!
# Alternating tokens

Operands and operators that alternate fold to an expression whatever the priorities of the operators
are, not only those that nested parentheses give rise to. A token list of this form has exactly one
grouping that respects the priorities, and the expression of that grouping is what it folds to.

That there is one follows the tokens from left to right. A further operator takes as its left
operand as much of the end of a grouping as has at least its priority, and the next operand is its
right one. That there is only one comes from the root: among the operators of least priority it is
the last.

## Main definitions

* `Token.Alternating`: operands and operators in turn, with an operand first and last.
* `Grouping.extend`: a grouping with a further operator and operand behind it.

## Main results

* `Grouping.exists_tokens_eq`: alternating tokens are those of a grouping that respects the
  priorities.
* `Grouping.Respects.eq_of_tokens_eq`: at most one grouping of given tokens respects the priorities.
* `Token.fold_alternating`: alternating tokens fold to the expression of their only grouping.
-/

namespace DiceOdds

/-- Operands and operators in turn, with an operand first and last. -/
inductive Token.Alternating : List Token → Prop where
  | last (e : Expr) : Alternating [.operand e]
  | more (e : Expr) (op : Operator) (priority : Nat) {tokens : List Token}
      (h : Alternating tokens) : Alternating (.operand e :: .operator op priority :: tokens)

namespace Grouping

/-! ### A grouping of alternating tokens -/

/-- A grouping with a further operator and operand behind it. The operator goes down on the right
past the operators of lower priorities, and takes what it finds there as its left operand. -/
def extend (op : Operator) (priority : Nat) (e : Expr) : Grouping → Grouping
  | operand first => operator (operand first) op priority (operand e)
  | operator left op' waiting right =>
    if waiting < priority then operator left op' waiting (right.extend op priority e)
    else operator (operator left op' waiting right) op priority (operand e)

theorem tokens_extend (op : Operator) (priority : Nat) (e : Expr) (g : Grouping) :
    (g.extend op priority e).tokens = g.tokens ++ [.operator op priority, .operand e] := by
  induction g with
  | operand first => rfl
  | operator left op' waiting right _ ihr =>
    rw [extend]
    split
    · rw [tokens, ihr, tokens, List.append_assoc, List.cons_append]
    · rfl

theorem AtLeast.extend {bound priority : Nat} (hle : bound ≤ priority) {g : Grouping}
    (h : g.AtLeast bound) (op : Operator) (e : Expr) :
    (g.extend op priority e).AtLeast bound := by
  induction g with
  | operand first => exact ⟨hle, trivial, trivial⟩
  | operator left op' waiting right _ ihr =>
    rw [Grouping.extend]
    split
    · exact ⟨h.1, h.2.1, ihr h.2.2⟩
    · exact ⟨hle, h, trivial⟩

/-- No operator has a lower priority than the root. -/
theorem Respects.atLeast_root {left right : Grouping} {op : Operator} {priority : Nat}
    (h : (operator left op priority right).Respects) :
    (operator left op priority right).AtLeast priority :=
  ⟨Nat.le_refl _, h.1, h.2.1.mono (Nat.le_succ _)⟩

theorem Respects.extend {g : Grouping} (h : g.Respects) (op : Operator) (priority : Nat)
    (e : Expr) : (g.extend op priority e).Respects := by
  induction g with
  | operand first => exact ⟨trivial, trivial, trivial, trivial⟩
  | operator left op' waiting right _ ihr =>
    rw [Grouping.extend]
    split
    · next hlt =>
      obtain ⟨hleft, hright, hlr, hrr⟩ := h
      exact ⟨hleft, hright.extend hlt op e, hlr, ihr hrr⟩
    · next hlt => exact ⟨h.atLeast_root.mono (Nat.not_lt.1 hlt), trivial, h, trivial⟩

/-- Behind a grouping that respects the priorities all alternating tokens can be grouped as well. -/
theorem Respects.exists_append {g : Grouping} (hg : g.Respects) (op : Operator) (priority : Nat)
    {tokens : List Token} (h : Token.Alternating tokens) :
    ∃ g' : Grouping, g'.tokens = g.tokens ++ .operator op priority :: tokens ∧ g'.Respects := by
  induction h generalizing g op priority with
  | last e => exact ⟨g.extend op priority e, g.tokens_extend op priority e, hg.extend op priority e⟩
  | more e op' priority' _ ih =>
    obtain ⟨g', htokens, hg'⟩ := ih (hg.extend op priority e) op' priority'
    refine ⟨g', ?_, hg'⟩
    rw [htokens, tokens_extend, List.append_assoc]
    rfl

/-- Alternating tokens are those of a grouping that respects the priorities. -/
theorem exists_tokens_eq {tokens : List Token} (h : Token.Alternating tokens) :
    ∃ g : Grouping, g.tokens = tokens ∧ g.Respects := by
  cases h with
  | last e => exact ⟨operand e, rfl, trivial⟩
  | more e op priority h => exact Respects.exists_append (g := operand e) trivial op priority h

/-! ### The only grouping -/

theorem AtLeast.le_of_mem {bound priority : Nat} {op : Operator} {g : Grouping}
    (h : g.AtLeast bound) (hmem : Token.operator op priority ∈ g.tokens) : bound ≤ priority := by
  induction g with
  | operand e => exact absurd (List.mem_singleton.1 hmem) nofun
  | operator left op' priority' right ihl ihr =>
    rcases List.mem_append.1 hmem with hmem | hmem
    · exact ihl h.2.1 hmem
    · rcases List.mem_cons.1 hmem with heq | hmem
      · cases heq
        exact h.1
      · exact ihr h.2.2 hmem

theorem root_mem_tokens (left : Grouping) (op : Operator) (priority : Nat) (right : Grouping) :
    Token.operator op priority ∈ (operator left op priority right).tokens :=
  List.mem_append_right _ List.mem_cons_self

/-- Two operators of one list, where those behind the first one have higher priorities and those in
front of the second one have no lower ones: the second one does not stand behind the first one. -/
theorem length_left_le {left right left' right' : Grouping} {op op' : Operator}
    {priority priority' : Nat} (hright : right.AtLeast (priority + 1))
    (hleft' : left'.AtLeast priority')
    (h : left.tokens ++ .operator op priority :: right.tokens =
      left'.tokens ++ .operator op' priority' :: right'.tokens) :
    left'.tokens.length ≤ left.tokens.length := by
  rcases List.append_eq_append_iff.1 h with ⟨between, hleft, hbehind⟩ | ⟨between, hleft, -⟩
  · cases between with
    | nil => rw [hleft, List.append_nil]
    | cons token between =>
      obtain ⟨rfl, hrest⟩ := List.cons.inj hbehind
      have hmem : Token.operator op priority ∈ left'.tokens :=
        hleft ▸ List.mem_append_right _ List.mem_cons_self
      have hmem' : Token.operator op' priority' ∈ right.tokens :=
        hrest ▸ List.mem_append_right _ List.mem_cons_self
      have hlt : priority < priority' := hright.le_of_mem hmem'
      exact absurd (hleft'.le_of_mem hmem) (Nat.not_le.2 hlt)
  · rw [hleft, List.length_append]
    exact Nat.le_add_right _ _

/-- **At most one grouping respects the priorities.** The roots of two such groupings of the same
tokens stand at the same place, as each is the last operator of least priority. -/
theorem Respects.eq_of_tokens_eq {g g' : Grouping} (hg : g.Respects) (hg' : g'.Respects)
    (h : g.tokens = g'.tokens) : g = g' := by
  induction g generalizing g' with
  | operand e =>
    cases g' with
    | operand e' =>
      cases h
      rfl
    | operator left' op' priority' right' =>
      have hmem : Token.operator op' priority' ∈ (operand e).tokens :=
        h ▸ root_mem_tokens left' op' priority' right'
      exact absurd (List.mem_singleton.1 hmem) nofun
  | operator left op priority right ihl ihr =>
    cases g' with
    | operand e' =>
      have hmem : Token.operator op priority ∈ (operand e').tokens :=
        h ▸ root_mem_tokens left op priority right
      exact absurd (List.mem_singleton.1 hmem) nofun
    | operator left' op' priority' right' =>
      obtain ⟨hleft, hright, hlr, hrr⟩ := hg
      obtain ⟨hleft', hright', hlr', hrr'⟩ := hg'
      have hlength : left.tokens.length = left'.tokens.length :=
        Nat.le_antisymm (length_left_le hright' hleft h.symm) (length_left_le hright hleft' h)
      obtain ⟨htokens, hbehind⟩ := List.append_inj h hlength
      obtain ⟨hroot, htokens'⟩ := List.cons.inj hbehind
      cases hroot
      rw [ihl hlr hlr' htokens, ihr hrr hrr' htokens']

end Grouping

namespace Token

/-! ### Folding -/

/-- **Folding groups by priorities.** Exactly one grouping of alternating tokens respects the
priorities, whatever they are, and the tokens fold to its expression. Every operator finds its two
operands on the way, and a single one is left at the end. -/
theorem fold_alternating {tokens : List Token} (h : Alternating tokens) :
    ∃ g : Grouping, (g.tokens = tokens ∧ g.Respects) ∧
      (∀ g' : Grouping, g'.tokens = tokens → g'.Respects → g' = g) ∧
      fold tokens = .ok g.expr ∧ Checked.fold tokens = .ok g.expr := by
  obtain ⟨g, rfl, hg⟩ := Grouping.exists_tokens_eq h
  have hfold : fold g.tokens = .ok g.expr := Grouping.fold_tokens hg
  refine ⟨g, ⟨rfl, hg⟩, fun g' htokens hg' => hg'.eq_of_tokens_eq hg htokens, hfold, ?_⟩
  obtain ⟨e, hplain, hchecked⟩ := Checked.exists_fold g
  obtain rfl : g.expr = e := Except.ok.inj (hfold.symm.trans hplain)
  exact hchecked

/-- Priorities that rise and fall, two equal ones among them, and a pool as an operand. -/
theorem fold_alternating_pool :
    Alternating [.operand (.pool 2 6), .operator .sub 7, .operand (.constant 1), .operator .mul 2,
        .operand (.die 4), .operator .sub 2, .operand (.constant 3), .operator .greater 9,
        .operand (.die 8)] ∧
      fold [.operand (.pool 2 6), .operator .sub 7, .operand (.constant 1), .operator .mul 2,
        .operand (.die 4), .operator .sub 2, .operand (.constant 3), .operator .greater 9,
        .operand (.die 8)] =
      .ok (.binary .sub (.binary .mul (.binary .sub (.pool 2 6) (.constant 1)) (.die 4))
        (.binary .greater (.constant 3) (.die 8))) := by
  have h := Alternating.more (.pool 2 6) .sub 7 <| .more (.constant 1) .mul 2 <|
    .more (.die 4) .sub 2 <| .more (.constant 3) .greater 9 <| .last (.die 8)
  obtain ⟨g, -, hunique, hfold, -⟩ := fold_alternating h
  refine ⟨h, ?_⟩
  rw [hfold, ← hunique
    (.operator
      (.operator (.operator (.operand (.pool 2 6)) .sub 7 (.operand (.constant 1))) .mul 2
        (.operand (.die 4)))
      .sub 2 (.operator (.operand (.constant 3)) .greater 9 (.operand (.die 8))))
    rfl (by simp [Grouping.Respects, Grouping.AtLeast])]
  rfl

end Token

end DiceOdds
