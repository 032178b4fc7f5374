import DiceOdds.Proofs.Reading.Priority
import DiceOdds.Proofs.Token.Rounds

/-!
# Reading by priorities has no fault

Tokens that have been read are those of a grouping. Behind a grouping one more operand waits than in
front of it, so there are as many operands as operators where an operand comes next and one more
where none does. Every operator that is carried out then finds its two operands, and at the end a
single one is left.

## Main results

* `Checked.exists_carryOutWhile`: carrying out operators that have their operands.
* `Checked.exists_foldOn`, `Checked.exists_fold`: folding the tokens of a grouping.
* `Checked.parse_eq_lift`: reading with the checks is reading without them.
-/

namespace DiceOdds

namespace Checked

/-! ### The fold -/

/-- Where one operand more than operators waits, all operators down to a priority can be carried
out, and then the topmost one that still waits has a lower priority. -/
theorem exists_carryOutWhile (bound : Nat) {operands : List Expr}
    {operators : List (Operator × Nat)} (h : operands.length = operators.length + 1) :
    ∃ operands' operators', operands'.length = operators'.length + 1 ∧
      (∀ x ∈ operators'.head?, x.2 < bound) ∧
      Fold.carryOutWhile bound operands operators = .ok (operands', operators') ∧
      carryOutWhile bound operands operators = .ok (operands', operators') := by
  induction operators generalizing operands with
  | nil => exact ⟨operands, [], h, nofun, rfl, rfl⟩
  | cons top operators ih =>
    obtain ⟨op, waiting⟩ := top
    by_cases hlt : waiting < bound
    · refine ⟨operands, (op, waiting) :: operators, h, ?_, if_pos hlt, if_pos hlt⟩
      rintro x ⟨rfl⟩
      exact hlt
    · obtain ⟨right, left, operands, rfl⟩ : ∃ right left operands',
          operands = right :: left :: operands' := by
        match operands, h with
        | right :: left :: operands, _ => exact ⟨right, left, operands, rfl⟩
      have hlength : (Expr.binary op left right :: operands).length = operators.length + 1 := by
        simpa using h
      obtain ⟨operands', operators', hlength', htop, hplain, hchecked⟩ := ih hlength
      refine ⟨operands', operators', hlength', htop, ?_, ?_⟩
      · rw [Fold.carryOutWhile, if_neg hlt]
        exact hplain
      · rw [carryOutWhile, if_neg hlt]
        exact hchecked

/-- Behind the tokens of a grouping one more operand waits than in front of them. -/
theorem exists_foldOn (g : Grouping) (operands : List Expr) (operators : List (Operator × Nat))
    (h : operands.length = operators.length) (rest : List Token) :
    ∃ operands' operators', operands'.length = operators'.length + 1 ∧
      Fold.loop (g.tokens ++ rest) operands operators = Fold.loop rest operands' operators' ∧
      foldOn (g.tokens ++ rest) operands operators = foldOn rest operands' operators' := by
  induction g generalizing operands operators rest with
  | operand e => exact ⟨e :: operands, operators, congrArg (· + 1) h, rfl, rfl⟩
  | operator left op priority right ihl ihr =>
    obtain ⟨operands₁, operators₁, h₁, hplain₁, hchecked₁⟩ :=
      ihl operands operators h (.operator op priority :: (right.tokens ++ rest))
    obtain ⟨operands₂, operators₂, h₂, -, hplain₂, hchecked₂⟩ := exists_carryOutWhile priority h₁
    obtain ⟨operands₃, operators₃, h₃, hplain₃, hchecked₃⟩ :=
      ihr operands₂ ((op, priority) :: operators₂) h₂ rest
    refine ⟨operands₃, operators₃, h₃, ?_, ?_⟩
    · rw [Grouping.tokens, List.append_assoc, List.cons_append, hplain₁, Fold.loop, hplain₂]
      exact hplain₃
    · rw [Grouping.tokens, List.append_assoc, List.cons_append, hchecked₁, foldOn, hchecked₂]
      exact hchecked₃

/-- The tokens of a grouping fold to a single operand. -/
theorem exists_fold (g : Grouping) :
    ∃ e, Token.fold g.tokens = .ok e ∧ fold g.tokens = .ok e := by
  obtain ⟨operands, operators, h, hplain, hchecked⟩ :=
    exists_foldOn g [] [] rfl []
  obtain ⟨operands', operators', h', htop, hplain', hchecked'⟩ := exists_carryOutWhile 0 h
  obtain rfl : operators' = [] := by
    cases operators' with
    | nil => rfl
    | cons top operators' => exact absurd (htop top rfl) (Nat.not_lt_zero _)
  obtain ⟨e, rfl⟩ := List.length_eq_one_iff.1 h'
  rw [List.append_nil] at hplain hchecked
  refine ⟨e, ?_, ?_⟩
  · rw [Token.fold, hplain, Fold.loop, hplain']
  · rw [fold, hchecked, foldOn, hchecked']
    rfl

/-! ### Both -/

/-- Tokens that have been read fold to a single operand. -/
theorem exists_fold_of_scan {limits : Limits} {s : String} {tokens : List Token}
    (h : Token.scan limits s = .ok tokens) :
    ∃ e, Token.fold tokens = .ok e ∧ fold tokens = .ok e := by
  obtain ⟨u, hu⟩ := Priority.exists_sentence_of_scan h
  have hscan := Scan.leads_readOn_sentence limits u
  rw [hu] at hscan
  obtain ⟨-, rfl⟩ := hscan.of_eq_ok h
  exact exists_fold (u.body.grouping 0)

/-- **Reading by priorities has no fault.** In a text of less than `2 ^ 32` bytes, whatever its
characters are, all slices lie between characters of the text, all counts fit in 64 bits, every
round uses up a character, and tokens that have been read are folded with two operands for every
operator and a single one at the end. -/
theorem parse_eq_lift (limits : Limits) (s : String) (hsize : s.utf8ByteSize < 4294967296) :
    scan limits s = lift (Token.scan limits s) ∧
      (∀ tokens, Token.scan limits s = .ok tokens →
        ∃ e, Token.fold tokens = .ok e ∧ fold tokens = .ok e) ∧
      parse limits s = lift (Priority.parse limits s) := by
  refine ⟨scan_eq hsize, fun tokens => exists_fold_of_scan, ?_⟩
  rw [parse, Priority.parse, scan_eq hsize]
  cases htokens : Token.scan limits s with
  | error error => rfl
  | ok tokens =>
    obtain ⟨e, hplain, hchecked⟩ := exists_fold_of_scan htokens
    exact hchecked.trans (congrArg lift hplain.symm)

/-- A pool and a product inside parentheses, and a text with an accented letter behind the last
digit of its last number. -/
theorem parse_eq_lift_enclosed :
    parse {} "12 - (2d6*3)" = .ok (.binary .sub (.constant 12)
        (.binary .mul (.pool 2 6) (.constant 3))) ∧
      parse {} "(7d20 + 13é" = .error (.inr (.unexpected 'é' 10)) := by
  have hread := parse_eq_lift {} "12 - (2d6*3)" (by decide)
  have hrefuse := parse_eq_lift {} "(7d20 + 13é" (by decide)
  refine ⟨hread.2.2.trans ?_, hrefuse.2.2.trans ?_⟩
  · decide +kernel
  · decide +kernel

end Checked

end DiceOdds
