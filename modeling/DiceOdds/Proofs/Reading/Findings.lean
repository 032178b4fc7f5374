import DiceOdds.Expr.Climb
import DiceOdds.Proofs.Grammar.Runs

/-!
# What climbing finds

Whatever is found at a position is derived by the grammar and its numbers fit. An operand is a
primary, and an expression of any binding strength is a comparison; the operators an expression is
extended by continue its comparison.

## Main definitions

* `Climb.Derives`: what is found is derived.
* `Climb.Joins`, `Climb.Prolongs`: what operators with their right operands are.

## Main results

* `Climb.derives_atom?`, `Climb.derives_all`: operands and expressions.
* `Climb.exists_sentence_of_whole?`: a text that is found as an expression is a sentence.
-/

namespace DiceOdds

namespace Climb

variable {maxDice : Nat} {c c' : Cursor} {f f' : Furthest}

/-! ### Characters and numbers -/

theorem rest_of_letter? {x : Char} {u : Unit} {hlt : (u, c').2.size < c.size}
    (h : letter? x c f = (f', some ⟨(u, c'), hlt⟩)) : c.rest = x :: c'.rest := by
  rw [letter?] at h
  split at h
  · next c' hc' =>
    cases h
    exact Cursor.rest_of_take? hc'
  · cases h

theorem exists_digits_of_digits? {digits : List Char} {hlt : (digits, c').2.size < c.size}
    (h : digits? c f = (f', some ⟨(digits, c'), hlt⟩)) :
    ∃ n : Digits, n.chars = digits ∧ c.rest = n.chars ++ c'.rest := by
  rw [digits?] at h
  split at h
  · next hdigits =>
    cases h
    exact Cursor.exists_digits hdigits
  · cases h

theorem exists_digits_of_number? {a : Outcome} {hlt : (a, c').2.size < c.size}
    (h : number? c f = (f', some ⟨(a, c'), hlt⟩)) :
    ∃ n : Digits, n.Fits ∧ c.rest = n.chars ++ c'.rest := by
  rw [number?] at h
  split at h
  · cases h
  · next digits c' hlt hdigits =>
    obtain ⟨n, rfl, hrest⟩ := exists_digits_of_digits? hdigits
    split at h
    · next a ha =>
      cases h
      exact ⟨n, Digits.fits_of_ofInt? ha, hrest⟩
    · cases h

/-! ### Operands without parentheses -/

/-- What is found is derived, and its numbers fit. -/
def Derives (maxDice : Nat) (l : Tier) (r : Tried (Found Expr c)) : Prop :=
  ∀ f e c' hlt, r = (f, some ⟨(e, c'), hlt⟩) →
    ∃ d : Derivation l, d.Fits maxDice ∧ c.rest = d.text ++ c'.rest

theorem bounds_of_dice? {n count : Nat} (h : dice? maxDice n = some count) :
    1 ≤ n ∧ n ≤ min maxDice 4294967295 := by
  rw [dice?] at h
  split at h
  · omega
  · cases h

theorem derives_pool? : Derives maxDice .primary (pool? maxDice c f) := by
  intro f' e c' hlt h
  rw [pool?] at h
  split at h
  · cases h
  · next digits c₁ _ hdigits =>
    obtain ⟨m, rfl, hrest⟩ := exists_digits_of_digits? hdigits
    split at h
    · cases h
    · next c₂ _ hletter =>
      have hrest' := rest_of_letter? hletter
      split at h
      · cases h
      · next faces c₃ _ hnumber =>
        obtain ⟨n, hn, hrest''⟩ := exists_digits_of_number? hnumber
        split at h
        · next count hdice =>
          cases h
          rw [m.numeral_chars] at hdice
          refine ⟨.pool m n, ⟨hn, bounds_of_dice? hdice⟩, ?_⟩
          rw [hrest, hrest', hrest'', Derivation.text, List.append_assoc, List.cons_append]
        · cases h

theorem derives_die? : Derives maxDice .primary (die? c f) := by
  intro f' e c' hlt h
  rw [die?] at h
  split at h
  · cases h
  · next c₁ _ hletter =>
    have hrest := rest_of_letter? hletter
    split at h
    · cases h
    · next faces c₂ _ hnumber =>
      cases h
      obtain ⟨n, hn, hrest'⟩ := exists_digits_of_number? hnumber
      exact ⟨.die n, hn, by rw [hrest, hrest', Derivation.text, List.cons_append]⟩

theorem derives_atom? : Derives maxDice .primary (atom? maxDice c f) := by
  intro f' e c' hlt h
  rw [atom?] at h
  split at h
  · next hpool =>
    cases h
    exact derives_pool? _ _ _ _ hpool
  · split at h
    · next a c₁ hlt₁ hnumber =>
      cases h
      obtain ⟨n, hn, hrest⟩ := exists_digits_of_number? hnumber
      exact ⟨.number n, hn, hrest⟩
    · exact derives_die? _ _ _ _ h

/-! ### Expressions -/

/-- An operator between blanks with a right operand. -/
def Joins (maxDice : Nat) (r : Tried (Found Expr c)) : Prop :=
  ∀ f e c' hlt, r = (f, some ⟨(e, c'), hlt⟩) →
    ∃ (before after : Blanks) (op : Operator) (right : Derivation .compare),
      right.Fits maxDice ∧
        c.rest = before.chars ++ op.symbol :: (after.chars ++ (right.text ++ c'.rest))

/-- A comparison in front of a position becomes one in front of a further position. -/
def Prolongs (maxDice : Nat) (c c' : Cursor) : Prop :=
  ∀ d : Derivation .compare, d.Fits maxDice →
    ∃ d' : Derivation .compare, d'.Fits maxDice ∧ d.text ++ c.rest = d'.text ++ c'.rest

/-- What stands between parentheses is an operand. -/
theorem exists_enclosed {c c₁ c₂ c₃ : Cursor} (hopening : c.rest = '(' :: c₁.rest)
    {d : Derivation .compare} (hd : d.Fits maxDice)
    (hrest : c₁.skipBlanks.rest = d.text ++ c₂.rest)
    (hclosing : c₂.skipBlanks.rest = ')' :: c₃.rest) :
    ∃ p : Derivation .primary, p.Fits maxDice ∧ c.rest = p.text ++ c₃.rest := by
  obtain ⟨before, hbefore⟩ := c₁.exists_blanks
  obtain ⟨after, hafter⟩ := c₂.exists_blanks
  refine ⟨.enclosed before d after, hd, ?_⟩
  rw [hopening, hbefore, hrest, hafter, hclosing]
  simp only [Derivation.text, List.append_assoc, List.cons_append, List.nil_append]

/-- An operator with a right operand prolongs what stands in front of it. -/
theorem prolongs_of_operator {c c' : Cursor} {before after : Blanks} {op : Operator}
    {right : Derivation .compare} (hright : right.Fits maxDice)
    (hrest : c.rest = before.chars ++ op.symbol :: (after.chars ++ (right.text ++ c'.rest))) :
    Prolongs maxDice c c' := by
  intro d hd
  obtain ⟨d', hd'⟩ :=
    d.exists_append (Nat.zero_le op.precedence) before after right (Nat.zero_le _)
  refine ⟨d', (hd'.fits maxDice).2 ⟨hd, hright⟩, ?_⟩
  rw [hd'.text, hrest]
  simp only [List.append_assoc, List.cons_append]

theorem Prolongs.trans {c c' c'' : Cursor} (h : Prolongs maxDice c c')
    (h' : Prolongs maxDice c' c'') : Prolongs maxDice c c'' := by
  intro d hd
  obtain ⟨d₁, hd₁, htext₁⟩ := h d hd
  obtain ⟨d₂, hd₂, htext₂⟩ := h' d₁ hd₁
  exact ⟨d₂, hd₂, htext₁.trans htext₂⟩

theorem derives_missed {l : Tier} : Derives maxDice l ((f, none) : Tried (Found Expr c)) := by
  intro f' e c' hlt h
  cases h

theorem joins_missed : Joins maxDice ((f, none) : Tried (Found Expr c)) := by
  intro f' e c' hlt h
  cases h

/-- Operands are primaries, expressions are comparisons, and every step prolongs the comparison so
far. -/
theorem derives_all :
    (∀ c f, Derives maxDice .primary (operand? maxDice c f)) ∧
      (∀ m c f, Derives maxDice .compare (climb? maxDice m c f)) ∧
        (∀ m size r f, Prolongs maxDice r.1.2 (extend maxDice m size r f).2.1.2) ∧
          ∀ m left c ops f, Joins maxDice (step? maxDice m left c ops f) := by
  apply operand?.mutual_induct maxDice
  -- An operand, found without parentheses, not found, or found between parentheses.
  case case1 =>
    intro c f f₁ r hatom
    have hderives : Derives maxDice .primary (atom? maxDice c f) := derives_atom?
    rw [hatom] at hderives
    simpa only [operand?, hatom] using hderives
  case case2 =>
    intro c f f₁ hatom f₂ hopening
    simp only [operand?, hatom, hopening]
    exact derives_missed
  case case3 =>
    intro c f f₁ hatom f₂ u c₁ _ hopening _ f₃ hclimb _
    simp only [operand?, hatom, hopening, hclimb]
    exact derives_missed
  case case4 =>
    intro c f f₁ hatom f₂ u c₁ _ hopening _ f₃ e c₂ _ hclimb f₄ hclosing _
    simp only [operand?, hatom, hopening, hclimb, hclosing]
    exact derives_missed
  case case5 =>
    intro c f f₁ hatom f₂ u c₁ _ hopening _ f₃ e c₂ _ hclimb f₄ u' c₃ _ hclosing ih
    simp only [operand?, hatom, hopening, hclimb, hclosing]
    rintro _ _ _ _ ⟨⟩
    obtain ⟨d, hd, hrest⟩ := ih _ _ _ _ hclimb
    exact exists_enclosed (rest_of_letter? hopening) hd hrest (rest_of_letter? hclosing)
  -- An expression is an operand with further operators.
  case case6 =>
    intro m c f f₁ hoperand _
    simp only [climb?, hoperand]
    exact derives_missed
  case case7 =>
    intro m c f f₁ r hoperand f₂ r' hextend ihoperand ihextend
    simp only [climb?, hoperand, hextend]
    rintro _ _ _ _ ⟨⟩
    obtain ⟨p, hp, hrest⟩ := ihoperand _ _ _ _ hoperand
    obtain ⟨d, hd⟩ := Derivation.exists_lift (Tier.strength_le_primary .compare) p
    obtain ⟨d', hd', htext⟩ := ihextend d ((hd.fits maxDice).2 hp)
    rw [hextend] at htext
    exact ⟨d', hd', by rw [hrest, ← hd.text, htext]⟩
  case case8 =>
    intro m size r f f₁ hstep _ d hd
    simp only [extend, hstep]
    exact ⟨d, hd, rfl⟩
  case case9 =>
    intro m size r f f₁ r' _ hstep ihstep ihextend
    obtain ⟨before, after, op, right, hright, hrest⟩ := ihstep _ _ _ _ hstep
    rw [extend]
    simp only [hstep]
    exact (prolongs_of_operator hright hrest).trans ihextend
  -- The operators are tried one after the other.
  case case10 =>
    intro m left c f
    rw [step?]
    exact joins_missed
  case case11 =>
    intro m left c f op ops hm ih
    rwa [step?, if_pos hm]
  case case12 =>
    intro m left c f op ops hm f₁ hletter ih
    simpa only [step?, if_neg hm, hletter] using ih
  case case13 =>
    intro m left c f op ops hm f₁ u c₁ _ hletter _ f₂ hclimb _ ih
    simpa only [step?, if_neg hm, hletter, hclimb] using ih
  case case14 =>
    intro m left c f op ops hm f₁ u c₁ _ hletter _ f₂ e c₂ _ hclimb ih
    simp only [step?, if_neg hm, hletter, hclimb]
    rintro _ _ _ _ ⟨⟩
    obtain ⟨right, hright, hrest⟩ := ih _ _ _ _ hclimb
    obtain ⟨before, hbefore⟩ := c.exists_blanks
    obtain ⟨after, hafter⟩ := c₁.exists_blanks
    refine ⟨before, after, op, right, hright, ?_⟩
    rw [hbefore, rest_of_letter? hletter, hafter, hrest]

/-- A text found as an expression is a sentence whose numbers fit. -/
theorem exists_sentence_of_whole? {s : String} {e : Expr} (h : whole? maxDice s = (f, some e)) :
    ∃ u : Sentence, u.text = s.toList ∧ u.body.Fits maxDice := by
  rw [whole?] at h
  split at h
  · cases h
  · next f₁ e₁ c₁ _ hclimb =>
    dsimp only at h
    split at h
    · next hend =>
      obtain ⟨d, hd, hrest⟩ := derives_all.2.1 _ _ _ _ _ _ _ hclimb
      obtain ⟨before, hbefore⟩ := (Cursor.ofString s).exists_blanks
      obtain ⟨after, hafter⟩ := c₁.exists_blanks
      refine ⟨⟨before, d, after⟩, ?_, hd⟩
      rw [hend, List.append_nil] at hafter
      rw [Sentence.text, ← hafter, ← hrest, ← hbefore, Cursor.ofString]
    · cases h

end Climb

end DiceOdds
