import DiceOdds.Expr.Reader
import DiceOdds.Proofs.Reading.Climbing
import DiceOdds.Proofs.Reading.Findings

/-!
# The language read by descent

Before it climbs, descent refuses texts whose parentheses nest too deeply and texts with too many
operators. On a sentence of the grammar the first check finds the depth of the derivation, and the
second one finds no more than the size of the expression, so neither refuses a sentence within the
limits.

## Main results

* `Descent.nesting_text`, `Descent.operators_text`: what the checks find in a derived text.
* `Descent.nesting_sentence`: what the first one finds in a sentence.
* `Descent.parse_of_within`, `Descent.exists_within_of_parse`: completeness and soundness.
-/

namespace DiceOdds

namespace Descent

/-! ### Nesting -/

/-- Whether a character is no parenthesis. -/
def Plain (c : Char) : Prop := c ≠ '(' ∧ c ≠ ')'

theorem plain_of_isBlank {c : Char} (h : isBlank c = true) : Plain c := by
  refine ⟨?_, ?_⟩ <;> rintro rfl <;> cases h

theorem plain_of_isDigit {c : Char} (h : c.isDigit = true) : Plain c := by
  refine ⟨?_, ?_⟩ <;> rintro rfl <;> cases h

theorem plain_symbol (op : Operator) : Plain op.symbol := by
  cases op <;> exact ⟨by decide, by decide⟩

theorem plain_letter : Plain 'd' := ⟨by decide, by decide⟩

section

variable {depth deepest : Nat} (h : depth ≤ deepest)

include h

theorem nesting_cons {c : Char} (hc : Plain c) (rest : List Char) :
    nesting depth deepest (c :: rest) = nesting depth deepest rest := by
  have hdepth : depthBehind depth c = depth := by
    rw [depthBehind, if_neg hc.1, if_neg hc.2]
  rw [nesting, hdepth, Nat.max_eq_left h]

theorem nesting_append {cs : List Char} (hcs : ∀ c ∈ cs, Plain c) (rest : List Char) :
    nesting depth deepest (cs ++ rest) = nesting depth deepest rest := by
  induction cs with
  | nil => rfl
  | cons c cs ih =>
    rw [List.cons_append, nesting_cons h (hcs c List.mem_cons_self)]
    exact ih fun x hx => hcs x (List.mem_cons_of_mem _ hx)

theorem nesting_blanks (b : Blanks) (rest : List Char) :
    nesting depth deepest (b.chars ++ rest) = nesting depth deepest rest :=
  nesting_append h (fun c hc => plain_of_isBlank (b.all_blank c hc)) rest

theorem nesting_digits (n : Digits) (rest : List Char) :
    nesting depth deepest (n.chars ++ rest) = nesting depth deepest rest :=
  nesting_append h (fun c hc => plain_of_isDigit (n.all_digit c hc)) rest

end

/-- Behind a derived text the depth is as before. -/
theorem nesting_text {l : Tier} (d : Derivation l) {depth deepest : Nat} (h : depth ≤ deepest)
    (rest : List Char) :
    nesting depth deepest (d.text ++ rest) =
      nesting depth (max deepest (depth + d.depth)) rest := by
  induction d generalizing depth deepest rest with
  | number n =>
    rw [Derivation.text, nesting_digits h, Derivation.depth, Nat.add_zero, Nat.max_eq_left h]
  | die faces =>
    rw [Derivation.text, List.cons_append, nesting_cons h plain_letter, nesting_digits h,
      Derivation.depth, Nat.add_zero, Nat.max_eq_left h]
  | pool count faces =>
    rw [Derivation.text, List.append_assoc, nesting_digits h, List.cons_append,
      nesting_cons h plain_letter, nesting_digits h, Derivation.depth, Nat.add_zero,
      Nat.max_eq_left h]
  | enclosed before inner after ih =>
    have hopening : depthBehind depth '(' = depth + 1 := rfl
    have hclosing : depthBehind (depth + 1) ')' = depth := rfl
    have hdeepest : depth + 1 ≤ max deepest (depth + 1) := Nat.le_max_right _ _
    simp only [Derivation.text, List.cons_append, List.append_assoc, List.nil_append]
    rw [nesting, hopening, nesting_blanks hdeepest, ih hdeepest, nesting_blanks (by omega), nesting,
      hclosing, Derivation.depth]
    congr 1
    omega
  | single _ part ih => exact ih h rest
  | repeated left before op _ after right ihl ihr =>
    have hleft : depth ≤ max deepest (depth + left.depth) := by omega
    simp only [Derivation.text, List.append_assoc, List.cons_append]
    rw [ihl h, nesting_blanks hleft, nesting_cons hleft (plain_symbol op), nesting_blanks hleft,
      ihr hleft, Derivation.depth]
    congr 1
    omega

theorem nesting_sentence (u : Sentence) : nesting 0 0 u.text = u.body.depth := by
  rw [Sentence.text, nesting_blanks (Nat.le_refl 0), nesting_text u.body (Nat.le_refl 0),
    ← List.append_nil u.after.chars, nesting_blanks (Nat.zero_le _), nesting]
  omega

/-! ### Operators -/

theorem operators_append (cs cs' : List Char) :
    operators (cs ++ cs') = operators cs + operators cs' :=
  List.countP_append

theorem operators_symbol (op : Operator) (cs : List Char) :
    operators (op.symbol :: cs) = operators cs + 1 :=
  List.countP_cons_of_pos (by rw [op.ofSymbol?_symbol, Option.isSome_some])

theorem operators_cons {c : Char} (hc : Operator.ofSymbol? c = none) (cs : List Char) :
    operators (c :: cs) = operators cs :=
  List.countP_cons_of_neg (by rw [hc, Option.isSome_none]; exact Bool.false_ne_true)

theorem operators_eq_zero {p : Char → Bool} (hp : ∀ op : Operator, p op.symbol = false)
    {cs : List Char} (hcs : ∀ c ∈ cs, p c = true) : operators cs = 0 := by
  refine List.countP_eq_zero.2 fun c hc hsome => ?_
  obtain ⟨op, hop⟩ := Option.isSome_iff_exists.1 hsome
  have hpc := hcs c hc
  rw [Operator.ofSymbol?_eq_some_iff.1 hop, hp op] at hpc
  cases hpc

theorem operators_blanks (b : Blanks) : operators b.chars = 0 :=
  operators_eq_zero Operator.isBlank_symbol b.all_blank

theorem operators_digits (n : Digits) : operators n.chars = 0 :=
  operators_eq_zero (fun op => by cases op <;> rfl) n.all_digit

/-- Each operator of a text brings a node and an operand of its own. -/
theorem operators_text {maxDice : Nat} {l : Tier} (d : Derivation l) (h : d.Fits maxDice) :
    2 * operators d.text + 1 ≤ d.nodes := by
  induction d with
  | number n =>
    have hdigits := operators_digits n
    show 2 * operators n.chars + 1 ≤ 1
    omega
  | die faces =>
    have hletter := operators_cons (c := 'd') rfl faces.chars
    have hdigits := operators_digits faces
    show 2 * operators ('d' :: faces.chars) + 1 ≤ 1
    omega
  | pool count faces =>
    have hcount := h.2.1
    rw [Derivation.text, operators_append, operators_digits, operators_cons rfl, operators_digits,
      Derivation.nodes]
    omega
  | enclosed before inner after ih =>
    have hinner := ih h
    have hclosing : operators [')'] = 0 := rfl
    simp only [Derivation.text, Derivation.nodes, operators_cons (c := '(') rfl, operators_append,
      operators_blanks, hclosing]
    omega
  | single _ part ih => exact ih h
  | repeated left before op _ after right ihl ihr =>
    have hleft := ihl h.1
    have hright := ihr h.2
    simp only [Derivation.text, Derivation.nodes, operators_append, operators_symbol,
      operators_blanks]
    omega

theorem operators_sentence {maxDice : Nat} {u : Sentence} (h : u.body.Fits maxDice) :
    2 * operators u.text + 1 ≤ u.expr.nodes := by
  have hbody := operators_text u.body h
  rw [← Derivation.nodes_expr h] at hbody
  simp only [Sentence.text, operators_append, operators_blanks, Sentence.expr]
  omega

/-! ### Reading -/

theorem all_isBlank_sentence (u : Sentence) : u.text.all isBlank = false := by
  obtain ⟨c, cs, hcs, hc⟩ := u.body.exists_text_eq_cons
  rw [Sentence.text, hcs, List.all_append, List.cons_append, List.all_cons,
    isBlank_of_startsOperand hc, Bool.false_and, Bool.and_false]

variable {limits : Limits} {s : String} {u : Sentence} {e : Expr}

/-- A sentence within the limits is read as its expression. -/
theorem parse_of_within (hu : u.text = s.toList) (h : u.Within limits) :
    parse limits s = .ok u.expr := by
  obtain ⟨hfits, hdepth, hnodes⟩ := h
  have hblank : ¬ u.text.all isBlank = true := by simp [all_isBlank_sentence]
  have hnesting : ¬ limits.maxDepth < nesting 0 0 u.text := by
    rw [nesting_sentence]
    exact Nat.not_lt.2 hdepth
  have hoperators := operators_sentence hfits
  obtain ⟨f, hwhole⟩ := Climb.exists_whole?_eq_some hu hfits
  rw [hu] at hblank hnesting hoperators
  simp only [parse, hwhole]
  rw [if_neg hblank, if_neg hnesting, if_neg (by omega), if_neg (by omega)]

/-- Only sentences within the limits are read. -/
theorem exists_within_of_parse (h : parse limits s = .ok e) :
    ∃ u : Sentence, u.text = s.toList ∧ u.expr = e ∧ u.Within limits := by
  rw [parse] at h
  split at h
  · cases h
  · split at h
    · cases h
    · next hnesting =>
      split at h
      · cases h
      · split at h
        · cases h
        · next f e' hwhole =>
          split at h
          · cases h
          · next hnodes =>
            cases h
            obtain ⟨u, hu, hfits⟩ := Climb.exists_sentence_of_whole? hwhole
            obtain ⟨f', hwhole'⟩ := Climb.exists_whole?_eq_some hu hfits
            have hexpr : u.expr = e := by
              rw [hwhole] at hwhole'
              cases hwhole'
              rfl
            rw [← hu, nesting_sentence] at hnesting
            exact ⟨u, hu, hexpr, hfits, by omega, by rw [hexpr]; omega⟩

end Descent

end DiceOdds
