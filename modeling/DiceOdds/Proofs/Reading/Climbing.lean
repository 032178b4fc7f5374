import DiceOdds.Expr.Climb
import DiceOdds.Proofs.Grammar.Runs

/-!
# Climbing along a derivation

In front of a derivation whose numbers fit, climbing at a binding strength that is no stronger than
the nonterminal reads the derivation, builds its expression and goes on with the operators behind
it. The induction is on the derivation. Its left side is read by going on from the tighter parts,
and its right side ends where the text behind the whole derivation starts, because the operator
that may follow there binds less strongly than the parts.

## Main definitions

* `Climb.Finds`, `Climb.Misses`: what is found at a position, whatever was tried in vain before.
* `Climb.Follows`: the operator that comes next is weaker than a binding strength.
* `Climb.Continues`: climbing from a position goes on from an expression behind it.

## Main results

* `Climb.finds_step?`, `Climb.misses_step?`: the operator that comes next.
* `Climb.continues_text`, `Climb.finds_text`: climbing along a derivation.
* `Climb.exists_whole?_eq_some`: a sentence is found as its expression.
-/

namespace DiceOdds

namespace Climb

/-- Something is found at a position and leaves a further position, whatever was tried in vain. -/
def Finds {α : Type} {c : Cursor} (r : Furthest → Tried (Found α c)) (x : α) (c' : Cursor) : Prop :=
  ∀ f, ∃ f' h, r f = (f', some ⟨(x, c'), h⟩)

/-- Nothing is found at a position. -/
def Misses {α : Type} {c : Cursor} (r : Furthest → Tried (Found α c)) : Prop :=
  ∀ f, ∃ f', r f = (f', none)

/-! ### Characters and numbers -/

theorem finds_letter? {x : Char} {c c' : Cursor} (h : c.take? x = some c') :
    Finds (letter? x c) () c' := by
  intro f
  refine ⟨f, Cursor.size_lt_of_take? h, ?_⟩
  rw [letter?]
  split
  · next c₁ h₁ =>
    cases h₁.symm.trans h
    rfl
  · next h₁ => cases h₁.symm.trans h

theorem misses_letter? {x : Char} {c : Cursor} (h : c.take? x = none) : Misses (letter? x c) := by
  intro f
  refine ⟨f.note c.offset (.letter x), ?_⟩
  rw [letter?]
  split
  · next c₁ h₁ => cases h₁.symm.trans h
  · rfl

variable (offset : Nat) (n : Digits) {rest : List Char}

theorem finds_digits? (h : Ends Char.isDigit rest) :
    Finds (digits? ⟨offset, n.chars ++ rest⟩) n.chars ⟨offset + n.chars.length, rest⟩ := by
  intro f
  have hdigits := n.digits_append offset h
  have hskip := n.skipDigits_append offset h
  have hne : (Cursor.mk offset (n.chars ++ rest)).digits ≠ [] := by
    rw [hdigits]
    exact n.ne_nil
  have hlt := Cursor.size_skipDigits_lt hne
  rw [hskip] at hlt
  refine ⟨f.note (offset + n.chars.length) .digit, hlt, ?_⟩
  rw [digits?]
  rw [dif_pos hne]
  simp only [hdigits, hskip]

theorem misses_digits? {c : Cursor} (h : Ends Char.isDigit c.rest) : Misses (digits? c) := by
  intro f
  refine ⟨f.note c.skipDigits.offset .digit, ?_⟩
  rw [digits?]
  rw [dif_neg (not_not_intro (Cursor.digits_eq_nil h))]

theorem finds_number? (hn : n.Fits) (h : Ends Char.isDigit rest) :
    Finds (number? ⟨offset, n.chars ++ rest⟩) n.outcome ⟨offset + n.chars.length, rest⟩ := by
  intro f
  obtain ⟨f', hlt, hdigits⟩ := finds_digits? offset n h f
  refine ⟨f', hlt, ?_⟩
  simp only [number?, hdigits, n.ofInt?_numeral hn]

theorem misses_number? {c : Cursor} (h : Ends Char.isDigit c.rest) : Misses (number? c) := by
  intro f
  obtain ⟨f', hdigits⟩ := misses_digits? h f
  exact ⟨f', by simp only [number?, hdigits]⟩

/-! ### Operands without parentheses -/

variable (maxDice : Nat)

theorem finds_pool? (m : Digits) (hn : n.Fits)
    (hm : 1 ≤ m.value ∧ m.value ≤ min maxDice 4294967295) (h : Ends Char.isDigit rest) :
    Finds (pool? maxDice ⟨offset, m.chars ++ 'd' :: (n.chars ++ rest)⟩)
      (.pool m.value n.outcome) ⟨offset + m.chars.length + 1 + n.chars.length, rest⟩ := by
  intro f
  obtain ⟨f₁, hlt₁, hdigits⟩ :=
    finds_digits? offset m (Ends.cons rfl (n.chars ++ rest) : Ends Char.isDigit ('d' :: _)) f
  obtain ⟨f₂, hlt₂, hletter⟩ := finds_letter? (Cursor.take?_cons _ _ _) f₁
  obtain ⟨f₃, hlt₃, hnumber⟩ := finds_number? (offset + m.chars.length + 1) n hn h f₂
  have hdice : dice? maxDice (numeral m.chars) = some m.value := by
    rw [m.numeral_chars]
    exact if_pos (by omega)
  refine ⟨f₃, Nat.lt_trans hlt₃ (Nat.lt_trans hlt₂ hlt₁), ?_⟩
  have hsize : ('d').utf8Size = 1 := rfl
  simp only [pool?, hdigits, hletter, hsize, hnumber, hdice]

/-- No pool starts with a number that no letter follows. -/
theorem misses_pool? (h : Stops rest) : Misses (pool? maxDice ⟨offset, n.chars ++ rest⟩) := by
  intro f
  obtain ⟨f₁, hlt, hdigits⟩ := finds_digits? offset n h.isDigit f
  have hnone : (Cursor.mk (offset + n.chars.length) rest).take? 'd' = none :=
    Cursor.take?_eq_none fun y hy hyd => by
      have := h y hy
      rw [hyd] at this
      cases this
  obtain ⟨f₂, hletter⟩ := misses_letter? hnone f₁
  exact ⟨f₂, by simp only [pool?, hdigits, hletter]⟩

theorem misses_pool?_of_ends {c : Cursor} (h : Ends Char.isDigit c.rest) :
    Misses (pool? maxDice c) := by
  intro f
  obtain ⟨f₁, hdigits⟩ := misses_digits? h f
  exact ⟨f₁, by simp only [pool?, hdigits]⟩

theorem finds_die? (hn : n.Fits) (h : Ends Char.isDigit rest) :
    Finds (die? ⟨offset, 'd' :: (n.chars ++ rest)⟩) (.die n.outcome)
      ⟨offset + 1 + n.chars.length, rest⟩ := by
  intro f
  obtain ⟨f₁, hlt₁, hletter⟩ := finds_letter? (Cursor.take?_cons offset 'd' (n.chars ++ rest)) f
  obtain ⟨f₂, hlt₂, hnumber⟩ := finds_number? (offset + 1) n hn h f₁
  have hsize : ('d').utf8Size = 1 := rfl
  exact ⟨f₂, Nat.lt_trans hlt₂ hlt₁, by simp only [die?, hletter, hsize, hnumber]⟩

theorem finds_atom?_number (hn : n.Fits) (h : Stops rest) :
    Finds (atom? maxDice ⟨offset, n.chars ++ rest⟩) (.constant n.outcome)
      ⟨offset + n.chars.length, rest⟩ := by
  intro f
  obtain ⟨f₁, hpool⟩ := misses_pool? offset n maxDice h f
  obtain ⟨f₂, hlt, hnumber⟩ := finds_number? offset n hn h.isDigit f₁
  exact ⟨f₂, hlt, by simp only [atom?, hpool, hnumber]⟩

theorem finds_atom?_pool (m : Digits) (hn : n.Fits)
    (hm : 1 ≤ m.value ∧ m.value ≤ min maxDice 4294967295) (h : Ends Char.isDigit rest) :
    Finds (atom? maxDice ⟨offset, m.chars ++ 'd' :: (n.chars ++ rest)⟩)
      (.pool m.value n.outcome) ⟨offset + m.chars.length + 1 + n.chars.length, rest⟩ := by
  intro f
  obtain ⟨f₁, hlt, hpool⟩ := finds_pool? offset n maxDice m hn hm h f
  exact ⟨f₁, hlt, by simp only [atom?, hpool]⟩

theorem finds_atom?_die (hn : n.Fits) (h : Ends Char.isDigit rest) :
    Finds (atom? maxDice ⟨offset, 'd' :: (n.chars ++ rest)⟩) (.die n.outcome)
      ⟨offset + 1 + n.chars.length, rest⟩ := by
  intro f
  have hd : Ends Char.isDigit (Cursor.mk offset ('d' :: (n.chars ++ rest))).rest :=
    Ends.cons rfl _
  obtain ⟨f₁, hpool⟩ := misses_pool?_of_ends maxDice hd f
  obtain ⟨f₂, hnumber⟩ := misses_number? hd f₁
  obtain ⟨f₃, hlt, hdie⟩ := finds_die? offset n hn h f₂
  exact ⟨f₃, hlt, by simp only [atom?, hpool, hnumber, hdie]⟩

theorem misses_atom? (rest : List Char) : Misses (atom? maxDice ⟨offset, '(' :: rest⟩) := by
  intro f
  have hparen : Ends Char.isDigit (Cursor.mk offset ('(' :: rest)).rest := Ends.cons rfl _
  obtain ⟨f₁, hpool⟩ := misses_pool?_of_ends maxDice hparen f
  obtain ⟨f₂, hnumber⟩ := misses_number? hparen f₁
  have hnone : (Cursor.mk offset ('(' :: rest)).take? 'd' = none := rfl
  obtain ⟨f₃, hletter⟩ := misses_letter? hnone f₂
  exact ⟨f₃, by simp only [atom?, hpool, hnumber, die?, hletter]⟩

/-! ### Operators -/

theorem mem_loosestFirst (op : Operator) : op ∈ loosestFirst := by
  cases op <;> decide

/-- The operator that comes next, if one does, binds less strongly than given. -/
def Follows (strength : Nat) (rest : List Char) : Prop :=
  ∀ op : Operator, op.symbol ∈ (rest.dropWhile isBlank).head? → op.precedence < strength

theorem Follows.mono {m m' : Nat} (hm : m ≤ m') (h : Follows m rest) : Follows m' rest :=
  fun op hop => Nat.lt_of_lt_of_le (h op hop) hm

/-- No operator between an operator and the parts of its tier. -/
theorem Follows.of_operand (op : Operator) (h : Follows op.tier.operand.strength rest) :
    Follows (op.precedence + 1) rest := by
  intro op' hop'
  have hlt := h op' hop'
  revert hlt
  cases op <;> cases op' <;> decide

theorem follows_operator (before : Blanks) {op : Operator} {m : Nat} (h : op.precedence < m)
    (rest : List Char) : Follows m (before.chars ++ op.symbol :: rest) := by
  intro op' hop'
  rw [dropWhile_run before.all_blank (Ends.cons op.isBlank_symbol _)] at hop'
  have heq : op' = op := Operator.symbol_injective (Option.some.inj hop').symm
  rwa [heq]

theorem follows_closing (m : Nat) (after : Blanks) (rest : List Char) :
    Follows m (after.chars ++ ')' :: rest) := by
  intro op hop
  rw [dropWhile_run after.all_blank (Ends.cons rfl _)] at hop
  exact absurd (Option.some.inj hop) (by cases op <;> decide)

theorem misses_step? {m : Nat} (left : Expr) (h : Follows m rest) (ops : List Operator) :
    Misses (step? maxDice m left ⟨offset, rest⟩ ops) := by
  induction ops with
  | nil => exact fun f => ⟨f, by rw [step?]⟩
  | cons op ops ih =>
    intro f
    by_cases hm : op.precedence < m
    · obtain ⟨f', hstep⟩ := ih f
      exact ⟨f', by rw [step?, if_pos hm, hstep]⟩
    · have hnone : (Cursor.mk offset rest).skipBlanks.take? op.symbol = none :=
        Cursor.take?_eq_none fun y hy hyop => hm (h op (hyop ▸ hy))
      obtain ⟨f₁, hletter⟩ := misses_letter? hnone f
      obtain ⟨f₂, hstep⟩ := ih f₁
      exact ⟨f₂, by simp only [step?, if_neg hm, hletter, hstep]⟩

theorem extend_of_misses {m size : Nat} (r : Below Expr size)
    (h : Misses (step? maxDice m r.1.1 r.1.2 loosestFirst)) (f : Furthest) :
    ∃ f', extend maxDice m size r f = (f', r) := by
  obtain ⟨f', hstep⟩ := h f
  exact ⟨f', by simp only [extend, hstep]⟩

variable {offset : Nat} {n : Digits} {maxDice}

/-- An operator that binds strongly enough is found when a right operand stands behind it. -/
theorem finds_step? {op : Operator} {ops : List Operator} (hop : op ∈ ops) {m : Nat}
    (hm : m ≤ op.precedence) (left : Expr) {right : Expr} (before after : Blanks)
    (hblank : Ends isBlank rest) {c' : Cursor}
    (hright : Finds (climb? maxDice (op.precedence + 1)
      ⟨offset + before.chars.length + 1 + after.chars.length, rest⟩) right c') :
    Finds (step? maxDice m left ⟨offset, before.chars ++ op.symbol :: (after.chars ++ rest)⟩ ops)
      (.binary op left right) c' := by
  generalize hc : Cursor.mk offset (before.chars ++ op.symbol :: (after.chars ++ rest)) = c
  have hskip : c.skipBlanks =
      ⟨offset + before.chars.length, op.symbol :: (after.chars ++ rest)⟩ := by
    rw [← hc, before.skipBlanks_append offset (Ends.cons op.isBlank_symbol _)]
  induction ops with
  | nil => cases hop
  | cons op' ops ih =>
    intro f
    by_cases hop' : op' = op
    · subst hop'
      have htake : c.skipBlanks.take? op'.symbol =
          some ⟨offset + before.chars.length + 1, after.chars ++ rest⟩ := by
        rw [hskip, Cursor.take?_cons, op'.utf8Size_symbol]
      rw [← after.skipBlanks_append (offset + before.chars.length + 1) hblank] at hright
      obtain ⟨f₁, hlt₁, hletter⟩ := finds_letter? htake f
      obtain ⟨f₂, hlt₂, hclimb⟩ := hright f₁
      refine ⟨f₂, ?_, by simp only [step?, if_neg (Nat.not_lt.2 hm), hletter, hclimb]⟩
      calc c'.size
        _ < _ := hlt₂
        _ ≤ _ := Cursor.size_skipBlanks_le _
        _ < c.skipBlanks.size := hlt₁
        _ ≤ c.size := c.size_skipBlanks_le
    · have hmem : op ∈ ops := (List.mem_cons.1 hop).resolve_left (Ne.symm hop')
      by_cases hm' : op'.precedence < m
      · obtain ⟨f', hlt, hstep⟩ := ih hmem f
        exact ⟨f', hlt, by rw [step?, if_pos hm', hstep]⟩
      · have hnone : c.skipBlanks.take? op'.symbol = none := by
          rw [hskip]
          exact Cursor.take?_eq_none fun y hy hyop =>
            hop' (Operator.symbol_injective (hyop ▸ Option.some.inj hy).symm)
        obtain ⟨f₁, hletter⟩ := misses_letter? hnone f
        obtain ⟨f₂, hlt, hstep⟩ := ih hmem f₁
        exact ⟨f₂, hlt, by simp only [step?, if_neg hm', hletter, hstep]⟩

/-! ### Derivations -/

/-- What comes behind a derivation and its text is read like further operators. -/
def Continues (maxDice m : Nat) (e : Expr) (c c' : Cursor) : Prop :=
  ∀ f, ∃ f' h, climb? maxDice m c f = Prod.map id some (extend maxDice m c.size ⟨(e, c'), h⟩ f')

theorem continues_of_finds {m : Nat} {e : Expr} {c c' : Cursor}
    (h : Finds (operand? maxDice c) e c') : Continues maxDice m e c c' := by
  intro f
  obtain ⟨f', hlt, hoperand⟩ := h f
  exact ⟨f', hlt, by simp only [climb?, hoperand, Prod.map, id]⟩

/-- An expression ends where no operator follows that binds strongly enough. -/
theorem Continues.finds {m : Nat} {e : Expr} {c c' : Cursor} (h : Continues maxDice m e c c')
    (hfollows : Follows m c'.rest) : Finds (climb? maxDice m c) e c' := by
  intro f
  obtain ⟨f₁, hlt, hclimb⟩ := h f
  obtain ⟨f₂, hextend⟩ := extend_of_misses maxDice ⟨(e, c'), hlt⟩
    (misses_step? c'.offset maxDice e hfollows loosestFirst) f₁
  exact ⟨f₂, hlt, by rw [hclimb, hextend]; rfl⟩

/-- An operator with a right operand continues an expression to another one. -/
theorem Continues.step {m : Nat} {e e' : Expr} {c c' c'' : Cursor}
    (h : Continues maxDice m e c c')
    (hstep : Finds (step? maxDice m e c' loosestFirst) e' c'') :
    Continues maxDice m e' c c'' := by
  intro f
  obtain ⟨f₁, hlt₁, hclimb⟩ := h f
  obtain ⟨f₂, hlt₂, hfound⟩ := hstep f₁
  refine ⟨f₂, Nat.lt_trans hlt₂ hlt₁, ?_⟩
  rw [hclimb, extend]
  simp only [hfound]

theorem finds_operand?_of_atom {e : Expr} {c c' : Cursor} (h : Finds (atom? maxDice c) e c') :
    Finds (operand? maxDice c) e c' := by
  intro f
  obtain ⟨f', hlt, hatom⟩ := h f
  exact ⟨f', hlt, by simp only [operand?, hatom]⟩

theorem finds_operand?_enclosed {e : Expr} (before after : Blanks) {inner : List Char}
    (hblank : Ends isBlank inner) {o : Nat}
    (hinner : Finds (climb? maxDice 0 ⟨offset + 1 + before.chars.length, inner⟩) e
      ⟨o, after.chars ++ ')' :: rest⟩) :
    Finds (operand? maxDice ⟨offset, '(' :: (before.chars ++ inner)⟩) e
      ⟨o + after.chars.length + 1, rest⟩ := by
  intro f
  obtain ⟨f₁, hatom⟩ := misses_atom? offset maxDice (before.chars ++ inner) f
  obtain ⟨f₂, hlt₂, hopening⟩ := finds_letter? (Cursor.take?_cons offset '(' _) f₁
  rw [← before.skipBlanks_append (offset + 1) hblank] at hinner
  obtain ⟨f₃, hlt₃, hclimb⟩ := hinner f₂
  have htake : (Cursor.mk o (after.chars ++ ')' :: rest)).skipBlanks.take? ')' =
      some ⟨o + after.chars.length + 1, rest⟩ := by
    rw [after.skipBlanks_append o (Ends.cons rfl rest)]
    rfl
  obtain ⟨f₄, hlt₄, hclosing⟩ := finds_letter? htake f₃
  refine ⟨f₄, ?_, ?_⟩
  · calc (Cursor.mk (o + after.chars.length + 1) rest).size
      _ < _ := hlt₄
      _ ≤ _ := Cursor.size_skipBlanks_le _
      _ < _ := hlt₃
      _ ≤ _ := Cursor.size_skipBlanks_le _
      _ < _ := hlt₂
  · have hsize : ('(').utf8Size = 1 := rfl
    simp only [operand?, hatom, hopening, hsize, hclimb, hclosing]

/-- Reading a derivation builds its expression and goes on with the operators behind it. -/
theorem continues_text {l : Tier} (d : Derivation l) (hd : d.Fits maxDice) {m : Nat}
    (hm : m ≤ l.strength) (offset : Nat) {rest : List Char} (hstops : Stops rest)
    (hfollows : Follows l.operand.strength rest) :
    Continues maxDice m d.expr ⟨offset, d.text ++ rest⟩ ⟨offset + d.text.length, rest⟩ := by
  induction d generalizing m offset rest with
  | number n =>
    have hatom := finds_atom?_number offset n maxDice hd hstops
    exact continues_of_finds (finds_operand?_of_atom hatom)
  | die faces =>
    have hatom := finds_atom?_die offset faces maxDice hd hstops.isDigit
    rw [Nat.add_right_comm] at hatom
    exact continues_of_finds (finds_operand?_of_atom hatom)
  | pool count faces =>
    have hatom := finds_atom?_pool offset faces maxDice count hd.1 hd.2 hstops.isDigit
    have hcontinues := continues_of_finds (m := m) (finds_operand?_of_atom hatom)
    simpa only [Derivation.text, Derivation.expr, List.append_assoc, List.cons_append,
      List.length_append, List.length_cons, Nat.add_assoc, Nat.add_comm 1] using hcontinues
  | enclosed before inner after ih =>
    have hinner := ih hd (Nat.zero_le _) (offset + 1 + before.chars.length)
      (after.stops_append (Ends.cons rfl rest)) (follows_closing _ after rest)
    have hoperand := finds_operand?_enclosed before after (inner.text_ends_isBlank _)
      (hinner.finds (follows_closing 0 after rest))
    have hcontinues := continues_of_finds (m := m) hoperand
    simpa only [Derivation.text, Derivation.expr, List.append_assoc, List.cons_append,
      List.nil_append, List.length_append, List.length_cons, List.length_nil, Nat.add_assoc,
      Nat.add_comm 1] using hcontinues
  | @single l hl part ih =>
    exact ih hd (Nat.le_trans hm l.strength_le_operand) offset hstops
      (hfollows.mono l.operand.strength_le_operand)
  | @repeated l left before op hop after right ihl ihr =>
    subst hop
    -- The left side is read first, because the operator behind it binds less strongly than its
    -- parts; it is then found as the next step.
    have hstops' : Stops (before.chars ++ op.symbol :: (after.chars ++ (right.text ++ rest))) :=
      before.stops_append (Ends.cons op.continuesNumber_symbol _)
    have hleft := ihl hd.1 hm offset hstops'
      (follows_operator before op.precedence_lt_operand _)
    have hright := ihr hd.2 op.precedence_lt_operand
      (offset + left.text.length + before.chars.length + 1 + after.chars.length) hstops
      (hfollows.mono op.tier.operand.strength_le_operand)
    have hstep := finds_step? (mem_loosestFirst op) (op.strength_tier ▸ hm) left.expr before after
      (right.text_ends_isBlank rest)
      (hright.finds (Follows.of_operand op hfollows))
    simpa only [Derivation.text, Derivation.expr, List.append_assoc, List.cons_append,
      List.nil_append, List.length_append, List.length_cons, List.length_nil, Nat.add_assoc,
      Nat.add_comm 1] using hleft.step hstep

/-- A derivation that no stronger operator follows is found. -/
theorem finds_text {l : Tier} (d : Derivation l) (hd : d.Fits maxDice) {m : Nat}
    (hm : m ≤ l.strength) (offset : Nat) {rest : List Char} (hstops : Stops rest)
    (hfollows : Follows m rest) :
    Finds (climb? maxDice m ⟨offset, d.text ++ rest⟩) d.expr ⟨offset + d.text.length, rest⟩ :=
  (continues_text d hd hm offset hstops
    (hfollows.mono (Nat.le_trans hm l.strength_le_operand))).finds hfollows

/-- A sentence whose numbers fit is found as its expression. -/
theorem exists_whole?_eq_some {s : String} {u : Sentence} (hu : u.text = s.toList)
    (hfits : u.body.Fits maxDice) : ∃ f, whole? maxDice s = (f, some u.expr) := by
  have hfollows : Follows 0 u.after.chars := fun op hop => by
    rw [u.after.dropWhile_chars] at hop
    cases hop
  have hskip : (Cursor.ofString s).skipBlanks =
      ⟨0 + u.before.chars.length, u.body.text ++ u.after.chars⟩ := by
    rw [Cursor.ofString, ← hu, Sentence.text]
    exact u.before.skipBlanks_append 0 (u.body.text_ends_isBlank u.after.chars)
  have hfinds := finds_text u.body hfits (Nat.zero_le _) (0 + u.before.chars.length) u.after.stops
    hfollows
  rw [← hskip] at hfinds
  obtain ⟨f, hlt, hclimb⟩ := hfinds Furthest.start
  have hend : (Cursor.mk (0 + u.before.chars.length + u.body.text.length)
      u.after.chars).skipBlanks.rest = [] := u.after.dropWhile_chars
  exact ⟨f, by simp only [whole?, hclimb, hend, if_true, Sentence.expr]⟩

end Climb

end DiceOdds
