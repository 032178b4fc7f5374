import DiceOdds.Proofs.Grammar.Parentheses
import DiceOdds.Proofs.Reading.Nesting

/-!
# Printed parentheses are needed

Without one of its matching pairs of parentheses, the text of an expression is still a sentence:
what stood in parentheses is a comparison, and operators with operands on both sides can always be
put together, in whatever way they group then. It is a sentence of another expression, because no
sentence has fewer parentheses than the text of its expression, as long as it writes no sum as a
pool. A sentence that does has fewer operators than its expression, and taking out parentheses
leaves all operators in place.

## Main definitions

* `Derivation.Respells`: a derivation of a text within given bounds on size and nesting.
* `Expr.Loosens`: a text that is derived without any of its matching pairs.

## Main results

* `Expr.loosens_print`: a printed text without a matching pair of parentheses is derived.
* `Derivation.count_print_le`: printing writes the fewest parentheses.
* `Expr.parse_without_pair`: a text without a matching pair is read as another expression.
-/

namespace DiceOdds

/-! ### Derivations within bounds -/

namespace Derivation

/-- The derivation is one of a text, with a given size, and nests parentheses at most to a given
depth. -/
structure Respells {l : Tier} (d : Derivation l) (t : List Char) (size nesting : Nat) : Prop where
  text : d.text = t
  nodes : d.nodes = size
  depth_le : d.depth ≤ nesting
  fits (maxDice : Nat) : d.Fits maxDice

theorem Writes.respells {l : Tier} {d : Derivation l} {t : String} {e : Expr} {k : Nat}
    (h : d.Writes t e) (ht : Descent.Nests t.toList k) : d.Respells t.toList e.nodes k := by
  refine ⟨h.text, ?_, ?_, h.fits⟩
  · rw [← nodes_expr (h.fits 0), h.expr]
  · have hdepth := Descent.nesting_text d (Nat.le_refl 0) []
    rw [List.append_nil, h.text, ht.nesting_eq, Descent.nesting] at hdepth
    omega

namespace Respells

variable {d : Derivation .compare} {t : List Char} {size nesting : Nat}

/-- In parentheses, what is derived is derived again. -/
theorem exists_enclosed (h : d.Respells t size nesting) :
    ∃ d' : Derivation .compare, d'.Respells ('(' :: (t ++ [')'])) size (nesting + 1) := by
  obtain ⟨d', hd'⟩ := exists_lift (Tier.strength_le_primary .compare) (enclosed .none d .none)
  refine ⟨d', ?_, ?_, ?_, fun maxDice => (hd'.fits maxDice).2 (h.fits maxDice)⟩
  · rw [hd'.text, Derivation.text, h.text]
    rfl
  · rw [hd'.nodes, Derivation.nodes, h.nodes]
  · rw [hd'.depth, depth]
    exact Nat.succ_le_succ h.depth_le

/-- With an operator in between, two derived texts are derived. -/
theorem exists_joined (h : d.Respells t size nesting) (op : Operator) {l : Tier}
    {d' : Derivation l} {t' : List Char} {size' nesting' : Nat}
    (h' : d'.Respells t' size' nesting') :
    ∃ d'' : Derivation .compare, d''.Respells (t ++ ' ' :: op.symbol :: ' ' :: t')
      (size + size' + 1) (max nesting nesting') := by
  obtain ⟨d'', hd''⟩ := d.exists_append (Nat.zero_le op.precedence) .space .space d'
    (Nat.zero_le l.strength)
  refine ⟨d'', ?_, ?_, ?_, fun maxDice => (hd''.fits maxDice).2 ⟨h.fits maxDice, h'.fits maxDice⟩⟩
  · rw [hd''.text, h.text, h'.text]
    rfl
  · rw [hd''.nodes, h.nodes, h'.nodes]
  · rw [hd''.depth]
    have hleft := h.depth_le
    have hright := h'.depth_le
    omega

end Respells

end Derivation

/-! ### Taking out a matching pair -/

namespace Expr

/-- Without a matching pair of parentheses the text is derived. -/
def Loosens (e : Expr) (t : List Char) (nesting : Nat) : Prop :=
  ∀ {before inner after : List Char}, Balanced inner →
    t = before ++ '(' :: (inner ++ ')' :: after) →
      ∃ d : Derivation .compare, d.Respells (before ++ (inner ++ after)) e.nodes nesting

variable {e left right : Expr}

theorem balanced_print (h : e.Nonneg) : Balanced e.print.toList := by
  obtain ⟨d, hd⟩ := exists_writes h (l := .compare) (Nat.zero_le _)
  rw [← hd.text]
  exact d.balanced_text

/-- A text without an opening parenthesis has no pair. -/
theorem ne_of_not_mem {t before rest : List Char} (h : '(' ∉ t) : t ≠ before ++ '(' :: rest :=
  fun ht => h (ht ▸ List.mem_append_right before List.mem_cons_self)

/-- The pair may be the one around an operand, or stand within the operand. -/
theorem Loosens.enclose (h : e.Nonneg) (hloosens : e.Loosens e.print.toList e.nesting)
    (needed : Bool) :
    e.Loosens (Printed.enclose needed e.print).toList (e.nesting + needed.toNat) := by
  intro before inner after hinner htext
  rw [Printed.toList_enclose] at htext
  cases needed with
  | false => exact hloosens hinner htext
  | true =>
    rw [if_pos rfl] at htext
    cases before with
    | nil =>
      obtain ⟨rfl, rfl⟩ := (balanced_print h).eq_of_closed hinner (List.cons.inj htext).2
      obtain ⟨d, hd⟩ := exists_writes h (l := .compare) (Nat.zero_le _)
      obtain ⟨htext, hnodes, hdepth, hfits⟩ := hd.respells (nests_print h)
      exact ⟨d, by rw [htext, List.append_nil]; rfl, hnodes, Nat.le_succ_of_le hdepth, hfits⟩
    | cons c before =>
      obtain ⟨rfl, hsplit⟩ : '(' = c ∧ e.print.toList ++ [')'] = before ++ '(' :: _ :=
        List.cons.inj htext
      rcases (balanced_print h).pair_of_append hinner hsplit with
        ⟨after', hprint, rfl⟩ | ⟨before', hclosing, -⟩
      · obtain ⟨d, hd⟩ := hloosens hinner hprint
        obtain ⟨d', hd'⟩ := hd.exists_enclosed
        rw [Bool.toNat_true]
        refine ⟨d', ?_⟩
        simpa only [List.cons_append, List.append_assoc] using hd'
      · -- Behind the operand there is no opening parenthesis.
        exact absurd hclosing (ne_of_not_mem (by decide))

/-- The pair stands within one of both operands. -/
theorem Loosens.binary (op : Operator) {t t' : List Char} {k k' : Nat}
    {d : Derivation .compare} {l : Tier} {d' : Derivation l}
    (hd : d.Respells t left.nodes k) (hd' : d'.Respells t' right.nodes k')
    (hleft : left.Loosens t k) (hright : right.Loosens t' k') :
    (Expr.binary op left right).Loosens (t ++ ' ' :: op.symbol :: ' ' :: t') (max k k') := by
  intro before inner after hinner htext
  have hbalanced : Balanced t := hd.text ▸ d.balanced_text
  rw [nodes_binary]
  rcases hbalanced.pair_of_append hinner htext with
    ⟨after', ht, rfl⟩ | ⟨before', hrest, rfl⟩
  · obtain ⟨d₁, hd₁⟩ := hleft hinner ht
    obtain ⟨d₂, hd₂⟩ := hd₁.exists_joined op hd'
    refine ⟨d₂, ?_⟩
    simpa only [List.append_assoc] using hd₂
  · have hspace : Balanced [' '] := by decide
    have hmiddle : Balanced [' ', op.symbol, ' '] :=
      hspace.append (op.balanced_symbol.append hspace)
    rcases hmiddle.pair_of_append hinner hrest with ⟨after', hmid, -⟩ | ⟨before'', ht', rfl⟩
    · exact absurd hmid (ne_of_not_mem (by cases op <;> decide))
    · obtain ⟨d₁, hd₁⟩ := hright hinner ht'
      obtain ⟨d₂, hd₂⟩ := hd.exists_joined op hd₁
      refine ⟨d₂, ?_⟩
      simpa only [List.append_assoc, List.cons_append, List.nil_append] using hd₂

theorem not_mem_print_constant {n : Outcome} (h : 0 ≤ n.toInt) :
    '(' ∉ (constant n).print.toList := by
  obtain ⟨k, hchars, -, -⟩ := Digits.exists_of_nonneg h
  rw [toList_print_constant, ← hchars]
  exact k.not_mem_opening

theorem not_mem_print_die {faces : Outcome} (h : 0 ≤ faces.toInt) :
    '(' ∉ (die faces).print.toList := by
  obtain ⟨k, hchars, -, -⟩ := Digits.exists_of_nonneg h
  rw [toList_print_die, ← hchars, List.mem_cons, not_or]
  exact ⟨by decide, k.not_mem_opening⟩

/-- **Taking out a matching pair.** Without a matching pair of parentheses, the text of an
expression without negative numbers is derived. -/
theorem loosens_print (h : e.Nonneg) : e.Loosens e.print.toList e.nesting := by
  induction e with
  | constant n =>
    intro before inner after _ htext
    exact absurd htext (ne_of_not_mem (not_mem_print_constant h))
  | die faces =>
    intro before inner after _ htext
    exact absurd htext (ne_of_not_mem (not_mem_print_die h))
  | binary op left right ihl ihr =>
    obtain ⟨d, hd⟩ := exists_writes_leftText op (exists_writes h.1)
    obtain ⟨d', hd'⟩ := exists_writes_rightText op (exists_writes h.2)
    obtain ⟨d₀, hd₀⟩ := hd.exists_lift (l := .compare) (Nat.zero_le _)
    rw [toList_print_binary]
    exact Loosens.binary op (hd₀.respells ((nests_print h.1).enclose _))
      (hd'.respells ((nests_print h.2).enclose _)) (Loosens.enclose h.1 (ihl h.1) _)
      (Loosens.enclose h.2 (ihr h.2) _)

end Expr

/-! ### The fewest parentheses -/

namespace Expr

variable {e : Expr}

theorem count_enclose (needed : Bool) (t : String) :
    (Printed.enclose needed t).toList.count '(' = t.toList.count '(' + needed.toNat := by
  rw [Printed.toList_enclose]
  cases needed <;> simp

theorem operators_enclose (needed : Bool) (t : String) :
    Descent.operators (Printed.enclose needed t).toList = Descent.operators t.toList := by
  rw [Printed.toList_enclose]
  cases needed with
  | false => rfl
  | true =>
    rw [if_pos rfl, Descent.operators_cons rfl, Descent.operators_append]
    rfl

theorem count_print_binary (op : Operator) (left right : Expr) :
    (binary op left right).print.toList.count '(' =
      (left.print.toList.count '(' + (decide (left.printed.strength < op.precedence)).toNat) +
        (right.print.toList.count '(' +
          (decide (right.printed.strength ≤ op.precedence)).toNat) := by
  have hsymbol : [' ', op.symbol, ' '].count '(' = 0 := by cases op <;> decide
  have hmiddle : ∀ t : List Char, (' ' :: op.symbol :: ' ' :: t).count '(' = t.count '(' := by
    intro t
    show ([' ', op.symbol, ' '] ++ t).count '(' = _
    rw [List.count_append, hsymbol, Nat.zero_add]
  rw [toList_print_binary, List.count_append, hmiddle, leftText, rightText, count_enclose,
    count_enclose]

/-- Each operator of the text is a node with an operand of its own, and there are no more nodes. -/
theorem nodes_eq_operators_print (h : e.Nonneg) :
    e.nodes = 2 * Descent.operators e.print.toList + 1 := by
  induction e with
  | constant n =>
    obtain ⟨k, hchars, -, -⟩ := Digits.exists_of_nonneg h
    rw [toList_print_constant, ← hchars, Descent.operators_digits, nodes_constant]
  | die faces =>
    obtain ⟨k, hchars, -, -⟩ := Digits.exists_of_nonneg h
    rw [toList_print_die, ← hchars, Descent.operators_cons rfl, Descent.operators_digits, nodes_die]
  | binary op left right ihl ihr =>
    rw [nodes_binary, ihl h.1, ihr h.2, toList_print_binary, Descent.operators_append,
      Descent.operators_cons rfl, Descent.operators_symbol, Descent.operators_cons rfl, leftText,
      rightText, operators_enclose, operators_enclose]
    omega

end Expr

namespace Derivation

theorem count_text_enclosed (before : Blanks) (inner : Derivation .compare) (after : Blanks) :
    (enclosed before inner after).text.count '(' = inner.text.count '(' + 1 := by
  have hclosing : [')'].count '(' = 0 := rfl
  simp only [text, List.count_cons_self, List.count_append, Blanks.count_opening, hclosing,
    Nat.zero_add, Nat.add_zero]

theorem operators_text_enclosed (before : Blanks) (inner : Derivation .compare) (after : Blanks) :
    Descent.operators (enclosed before inner after).text = Descent.operators inner.text := by
  simp only [text, Descent.operators_cons (c := '(') rfl, Descent.operators_append,
    Descent.operators_blanks, Nat.zero_add]
  rfl

section

variable {l : Tier} (left : Derivation l) (before : Blanks) (op : Operator) (hop : op.tier = l)
  (after : Blanks) (right : Derivation l.operand)

theorem count_text_repeated :
    (repeated left before op hop after right).text.count '(' =
      left.text.count '(' + right.text.count '(' := by
  have hsymbol : ∀ t : List Char, (op.symbol :: t).count '(' = t.count '(' := fun t =>
    List.count_cons_of_ne (by cases op <;> decide)
  simp only [text, List.count_append, Blanks.count_opening, hsymbol, Nat.zero_add]

theorem operators_text_repeated :
    Descent.operators (repeated left before op hop after right).text =
      Descent.operators left.text + (Descent.operators right.text + 1) := by
  simp only [text, Descent.operators_append, Descent.operators_symbol, Descent.operators_blanks,
    Nat.zero_add]

end

/-- The bound with a further pair of parentheses where one is needed. -/
theorem add_toNat_le {p : Prop} [Decidable p] {m n : Nat} (h : m ≤ n) (hp : p → m + 1 ≤ n) :
    m + (decide p).toNat ≤ n := by
  by_cases hneeded : p
  · rw [decide_eq_true hneeded]
    exact hp hneeded
  · rw [decide_eq_false hneeded]
    exact h

/-- What is printed without parentheses keeps every bound if nothing binds more strongly. -/
theorem count_print_le_of_not_mem {e : Expr} {strength n : Nat} (h : '(' ∉ e.print.toList)
    (hstrength : strength ≤ e.printed.strength) :
    e.print.toList.count '(' ≤ n ∧
      (e.printed.strength < strength → e.print.toList.count '(' + 1 ≤ n) := by
  refine ⟨?_, fun hlt => absurd hlt (Nat.not_lt.2 hstrength)⟩
  rw [List.count_eq_zero.2 h]
  exact Nat.zero_le n

/-- **Printing writes the fewest parentheses.** A derivation whose text has all the operators of its
expression has at least the parentheses that printing writes. It has one pair more where its
expression binds more loosely than its nonterminal. -/
theorem count_print_le {maxDice : Nat} {l : Tier} {d : Derivation l} (h : d.Fits maxDice)
    (hnodes : d.nodes ≤ 2 * Descent.operators d.text + 1) :
    d.expr.print.toList.count '(' ≤ d.text.count '(' ∧
      (d.expr.printed.strength < l.strength →
        d.expr.print.toList.count '(' + 1 ≤ d.text.count '(') := by
  induction d with
  | number n =>
    refine count_print_le_of_not_mem (Expr.not_mem_print_constant (nonneg_expr h)) ?_
    rw [expr, Expr.strength_constant]
    decide
  | die faces =>
    refine count_print_le_of_not_mem (Expr.not_mem_print_die (nonneg_expr h)) ?_
    rw [expr, Expr.strength_die]
    decide
  | pool count faces =>
    -- A pool without operators is a single die.
    have hone : count.value = 1 := by
      have hcount := h.2.1
      rw [nodes, text, Descent.operators_append, Descent.operators_digits,
        Descent.operators_cons rfl, Descent.operators_digits] at hnodes
      omega
    have hexpr : (pool count faces).expr = .die faces.outcome := by
      rw [expr, hone, Expr.pool_one]
    have hnonneg : (pool count faces).expr.Nonneg := nonneg_expr h
    rw [hexpr] at hnonneg ⊢
    refine count_print_le_of_not_mem (Expr.not_mem_print_die hnonneg) ?_
    rw [Expr.strength_die]
    decide
  | enclosed before inner after ih =>
    rw [operators_text_enclosed] at hnodes
    have hinner := (ih h hnodes).1
    rw [count_text_enclosed, expr]
    exact ⟨Nat.le_succ_of_le hinner, fun _ => Nat.succ_le_succ hinner⟩
  | @single l hl part ih =>
    obtain ⟨hle, hloose⟩ := ih h hnodes
    exact ⟨hle, fun hlt => hloose (Nat.lt_of_lt_of_le hlt l.strength_le_operand)⟩
  | repeated left before op hop after right ihl ihr =>
    subst hop
    have hnodesleft := Descent.operators_text left h.1
    have hnodesright := Descent.operators_text right h.2
    rw [operators_text_repeated, nodes] at hnodes
    obtain ⟨hleft, hlooseleft⟩ := ihl h.1 (by omega)
    obtain ⟨hright, hlooseright⟩ := ihr h.2 (by omega)
    refine ⟨?_, fun hlt => ?_⟩
    · rw [expr, Expr.count_print_binary, count_text_repeated]
      refine Nat.add_le_add (add_toNat_le hleft fun hneeded => ?_)
        (add_toNat_le hright fun hneeded => ?_)
      · exact hlooseleft (op.strength_tier.symm ▸ hneeded)
      · exact hlooseright (Nat.lt_of_le_of_lt hneeded op.precedence_lt_operand)
    · rw [expr, Expr.strength_binary, op.strength_tier] at hlt
      exact absurd hlt (Nat.lt_irrefl _)

end Derivation

/-! ### Reading without a pair -/

namespace Derivation.Respells

variable {d : Derivation .compare} {size nesting : Nat}

/-- A derived text is read in both ways, if the limits allow for its size and its nesting. -/
theorem parse_eq {t : String} (h : d.Respells t.toList size nesting) (strategy : Strategy)
    {limits : Limits} (hsize : size ≤ limits.maxNodes) (hnesting : nesting ≤ limits.maxDepth) :
    Expr.parse strategy limits t = .ok d.expr := by
  refine Expr.parse_iff_sentence.2 ⟨⟨.none, d, .none⟩, ?_, rfl, h.fits _, ?_, ?_⟩
  · rw [Sentence.text, h.text]
    exact List.append_nil _
  · exact Nat.le_trans h.depth_le hnesting
  · rw [Sentence.expr, nodes_expr (h.fits 0), h.nodes]
    exact hsize

/-- A text with all the operators and fewer parentheses derives another expression. -/
theorem expr_ne {e : Expr} (he : e.Nonneg) {t : List Char} (h : d.Respells t e.nodes nesting)
    (hoperators : Descent.operators t = Descent.operators e.print.toList)
    (hfewer : t.count '(' < e.print.toList.count '(') : d.expr ≠ e := by
  intro hsame
  have hsize : d.nodes ≤ 2 * Descent.operators d.text + 1 := by
    rw [h.text, hoperators, h.nodes, Expr.nodes_eq_operators_print he]
  have hfewest := (count_print_le (h.fits 0) hsize).1
  rw [hsame, h.text] at hfewest
  exact Nat.not_lt.2 hfewest hfewer

end Derivation.Respells

namespace Expr

theorem nesting_lt_nodes (e : Expr) : e.nesting < e.nodes := by
  induction e with
  | constant n =>
    rw [nesting, nodes_constant]
    exact Nat.zero_lt_one
  | die faces =>
    rw [nesting, nodes_die]
    exact Nat.zero_lt_one
  | binary op left right ihl ihr =>
    have hleft := Bool.toNat_le (decide (left.printed.strength < op.precedence))
    have hright := Bool.toNat_le (decide (right.printed.strength ≤ op.precedence))
    rw [nesting, nodes_binary]
    omega

/-- **Printed parentheses are needed.** If a matching pair of parentheses is taken out of the text
of an expression without negative numbers, both ways still read the text, whenever the limits allow
for the size and the nesting of the expression, but as another expression. Without limits this only
asks for a size that is a 64-bit count. -/
theorem parse_without_pair {e : Expr} (h : e.Nonneg) {before inner after : String}
    (hprint : e.print = before ++ "(" ++ inner ++ ")" ++ after) (hinner : Balanced inner.toList) :
    ∃ e', e' ≠ e ∧
      (∀ strategy limits, e.nodes ≤ limits.maxNodes →
        Descent.nesting 0 0 e.print.toList ≤ limits.maxDepth →
          parse strategy limits (before ++ inner ++ after) = .ok e') ∧
      (e.nodes ≤ maxCount → ∀ strategy,
        parse strategy .unbounded (before ++ inner ++ after) = .ok e') := by
  have htext : e.print.toList = before.toList ++ '(' :: (inner.toList ++ ')' :: after.toList) := by
    rw [hprint]
    simp only [String.toList_append, List.append_assoc]
    rfl
  obtain ⟨d, hd⟩ := loosens_print h hinner htext
  have hne : d.expr ≠ e := by
    have hclosing : ∀ t : List Char, (')' :: t).count '(' = t.count '(' := fun t =>
      List.count_cons_of_ne (by decide)
    refine hd.expr_ne h ?_ ?_
    · simp only [htext, Descent.operators_append, Descent.operators_cons (c := '(') rfl,
        Descent.operators_cons (c := ')') rfl]
    · simp only [htext, List.count_append, List.count_cons_self, hclosing]
      omega
  rw [(nests_print h).nesting_eq]
  rw [← List.append_assoc, ← String.toList_append, ← String.toList_append] at hd
  refine ⟨d.expr, hne, fun strategy limits hsize hnesting => hd.parse_eq strategy hsize hnesting,
    fun hsize strategy => ?_⟩
  exact hd.parse_eq strategy hsize (Nat.le_trans (Nat.le_of_lt e.nesting_lt_nodes) hsize)

/-- Without its inner parentheses a difference groups to the left. -/
theorem parse_without_pair_nested :
    (constant 1 - (constant 2 - (constant 3 + die 4)) * constant 5).print =
        "1 - (2 - " ++ "(" ++ "3 + d4" ++ ")" ++ ") * 5" ∧
      Balanced "3 + d4".toList ∧
      ∃ e', e' ≠ constant 1 - (constant 2 - (constant 3 + die 4)) * constant 5 ∧
        ∀ strategy, parse strategy .unbounded ("1 - (2 - " ++ "3 + d4" ++ ") * 5") = .ok e' := by
  have hprint : (constant 1 - (constant 2 - (constant 3 + die 4)) * constant 5).print =
      "1 - (2 - " ++ "(" ++ "3 + d4" ++ ")" ++ ") * 5" := by
    decide +kernel
  have hinner : Balanced "3 + d4".toList := by decide
  have hnonneg : (constant 1 - (constant 2 - (constant 3 + die 4)) * constant 5).Nonneg := by
    decide
  obtain ⟨e', hne, -, hread⟩ := parse_without_pair hnonneg hprint hinner
  exact ⟨hprint, hinner, e', hne, hread (by decide +kernel)⟩

end Expr

end DiceOdds
