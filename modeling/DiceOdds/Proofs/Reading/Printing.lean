import DiceOdds.Proofs.Reading.Agreement

/-!
# Reading what was printed

The text of an expression without negative numbers is a sentence of the grammar with this
expression: an operand is put in parentheses exactly when the tier it stands in does not derive it
otherwise. A negative number stands where only an operand can, and no operand starts with a minus
sign, so the text of any other expression is refused.

## Main definitions

* `Expr.Nonneg`: no constant and no number of faces is negative.
* `Derivation.Writes`: a derivation of a text with an expression, whose numbers fit.

## Main results

* `Expr.exists_writes`: printed expressions are derived.
* `Scan.refuses_print`: a negative number is refused.
* `Expr.eq_of_parse_print`, `Expr.parse_print`: which expressions are read back.
-/

namespace DiceOdds

/-! ### Numbers -/

namespace Digits

/-- The digits of a number. -/
def ofNat (n : Nat) : Digits :=
  ⟨Nat.toDigits 10 n, Nat.toDigits_ne_nil, fun _ hc =>
    Nat.isDigit_of_mem_toDigits (by decide) (by decide) hc⟩

theorem value_ofNat (n : Nat) : (ofNat n).value = n :=
  (numeral_chars _).symm.trans Nat.ofDigitChars_ten_toDigits

/-- A number that is not negative is printed in digits. -/
theorem exists_of_nonneg {a : Outcome} (h : 0 ≤ a.toInt) :
    ∃ n : Digits, n.chars = (toString a).toList ∧ n.outcome = a ∧ n.Fits := by
  have hlt := a.toInt_lt
  obtain ⟨k, hk⟩ := Int.eq_ofNat_of_zero_le h
  refine ⟨ofNat k, ?_, ?_, ?_⟩
  · have hprint : toString a = k.repr := by
      show toString a.toInt = k.repr
      rw [hk]
      rfl
    rw [hprint, Nat.toList_repr]
    rfl
  · rw [outcome, value_ofNat, ← hk, Int64.ofInt_toInt]
  · rw [Fits, value_ofNat]
    omega

end Digits

/-- A negative number is printed with a minus sign in front. -/
theorem Outcome.exists_toList_eq_cons {a : Outcome} (h : a.toInt < 0) :
    ∃ cs, (toString a).toList = '-' :: cs := by
  obtain ⟨k, hk⟩ := Int.eq_negSucc_of_lt_zero h
  refine ⟨(k + 1).repr.toList, ?_⟩
  have hprint : toString a = "-" ++ (k + 1).repr := by
    show toString a.toInt = "-" ++ (k + 1).repr
    rw [hk]
    rfl
  rw [hprint, String.toList_append]
  rfl

/-! ### Texts -/

theorem Printed.toList_enclose (needed : Bool) (t : String) :
    (enclose needed t).toList = if needed then '(' :: (t.toList ++ [')']) else t.toList := by
  cases needed with
  | false => rfl
  | true => simp [enclose]

namespace Expr

/-- No constant and no number of faces is negative. -/
def Nonneg : Expr → Prop
  | constant n => 0 ≤ n.toInt
  | die faces => 0 ≤ faces.toInt
  | binary _ left right => left.Nonneg ∧ right.Nonneg

instance decidableNonneg : (e : Expr) → Decidable e.Nonneg
  | constant n => inferInstanceAs (Decidable (0 ≤ n.toInt))
  | die faces => inferInstanceAs (Decidable (0 ≤ faces.toInt))
  | binary _ left right =>
    @instDecidableAnd _ _ (decidableNonneg left) (decidableNonneg right)

/-- The text of the left operand of an operator. -/
def leftText (op : Operator) (e : Expr) : String :=
  Printed.enclose (e.printed.strength < op.precedence) e.print

/-- The text of the right operand of an operator. -/
def rightText (op : Operator) (e : Expr) : String :=
  Printed.enclose (e.printed.strength ≤ op.precedence) e.print

theorem toList_print_constant (n : Outcome) : (constant n).print.toList = (toString n).toList := by
  rw [print, printed_constant]
  rfl

theorem toList_print_die (faces : Outcome) :
    (die faces).print.toList = 'd' :: (toString faces).toList := by
  rw [print, printed_die, Printed.atom, String.toList_append]
  rfl

theorem toList_print_binary (op : Operator) (left right : Expr) :
    (binary op left right).print.toList =
      (leftText op left).toList ++ (' ' :: op.symbol :: ' ' :: (rightText op right).toList) := by
  rw [print, printed_binary, Printed.join]
  simp [leftText, rightText, print]

theorem strength_printed (e : Expr) :
    e.printed.strength = Printed.atomStrength ∨
      ∃ op : Operator, e.printed.strength = op.precedence := by
  cases e with
  | constant n => exact .inl (by rw [printed_constant, Printed.atom])
  | die faces => exact .inl (by rw [printed_die, Printed.atom])
  | binary op left right => exact .inr ⟨op, by rw [printed_binary, Printed.join]⟩

end Expr

/-! ### Printed expressions are derived -/

namespace Derivation

/-- The derivation is one of a text with an expression, and its numbers fit. -/
structure Writes {l : Tier} (d : Derivation l) (t : String) (e : Expr) : Prop where
  text : d.text = t.toList
  expr : d.expr = e
  fits (maxDice : Nat) : d.Fits maxDice

theorem Writes.exists_lift {l l' : Tier} {d : Derivation l'} {t : String} {e : Expr}
    (h : d.Writes t e) (hl : l.strength ≤ l'.strength) : ∃ d' : Derivation l, d'.Writes t e := by
  obtain ⟨d', hd'⟩ := Derivation.exists_lift hl d
  exact ⟨d', hd'.text.trans h.text, hd'.expr.trans h.expr, fun maxDice =>
    (hd'.fits maxDice).2 (h.fits maxDice)⟩

/-- In parentheses, everything is an operand. -/
theorem Writes.exists_enclosed {d : Derivation .compare} {t : String} {e : Expr}
    (h : d.Writes t e) (l : Tier) :
    ∃ d' : Derivation l, d'.Writes (Printed.enclose true t) e := by
  have henclosed : (enclosed .none d .none).Writes (Printed.enclose true t) e := by
    refine ⟨?_, h.expr, h.fits⟩
    rw [Derivation.text, h.text, Printed.toList_enclose]
    rfl
  exact henclosed.exists_lift l.strength_le_primary

theorem Writes.repeated {op : Operator} {left : Derivation op.tier}
    {right : Derivation op.tier.operand} {e e' : Expr} (hleft : left.Writes (e.leftText op) e)
    (hright : right.Writes (e'.rightText op) e') :
    (repeated left .space op rfl .space right).Writes (Expr.binary op e e').print
      (.binary op e e') := by
  refine ⟨?_, ?_, fun maxDice => ⟨hleft.fits maxDice, hright.fits maxDice⟩⟩
  · rw [Derivation.text, hleft.text, hright.text, Expr.toList_print_binary]
    rfl
  · rw [Derivation.expr, hleft.expr, hright.expr]

end Derivation

namespace Expr

theorem exists_writes_constant {n : Outcome} (h : 0 ≤ n.toInt) :
    ∃ d : Derivation .primary, d.Writes (constant n).print (constant n) := by
  obtain ⟨k, hchars, houtcome, hfits⟩ := Digits.exists_of_nonneg h
  refine ⟨.number k, ?_, ?_, fun _ => hfits⟩
  · rw [Derivation.text, hchars, toList_print_constant]
  · rw [Derivation.expr, houtcome]

theorem exists_writes_die {faces : Outcome} (h : 0 ≤ faces.toInt) :
    ∃ d : Derivation .primary, d.Writes (die faces).print (die faces) := by
  obtain ⟨k, hchars, houtcome, hfits⟩ := Digits.exists_of_nonneg h
  refine ⟨.die k, ?_, ?_, fun _ => hfits⟩
  · rw [Derivation.text, hchars, toList_print_die]
  · rw [Derivation.expr, houtcome]

/-- The parts of an operator's tier bind more strongly than the operator, and nothing lies in
between. -/
theorem strength_operand_le {op : Operator} {e : Expr} (h : op.precedence < e.printed.strength) :
    op.tier.operand.strength ≤ e.printed.strength := by
  rcases e.strength_printed with he | ⟨op', he⟩
  · rw [he]
    cases op <;> decide
  · rw [he] at h ⊢
    revert h
    cases op <;> cases op' <;> decide

/-- An operand is derived in a tier that is too strong for it when it is put in parentheses. -/
theorem exists_writes_enclose {e : Expr}
    (h : ∀ {l : Tier}, l.strength ≤ e.printed.strength → ∃ d : Derivation l, d.Writes e.print e)
    {needed : Bool} {l : Tier} (hl : needed = false → l.strength ≤ e.printed.strength) :
    ∃ d : Derivation l, d.Writes (Printed.enclose needed e.print) e := by
  cases needed with
  | false => exact h (hl rfl)
  | true =>
    obtain ⟨d, hd⟩ := h (l := .compare) (Nat.zero_le _)
    exact hd.exists_enclosed l

/-- A left operand is derived in the tier of its operator. -/
theorem exists_writes_leftText (op : Operator) {e : Expr}
    (h : ∀ {l : Tier}, l.strength ≤ e.printed.strength → ∃ d : Derivation l, d.Writes e.print e) :
    ∃ d : Derivation op.tier, d.Writes (leftText op e) e := by
  refine exists_writes_enclose h fun hneeded => ?_
  have hle := of_decide_eq_false hneeded
  rw [op.strength_tier]
  omega

/-- A right operand is derived among the parts of the tier of its operator. -/
theorem exists_writes_rightText (op : Operator) {e : Expr}
    (h : ∀ {l : Tier}, l.strength ≤ e.printed.strength → ∃ d : Derivation l, d.Writes e.print e) :
    ∃ d : Derivation op.tier.operand, d.Writes (rightText op e) e := by
  refine exists_writes_enclose h fun hneeded => ?_
  have hle := of_decide_eq_false hneeded
  exact strength_operand_le (by omega)

/-- A printed expression is derived in every tier that is no stronger than its outermost
operator. -/
theorem exists_writes {e : Expr} (h : e.Nonneg) {l : Tier}
    (hl : l.strength ≤ e.printed.strength) : ∃ d : Derivation l, d.Writes e.print e := by
  induction e generalizing l with
  | constant n =>
    obtain ⟨d, hd⟩ := exists_writes_constant h
    exact hd.exists_lift l.strength_le_primary
  | die faces =>
    obtain ⟨d, hd⟩ := exists_writes_die h
    exact hd.exists_lift l.strength_le_primary
  | binary op left right ihl ihr =>
    obtain ⟨dl, hdl⟩ := exists_writes_leftText op (ihl h.1)
    obtain ⟨dr, hdr⟩ := exists_writes_rightText op (ihr h.2)
    have htier : l.strength ≤ op.tier.strength := by
      rwa [printed_binary, Printed.join, ← op.strength_tier] at hl
    exact (hdl.repeated hdr).exists_lift htier

/-! ### Negative numbers are refused -/

end Expr

namespace Scan

variable (limits : Limits) {s : Scan} (offset : Nat)

/-- No operand starts with a minus sign. -/
theorem readOn_minus (hs : s.wanted = true) (rest : List Char) :
    readOn limits s ⟨offset, '-' :: rest⟩ = .error (.unexpected '-' offset) := by
  rw [readOn]
  have hblank : isBlank '-' = false := rfl
  have hdigit : ('-').isDigit = false := rfl
  have hd : ¬ '-' = 'd' := by decide
  have hopening : ¬ '-' = '(' := by decide
  simp only [hblank, hs, hdigit, hd, hopening, if_true, Bool.false_eq_true, if_false, dite_false]

theorem exists_error_die_minus (nodes letter : Nat) (rest : List Char) :
    ∃ error, die limits nodes letter ⟨offset, '-' :: rest⟩ = .error error := by
  have hdigits : (Cursor.mk offset ('-' :: rest)).digits = [] := rfl
  have hfaces : faces letter ⟨offset, '-' :: rest⟩ = .error (.missingFaces letter) := if_pos hdigits
  rw [die]
  cases count limits nodes 1 with
  | error error => exact ⟨error, rfl⟩
  | ok nodes =>
    rw [hfaces]
    exact ⟨.missingFaces letter, rfl⟩

/-- Where an operand comes next, nothing that starts with the text is read. -/
def Refuses (t : List Char) : Prop :=
  ∀ (s : Scan) (offset : Nat) (rest : List Char), s.wanted = true →
    s.opened.length ≤ limits.maxDepth →
      ∃ error, readOn limits s ⟨offset, t ++ rest⟩ = .error error

variable {limits}

theorem refuses_constant {n : Outcome} (h : n.toInt < 0) :
    Refuses limits (Expr.constant n).print.toList := by
  intro s offset rest hs _
  obtain ⟨cs, hcs⟩ := Outcome.exists_toList_eq_cons h
  rw [Expr.toList_print_constant, hcs, List.cons_append]
  exact ⟨_, readOn_minus limits offset hs _⟩

theorem refuses_die {faces : Outcome} (h : faces.toInt < 0) :
    Refuses limits (Expr.die faces).print.toList := by
  intro s offset rest hs _
  obtain ⟨cs, hcs⟩ := Outcome.exists_toList_eq_cons h
  obtain ⟨error, herror⟩ := exists_error_die_minus limits (offset + 1) s.nodes offset (cs ++ rest)
  rw [Expr.toList_print_die, hcs, List.cons_append, readOn_die limits offset hs, List.cons_append,
    herror]
  exact ⟨error, rfl⟩

theorem Refuses.append {t : List Char} (h : Refuses limits t) (t' : List Char) :
    Refuses limits (t ++ t') := by
  intro s offset rest hs hopened
  rw [List.append_assoc]
  exact h s offset (t' ++ rest) hs hopened

theorem Refuses.enclose {t : String} (h : Refuses limits t.toList) (needed : Bool) :
    Refuses limits (Printed.enclose needed t).toList := by
  cases needed with
  | false => exact h
  | true =>
    intro s offset rest hs hopened
    rw [Printed.toList_enclose, if_pos rfl, List.cons_append, List.append_assoc,
      readOn_open limits offset hs]
    split
    · exact ⟨_, rfl⟩
    · next hdepth =>
      refine h _ _ _ hs ?_
      show s.opened.length + 1 ≤ limits.maxDepth
      omega

/-- The right operand is refused, unless something in front of it is. -/
theorem Refuses.operator {t : List Char} (h : Refuses limits t) {l : Tier} (d : Derivation l)
    (op : Operator) : Refuses limits (d.text ++ ' ' :: op.symbol :: ' ' :: t) := by
  intro s offset rest hs hopened
  have hstops : Stops (' ' :: op.symbol :: ' ' :: (t ++ rest)) := Ends.cons rfl _
  have hleads := d.leads_readOn limits s offset hs hopened hstops
  simp only [List.append_assoc, List.cons_append]
  by_cases hallowed : d.Allowed limits s
  · rw [hleads.eq hallowed, readOn_blank limits _ rfl, readOn_operator limits _ rfl]
    cases count limits (d.behind s).nodes 1 with
    | error error => exact ⟨error, rfl⟩
    | ok nodes =>
      show ∃ error, readOn limits _ _ = _
      rw [readOn_blank limits _ rfl]
      exact h _ _ _ rfl hopened
  · exact hleads.fails hallowed

/-- A printed expression with a negative number is refused. -/
theorem refuses_print {e : Expr} (h : ¬ e.Nonneg) : Refuses limits e.print.toList := by
  induction e with
  | constant n => exact refuses_constant (Int.not_le.1 h)
  | die faces => exact refuses_die (Int.not_le.1 h)
  | binary op left right ihl ihr =>
    rw [Expr.toList_print_binary]
    by_cases hleft : left.Nonneg
    · have hright : ¬ right.Nonneg := fun hright => h ⟨hleft, hright⟩
      obtain ⟨d, hd⟩ := Expr.exists_writes_leftText op (Expr.exists_writes hleft)
      rw [← hd.text]
      exact ((ihr hright).enclose _).operator d op
    · exact ((ihl hleft).enclose _).append _

end Scan

/-! ### Reading back -/

namespace Expr

variable {strategy : Strategy} {limits : Limits} {e e' : Expr}

/-- The text of an expression without negative numbers is a sentence with this expression. -/
theorem exists_sentence (h : e.Nonneg) : ∃ u : Sentence, u.text = e.print.toList ∧ u.expr = e ∧
    ∀ limits, u.Within limits ↔ e.nodes ≤ limits.maxNodes ∧
      Descent.nesting 0 0 e.print.toList ≤ limits.maxDepth := by
  obtain ⟨d, hd⟩ := exists_writes h (l := .compare) (Nat.zero_le _)
  have htext : (Sentence.mk .none d .none).text = e.print.toList := by
    rw [Sentence.text, hd.text]
    exact List.append_nil _
  refine ⟨⟨.none, d, .none⟩, htext, hd.expr, fun limits => ?_⟩
  have hnodes : d.expr.nodes = e.nodes := by rw [hd.expr]
  rw [← htext, Descent.nesting_sentence]
  refine ⟨fun hwithin => ⟨hnodes ▸ hwithin.2.2, hwithin.2.1⟩, fun hwithin => ?_⟩
  exact ⟨hd.fits limits.maxDice, hwithin.2, hnodes.symm ▸ hwithin.1⟩

theorem parse_priority_of_parse {s : String} (h : parse strategy limits s = .ok e) :
    Priority.parse limits s = .ok e := by
  have hparse : parse .priority limits s = .ok e := parse_iff_sentence.2 (parse_iff_sentence.1 h)
  exact hparse

theorem nonneg_of_parse_print (h : parse strategy limits e.print = .ok e') : e.Nonneg := by
  by_cases he : e.Nonneg
  · exact he
  · obtain ⟨error, herror⟩ :=
      Scan.refuses_print he Scan.start 0 [] rfl (Nat.zero_le limits.maxDepth)
    rw [List.append_nil] at herror
    have hscan : Token.scan limits e.print = .error error := herror
    have hparse := parse_priority_of_parse h
    rw [Priority.parse, hscan] at hparse
    cases hparse

/-- A printed expression that is read is read as itself. -/
theorem eq_of_parse_print (h : parse strategy limits e.print = .ok e') : e' = e := by
  obtain ⟨u, hu, hexpr, _⟩ := exists_sentence (nonneg_of_parse_print h)
  obtain ⟨_, hexpr'⟩ := (Priority.leads_parse hu).of_eq_ok (parse_priority_of_parse h)
  rw [← hexpr', hexpr]

/-- **Reading back a printed expression.** An expression is read back from its text, in both ways,
exactly when it has no negative numbers and keeps the limits on size and nesting; otherwise its
text is refused, and never read as another expression. -/
theorem parse_print (strategy : Strategy) (limits : Limits) (e : Expr) :
    (parse strategy limits e.print = .ok e ↔
        e.Nonneg ∧ e.nodes ≤ limits.maxNodes ∧
          Descent.nesting 0 0 e.print.toList ≤ limits.maxDepth) ∧
      (parse strategy limits e.print = .ok e ∨ ∃ x, parse strategy limits e.print = .error x) := by
  refine ⟨⟨fun h => ?_, fun ⟨hnonneg, hwithin⟩ => ?_⟩, ?_⟩
  · have hnonneg := nonneg_of_parse_print h
    obtain ⟨u, hu, _, hwithin⟩ := exists_sentence hnonneg
    have hkept := (Priority.leads_parse hu).of_eq_ok (parse_priority_of_parse h)
    exact ⟨hnonneg, (hwithin limits).1 hkept.1⟩
  · obtain ⟨u, hu, hexpr, hlimits⟩ := exists_sentence hnonneg
    exact parse_iff_sentence.2 ⟨u, hu, hexpr, (hlimits limits).2 hwithin⟩
  · cases hparse : parse strategy limits e.print with
    | error x => exact .inr ⟨x, rfl⟩
    | ok e' => exact .inl (by rw [eq_of_parse_print hparse])

end Expr

end DiceOdds
