import DiceOdds.Expr.Reader
import DiceOdds.Proofs.Token.Progress

/-!
# The language read by priorities

Scanning tokens and folding them reads exactly the sentences of the grammar that keep the limits,
and builds their expressions.

## Main results

* `Scan.leads_readOn_sentence`: the tokens of a sentence.
* `Priority.leads_parse`, `Priority.exists_within_of_parse`: completeness and soundness.
* `Priority.parse_eq_ok_iff`: the language that is read.
-/

namespace DiceOdds

theorem Grouping.tokens_ne_nil (g : Grouping) : g.tokens ≠ [] := by
  cases g with
  | operand e => exact List.cons_ne_nil _ _
  | operator left op priority right =>
    exact List.append_ne_nil_of_right_ne_nil _ (List.cons_ne_nil _ _)

theorem Sentence.within_iff_allowed {limits : Limits} (u : Sentence) :
    u.Within limits ↔ u.body.Allowed limits .start := by
  constructor
  · rintro ⟨hfits, hdepth, hnodes⟩
    refine ⟨hfits, by rwa [Scan.start, List.length_nil, Nat.zero_add], ?_⟩
    rwa [expr, Derivation.nodes_expr hfits, ← Nat.zero_add u.body.nodes] at hnodes
  · rintro ⟨hfits, hdepth, hnodes⟩
    refine ⟨hfits, by rwa [Scan.start, List.length_nil, Nat.zero_add] at hdepth, ?_⟩
    rwa [expr, Derivation.nodes_expr hfits, ← Nat.zero_add u.body.nodes]

namespace Scan

/-- Nothing is missing behind a derivation outside parentheses. -/
theorem finish_behind {l : Tier} (d : Derivation l) :
    (d.behind start).finish = .ok (d.grouping 0).tokens := by
  have htokens : (d.behind start).tokens = (d.grouping 0).tokens.reverse := List.append_nil _
  have hne : (d.behind start).tokens ≠ [] := by
    rw [htokens]
    exact fun h => (d.grouping 0).tokens_ne_nil (List.reverse_eq_nil_iff.1 h)
  rw [finish_eq_ok rfl rfl hne, htokens, List.reverse_reverse]

/-- The pass over a sentence notes the grouping of its comparison, unless a limit is exceeded. -/
theorem leads_readOn_sentence (limits : Limits) (u : Sentence) :
    Leads (u.Within limits) (readOn limits start ⟨0, u.text⟩)
      (.ok (u.body.grouping 0).tokens) := by
  have hread := u.body.leads_readOn limits start (0 + u.before.chars.length) rfl
    (Nat.zero_le _) u.after.stops
  have hafter : ∀ offset, readOn limits (u.body.behind start) ⟨offset, u.after.chars⟩ =
      .ok (u.body.grouping 0).tokens := by
    intro offset
    rw [← List.append_nil u.after.chars, readOn_blanks, readOn_nil, finish_behind]
  rw [hafter] at hread
  rw [Sentence.text, readOn_blanks]
  exact hread.congr u.within_iff_allowed.symm

end Scan

namespace Priority

variable {limits : Limits} {s : String} {u : Sentence} {e : Expr}

/-- A sentence is read as its expression, unless a limit is exceeded. -/
theorem leads_parse (hu : u.text = s.toList) :
    Leads (u.Within limits) (parse limits s) (.ok u.expr) := by
  have hscan := Scan.leads_readOn_sentence limits u
  rw [hu] at hscan
  refine ⟨fun h => ?_, fun h => ?_⟩
  · have hfold := Grouping.fold_tokens (u.body.respects_grouping 0)
    rw [Derivation.expr_grouping] at hfold
    have htokens : Token.scan limits s = .ok (u.body.grouping 0).tokens := hscan.eq h
    rw [parse, htokens]
    exact hfold
  · obtain ⟨error, herror⟩ := hscan.fails h
    have herror : Token.scan limits s = .error error := herror
    exact ⟨error, by rw [parse, herror]⟩

theorem exists_sentence_of_scan {tokens : List Token} (h : Token.scan limits s = .ok tokens) :
    ∃ u : Sentence, u.text = s.toList :=
  Scan.exists_sentence_of_readOn h .start

/-- Tokens that have been read can be folded. -/
theorem exists_parse_of_scan {tokens : List Token} (h : Token.scan limits s = .ok tokens) :
    ∃ e, parse limits s = .ok e := by
  obtain ⟨u, hu⟩ := exists_sentence_of_scan h
  have hscan := Scan.leads_readOn_sentence limits u
  rw [hu] at hscan
  exact ⟨u.expr, (leads_parse hu).eq (hscan.of_eq_ok h).1⟩

/-- A text fails where its tokens are read. -/
theorem scan_eq_error {error : ParseError} (h : parse limits s = .error error) :
    Token.scan limits s = .error error := by
  cases htokens : Token.scan limits s with
  | error x =>
    rw [parse, htokens] at h
    exact congrArg Except.error (Except.error.inj h)
  | ok tokens =>
    obtain ⟨e, he⟩ := exists_parse_of_scan htokens
    rw [he] at h
    cases h

/-- Only sentences within the limits are read. -/
theorem exists_within_of_parse (h : parse limits s = .ok e) :
    ∃ u : Sentence, u.text = s.toList ∧ u.expr = e ∧ u.Within limits := by
  obtain ⟨u, hu⟩ : ∃ u : Sentence, u.text = s.toList := by
    cases htokens : Token.scan limits s with
    | error error =>
      rw [parse, htokens] at h
      cases h
    | ok tokens => exact exists_sentence_of_scan htokens
  obtain ⟨hwithin, hexpr⟩ := (leads_parse hu).of_eq_ok h
  exact ⟨u, hu, hexpr, hwithin⟩

/-- **The language read by priorities.** A text is read as an expression exactly when a derivation
in the grammar that keeps the limits has this text and this expression. -/
theorem parse_eq_ok_iff (limits : Limits) (s : String) (e : Expr) :
    parse limits s = .ok e ↔ ∃ u : Sentence, u.text = s.toList ∧ u.expr = e ∧ u.Within limits := by
  refine ⟨exists_within_of_parse, ?_⟩
  rintro ⟨u, hu, rfl, hwithin⟩
  exact (leads_parse hu).eq hwithin

end Priority

end DiceOdds
