import DiceOdds.Proofs.Reading.Priority
import DiceOdds.Proofs.Token.Justification
import Mathlib.Control.Monad.Basic

/-!
# Limits on grammatical texts

A text derived by the grammar is refused only because of a limit, and the error tells the truth
about the text: its parentheses nest deeper than allowed, it has more nodes than allowed, it has a
number too large for an outcome at the reported place, or one of its pools has a number of dice that
there is no such pool of. The last case is wider than the error says, because no pool has more than
4294967295 dice, whatever the limit.

## Main definitions

* `Digits.StandsIn`: a run of digits at a byte offset of a text.

## Main results

* `Priority.parse_sentence_error`: what an error says about a derived text.
* `Priority.diceCount_within_limit`: a number of dice that is refused although the limit allows it.
-/

namespace DiceOdds

/-- The digits stand in a text behind a number of bytes, and neither the character in front of them
nor the one behind them is a digit. -/
def Digits.StandsIn (n : Digits) (s : String) (offset : Nat) : Prop :=
  ∃ before after : String, s = before ++ .ofList n.chars ++ after ∧
    before.utf8ByteSize = offset ∧ Ends Char.isDigit before.toList.reverse ∧
      Ends Char.isDigit after.toList

/-- In a text of one-byte characters places are counted in characters. -/
theorem Digits.StandsAt.standsIn {n : Digits} {s : String} {k : Nat} (h : n.StandsAt s.toList k)
    (hs : ∀ c ∈ s.toList, c.utf8Size = 1) : n.StandsIn s k := by
  obtain ⟨before, after, hsplit, rfl, hbefore, hafter⟩ := h
  rw [hsplit, List.forall_mem_append] at hs
  refine ⟨.ofList before, .ofList after, ?_, utf8ByteSize_ofList hs.1, ?_, ?_⟩
  · rw [← String.ofList_append, ← String.ofList_append, List.append_assoc, ← hsplit,
      String.ofList_toList]
  · rwa [String.toList_ofList]
  · rwa [String.toList_ofList]

namespace Priority

variable {limits : Limits} {s : String} {u : Sentence} {error : ParseError}

/-- What an error says is true of the comparison that a text consists of. -/
theorem justifies_of_parse (hu : u.text = s.toList) (h : parse limits s = .error error) :
    u.body.Justifies limits .start u.before.chars.length error := by
  have hfails : ¬ u.body.Allowed limits .start := by
    intro hallowed
    rw [(leads_parse hu).eq (u.within_iff_allowed.2 hallowed)] at h
    cases h
  have hread : Scan.readOn limits .start ⟨0, s.toList⟩ = .error error := scan_eq_error h
  rw [← hu, Sentence.text, Scan.readOn_blanks, Nat.zero_add] at hread
  exact u.body.justifies_of_readOn rfl (Nat.zero_le _) u.after.stops hfails hread

/-- **Errors about limits are true.** A derived text is refused only because its parentheses nest
deeper than allowed, because it has more nodes than allowed, because of a pool without dice or with
more dice than allowed or than there are in any pool, or because of a number greater than every
outcome; and the error names the limit, the number of dice, or the place of the number. -/
theorem parse_sentence_error (hu : u.text = s.toList) (h : parse limits s = .error error) :
    (error = .tooDeep limits.maxDepth ∧ limits.maxDepth < u.body.depth) ∨
      (error = .tooManyNodes limits.maxNodes ∧ limits.maxNodes < u.body.nodes) ∨
      (∃ count ∈ u.body.pools, error = .diceCount count limits.maxDice ∧
        (count = 0 ∨ limits.maxDice < count ∨ 4294967295 < count)) ∨
      ∃ (n : Digits) (offset : Nat), error = .numberTooLarge offset ∧ n.StandsIn s offset ∧
        9223372036854775807 < n.value := by
  have hjust := justifies_of_parse hu h
  cases error with
  | tooDeep limit =>
    obtain ⟨rfl, hlt⟩ := hjust
    rw [Scan.start, List.length_nil, Nat.zero_add] at hlt
    exact .inl ⟨rfl, hlt⟩
  | tooManyNodes limit =>
    obtain ⟨rfl, hlt⟩ := hjust
    rw [Scan.start, Nat.zero_add] at hlt
    exact .inr (.inl ⟨rfl, hlt⟩)
  | diceCount count limit =>
    obtain ⟨rfl, hmem, hcount⟩ := hjust
    exact .inr (.inr (.inl ⟨count, hmem, rfl, by omega⟩))
  | numberTooLarge place =>
    obtain ⟨n, k, hn, rfl, hfits⟩ := hjust
    have hstands : n.StandsAt u.text (u.before.chars.length + k) :=
      hn.embed u.before.ends_isDigit_reverse u.after.stops.isDigit
    rw [hu] at hstands
    refine .inr (.inr (.inr ⟨n, _, rfl, hstands.standsIn ?_, Nat.lt_of_not_ge hfits⟩))
    rw [← hu]
    exact u.utf8Size_of_mem_text
  | empty | stuck | unexpectedEnd | unexpected | missingFaces | unmatchedClose | unclosed =>
    exact hjust.elim

/-- A number behind an opening parenthesis is one too large. -/
theorem parse_sentence_error_number :
    ∃ u : Sentence, u.text = "3*(9223372036854775808)".toList ∧
      parse {} "3*(9223372036854775808)" = .error (.numberTooLarge 3) ∧
        ∃ n : Digits, n.StandsIn "3*(9223372036854775808)" 3 ∧ 9223372036854775807 < n.value := by
  let three : Derivation .primary := .number ⟨"3".toList, by decide, List.all_eq_true.1 rfl⟩
  let large : Derivation .primary :=
    .number ⟨"9223372036854775808".toList, by decide, List.all_eq_true.1 rfl⟩
  let inner : Derivation .compare := .single nofun (.single nofun (.single nofun large))
  let product : Derivation .multiplicative :=
    .repeated (.single nofun three) .none .mul rfl .none (.enclosed .none inner .none)
  let u : Sentence := ⟨.none, .single nofun (.single nofun product), .none⟩
  have hu : u.text = "3*(9223372036854775808)".toList := by decide
  have h : parse {} "3*(9223372036854775808)" = .error (.numberTooLarge 3) := by decide +kernel
  refine ⟨u, hu, h, ?_⟩
  rcases parse_sentence_error hu h with ⟨he, -⟩ | ⟨he, -⟩ | ⟨_, -, he, -⟩ | ⟨n, offset, he, hn⟩
  · cases he
  · cases he
  · cases he
  · cases he
    exact ⟨n, hn⟩

/-- The limit allows 4294967296 dice, but the error says that it does not. What is wrong with the
text is its size. -/
theorem diceCount_within_limit :
    ∃ u : Sentence, u.text = "4294967296d6".toList ∧ u.body.pools = [4294967296] ∧
      u.body.nodes = 8589934591 ∧
      parse { Limits.unbounded with maxNodes := 100 } "4294967296d6" =
        .error (.diceCount 4294967296 18446744073709551615) ∧
      1 ≤ 4294967296 ∧ 4294967296 ≤ 18446744073709551615 := by
  let pool : Derivation .primary :=
    .pool ⟨"4294967296".toList, by decide, List.all_eq_true.1 rfl⟩
      ⟨"6".toList, by decide, List.all_eq_true.1 rfl⟩
  let body : Derivation .compare := .single nofun (.single nofun (.single nofun pool))
  exact ⟨⟨.none, body, .none⟩, by decide, by decide, by decide, by decide +kernel, by decide,
    by decide⟩

end Priority

end DiceOdds
