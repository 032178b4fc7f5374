import DiceOdds.Proofs.Token.Justification
import DiceOdds.Proofs.Token.Steps

/-!
# Where the pass over a text gets stuck

At every position of a text the pass either takes a step, meets a limit or is stuck, and where it is
stuck it fails under all limits. A text that fails, but not because of a limit, is therefore read
step by step up to a position at which the pass is stuck, and the error is about this position.

## Main definitions

* `ParseError.OnLimit`: the errors about limits.
* `Scan.Stuck`: the positions without a step, with the errors there.
* `Scan.GoesOn`: what can happen at a position.

## Main results

* `Scan.Stuck.exists_error`: where the pass is stuck it fails under all limits.
* `Scan.goesOn_cons`: in front of a character there is a step, a limit or neither.
* `Scan.Reads.exists_stuck`: a text that fails is read up to a position at which the pass is stuck.
-/

namespace DiceOdds

/-- The error is about a limit. -/
def ParseError.OnLimit : ParseError → Prop
  | numberTooLarge _ => True
  | diceCount _ _ => True
  | tooDeep _ => True
  | tooManyNodes _ => True
  | _ => False

theorem Derivation.Justifies.onLimit {limits : Limits} {s : Scan} {offset : Nat} {l : Tier}
    {d : Derivation l} {error : ParseError} (h : d.Justifies limits s offset error) :
    error.OnLimit := by
  cases error with
  | numberTooLarge | diceCount | tooDeep | tooManyNodes => trivial
  | empty | stuck | unexpectedEnd | unexpected | missingFaces | unmatchedClose | unclosed =>
    exact h.elim

namespace Scan

/-- At a position the pass neither takes a step nor ends, and the error tells what is missing or in
the way. -/
inductive Stuck (s : Scan) : Cursor → ParseError → Prop where
  | ended {offset : Nat} {error : ParseError} (h : s.finish = .error error) :
      Stuck s ⟨offset, []⟩ error
  | noOperand {offset : Nat} {x : Char} {rest : List Char} (hs : s.wanted = true)
      (hblank : isBlank x = false) (hx : startsOperand x = false) :
      Stuck s ⟨offset, x :: rest⟩ (.unexpected x offset)
  | noOperator {offset : Nat} {x : Char} {rest : List Char} (hs : s.wanted = false)
      (hblank : isBlank x = false) (hclose : x ≠ ')') (hx : Operator.ofSymbol? x = none) :
      Stuck s ⟨offset, x :: rest⟩ (.unexpected x offset)
  | noOpening {offset : Nat} {rest : List Char} (hs : s.wanted = false) (hopened : s.opened = []) :
      Stuck s ⟨offset, ')' :: rest⟩ (.unmatchedClose offset)
  | noFaces {offset : Nat} {digits rest : List Char} (hs : s.wanted = true)
      (hdigits : ∀ c ∈ digits, c.isDigit = true) (hrest : Ends Char.isDigit rest) :
      Stuck s ⟨offset, digits ++ 'd' :: rest⟩ (.missingFaces (offset + digits.length))

variable (limits : Limits) {s : Scan} {offset : Nat}

/-! ### Failing under all limits -/

theorem readOn_noOperand (hs : s.wanted = true) {x : Char} (hblank : isBlank x = false)
    (hx : startsOperand x = false) (rest : List Char) :
    readOn limits s ⟨offset, x :: rest⟩ = .error (.unexpected x offset) := by
  simp only [startsOperand, Bool.or_eq_false_iff, decide_eq_false_iff_not] at hx
  rw [readOn]
  simp only [hblank, hs, hx.1.1, hx.1.2, hx.2, if_true, Bool.false_eq_true, if_false, dite_false]

theorem readOn_noOperator (hs : s.wanted = false) {x : Char} (hblank : isBlank x = false)
    (hclose : x ≠ ')') (hx : Operator.ofSymbol? x = none) (rest : List Char) :
    readOn limits s ⟨offset, x :: rest⟩ = .error (.unexpected x offset) := by
  rw [readOn]
  simp only [hblank, hs, hclose, hx, Bool.false_eq_true, if_false]

theorem readOn_noOpening (hs : s.wanted = false) (hopened : s.opened = []) (rest : List Char) :
    readOn limits s ⟨offset, ')' :: rest⟩ = .error (.unmatchedClose offset) := by
  have hblank : isBlank ')' = false := rfl
  rw [readOn]
  simp only [hblank, hs, hopened, Bool.false_eq_true, if_false, if_true]

theorem faces_missing (letter : Nat) {rest : List Char} (hrest : Ends Char.isDigit rest) :
    faces letter ⟨offset, rest⟩ = .error (.missingFaces letter) := by
  rw [faces, if_pos (Cursor.digits_eq_nil hrest)]

/-- A die counts as a node before its faces are missed. -/
theorem readOn_die_missing (hs : s.wanted = true) {rest : List Char}
    (hrest : Ends Char.isDigit rest) :
    readOn limits s ⟨offset, 'd' :: rest⟩ =
      (count limits s.nodes 1).bind fun _ => .error (.missingFaces offset) := by
  rw [readOn_die limits offset hs, die, faces_missing offset hrest]
  cases count limits s.nodes 1 <;> rfl

/-- The faces of a pool are missed before anything else. -/
theorem readOn_pool_missing (hs : s.wanted = true) (n : Digits) {rest : List Char}
    (hrest : Ends Char.isDigit rest) :
    readOn limits s ⟨offset, n.chars ++ 'd' :: rest⟩ =
      .error (.missingFaces (offset + n.chars.length)) := by
  obtain ⟨c, cs, hcs, hc⟩ := n.exists_eq_cons
  have hd : Ends Char.isDigit ('d' :: rest) := Ends.cons rfl _
  have hnumber : number limits s.nodes ⟨offset, n.chars ++ 'd' :: rest⟩ =
      .error (.missingFaces (offset + n.chars.length)) := by
    rw [number, n.skipDigits_append offset hd, Cursor.take?_cons]
    simp only [faces_missing _ hrest]
    rfl
  rw [hcs, List.cons_append, readOn_number limits offset hs hc, ← List.cons_append, ← hcs, hnumber]
  rfl

/-- What is missing at the end of a text. -/
theorem of_finish_eq_error {error : ParseError} (h : s.finish = .error error) :
    error = .empty ∨ error = .unexpectedEnd ∨
      ∃ opening opened, s.opened = opening :: opened ∧ error = .unclosed opening := by
  rw [finish] at h
  split at h
  · cases h
    exact .inl rfl
  · split at h
    · cases h
      exact .inr (.inl rfl)
    · split at h
      · next opening opened hopened =>
        cases h
        exact .inr (.inr ⟨opening, opened, hopened, rfl⟩)
      · cases h

/-- Where the pass is stuck it fails, whatever the limits are, and if not because of them, then with
the error that tells why. -/
theorem Stuck.exists_error {c : Cursor} {error : ParseError} (h : Stuck s c error) :
    ∃ error', readOn limits s c = .error error' ∧ (error' = error ∨ error'.OnLimit) := by
  cases h with
  | ended h => exact ⟨error, by rw [readOn_nil, h], .inl rfl⟩
  | noOperand hs hblank hx => exact ⟨_, readOn_noOperand limits hs hblank hx _, .inl rfl⟩
  | noOperator hs hblank hclose hx =>
    exact ⟨_, readOn_noOperator limits hs hblank hclose hx _, .inl rfl⟩
  | noOpening hs hopened => exact ⟨_, readOn_noOpening limits hs hopened _, .inl rfl⟩
  | @noFaces offset digits rest hs hdigits hrest =>
    by_cases hnil : digits = []
    · subst hnil
      rw [List.nil_append, readOn_die_missing limits hs hrest, List.length_nil, Nat.add_zero]
      cases hcount : count limits s.nodes 1 with
      | error x =>
        rw [(of_count_eq_error hcount).1]
        exact ⟨_, rfl, .inr trivial⟩
      | ok nodes => exact ⟨_, rfl, .inl rfl⟩
    · let n : Digits := ⟨digits, hnil, hdigits⟩
      exact ⟨_, readOn_pool_missing limits hs n hrest, .inl rfl⟩

end Scan

/-! ### What stands at a position -/

/-- A text starts with a run of digits, which may be empty. -/
theorem exists_digits_run (t : List Char) :
    ∃ digits rest, t = digits ++ rest ∧ (∀ c ∈ digits, c.isDigit = true) ∧
      Ends Char.isDigit rest := by
  refine ⟨t.takeWhile Char.isDigit, t.dropWhile Char.isDigit, ?_, all_takeWhile, ?_⟩
  · exact List.takeWhile_append_dropWhile.symm
  · induction t with
    | nil => exact Ends.nil _
    | cons c t ih =>
      rw [List.dropWhile_cons]
      split
      · exact ih
      · next hc => exact Ends.cons (eq_false_of_ne_true hc) t

/-- A text that starts with a digit or with the letter `d` starts with a number, a die or a pool,
unless the faces are missing. -/
theorem exists_operand_or_noFaces {x : Char} (hx : continuesNumber x = true) (tail : List Char) :
    (∃ (p : Derivation .primary) (rest : List Char), x :: tail = p.text ++ rest ∧
      p.StandsBefore rest) ∨
      ∃ digits rest, x :: tail = digits ++ 'd' :: rest ∧ (∀ c ∈ digits, c.isDigit = true) ∧
        Ends Char.isDigit rest := by
  obtain ⟨digits, behind, hsplit, hdigits, hbehind⟩ := exists_digits_run (x :: tail)
  by_cases hd : ∃ t, behind = 'd' :: t
  · obtain ⟨t, rfl⟩ := hd
    obtain ⟨faces, rest, rfl, hfaces, hrest⟩ := exists_digits_run t
    by_cases hnone : faces = []
    · subst hnone
      exact .inr ⟨digits, rest, hsplit, hdigits, hrest⟩
    by_cases hnil : digits = []
    · subst hnil
      exact .inl ⟨.die ⟨faces, hnone, hfaces⟩, rest, hsplit, hrest⟩
    · refine .inl ⟨.pool ⟨digits, hnil, hdigits⟩ ⟨faces, hnone, hfaces⟩, rest, ?_, hrest⟩
      rw [hsplit, Derivation.text, List.append_assoc, List.cons_append]
  · have hstops : Stops behind := by
      intro c hc
      rw [continuesNumber, hbehind c hc, Bool.false_or, decide_eq_false_iff_not]
      rintro rfl
      cases behind with
      | nil => cases hc
      | cons y t =>
        cases hc
        exact hd ⟨t, rfl⟩
    by_cases hnil : digits = []
    · subst hnil
      rw [List.nil_append] at hsplit
      rw [← hsplit] at hstops
      exact absurd ((hstops x rfl).symm.trans hx) Bool.false_ne_true
    · exact .inl ⟨.number ⟨digits, hnil, hdigits⟩, behind, hsplit, hstops⟩

namespace Scan

variable {limits : Limits} {s : Scan}

/-! ### Steps up to an error -/

/-- The pass takes a step at a position, meets a limit there or is stuck. -/
def GoesOn (limits : Limits) (s : Scan) (c : Cursor) : Prop :=
  (∃ u rest s', c.rest = u ++ rest ∧ Step limits c.offset rest s u s') ∨
    (∃ error, readOn limits s c = .error error ∧ error.OnLimit) ∨ ∃ error, Stuck s c error

theorem goesOn_of_wanted (hdepth : s.opened.length ≤ limits.maxDepth) (hs : s.wanted = true)
    (offset : Nat) {x : Char} (hblank : isBlank x = false) (tail : List Char) :
    GoesOn limits s ⟨offset, x :: tail⟩ := by
  by_cases hnumber : continuesNumber x = true
  · rcases exists_operand_or_noFaces hnumber tail with
      ⟨p, rest, hsplit, hp⟩ | ⟨digits, rest, hsplit, hdigits, hrest⟩
    · rw [hsplit]
      by_cases hfits : p.Fits limits.maxDice ∧ s.nodes + p.nodes ≤ limits.maxNodes
      · exact .inl ⟨p.text, rest, _, rfl, .operand hs p hp hfits.1 hfits.2⟩
      · obtain ⟨error, herror⟩ := (leads_readOn_operand limits offset hs p hp).fails hfits
        have hjust := p.justifies_of_readOn_operand hs hp hfits herror
        exact .inr (.inl ⟨error, herror, hjust.onLimit⟩)
    · rw [hsplit]
      exact .inr (.inr ⟨_, .noFaces hs hdigits hrest⟩)
  by_cases hopening : x = '('
  · subst hopening
    by_cases hlt : s.opened.length < limits.maxDepth
    · exact .inl ⟨['('], tail, _, rfl, .opening hs hlt⟩
    · have hread := readOn_open limits offset hs tail
      rw [if_pos (by omega)] at hread
      exact .inr (.inl ⟨_, hread, trivial⟩)
  · have hx : startsOperand x = false := by
      have hnumber := eq_false_of_ne_true hnumber
      rw [continuesNumber] at hnumber
      rw [startsOperand, hnumber, Bool.false_or, decide_eq_false_iff_not]
      exact hopening
    exact .inr (.inr ⟨_, .noOperand hs hblank hx⟩)

theorem goesOn_of_not_wanted (hs : s.wanted = false) (offset : Nat) {x : Char}
    (hblank : isBlank x = false) (tail : List Char) : GoesOn limits s ⟨offset, x :: tail⟩ := by
  by_cases hclose : x = ')'
  · subst hclose
    cases hopened : s.opened with
    | nil => exact .inr (.inr ⟨_, .noOpening hs hopened⟩)
    | cons opening opened => exact .inl ⟨[')'], tail, _, rfl, .closing hs hopened⟩
  cases hop : Operator.ofSymbol? x with
  | none => exact .inr (.inr ⟨_, .noOperator hs hblank hclose hop⟩)
  | some op =>
    rw [Operator.ofSymbol?_eq_some_iff.1 hop]
    by_cases hnodes : s.nodes + 1 ≤ limits.maxNodes
    · exact .inl ⟨[op.symbol], tail, _, rfl, .operator hs op hnodes⟩
    · have hread := readOn_operator limits offset hs op tail
      rw [count, if_pos (Nat.lt_of_not_ge hnodes)] at hread
      exact .inr (.inl ⟨_, hread, trivial⟩)

/-- In front of a character the pass takes a step, meets a limit or is stuck. -/
theorem goesOn_cons (hdepth : s.opened.length ≤ limits.maxDepth) (offset : Nat) (x : Char)
    (tail : List Char) : GoesOn limits s ⟨offset, x :: tail⟩ := by
  cases hblank : isBlank x with
  | true => exact .inl ⟨[x], tail, s, rfl, .blank hblank⟩
  | false =>
    cases hs : s.wanted with
    | true => exact goesOn_of_wanted hdepth hs offset hblank tail
    | false => exact goesOn_of_not_wanted hs offset hblank tail

/-- **Reading up to an error.** A text that fails, but not because of a limit, is read step by step
up to a position at which the pass is stuck with this error. -/
theorem Reads.exists_stuck {t rest : List Char} {s : Scan} {error : ParseError}
    (h : Reads limits t rest s) (hread : readOn limits s ⟨t.length, rest⟩ = .error error)
    (herror : ¬ error.OnLimit) :
    ∃ t' rest' s', t ++ rest = t' ++ rest' ∧ Reads limits t' rest' s' ∧
      Stuck s' ⟨t'.length, rest'⟩ error := by
  match rest with
  | [] => exact ⟨t, [], s, rfl, h, .ended (by rwa [readOn_nil] at hread)⟩
  | x :: tail =>
    rcases goesOn_cons h.regular.depth_le t.length x tail with
      ⟨u, rest', s', hsplit, hstep⟩ | ⟨error', hread', hlimit⟩ | ⟨error', hstuck⟩
    · have hsplit : x :: tail = u ++ rest' := hsplit
      rw [hsplit] at h hread
      rw [hstep.readOn_eq, ← List.length_append] at hread
      have hlt : rest'.length < (x :: tail).length := by
        have hpos := List.length_pos_iff.2 hstep.ne_nil
        rw [hsplit, List.length_append]
        omega
      obtain ⟨t', rest'', s'', ht, hreads, hstuck⟩ := (h.step hstep).exists_stuck hread herror
      exact ⟨t', rest'', s'', by rw [hsplit, ← List.append_assoc, ht], hreads, hstuck⟩
    · cases hread.symm.trans hread'
      exact absurd hlimit herror
    · obtain ⟨error'', hread'', rfl | hlimit⟩ := hstuck.exists_error limits
      · cases hread.symm.trans hread''
        exact ⟨t, x :: tail, s, rfl, h, hstuck⟩
      · cases hread.symm.trans hread''
        exact absurd hlimit herror
termination_by rest.length
decreasing_by exact hlt

end Scan

end DiceOdds
