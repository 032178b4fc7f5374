import DiceOdds.Proofs.Reading.Descent
import DiceOdds.Proofs.Reading.Priority

/-!
# Both ways to read agree

Descent and priority read the same texts, as the same expressions: for both these are the sentences
of the grammar within the limits. They also agree on the texts that hold nothing but blanks, the
only ones they report as empty.

## Main results

* `Descent.parse_eq_empty_iff`, `Priority.parse_eq_empty_iff`: which texts are empty.
* `Expr.parse_descent_iff_parse_priority`: both ways are the same partial function.
-/

namespace DiceOdds

theorem Descent.parse_eq_empty_iff {limits : Limits} {s : String} :
    Descent.parse limits s = .error .empty ↔ s.toList.all isBlank = true := by
  refine ⟨fun h => ?_, fun h => by rw [Descent.parse, if_pos h]⟩
  rw [Descent.parse] at h
  split at h
  · assumption
  · repeat' split at h
    all_goals cases h

namespace Scan

variable {limits : Limits}

/-! ### Operands are not empty -/

theorem bind_ne_empty {α β : Type} {m : Except ParseError α} {f : α → Except ParseError β}
    (hm : m ≠ .error .empty) (hf : ∀ a, f a ≠ .error .empty) : m >>= f ≠ .error .empty := by
  cases m with
  | error x =>
    rintro ⟨⟩
    exact hm rfl
  | ok a => exact hf a

theorem count_ne_empty (nodes more : Nat) : count limits nodes more ≠ .error .empty := by
  rw [count]
  split <;> rintro ⟨⟩

theorem faces_ne_empty (letter : Nat) (c : Cursor) : faces letter c ≠ .error .empty := by
  rw [faces]
  repeat' split
  all_goals rintro ⟨⟩

theorem dice_ne_empty (offset : Nat) (digits : List Char) :
    dice limits offset digits ≠ .error .empty := by
  unfold dice
  dsimp only
  repeat' split
  all_goals rintro ⟨⟩

theorem constant_ne_empty (offset : Nat) (digits : List Char) :
    constant offset digits ≠ .error .empty := by
  rw [constant]
  split <;> rintro ⟨⟩

theorem number_ne_empty (nodes : Nat) (c : Cursor) : number limits nodes c ≠ .error .empty := by
  rw [number]
  split
  · refine bind_ne_empty (faces_ne_empty _ _) fun n => ?_
    refine bind_ne_empty (dice_ne_empty _ _) fun k => ?_
    exact bind_ne_empty (count_ne_empty _ _) fun nodes => by rintro ⟨⟩
  · refine bind_ne_empty (count_ne_empty _ _) fun nodes => ?_
    exact bind_ne_empty (constant_ne_empty _ _) fun e => by rintro ⟨⟩

theorem die_ne_empty (nodes letter : Nat) (c : Cursor) :
    die limits nodes letter c ≠ .error .empty := by
  refine bind_ne_empty (count_ne_empty _ _) fun nodes => ?_
  exact bind_ne_empty (faces_ne_empty _ _) fun n => by rintro ⟨⟩

/-! ### Empty texts -/

theorem of_finish_eq_empty {s : Scan} (h : s.finish = .error .empty) :
    s.tokens = [] ∧ s.opened = [] := by
  rw [finish] at h
  split at h
  · next htokens hopened => exact ⟨htokens, hopened⟩
  · repeat' split at h
    all_goals cases h

/-- Only blanks are passed over before a text is reported as empty. -/
theorem of_readOn_eq_empty {s : Scan} {c : Cursor} (hnotes : s.wanted = false → s.tokens ≠ [])
    (h : readOn limits s c = .error .empty) :
    s.tokens = [] ∧ s.opened = [] ∧ c.rest.all isBlank = true := by
  fun_induction readOn limits s c
  case case1 s offset =>
    obtain ⟨htokens, hopened⟩ := of_finish_eq_empty h
    exact ⟨htokens, hopened, rfl⟩
  case case2 s offset x rest next hx ih =>
    obtain ⟨htokens, hopened, hrest⟩ := ih hnotes h
    exact ⟨htokens, hopened, by rw [List.all_cons, hx, hrest]; rfl⟩
  case case3 s offset x rest hx hs hdigit error hnumber =>
    cases h
    exact absurd hnumber (number_ne_empty _ _)
  case case4 s offset x rest hx hs hdigit e nodes behind hnumber ih =>
    cases (ih (fun _ => List.cons_ne_nil _ _) h).1
  case case5 s offset rest hs error next hx hdigit hdie =>
    cases h
    exact absurd hdie (die_ne_empty _ _ _)
  case case6 s offset rest hs e nodes behind next hx hdigit hdie ih =>
    cases (ih (fun _ => List.cons_ne_nil _ _) h).1
  case case8 s offset rest hs hdepth next hx hdigit hd ih =>
    cases (ih (fun hwanted => absurd hs (ne_true_of_eq_false hwanted)) h).2.1
  case case11 s offset rest hwanted opening opened hopened next hx ih =>
    exact absurd (ih hnotes h).1 (hnotes (eq_false_of_ne_true hwanted))
  case case13 s offset x rest hx hs hclose op hop error hcount =>
    cases h
    exact absurd hcount (count_ne_empty _ _)
  case case14 s offset x rest next hx hs' hclose op hop nodes hcount ih =>
    cases (ih (fun _ => List.cons_ne_nil _ _) h).1
  -- The remaining rounds stop at a character or a limit.
  all_goals cases h

end Scan

namespace Priority

variable {limits : Limits} {s : String}

theorem parse_eq_empty_iff : parse limits s = .error .empty ↔ s.toList.all isBlank = true := by
  refine ⟨fun h => ?_, fun h => ?_⟩
  · cases htokens : Token.scan limits s with
    | error error =>
      rw [parse, htokens] at h
      cases h
      exact (Scan.of_readOn_eq_empty (by rintro ⟨⟩) htokens).2.2
    | ok tokens =>
      obtain ⟨e, he⟩ := exists_parse_of_scan htokens
      rw [h] at he
      cases he
  · let b : Blanks := ⟨s.toList, fun c hc => List.all_eq_true.1 h c hc⟩
    have hread := Scan.readOn_blanks limits 0 b (s := .start) []
    rw [List.append_nil, Scan.readOn_nil] at hread
    have hscan : Token.scan limits s = .error .empty := hread
    rw [parse, hscan]

end Priority

namespace Expr

/-- Both ways read exactly the sentences within the limits. -/
theorem parse_iff_sentence {strategy : Strategy} {limits : Limits} {s : String} {e : Expr} :
    parse strategy limits s = .ok e ↔
      ∃ u : Sentence, u.text = s.toList ∧ u.expr = e ∧ u.Within limits := by
  cases strategy with
  | descent =>
    refine ⟨Descent.exists_within_of_parse, ?_⟩
    rintro ⟨u, hu, rfl, h⟩
    exact Descent.parse_of_within hu h
  | priority =>
    refine ⟨Priority.exists_within_of_parse, ?_⟩
    rintro ⟨u, hu, rfl, h⟩
    exact (Priority.leads_parse hu).eq h

theorem exists_error_iff {strategy : Strategy} {limits : Limits} {s : String} :
    (∃ x, parse strategy limits s = .error x) ↔ ¬ ∃ e, parse strategy limits s = .ok e := by
  cases parse strategy limits s with
  | error x => simp
  | ok e => simp

/-- **Both ways to read agree.** A text is read by descent as an expression exactly when it is read
by priority as this expression; so both refuse the same texts, and they report the same texts as
empty. -/
theorem parse_descent_iff_parse_priority (limits : Limits) (s : String) :
    (∀ e, parse .descent limits s = .ok e ↔ parse .priority limits s = .ok e) ∧
      ((∃ x, parse .descent limits s = .error x) ↔ ∃ x, parse .priority limits s = .error x) ∧
        (parse .descent limits s = .error .empty ↔ parse .priority limits s = .error .empty) := by
  have hagree : ∀ e, parse .descent limits s = .ok e ↔ parse .priority limits s = .ok e :=
    fun e => parse_iff_sentence.trans parse_iff_sentence.symm
  refine ⟨hagree, ?_, ?_⟩
  · rw [exists_error_iff, exists_error_iff]
    exact not_congr (exists_congr hagree)
  · exact Descent.parse_eq_empty_iff.trans Priority.parse_eq_empty_iff.symm

end Expr

end DiceOdds
