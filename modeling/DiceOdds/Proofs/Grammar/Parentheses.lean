import DiceOdds.Proofs.Grammar.Runs
import Mathlib.Data.List.Infix

/-!
# Matching parentheses

A text is balanced if no beginning of it closes more parentheses than it opens and the whole text
closes as many as it opens. The parentheses around a balanced text are a matching pair. In a text
that consists of parts a matching pair cannot begin in a balanced part and end outside of it, and an
opening parenthesis has at most one partner.

## Main definitions

* `Balanced`: the texts that can stand between matching parentheses.
* `Closed`: the texts that close an opening parenthesis in front of them.

## Main results

* `Balanced.append`, `Balanced.parentheses`: putting balanced texts together.
* `Balanced.pair_of_append`: a matching pair lies within one part of a text.
* `Balanced.eq_of_closed`, `Balanced.closed`: partners are unique, and in a balanced text there are
  partners.
* `Derivation.balanced_text`: derived texts are balanced.
-/

namespace DiceOdds

/-- No beginning of the text closes more parentheses than it opens, and the whole text closes as
many as it opens. -/
structure Balanced (t : List Char) : Prop where
  closed_le : ∀ s, s <+: t → s.count ')' ≤ s.count '('
  closed_eq : t.count ')' = t.count '('

instance (t : List Char) : Decidable (Balanced t) :=
  decidable_of_iff ((∀ s ∈ t.inits, s.count ')' ≤ s.count '(') ∧ t.count ')' = t.count '(')
    ⟨fun h => ⟨fun s hs => h.1 s ((List.mem_inits s t).2 hs), h.2⟩,
      fun h => ⟨fun s hs => h.closed_le s ((List.mem_inits s t).1 hs), h.closed_eq⟩⟩

namespace Balanced

variable {t t' before inner after u v w : List Char}

/-! ### Putting texts together -/

theorem of_not_mem (hopening : '(' ∉ t) (hclosing : ')' ∉ t) : Balanced t := by
  refine ⟨fun s hs => ?_, ?_⟩
  · rw [List.count_eq_zero.2 fun h => hclosing (hs.subset h)]
    exact Nat.zero_le _
  · rw [List.count_eq_zero.2 hopening, List.count_eq_zero.2 hclosing]

theorem nil : Balanced [] := of_not_mem List.not_mem_nil List.not_mem_nil

theorem append (h : Balanced t) (h' : Balanced t') : Balanced (t ++ t') := by
  refine ⟨?_, by rw [List.count_append, List.count_append, h.closed_eq, h'.closed_eq]⟩
  rintro s ⟨rest, hs⟩
  rcases List.append_eq_append_iff.1 hs with ⟨r, rfl, -⟩ | ⟨r, rfl, rfl⟩
  · exact h.closed_le s (List.prefix_append s r)
  · have hr := h'.closed_le r (List.prefix_append r rest)
    rw [List.count_append, List.count_append, h.closed_eq]
    omega

theorem parentheses (h : Balanced t) : Balanced ('(' :: (t ++ [')'])) := by
  refine ⟨?_, ?_⟩
  · rintro s ⟨rest, hs⟩
    cases s with
    | nil => exact Nat.zero_le _
    | cons c s =>
      obtain ⟨rfl, hsplit⟩ : c = '(' ∧ s ++ rest = t ++ [')'] := List.cons.inj hs
      have hcount : s.count ')' ≤ s.count '(' + 1 := by
        rcases List.append_eq_append_iff.1 hsplit with ⟨r, rfl, -⟩ | ⟨r, rfl, hr⟩
        · exact Nat.le_succ_of_le (h.closed_le s (List.prefix_append s r))
        · have hle : r.count ')' ≤ [')'].count ')' := by
            rw [hr, List.count_append]
            exact Nat.le_add_right _ _
          rw [List.count_append, List.count_append, h.closed_eq]
          have hone : [')'].count ')' = 1 := rfl
          omega
      simpa using hcount
  · simp [h.closed_eq]

/-! ### Partners -/

/-- What follows an opening parenthesis in a balanced text closes more than it opens. -/
theorem count_lt (h : Balanced (before ++ '(' :: w)) : w.count '(' < w.count ')' := by
  have hbefore := h.closed_le before (List.prefix_append _ _)
  have htotal := h.closed_eq
  simp only [List.count_append, List.count_cons] at htotal
  simp only [beq_self_eq_true, if_true] at htotal
  have hne : (('(' == ')') = false) := rfl
  simp only [hne, Bool.false_eq_true, if_false] at htotal
  omega

/-- A balanced text with one more closing parenthesis begins no balanced text. -/
theorem not_balanced_closed (h : Balanced u) : ¬ Balanced (u ++ ')' :: w) := by
  intro hw
  have hle := hw.closed_le (u ++ [')']) ⟨w, by rw [List.append_assoc]; rfl⟩
  have hone : [')'].count ')' = 1 ∧ [')'].count '(' = 0 := ⟨rfl, rfl⟩
  rw [List.count_append, List.count_append, h.closed_eq] at hle
  omega

/-- A matching pair lies within one part of a text, if the first part is balanced. -/
theorem pair_of_append (hu : Balanced u) (hinner : Balanced inner)
    (h : u ++ v = before ++ '(' :: (inner ++ ')' :: after)) :
    (∃ after', u = before ++ '(' :: (inner ++ ')' :: after') ∧ after = after' ++ v) ∨
      ∃ before', v = before' ++ '(' :: (inner ++ ')' :: after) ∧ before = u ++ before' := by
  rcases List.append_eq_append_iff.1 h with ⟨before', rfl, hv⟩ | ⟨w, rfl, hw⟩
  · exact .inr ⟨before', hv, rfl⟩
  · cases w with
    | nil => exact .inr ⟨[], hw.symm, by simp only [List.append_nil]⟩
    | cons c w =>
      obtain ⟨rfl, hsplit⟩ : c = '(' ∧ w ++ v = inner ++ ')' :: after :=
        (List.cons.inj hw).imp Eq.symm Eq.symm
      have hlt := hu.count_lt
      rcases List.append_eq_append_iff.1 hsplit with ⟨r, rfl, -⟩ | ⟨r, rfl, hr⟩
      · -- The first part would end before the partner.
        have hle := hinner.closed_le w (List.prefix_append w r)
        omega
      · cases r with
        | nil =>
          rw [List.append_nil, hinner.closed_eq] at hlt
          exact absurd hlt (Nat.lt_irrefl _)
        | cons c after' =>
          obtain ⟨rfl, rfl⟩ := List.cons.inj hr
          exact .inl ⟨after', rfl, rfl⟩

/-- The partner of an opening parenthesis is unique. -/
theorem eq_of_closed (hu : Balanced u) (hv : Balanced v) (h : u ++ ')' :: w = v ++ ')' :: after) :
    u = v ∧ w = after := by
  rcases List.append_eq_append_iff.1 h with ⟨r, rfl, hr⟩ | ⟨r, rfl, hr⟩
  · cases r with
    | nil => exact ⟨by rw [List.append_nil], (List.cons.inj hr).2⟩
    | cons c r =>
      obtain ⟨rfl, -⟩ := List.cons.inj hr
      exact absurd hv hu.not_balanced_closed
  · cases r with
    | nil => exact ⟨by rw [List.append_nil], (List.cons.inj hr).2.symm⟩
    | cons c r =>
      obtain ⟨rfl, -⟩ := List.cons.inj hr
      exact absurd hu hv.not_balanced_closed

end Balanced

/-- The text starts with what can stand between parentheses and a closing parenthesis: an opening
parenthesis in front of it has a partner. -/
def Closed (t : List Char) : Prop := ∃ inner rest, t = inner ++ ')' :: rest ∧ Balanced inner

namespace Balanced

theorem not_closed {t : List Char} (h : Balanced t) : ¬ Closed t := by
  rintro ⟨inner, rest, rfl, hinner⟩
  exact hinner.not_balanced_closed h

end Balanced

/-- Either no beginning of a text closes more than it opens, or the text closes a parenthesis in
front of it. -/
theorem closed_le_or_closed (t : List Char) :
    (∀ s, s <+: t → s.count ')' ≤ s.count '(') ∨ Closed t := by
  induction t using List.reverseRecOn with
  | nil =>
    refine .inl fun s hs => ?_
    rw [List.prefix_nil.1 hs]
    exact Nat.le_refl _
  | append_singleton t c ih =>
    rcases ih with hle | ⟨inner, rest, rfl, hinner⟩
    · by_cases hcount : (t ++ [c]).count ')' ≤ (t ++ [c]).count '('
      · refine .inl fun s hs => ?_
        rcases List.prefix_concat_iff.1 hs with rfl | hs
        · exact hcount
        · exact hle s hs
      · have hlast := hle t (List.prefix_refl t)
        rw [List.count_append, List.count_append] at hcount
        by_cases hc : c = ')'
        · subst hc
          have hone : [')'].count ')' = 1 ∧ [')'].count '(' = 0 := ⟨rfl, rfl⟩
          exact .inr ⟨t, [], rfl, hle, by omega⟩
        · rw [List.count_singleton, if_neg (by simpa using hc)] at hcount
          omega
    · exact .inr ⟨inner, rest ++ [c], by rw [List.append_assoc]; rfl, hinner⟩

/-- Every opening parenthesis of a balanced text has a partner. -/
theorem Balanced.closed {before after : List Char} (h : Balanced (before ++ '(' :: after)) :
    Closed after := by
  rcases closed_le_or_closed after with hle | hclosed
  · have hle := hle after (List.prefix_refl after)
    exact absurd h.count_lt (Nat.not_lt.2 hle)
  · exact hclosed

/-! ### Derived texts -/

theorem Blanks.not_mem_opening (b : Blanks) : '(' ∉ b.chars := fun h =>
  absurd (b.all_blank _ h) (by decide)

theorem Blanks.count_opening (b : Blanks) : b.chars.count '(' = 0 :=
  List.count_eq_zero.2 b.not_mem_opening

theorem Blanks.balanced (b : Blanks) : Balanced b.chars :=
  .of_not_mem b.not_mem_opening fun h => absurd (b.all_blank _ h) (by decide)

theorem Digits.not_mem_opening (n : Digits) : '(' ∉ n.chars := fun h =>
  absurd (n.all_digit _ h) (by decide)

theorem Digits.balanced (n : Digits) : Balanced n.chars :=
  .of_not_mem n.not_mem_opening fun h => absurd (n.all_digit _ h) (by decide)

theorem Operator.balanced_symbol (op : Operator) : Balanced [op.symbol] := by
  cases op <;> decide

/-- Derived texts are balanced. -/
theorem Derivation.balanced_text {l : Tier} (d : Derivation l) : Balanced d.text := by
  have hletter : Balanced ['d'] := by decide
  induction d with
  | number n => exact n.balanced
  | die faces => exact hletter.append faces.balanced
  | pool count faces => exact count.balanced.append (hletter.append faces.balanced)
  | enclosed before inner after ih =>
    have henclosed := (before.balanced.append (ih.append after.balanced)).parentheses
    simpa only [text, List.append_assoc] using henclosed
  | single _ _ ih => exact ih
  | repeated left before op _ after right ihl ihr =>
    exact ihl.append
      (before.balanced.append (op.balanced_symbol.append (after.balanced.append ihr)))

end DiceOdds
