import DiceOdds.Proofs.Token.Scanning

/-!
# What has been read of a text

The pass over a text remembers how many parentheses are open and whether an operand comes next. The
text read so far then has a definite shape: up to the innermost open parenthesis it consists of
beginnings of comparisons, each broken off where an operand is missing, and behind it stands either
one more such beginning or a comparison that could end there. Every step of the pass keeps this
shape, so a text that is read to its end is a sentence.

## Main definitions

* `Lead`: a comparison broken off where an operand is missing.
* `Opens`: a text up to its innermost open parenthesis.
* `Progress`: the shape of what has been read.

## Main results

* `Progress.blank`, `Progress.operand`, `Progress.opening`, `Progress.closing`,
  `Progress.operator`: the steps.
* `Progress.exists_sentence`: nothing is missing at the end.
* `Scan.exists_sentence_of_readOn`: a text that is read to its end is a sentence.
-/

namespace DiceOdds

/-- What can stand in front of an operand, from the start of a comparison on. -/
inductive Lead : List Char → Prop where
  | blanks (b : Blanks) : Lead b.chars
  | operator (b : Blanks) (d : Derivation .compare) (before : Blanks) (op : Operator)
      (after : Blanks) :
      Lead (b.chars ++ (d.text ++ (before.chars ++ op.symbol :: after.chars)))

/-- A text that ends with its innermost open parenthesis, or is empty if none is open. -/
inductive Opens : Nat → List Char → Prop where
  | start : Opens 0 []
  | enclosed {depth : Nat} {t lead : List Char} (h : Opens depth t) (hlead : Lead lead) :
      Opens (depth + 1) (t ++ (lead ++ ['(']))

/-- What has been read when a number of parentheses are open and an operand comes next, or does
not. -/
inductive Progress : Nat → Bool → List Char → Prop where
  | wanted {depth : Nat} {t lead : List Char} (h : Opens depth t) (hlead : Lead lead) :
      Progress depth true (t ++ lead)
  | complete {depth : Nat} {t : List Char} (h : Opens depth t) (before : Blanks)
      (d : Derivation .compare) (after : Blanks) :
      Progress depth false (t ++ (before.chars ++ (d.text ++ after.chars)))

/-- One more blank. -/
def Blanks.concat (b : Blanks) (c : Char) (hc : isBlank c = true) : Blanks :=
  ⟨b.chars ++ [c], fun x hx => by
    rcases List.mem_append.1 hx with hx | hx
    · exact b.all_blank x hx
    · rw [List.mem_singleton.1 hx]
      exact hc⟩

theorem Lead.concat {lead : List Char} (h : Lead lead) {c : Char} (hc : isBlank c = true) :
    Lead (lead ++ [c]) := by
  cases h with
  | blanks b => exact .blanks (b.concat c hc)
  | operator b d before op after =>
    have hlead := Lead.operator b d before op (after.concat c hc)
    simpa only [Blanks.concat, List.append_assoc, List.cons_append] using hlead

/-- An operand completes a comparison. -/
theorem Lead.exists_compare {lead : List Char} (h : Lead lead) (p : Derivation .primary) :
    ∃ (b : Blanks) (d : Derivation .compare), lead ++ p.text = b.chars ++ d.text := by
  cases h with
  | blanks b =>
    obtain ⟨d, hd⟩ := Derivation.exists_lift (Tier.strength_le_primary .compare) p
    exact ⟨b, d, by rw [hd.text]⟩
  | operator b d before op after =>
    obtain ⟨d', hd'⟩ := d.exists_insert op (Nat.zero_le _) before after p
    refine ⟨b, d', ?_⟩
    rw [hd'.text]
    simp only [List.append_assoc, List.cons_append]

namespace Progress

variable {depth : Nat} {wanted : Bool} {t : List Char}

theorem start : Progress 0 true [] := .wanted .start (.blanks .none)

theorem blank (h : Progress depth wanted t) {c : Char} (hc : isBlank c = true) :
    Progress depth wanted (t ++ [c]) := by
  cases h with
  | wanted h hlead =>
    rw [List.append_assoc]
    exact .wanted h (hlead.concat hc)
  | complete h before d after =>
    have hcomplete := Progress.complete h before d (after.concat c hc)
    simpa only [Blanks.concat, List.append_assoc] using hcomplete

theorem operand (h : Progress depth true t) (p : Derivation .primary) :
    Progress depth false (t ++ p.text) := by
  cases h with
  | wanted h hlead =>
    obtain ⟨b, d, hd⟩ := hlead.exists_compare p
    have hcomplete := Progress.complete h b d .none
    rw [List.append_assoc, hd]
    simpa only [Blanks.none, List.append_nil] using hcomplete

theorem opening (h : Progress depth true t) : Progress (depth + 1) true (t ++ ['(']) := by
  cases h with
  | wanted h hlead =>
    have hwanted := Progress.wanted (h.enclosed hlead) (.blanks .none)
    rw [List.append_assoc]
    simpa only [Blanks.none, List.append_nil] using hwanted

/-- A closing parenthesis makes what stands behind the innermost open one an operand. -/
theorem closing (h : Progress (depth + 1) false t) : Progress depth false (t ++ [')']) := by
  cases h with
  | complete h before d after =>
    cases h with
    | enclosed h hlead =>
      have hoperand := (Progress.wanted h hlead).operand (.enclosed before d after)
      simpa only [Derivation.text, List.append_assoc, List.cons_append, List.nil_append]
        using hoperand

theorem operator (h : Progress depth false t) (op : Operator) :
    Progress depth true (t ++ [op.symbol]) := by
  cases h with
  | complete h before d after =>
    have hwanted := Progress.wanted h (.operator before d after op .none)
    simpa only [Blanks.none, List.append_assoc, List.cons_append, List.nil_append] using hwanted

theorem exists_sentence (h : Progress 0 false t) : ∃ u : Sentence, u.text = t := by
  cases h with
  | complete h before d after =>
    cases h with
    | start => exact ⟨⟨before, d, after⟩, rfl⟩

end Progress

namespace Scan

variable {limits : Limits}

/-! ### The pass -/

theorem exists_primary_of_number {nodes nodes' : Nat} {c c' : Cursor} {e : Expr}
    (hc : c.digits ≠ []) (h : number limits nodes c = .ok (e, nodes', c')) :
    ∃ p : Derivation .primary, c.rest = p.text ++ c'.rest := by
  obtain ⟨m, _, hm⟩ := Cursor.exists_digits hc
  rw [number] at h
  split at h
  · next d hd =>
    have hrest := Cursor.rest_of_take? hd
    by_cases hdigits : d.digits = []
    · simp only [faces, hdigits, if_true] at h
      cases h
    · obtain ⟨n, _, hn⟩ := Cursor.exists_digits hdigits
      simp only [bind, Except.bind, pure, Except.pure] at h
      repeat' split at h
      all_goals cases h
      refine ⟨.pool m n, ?_⟩
      rw [hm, hrest, hn, Derivation.text, List.append_assoc, List.cons_append]
  · simp only [bind, Except.bind, pure, Except.pure] at h
    repeat' split at h
    all_goals cases h
    exact ⟨.number m, hm⟩

theorem exists_primary_of_die {nodes nodes' letter : Nat} {c c' : Cursor} {e : Expr}
    (h : die limits nodes letter c = .ok (e, nodes', c')) :
    ∃ p : Derivation .primary, 'd' :: c.rest = p.text ++ c'.rest := by
  by_cases hdigits : c.digits = []
  · simp only [die, faces, hdigits, if_true, bind, Except.bind] at h
    split at h <;> cases h
  · obtain ⟨n, _, hn⟩ := Cursor.exists_digits hdigits
    rw [die] at h
    simp only [bind, Except.bind, pure, Except.pure] at h
    repeat' split at h
    all_goals cases h
    exact ⟨.die n, by rw [hn]; rfl⟩

theorem of_finish {s : Scan} {tokens : List Token} (h : s.finish = .ok tokens) :
    s.wanted = false ∧ s.opened = [] := by
  rw [finish] at h
  split at h
  · cases h
  · split at h
    · cases h
    · next hwanted =>
      split at h
      · cases h
      · next hopened => exact ⟨eq_false_of_ne_true hwanted, hopened⟩

/-- A text that is read to its end is a sentence. -/
theorem exists_sentence_of_readOn {s : Scan} {c : Cursor} {tokens : List Token} {t : List Char}
    (hread : readOn limits s c = .ok tokens) (h : Progress s.opened.length s.wanted t) :
    ∃ u : Sentence, u.text = t ++ c.rest := by
  fun_induction readOn limits s c generalizing t
  case case1 s offset =>
    obtain ⟨hwanted, hopened⟩ := of_finish hread
    rw [hwanted, hopened] at h
    obtain ⟨u, hu⟩ := h.exists_sentence
    exact ⟨u, by rw [hu, List.append_nil]⟩
  case case2 s offset x rest next hx ih =>
    obtain ⟨u, hu⟩ := ih hread (h.blank hx)
    exact ⟨u, by rw [hu, List.append_assoc]; rfl⟩
  case case4 s offset x rest hx hs hdigit e nodes behind hnumber ih =>
    have hc : (Cursor.mk offset (x :: rest)).digits ≠ [] := by simp [Cursor.digits, hdigit]
    obtain ⟨p, hp⟩ := exists_primary_of_number hc hnumber
    rw [hs] at h
    obtain ⟨u, hu⟩ := ih hread (h.operand p)
    exact ⟨u, by rw [hu, List.append_assoc, ← hp]⟩
  case case6 s offset rest hs e nodes behind next hx hdigit hdie ih =>
    obtain ⟨p, hp⟩ := exists_primary_of_die hdie
    rw [hs] at h
    obtain ⟨u, hu⟩ := ih hread (h.operand p)
    exact ⟨u, by rw [hu, List.append_assoc, ← hp]⟩
  case case8 s offset rest hs hdepth next hx hdigit hd ih =>
    simp only [hs] at h ih hread
    obtain ⟨u, hu⟩ := ih hread h.opening
    exact ⟨u, by rw [hu, List.append_assoc]; rfl⟩
  case case11 s offset rest hs opening opened hopened next hx ih =>
    simp only [eq_false_of_ne_true hs, hopened] at h ih hread
    obtain ⟨u, hu⟩ := ih hread h.closing
    exact ⟨u, by rw [hu, List.append_assoc]; rfl⟩
  case case14 s offset x rest next hx hs hclose op hop nodes hcount ih =>
    rw [eq_false_of_ne_true hs] at h
    obtain ⟨u, hu⟩ := ih hread (h.operator op)
    exact ⟨u, by rw [hu, List.append_assoc, Operator.ofSymbol?_eq_some_iff.1 hop]; rfl⟩
  -- The remaining rounds stop with an error.
  all_goals cases hread

end Scan

end DiceOdds
