import DiceOdds.EvalError
import DiceOdds.Proofs.Token.Scanning

/-!
# What errors about limits say

When the pass over a text fails inside a derivation, then because of a limit, and what the error
says is true of the derivation: its parentheses nest too deeply, it has too many nodes, one of its
pools has a number of dice that there is no pool of, or one of its numbers is too large. The
checks come in an order that depends on the text, but each of them fails for a reason of its own, so
the reasons are read off the errors.

## Main definitions

* `Digits.StandsAt`: a run of digits that a text does not continue on either side.
* `Derivation.pools`: the numbers of dice of the pools.
* `Derivation.Justifies`: what an error says is true of a derivation.

## Main results

* `Derivation.Justifies.embed`: what is true of a part is true of the whole.
* `Derivation.justifies_of_readOn_operand`: errors at a number, a die or a pool.
* `Derivation.justifies_of_readOn`: errors inside a derivation.
-/

namespace DiceOdds

/-! ### Runs of digits in a text -/

/-- The digits stand in a text behind a number of characters, and neither the character in front of
them nor the one behind them is a digit. -/
def Digits.StandsAt (n : Digits) (t : List Char) (k : Nat) : Prop :=
  ∃ before after, t = before ++ (n.chars ++ after) ∧ before.length = k ∧
    Ends Char.isDigit before.reverse ∧ Ends Char.isDigit after

namespace Digits.StandsAt

variable {n : Digits} {t : List Char} {k : Nat}

/-- A text that neither ends nor goes on with a digit around a part leaves the runs of the part as
they are. -/
theorem embed (h : n.StandsAt t k) {pre post : List Char} (hpre : Ends Char.isDigit pre.reverse)
    (hpost : Ends Char.isDigit post) : n.StandsAt (pre ++ (t ++ post)) (pre.length + k) := by
  obtain ⟨before, after, rfl, rfl, hbefore, hafter⟩ := h
  refine ⟨pre ++ before, after ++ post, ?_, List.length_append, ?_, hafter.concat hpost⟩
  · simp only [List.append_assoc]
  · rw [List.reverse_append]
    exact hbefore.concat hpre

end Digits.StandsAt

namespace Derivation

/-- The numbers of dice of the pools, from left to right. -/
def pools {l : Tier} : Derivation l → List Nat
  | number _ => []
  | die _ => []
  | pool count _ => [count.value]
  | enclosed _ inner _ => inner.pools
  | single _ part => part.pools
  | repeated left _ _ _ _ right => left.pools ++ right.pools

/-- What an error says about the limits is true of a derivation that is read at an offset, behind
what is remembered. -/
def Justifies (limits : Limits) (s : Scan) (offset : Nat) {l : Tier} (d : Derivation l) :
    ParseError → Prop
  | .tooDeep limit => limit = limits.maxDepth ∧ limit < s.opened.length + d.depth
  | .tooManyNodes limit => limit = limits.maxNodes ∧ limit < s.nodes + d.nodes
  | .diceCount count limit =>
    limit = limits.maxDice ∧ count ∈ d.pools ∧ ¬ (1 ≤ count ∧ count ≤ min limit 4294967295)
  | .numberTooLarge place =>
    ∃ (n : Digits) (k : Nat), n.StandsAt d.text k ∧ place = offset + k ∧ ¬ n.Fits
  | _ => False

/-- What an error says about a part is true of the whole. -/
theorem Justifies.embed {limits : Limits} {s s' : Scan} {offset offset' : Nat} {l l' : Tier}
    {d : Derivation l} {d' : Derivation l'} {error : ParseError}
    (h : d.Justifies limits s offset error) (pre post : List Char)
    (htext : d'.text = pre ++ (d.text ++ post)) (hoffset : offset = offset' + pre.length)
    (hpre : Ends Char.isDigit pre.reverse) (hpost : Ends Char.isDigit post)
    (hdepth : s.opened.length + d.depth ≤ s'.opened.length + d'.depth)
    (hnodes : s.nodes + d.nodes ≤ s'.nodes + d'.nodes) (hpools : d.pools ⊆ d'.pools) :
    d'.Justifies limits s' offset' error := by
  cases error with
  | tooDeep limit => exact ⟨h.1, Nat.lt_of_lt_of_le h.2 hdepth⟩
  | tooManyNodes limit => exact ⟨h.1, Nat.lt_of_lt_of_le h.2 hnodes⟩
  | diceCount count limit => exact ⟨h.1, hpools h.2.1, h.2.2⟩
  | numberTooLarge place =>
    obtain ⟨n, k, hn, rfl, hfits⟩ := h
    refine ⟨n, pre.length + k, ?_, by omega, hfits⟩
    rw [htext]
    exact hn.embed hpre hpost
  | empty | stuck | unexpectedEnd | unexpected | missingFaces | unmatchedClose | unclosed =>
    exact h.elim

namespace Justifies

variable {limits : Limits} {s : Scan} {offset : Nat} {error : ParseError}

theorem of_inner {before after : Blanks} {inner : Derivation .compare}
    (h : inner.Justifies limits { s with opened := offset :: s.opened }
      (offset + 1 + before.chars.length) error) :
    (enclosed before inner after).Justifies limits s offset error := by
  refine h.embed ('(' :: before.chars) (after.chars ++ [')']) rfl ?_ ?_
    (after.stops_append (Ends.cons rfl _)).isDigit ?_ (Nat.le_refl _) (List.Subset.refl _)
  · rw [List.length_cons]
    omega
  · rw [List.reverse_cons]
    exact before.ends_isDigit_reverse.concat (Ends.cons rfl _)
  · simp only [depth, List.length_cons]
    omega

variable {l : Tier} {left : Derivation l} {before after : Blanks} {op : Operator}
  {hop : op.tier = l} {right : Derivation l.operand}

theorem of_left (h : left.Justifies limits s offset error) :
    (repeated left before op hop after right).Justifies limits s offset error := by
  have hpost : Stops (before.chars ++ op.symbol :: (after.chars ++ right.text)) :=
    before.stops_append (Ends.cons op.continuesNumber_symbol _)
  refine h.embed [] _ rfl rfl (Ends.nil _) hpost.isDigit ?_ ?_ (List.subset_append_left _ _)
  · rw [depth]
    omega
  · rw [nodes]
    omega

theorem of_right (h : right.Justifies limits
      ((left.behind s).addOperator ((left.behind s).nodes + 1) op)
      (offset + left.text.length + before.chars.length + 1 + after.chars.length) error) :
    (repeated left before op hop after right).Justifies limits s offset error := by
  refine h.embed (left.text ++ (before.chars ++ op.symbol :: after.chars)) [] ?_ ?_ ?_ (Ends.nil _)
    ?_ ?_ (List.subset_append_right _ _)
  · simp only [text, List.append_assoc, List.cons_append, List.append_nil]
  · simp only [List.length_append, List.length_cons]
    omega
  · simp only [List.reverse_append, List.reverse_cons, List.append_assoc]
    exact after.ends_isDigit_reverse.concat (Ends.cons op.isDigit_symbol _)
  · simp only [behind, Scan.addOperator, depth]
    omega
  · simp only [behind, Scan.addOperator, nodes]
    omega

end Justifies

end Derivation

/-! ### Operands without parentheses -/

namespace Leads

variable {ε α β : Type} {p : Prop} {r r' : Except ε α} {a : α}

/-- What fails although its first part would go on under a condition fails in this part, without the
condition. -/
theorem eq_error_of_bind (h : Leads p r (.ok a)) (hp : ¬ p) {f : α → Except ε β} {error : ε}
    (hf : r.bind f = .error error) : r = .error error := by
  rcases bind_eq_error_iff.1 hf with hr | ⟨b, hr, -⟩
  · exact hr
  · exact absurd (h.of_eq_ok hr).1 hp

end Leads

namespace Scan

variable {limits : Limits} {s : Scan} {offset nodes : Nat} {error : ParseError}

theorem of_count_eq_error {more : Nat} (h : count limits nodes more = .error error) :
    error = .tooManyNodes limits.maxNodes ∧ limits.maxNodes < nodes + more := by
  rw [count] at h
  split at h
  · next hlt =>
    cases h
    exact ⟨rfl, hlt⟩
  · cases h

theorem of_constant_eq_error {n : Digits} (h : constant offset n.chars = .error error) :
    error = .numberTooLarge offset ∧ ¬ n.Fits := by
  rw [constant] at h
  split at h
  · cases h
  · next hvalue =>
    cases h
    exact ⟨rfl, Digits.not_fits_of_ofInt? hvalue⟩

theorem of_faces_eq_error {letter : Nat} {n : Digits} {rest : List Char}
    (hrest : Ends Char.isDigit rest)
    (h : faces letter ⟨offset, n.chars ++ rest⟩ = .error error) :
    error = .numberTooLarge offset ∧ ¬ n.Fits := by
  have hdigits := n.digits_append offset hrest
  rw [faces, hdigits, if_neg n.ne_nil] at h
  split at h
  · cases h
  · next hvalue =>
    cases h
    exact ⟨rfl, Digits.not_fits_of_ofInt? hvalue⟩

theorem of_dice_eq_error {n : Digits} (h : dice limits offset n.chars = .error error) :
    error = .numberTooLarge offset ∧ ¬ n.Fits ∨
      error = .diceCount n.value limits.maxDice ∧
        ¬ (1 ≤ n.value ∧ n.value ≤ min limits.maxDice 4294967295) := by
  rw [dice_digits] at h
  split at h
  · next hcount =>
    cases h
    rw [maxCount] at hcount
    exact .inl ⟨rfl, by rw [Digits.Fits]; omega⟩
  · split at h
    · cases h
    · next hpool =>
      cases h
      exact .inr ⟨rfl, hpool⟩

theorem of_readOn_open_eq_error (hs : s.wanted = true)
    (hopened : ¬ s.opened.length + 1 ≤ limits.maxDepth)
    (hdepth : s.opened.length ≤ limits.maxDepth) {rest : List Char}
    (h : readOn limits s ⟨offset, '(' :: rest⟩ = .error error) :
    error = .tooDeep limits.maxDepth := by
  rw [readOn_open limits offset hs, if_pos (by omega)] at h
  exact (Except.error.inj h).symm

theorem of_readOn_operator_eq_error (hs : s.wanted = false)
    (hnodes : ¬ s.nodes + 1 ≤ limits.maxNodes) {op : Operator} {rest : List Char}
    (h : readOn limits s ⟨offset, op.symbol :: rest⟩ = .error error) :
    error = .tooManyNodes limits.maxNodes := by
  rw [readOn_operator limits offset hs] at h
  exact (of_count_eq_error ((leads_count limits s.nodes 1).eq_error_of_bind hnodes h)).1

end Scan

/-! ### Errors at an operand -/

namespace Derivation

variable {limits : Limits} {s : Scan} {offset : Nat} {error : ParseError}

theorem justifies_number (n : Digits) {rest : List Char} (hrest : Stops rest)
    (h : Scan.number limits s.nodes ⟨offset, n.chars ++ rest⟩ = .error error) :
    (number n).Justifies limits s offset error := by
  rw [Scan.number_constant limits offset s.nodes n hrest] at h
  rcases bind_eq_error_iff.1 h with hcount | ⟨_, -, hvalue⟩
  · obtain ⟨rfl, hlt⟩ := Scan.of_count_eq_error hcount
    exact ⟨rfl, hlt⟩
  rcases bind_eq_error_iff.1 hvalue with hconstant | ⟨_, -, hok⟩
  · obtain ⟨rfl, hfits⟩ := Scan.of_constant_eq_error hconstant
    exact ⟨n, 0, ⟨[], [], (List.append_nil _).symm, rfl, Ends.nil _, Ends.nil _⟩, rfl, hfits⟩
  · cases hok

theorem justifies_die (n : Digits) {rest : List Char} (hrest : Ends Char.isDigit rest)
    (h : Scan.die limits s.nodes offset ⟨offset + 1, n.chars ++ rest⟩ = .error error) :
    (die n).Justifies limits s offset error := by
  rw [Scan.die_faces limits (offset + 1) s.nodes offset n hrest] at h
  rcases bind_eq_error_iff.1 h with hcount | ⟨_, -, hvalue⟩
  · obtain ⟨rfl, hlt⟩ := Scan.of_count_eq_error hcount
    exact ⟨rfl, hlt⟩
  rcases bind_eq_error_iff.1 hvalue with hfaces | ⟨_, -, hok⟩
  · obtain ⟨rfl, hfits⟩ := Scan.of_faces_eq_error hrest hfaces
    refine ⟨n, 1, ⟨['d'], [], ?_, rfl, Ends.cons rfl _, Ends.nil _⟩, rfl, hfits⟩
    rw [text, List.append_nil, List.singleton_append]
  · cases hok

theorem justifies_pool (m n : Digits) {rest : List Char} (hrest : Ends Char.isDigit rest)
    (h : Scan.number limits s.nodes ⟨offset, m.chars ++ 'd' :: (n.chars ++ rest)⟩ =
      .error error) :
    (pool m n).Justifies limits s offset error := by
  rw [Scan.number_pool limits offset s.nodes m n hrest] at h
  rcases bind_eq_error_iff.1 h with hfaces | ⟨_, -, hpool⟩
  · obtain ⟨rfl, hfits⟩ := Scan.of_faces_eq_error hrest hfaces
    refine ⟨n, m.chars.length + 1, ⟨m.chars ++ ['d'], [], ?_, List.length_append, ?_, Ends.nil _⟩,
      rfl, hfits⟩
    · simp only [text, List.append_nil, List.append_assoc, List.singleton_append]
    · rw [List.reverse_append]
      exact Ends.cons rfl _
  rcases bind_eq_error_iff.1 hpool with hdice | ⟨k, hdice, hnodes⟩
  · rcases Scan.of_dice_eq_error hdice with ⟨rfl, hfits⟩ | ⟨rfl, hcount⟩
    · exact ⟨m, 0, ⟨[], 'd' :: n.chars, rfl, rfl, Ends.nil _, Ends.cons rfl _⟩, rfl, hfits⟩
    · exact ⟨rfl, List.mem_singleton_self _, hcount⟩
  rcases bind_eq_error_iff.1 hnodes with hcount | ⟨_, -, hok⟩
  · obtain ⟨-, rfl⟩ := (Scan.leads_dice limits offset m).of_eq_ok hdice
    obtain ⟨rfl, hlt⟩ := Scan.of_count_eq_error hcount
    exact ⟨rfl, hlt⟩
  · cases hok

/-- An error inside an operand without parentheses is justified by the operand. -/
theorem justifies_of_readOn_operand (hs : s.wanted = true) (p : Derivation .primary)
    {rest : List Char} (hp : p.StandsBefore rest)
    (hfails : ¬ (p.Fits limits.maxDice ∧ s.nodes + p.nodes ≤ limits.maxNodes))
    (h : Scan.readOn limits s ⟨offset, p.text ++ rest⟩ = .error error) :
    p.Justifies limits s offset error := by
  cases p with
  | number n =>
    obtain ⟨c, cs, hcs, hc⟩ := n.exists_eq_cons
    rw [text, hcs, List.cons_append, Scan.readOn_number limits offset hs hc, ← List.cons_append,
      ← hcs] at h
    exact justifies_number n hp
      ((Scan.leads_number_constant limits offset s.nodes n hp).eq_error_of_bind
        (fun hn => hfails hn.symm) h)
  | die faces =>
    rw [text, List.cons_append, Scan.readOn_die limits offset hs] at h
    exact justifies_die faces hp
      ((Scan.leads_die limits (offset + 1) s.nodes offset faces hp).eq_error_of_bind
        (fun hn => hfails hn.symm) h)
  | pool count faces =>
    obtain ⟨c, cs, hcs, hc⟩ := count.exists_eq_cons
    rw [text, List.append_assoc, List.cons_append, hcs, List.cons_append,
      Scan.readOn_number limits offset hs hc, ← List.cons_append, ← hcs] at h
    exact justifies_pool count faces hp
      ((Scan.leads_number_pool limits offset s.nodes count faces hp).eq_error_of_bind
        (fun hn => hfails (and_assoc.2 hn)) h)
  | enclosed => exact hp.elim
  | single hl => exact absurd rfl hl
  | repeated left before op hop => exact absurd hop (by cases op <;> decide)

/-! ### Errors inside a derivation -/

/-- **Errors are justified.** Where a derivation is not allowed, the pass fails inside it, and what
the error says about the limits is true of the derivation. -/
theorem justifies_of_readOn {l : Tier} (d : Derivation l) {rest : List Char}
    (hs : s.wanted = true) (hopened : s.opened.length ≤ limits.maxDepth) (hrest : Stops rest)
    (hfails : ¬ d.Allowed limits s)
    (h : Scan.readOn limits s ⟨offset, d.text ++ rest⟩ = .error error) :
    d.Justifies limits s offset error := by
  induction d generalizing s offset rest with
  | number n =>
    rw [allowed_leaf _ hopened rfl] at hfails
    exact justifies_of_readOn_operand hs (number n) hrest hfails h
  | die faces =>
    rw [allowed_leaf _ hopened rfl] at hfails
    exact justifies_of_readOn_operand hs (die faces) hrest.isDigit hfails h
  | pool count faces =>
    rw [allowed_leaf _ hopened rfl] at hfails
    exact justifies_of_readOn_operand hs (pool count faces) hrest.isDigit hfails h
  | enclosed before inner after ih =>
    let s₁ : Scan := { s with opened := offset :: s.opened }
    have htext : (enclosed before inner after).text ++ rest =
        '(' :: (before.chars ++ (inner.text ++ (after.chars ++ ')' :: rest))) := by
      simp only [text, List.cons_append, List.append_assoc, List.nil_append]
    rw [htext] at h
    by_cases hlt : s.opened.length + 1 ≤ limits.maxDepth
    · rw [(Scan.leads_readOn_open limits offset hs hopened before _).eq hlt] at h
      have hinner : ¬ inner.Allowed limits s₁ := fun hinner =>
        hfails ((allowed_enclosed offset before inner after).2 ⟨hlt, hinner⟩)
      have hjust : inner.Justifies limits s₁ _ error :=
        ih hs hlt (after.stops_append (Ends.cons rfl _)) hinner h
      exact hjust.of_inner
    · rw [Scan.of_readOn_open_eq_error hs hlt hopened h]
      refine ⟨rfl, ?_⟩
      rw [depth]
      omega
  | single hl part ih => exact ih hs hopened hrest hfails h
  | repeated left before op hop after right ihl ihr =>
    let s₁ := left.behind s
    let s₂ := s₁.addOperator (s₁.nodes + 1) op
    rw [text, List.append_assoc, List.append_assoc, List.cons_append, List.append_assoc] at h
    have hstops : Stops (before.chars ++ op.symbol :: (after.chars ++ (right.text ++ rest))) :=
      before.stops_append (Ends.cons op.continuesNumber_symbol _)
    by_cases hleft : left.Allowed limits s
    · rw [(left.leads_readOn limits s offset hs hopened hstops).eq hleft] at h
      by_cases hnodes : s₁.nodes + 1 ≤ limits.maxNodes
      · rw [(Scan.leads_readOn_operator limits _ rfl before op after _).eq hnodes] at h
        have hright : ¬ right.Allowed limits s₂ := fun hright =>
          hfails ((allowed_repeated left before op hop after right).2 ⟨hleft, hnodes, hright⟩)
        have hjust : right.Justifies limits s₂ _ error := ihr rfl hopened hrest hright h
        exact hjust.of_right
      · rw [Scan.readOn_blanks] at h
        rw [Scan.of_readOn_operator_eq_error rfl hnodes h]
        refine ⟨rfl, ?_⟩
        simp only [s₁, behind] at hnodes
        rw [nodes]
        omega
    · have hjust : left.Justifies limits s offset error := ihl hs hopened hstops hleft h
      exact hjust.of_left

end Derivation

end DiceOdds
