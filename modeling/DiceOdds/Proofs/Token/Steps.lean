import DiceOdds.Proofs.Grammar.Parentheses
import DiceOdds.Proofs.Token.Scanning

/-!
# Steps of the pass over a text

The pass over a text goes on in steps: past a blank, an operand without parentheses, a parenthesis
or an operator. What it remembers behind a beginning of the text depends on this beginning alone,
except that the character behind it tells where a last number ends. So the same steps can be taken
in front of another text, and under larger limits.

## Main definitions

* `NoLonger`: a number is not longer in front of one text than in front of another one.
* `Limits.Below`: limits that are nowhere larger than others.
* `Scan.Step`, `Scan.Reads`: one step of the pass, and the steps from the start.
* `Scan.Regular`: what the pass remembers is within the limits and fits together.
* `Opened`: the offsets of the parentheses that a text leaves open.

## Main results

* `Scan.Reads.readOn_eq`: the pass goes on behind what it has read.
* `Scan.Reads.replay`: the same steps in front of another text and under larger limits.
* `Scan.Reads.regular`, `Scan.Reads.opened`, `Scan.Reads.ends_isDigit`: what holds behind every
  beginning.
-/

namespace DiceOdds

/-! ### Where a number ends -/

/-- If `rest'` starts with a character that continues a number, then `rest` starts with the same
one. -/
def NoLonger (rest rest' : List Char) : Prop :=
  ∀ c ∈ rest'.head?, continuesNumber c = true → c ∈ rest.head?

namespace NoLonger

variable {rest rest' : List Char}

theorem of_stops (h : Stops rest') : NoLonger rest rest' := by
  intro c hc hnumber
  rw [h c hc] at hnumber
  cases hnumber

theorem cons (c : Char) (rest rest' : List Char) : NoLonger (c :: rest) (c :: rest') :=
  fun _ hc _ => hc

theorem append {t : List Char} (ht : t ≠ []) (rest rest' : List Char) :
    NoLonger (t ++ rest) (t ++ rest') := by
  obtain ⟨c, cs, rfl⟩ := List.exists_cons_of_ne_nil ht
  exact cons c _ _

theorem ends (h : NoLonger rest rest') {p : Char → Bool}
    (hp : ∀ c, p c = true → continuesNumber c = true) (hrest : Ends p rest) : Ends p rest' := by
  intro c hc
  cases hpc : p c with
  | false => rfl
  | true => rw [← hpc, hrest c (h c hc (hp c hpc))]

theorem standsBefore (h : NoLonger rest rest') {l : Tier} {p : Derivation l}
    (hp : p.StandsBefore rest) : p.StandsBefore rest' := by
  have hdigit : ∀ c, c.isDigit = true → continuesNumber c = true := fun c hc => by
    rw [continuesNumber, hc, Bool.true_or]
  cases p with
  | number n => exact h.ends (fun _ hc => hc) hp
  | die faces => exact h.ends hdigit hp
  | pool count faces => exact h.ends hdigit hp
  | enclosed | single | repeated => exact hp.elim

end NoLonger

/-! ### Larger limits -/

/-- As far as reading goes, the limits are nowhere larger than others. -/
structure Limits.Below (limits limits' : Limits) : Prop where
  depth : limits.maxDepth ≤ limits'.maxDepth
  dice : limits.maxDice ≤ limits'.maxDice
  nodes : limits.maxNodes ≤ limits'.maxNodes

theorem Derivation.Fits.mono {maxDice maxDice' : Nat} (hle : maxDice ≤ maxDice') {l : Tier}
    {d : Derivation l} (h : d.Fits maxDice) : d.Fits maxDice' := by
  induction d with
  | number | die => exact h
  | pool count faces =>
    obtain ⟨hfaces, hpos, hcount⟩ := h
    exact ⟨hfaces, hpos, by omega⟩
  | enclosed _ _ _ ih => exact ih h
  | single _ _ ih => exact ih h
  | repeated _ _ _ _ _ _ ihl ihr => exact ⟨ihl h.1, ihr h.2⟩

namespace Scan

/-! ### Steps -/

/-- At an offset, in front of the rest of the text, the pass goes past some characters. -/
inductive Step (limits : Limits) (offset : Nat) (rest : List Char) (s : Scan) :
    List Char → Scan → Prop where
  | blank {c : Char} (hc : isBlank c = true) : Step limits offset rest s [c] s
  | operand (hs : s.wanted = true) (p : Derivation .primary) (hp : p.StandsBefore rest)
      (hfits : p.Fits limits.maxDice) (hnodes : s.nodes + p.nodes ≤ limits.maxNodes) :
      Step limits offset rest s p.text (s.addOperand (s.nodes + p.nodes) p.expr)
  | opening (hs : s.wanted = true) (hdepth : s.opened.length < limits.maxDepth) :
      Step limits offset rest s ['('] { s with opened := offset :: s.opened }
  | closing (hs : s.wanted = false) {opening : Nat} {opened : List Nat}
      (hopened : s.opened = opening :: opened) : Step limits offset rest s [')'] { s with opened }
  | operator (hs : s.wanted = false) (op : Operator) (hnodes : s.nodes + 1 ≤ limits.maxNodes) :
      Step limits offset rest s [op.symbol] (s.addOperator (s.nodes + 1) op)

/-- From the start of a text the pass goes past some characters in front of the rest. -/
inductive Reads (limits : Limits) : List Char → List Char → Scan → Prop where
  | start (rest : List Char) : Reads limits [] rest .start
  | step {t u rest : List Char} {s s' : Scan} (h : Reads limits t (u ++ rest) s)
      (hstep : Step limits t.length rest s u s') : Reads limits (t ++ u) rest s'

variable {limits limits' : Limits} {offset : Nat} {t u rest rest' : List Char} {s s' : Scan}

namespace Step

/-- Every step goes past at least one character. -/
theorem ne_nil (h : Step limits offset rest s u s') : u ≠ [] := by
  cases h with
  | operand _ p _ _ _ =>
    obtain ⟨c, cs, hcs, -⟩ := p.exists_text_eq_cons
    rw [hcs]
    exact List.cons_ne_nil c cs
  | blank | opening | closing | operator => exact List.cons_ne_nil _ _

theorem readOn_eq (h : Step limits offset rest s u s') :
    readOn limits s ⟨offset, u ++ rest⟩ = readOn limits s' ⟨offset + u.length, rest⟩ := by
  cases h with
  | blank hc => exact readOn_blank limits offset hc rest
  | operand hs p hp hfits hnodes =>
    exact (leads_readOn_operand limits offset hs p hp).eq ⟨hfits, hnodes⟩
  | opening hs hdepth =>
    exact (readOn_open limits offset hs rest).trans (if_neg (Nat.ne_of_lt hdepth))
  | closing hs hopened => exact readOn_close limits offset hs hopened rest
  | operator hs op hnodes =>
    have hread := (leads_count limits s.nodes 1).bind fun nodes =>
      readOn limits (s.addOperator nodes op) ⟨offset + 1, rest⟩
    exact (readOn_operator limits offset hs op rest).trans (hread.eq hnodes)

/-- The same step in front of another text and under larger limits. -/
theorem replay (h : Step limits offset rest s u s') (hlimits : limits.Below limits')
    (hrest : NoLonger rest rest') : Step limits' offset rest' s u s' := by
  cases h with
  | blank hc => exact .blank hc
  | operand hs p hp hfits hnodes =>
    exact .operand hs p (hrest.standsBefore hp) (hfits.mono hlimits.dice)
      (Nat.le_trans hnodes hlimits.nodes)
  | opening hs hdepth => exact .opening hs (Nat.lt_of_lt_of_le hdepth hlimits.depth)
  | closing hs hopened => exact .closing hs hopened
  | operator hs op hnodes => exact .operator hs op (Nat.le_trans hnodes hlimits.nodes)

theorem utf8Size_of_mem (h : Step limits offset rest s u s') : ∀ c ∈ u, c.utf8Size = 1 := by
  cases h with
  | blank hc => exact List.forall_mem_singleton.2 (utf8Size_of_isBlank hc)
  | operand _ p _ _ _ => exact p.utf8Size_of_mem_text
  | opening => exact List.forall_mem_singleton.2 rfl
  | closing => exact List.forall_mem_singleton.2 rfl
  | operator _ op _ => exact List.forall_mem_singleton.2 op.utf8Size_symbol

end Step

namespace Reads

/-- The pass goes on behind what it has read. -/
theorem readOn_eq (h : Reads limits t rest s) :
    readOn limits .start ⟨0, t ++ rest⟩ = readOn limits s ⟨t.length, rest⟩ := by
  induction h with
  | start rest => rfl
  | step _ hstep ih => rw [List.append_assoc, ih, hstep.readOn_eq, List.length_append]

/-- **The same steps.** What has been read is read in the same steps in front of another text and
under larger limits. -/
theorem replay (h : Reads limits t rest s) (hlimits : limits.Below limits')
    (hrest : NoLonger rest rest') : Reads limits' t rest' s := by
  induction h generalizing rest' with
  | start rest => exact .start rest'
  | step _ hstep ih =>
    exact .step (ih (NoLonger.append hstep.ne_nil _ _)) (hstep.replay hlimits hrest)

theorem utf8Size_of_mem (h : Reads limits t rest s) : ∀ c ∈ t, c.utf8Size = 1 := by
  induction h with
  | start => exact nofun
  | step _ hstep ih => exact List.forall_mem_append.2 ⟨ih, hstep.utf8Size_of_mem⟩

end Reads

/-! ### What is remembered -/

/-- What is remembered is within the limits. An operand with its operator makes two nodes, and where
no operand is missing some tokens have been noted. -/
structure Regular (limits : Limits) (s : Scan) : Prop where
  depth_le : s.opened.length ≤ limits.maxDepth
  nodes_le : s.nodes ≤ limits.maxNodes
  parity : s.nodes % 2 = if s.wanted then 0 else 1
  tokens_ne_nil : s.wanted = false → s.tokens ≠ []

end Scan

/-- An operand without parentheses has an odd number of nodes. -/
theorem Derivation.StandsBefore.nodes_odd {maxDice : Nat} {l : Tier} {p : Derivation l}
    {rest : List Char} (h : p.StandsBefore rest) (hfits : p.Fits maxDice) : p.nodes % 2 = 1 := by
  cases p with
  | number | die => rfl
  | pool count faces =>
    have hpos := hfits.2.1
    rw [nodes]
    omega
  | enclosed | single | repeated => exact h.elim

namespace Scan

variable {limits : Limits} {offset : Nat} {t u rest : List Char} {s s' : Scan}

theorem Regular.start (limits : Limits) : Regular limits .start :=
  ⟨Nat.zero_le _, Nat.zero_le _, rfl, nofun⟩

theorem Regular.step (h : Regular limits s) (hstep : Step limits offset rest s u s') :
    Regular limits s' := by
  have hparity := h.parity
  cases hstep with
  | blank => exact h
  | operand hs p hp hfits hnodes =>
    have hodd := hp.nodes_odd hfits
    rw [if_pos hs] at hparity
    refine ⟨h.depth_le, hnodes, ?_, fun _ => List.cons_ne_nil _ _⟩
    simp only [addOperand, Bool.false_eq_true, if_false]
    omega
  | opening hs hdepth => exact ⟨hdepth, h.nodes_le, hparity, h.tokens_ne_nil⟩
  | closing hs hopened =>
    have hdepth := h.depth_le
    rw [hopened] at hdepth
    exact ⟨Nat.le_of_succ_le hdepth, h.nodes_le, hparity, h.tokens_ne_nil⟩
  | operator hs op hnodes =>
    rw [if_neg (ne_true_of_eq_false hs)] at hparity
    refine ⟨h.depth_le, hnodes, ?_, nofun⟩
    simp only [addOperator, if_true]
    omega

theorem Reads.regular (h : Reads limits t rest s) : Regular limits s := by
  induction h with
  | start => exact .start limits
  | step _ hstep ih => exact ih.step hstep

/-- In front of a missing operand there is no digit. -/
theorem Step.ends_isDigit (h : Step limits offset rest s u s') (hs : s'.wanted = true) :
    Ends Char.isDigit (t ++ u).reverse := by
  rw [List.reverse_append]
  cases h with
  | blank hc => exact Stops.isDigit (Ends.cons (isDigit_of_isBlank hc) _)
  | operand => cases hs
  | opening => exact Ends.cons rfl _
  | closing hclosed => cases hs.symm.trans hclosed
  | operator _ op _ => exact Ends.cons op.isDigit_symbol _

theorem Reads.ends_isDigit (h : Reads limits t rest s) (hs : s.wanted = true) :
    Ends Char.isDigit t.reverse := by
  cases h with
  | start => exact Ends.nil _
  | step _ hstep => exact hstep.ends_isDigit hs

end Scan

/-! ### Open parentheses -/

/-- The offsets of the parentheses that a text leaves open, the innermost first. -/
inductive Opened : List Nat → List Char → Prop where
  | none {t : List Char} (h : Balanced t) : Opened [] t
  | inner {opened : List Nat} {before after : List Char} (h : Opened opened before)
      (hafter : Balanced after) : Opened (before.length :: opened) (before ++ '(' :: after)

namespace Opened

variable {opened : List Nat} {t u : List Char} {k : Nat}

theorem append (h : Opened opened t) (hu : Balanced u) : Opened opened (t ++ u) := by
  cases h with
  | none ht => exact .none (ht.append hu)
  | inner h hafter =>
    rw [List.append_assoc, List.cons_append]
    exact .inner h (hafter.append hu)

theorem closing (h : Opened (k :: opened) t) : Opened opened (t ++ [')']) := by
  cases h with
  | inner h hafter =>
    rw [List.append_assoc, List.cons_append]
    exact h.append hafter.parentheses

end Opened

namespace Scan

variable {limits : Limits} {t u rest : List Char} {s s' : Scan}

theorem Step.opened (hstep : Step limits t.length rest s u s') (h : Opened s.opened t) :
    Opened s'.opened (t ++ u) := by
  cases hstep with
  | @blank c hc =>
    let blank : Blanks := ⟨[c], List.forall_mem_singleton.2 hc⟩
    exact h.append blank.balanced
  | operand _ p _ _ _ => exact h.append p.balanced_text
  | opening => exact .inner h .nil
  | closing _ hopened =>
    rw [hopened] at h
    exact h.closing
  | operator _ op _ => exact h.append op.balanced_symbol

theorem Reads.opened (h : Reads limits t rest s) : Opened s.opened t := by
  induction h with
  | start => exact .none .nil
  | step _ hstep ih => exact hstep.opened ih

end Scan

end DiceOdds
