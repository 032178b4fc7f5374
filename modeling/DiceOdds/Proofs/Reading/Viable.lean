import DiceOdds.Proofs.Reading.Priority
import DiceOdds.Proofs.Token.Stuck
import Mathlib.Control.Monad.Basic

/-!
# Texts that can be continued

A text is viable if it can be continued to one that is read without limits. Whatever the pass over a
text has read within its limits is viable: a missing operand and the closing parentheses that are
still missing complete it. Where the pass is stuck, no text that goes on in the same way is read
under any limits. So an error that is not about a limit tells the first place at which a text cannot
be continued.

## Main definitions

* `Priority.Viable`, `Priority.Refused`: texts that can be continued, and texts that are never read.
* `Priority.Breaks`: a character with which a text stops being viable.
* `Priority.Explains`: what an error says about a text.

## Main results

* `Scan.Reads.viable`: what has been read is viable.
* `Scan.Stuck.refused`: a text at which the pass gets stuck is never read.
* `Priority.explains_of_parse`: errors that are not about limits.
-/

namespace DiceOdds

namespace Limits

/-- The larger one of each bound on reading. -/
def sup (limits limits' : Limits) : Limits :=
  { limits with
    maxDepth := max limits.maxDepth limits'.maxDepth
    maxDice := max limits.maxDice limits'.maxDice
    maxNodes := max limits.maxNodes limits'.maxNodes }

theorem below_sup_left (limits limits' : Limits) : limits.Below (limits.sup limits') :=
  ⟨Nat.le_max_left _ _, Nat.le_max_left _ _, Nat.le_max_left _ _⟩

theorem below_sup_right (limits limits' : Limits) : limits'.Below (limits.sup limits') :=
  ⟨Nat.le_max_right _ _, Nat.le_max_right _ _, Nat.le_max_right _ _⟩

end Limits

theorem Sentence.Within.mono {limits limits' : Limits} (hlimits : limits.Below limits')
    {u : Sentence} (h : u.Within limits) : u.Within limits' :=
  ⟨h.1.mono hlimits.dice, Nat.le_trans h.2.1 hlimits.depth, Nat.le_trans h.2.2 hlimits.nodes⟩

namespace Priority

/-- Some text that goes on from the given one is read without limits. -/
def Viable (t : String) : Prop := ∃ rest e, parse .unbounded (t ++ rest) = .ok e

/-- The text is read under no limits. -/
def Refused (s : String) : Prop := ∀ limits, ∃ error, parse limits s = .error error

/-- What is read is read the same under larger limits. -/
theorem parse_mono {limits limits' : Limits} (hlimits : limits.Below limits') {s : String}
    {e : Expr} (h : parse limits s = .ok e) : parse limits' s = .ok e := by
  obtain ⟨u, hu, hexpr, hwithin⟩ := (parse_eq_ok_iff limits s e).1 h
  exact (parse_eq_ok_iff limits' s e).2 ⟨u, hu, hexpr, hwithin.mono hlimits⟩

end Priority

namespace Scan

variable {limits : Limits} {s : Scan} {t rest : List Char}

/-! ### Completing what has been read -/

/-- Where no operand is missing, the missing closing parentheses complete a text. -/
theorem Reads.scan_closed {opened : List Nat}
    (h : Reads limits t (List.replicate opened.length ')') s) (hs : s.wanted = false)
    (hopened : s.opened = opened) :
    ∃ tokens, Token.scan limits (.ofList (t ++ List.replicate opened.length ')')) = .ok tokens := by
  induction opened generalizing t s with
  | nil =>
    have hfinish := finish_eq_ok hs hopened (h.regular.tokens_ne_nil hs)
    have hread := h.readOn_eq
    rw [List.length_nil, List.replicate_zero, readOn_nil, hfinish] at hread
    exact ⟨_, by rwa [Token.scan, Cursor.ofString, String.toList_ofList]⟩
  | cons opening opened ih =>
    rw [List.length_cons, List.replicate_succ] at h ⊢
    have hstep : Step limits t.length (List.replicate opened.length ')') s [')']
        { s with opened } := .closing hs hopened
    obtain ⟨tokens, htokens⟩ := ih (h.step hstep) hs rfl
    exact ⟨tokens, by rwa [List.append_assoc] at htokens⟩

theorem stops_closing (n : Nat) : Stops (List.replicate n ')') := by
  cases n with
  | zero => exact Ends.nil _
  | succ n => exact Ends.cons rfl _

/-- A missing operand takes one node, and there is room for it: with it the number of nodes is odd,
and the largest count is odd. -/
theorem Reads.exists_operand (hlimits : limits.Below .unbounded) (h : Reads limits t rest s)
    (hs : s.wanted = true) :
    ∃ s', Reads .unbounded (t ++ [' ', '1']) (List.replicate s.opened.length ')') s' ∧
      s'.wanted = false ∧ s'.opened = s.opened := by
  let one : Digits := ⟨['1'], List.cons_ne_nil _ _, List.forall_mem_singleton.2 rfl⟩
  have hfits : one.value ≤ 9223372036854775807 := by decide
  have hnodes : s.nodes + 1 ≤ Limits.unbounded.maxNodes := by
    have hle := Nat.le_trans h.regular.nodes_le hlimits.nodes
    have hparity := h.regular.parity
    rw [if_pos hs] at hparity
    simp only [Limits.unbounded, maxCount] at hle ⊢
    omega
  have hspace : Stops (' ' :: '1' :: List.replicate s.opened.length ')') := Ends.cons rfl _
  have hblank : Step .unbounded t.length ('1' :: List.replicate s.opened.length ')') s [' '] s :=
    .blank rfl
  have hreads := (h.replay hlimits (.of_stops hspace)).step hblank
  have hone : Step .unbounded (t ++ [' ']).length (List.replicate s.opened.length ')') s ['1']
      (s.addOperand (s.nodes + 1) (Derivation.number one).expr) :=
    .operand hs (.number one) (stops_closing _) hfits hnodes
  have hreads := hreads.step hone
  rw [List.append_assoc] at hreads
  exact ⟨_, hreads, rfl, rfl⟩

/-- **What has been read is viable.** -/
theorem Reads.viable (hlimits : limits.Below .unbounded) (h : Reads limits t rest s) :
    Priority.Viable (.ofList t) := by
  cases hs : s.wanted with
  | true =>
    obtain ⟨s', hreads, hwanted, hopened⟩ := h.exists_operand hlimits hs
    obtain ⟨tokens, htokens⟩ := hreads.scan_closed hwanted hopened
    rw [List.append_assoc, String.ofList_append] at htokens
    obtain ⟨e, he⟩ := Priority.exists_parse_of_scan htokens
    exact ⟨_, e, he⟩
  | false =>
    have hreads := h.replay hlimits (.of_stops (stops_closing s.opened.length))
    obtain ⟨tokens, htokens⟩ := hreads.scan_closed hs rfl
    rw [String.ofList_append] at htokens
    obtain ⟨e, he⟩ := Priority.exists_parse_of_scan htokens
    exact ⟨_, e, he⟩

/-! ### Never read -/

/-- A text that goes on in the same way, but at which the pass gets stuck, is never read. -/
theorem Stuck.refused {rest' : List Char} {error : ParseError}
    (h : Stuck s ⟨t.length, rest'⟩ error) (hreads : Reads limits t rest s)
    (hrest : NoLonger rest rest') : Priority.Refused (.ofList (t ++ rest')) := by
  intro limits'
  cases hparse : Priority.parse limits' (.ofList (t ++ rest')) with
  | error x => exact ⟨x, rfl⟩
  | ok e =>
    have hlarge := Priority.parse_mono (limits.below_sup_right limits') hparse
    have hread := (hreads.replay (limits.below_sup_left limits') hrest).readOn_eq
    obtain ⟨x, hx, -⟩ := h.exists_error (limits.sup limits')
    have hscan : Token.scan (limits.sup limits') (.ofList (t ++ rest')) = .error x := by
      rw [Token.scan, Cursor.ofString, String.toList_ofList, hread, hx]
    rw [Priority.parse, hscan] at hlarge
    cases hlarge

end Scan

/-! ### What errors say -/

namespace Priority

variable {limits : Limits} {s : String} {error : ParseError}

/-- A character stands at a byte offset of a text, what stands in front of it is viable, and with
this character it is not. -/
def Breaks (s : String) (x : Char) (offset : Nat) : Prop :=
  ∃ before after : String, s = before ++ .singleton x ++ after ∧ before.utf8ByteSize = offset ∧
    Viable before ∧ ¬ Viable (before ++ .singleton x)

/-- The innermost opening parenthesis without a partner stands at a byte offset of a text: it has
none, but each one behind it has. -/
def LeavesOpen (s : String) (offset : Nat) : Prop :=
  ∃ before after : String, s = before ++ "(" ++ after ∧ before.utf8ByteSize = offset ∧
    ¬ Closed after.toList ∧
    ∀ inner rest : String, after = inner ++ "(" ++ rest → Closed rest.toList

/-- A letter `d` without a number of faces stands at a byte offset of a text, and what stands in
front of it and of all digits directly in front of it is viable. -/
def LacksFaces (s : String) (offset : Nat) : Prop :=
  ∃ before digits after : String, s = before ++ digits ++ "d" ++ after ∧
    (before ++ digits).utf8ByteSize = offset ∧ (∀ c ∈ digits.toList, c.isDigit = true) ∧
    Ends Char.isDigit before.toList.reverse ∧ Ends Char.isDigit after.toList ∧ Viable before

/-- What an error says about a text. Errors about limits say nothing here. -/
def Explains (s : String) : ParseError → Prop
  | .unexpected found offset => Breaks s found offset
  | .unmatchedClose offset => Breaks s ')' offset
  | .unexpectedEnd => Viable s ∧ Refused s
  | .unclosed offset => Viable s ∧ Refused s ∧ LeavesOpen s offset
  | .missingFaces offset => Refused s ∧ LacksFaces s offset
  | _ => True

theorem eq_append_of_toList {t rest : List Char} {x : Char} (h : s.toList = t ++ x :: rest) :
    s = .ofList t ++ .singleton x ++ .ofList rest := by
  rw [String.append_assoc, ← String.ofList_cons, ← String.ofList_append, ← h, String.ofList_toList]

/-- Where the pass is stuck at a character, whatever comes behind it, the text breaks. -/
theorem breaks_of_stuck (hlimits : limits.Below .unbounded) {t rest : List Char} {x : Char}
    {st : Scan} (hsplit : s.toList = t ++ x :: rest) (hreads : Scan.Reads limits t (x :: rest) st)
    (hstuck : ∀ rest', st.Stuck ⟨t.length, x :: rest'⟩ error) : Breaks s x t.length := by
  refine ⟨.ofList t, .ofList rest, eq_append_of_toList hsplit,
    utf8ByteSize_ofList hreads.utf8Size_of_mem, hreads.viable hlimits, ?_⟩
  rintro ⟨more, e, he⟩
  have hrefused := (hstuck more.toList).refused hreads (.cons x _ _)
  rw [String.ofList_append, String.ofList_cons, String.ofList_toList, ← String.append_assoc]
    at hrefused
  obtain ⟨error', herror⟩ := hrefused .unbounded
  cases he.symm.trans herror

theorem leavesOpen_of_opened {offset : Nat} {opened : List Nat} {t : List Char}
    (hs : s.toList = t) (h : Opened (offset :: opened) t) (ht : ∀ c ∈ t, c.utf8Size = 1) :
    LeavesOpen s offset := by
  cases h with
  | @inner _ before after _ hafter =>
    have hopening : String.singleton '(' = "(" := rfl
    have hsplit := eq_append_of_toList hs
    rw [hopening] at hsplit
    refine ⟨.ofList before, .ofList after, hsplit, ?_, ?_, ?_⟩
    · exact utf8ByteSize_ofList fun c hc => ht c (List.mem_append_left _ hc)
    · rw [String.toList_ofList]
      exact hafter.not_closed
    · intro inner rest hinner
      have hinner : after = inner.toList ++ '(' :: rest.toList := by
        rw [← String.toList_ofList (l := after), hinner, String.toList_append, String.toList_append,
          List.append_assoc]
        rfl
      rw [hinner] at hafter
      exact hafter.closed

theorem lacksFaces_of_stuck (hlimits : limits.Below .unbounded) {t digits rest : List Char}
    {st : Scan} (hsplit : s.toList = t ++ (digits ++ 'd' :: rest))
    (hreads : Scan.Reads limits t (digits ++ 'd' :: rest) st) (hs : st.wanted = true)
    (hdigits : ∀ c ∈ digits, c.isDigit = true) (hrest : Ends Char.isDigit rest) :
    LacksFaces s (t.length + digits.length) := by
  have hletter : String.singleton 'd' = "d" := rfl
  rw [← List.append_assoc] at hsplit
  have hsplit := eq_append_of_toList hsplit
  rw [hletter, String.ofList_append] at hsplit
  have hbytes : ∀ c ∈ t ++ digits, c.utf8Size = 1 :=
    List.forall_mem_append.2
      ⟨hreads.utf8Size_of_mem, fun c hc => utf8Size_of_isDigit (hdigits c hc)⟩
  refine ⟨.ofList t, .ofList digits, .ofList rest, hsplit, ?_, ?_, ?_, ?_, hreads.viable hlimits⟩
  · rw [← String.ofList_append, utf8ByteSize_ofList hbytes, List.length_append]
  · rwa [String.toList_ofList]
  · rw [String.toList_ofList]
    exact hreads.ends_isDigit hs
  · rwa [String.toList_ofList]

/-- **Errors that are not about limits.** An error at a character tells the first place at which a
text cannot be continued; an error at the end tells that the text can be continued, but has to be;
and a letter `d` without faces stands in an operand in front of which the text can be continued. The
largest limits are those of `Limits.unbounded`. -/
theorem explains_of_parse (hlimits : limits.Below .unbounded) (h : parse limits s = .error error) :
    Explains s error := by
  by_cases hlimit : error.OnLimit
  · cases error with
    | numberTooLarge | diceCount | tooDeep | tooManyNodes => trivial
    | empty | stuck | unexpectedEnd | unexpected | missingFaces | unmatchedClose | unclosed =>
      exact hlimit.elim
  obtain ⟨t, rest, st, hsplit, hreads, hstuck⟩ :=
    (Scan.Reads.start s.toList).exists_stuck (scan_eq_error h) hlimit
  rw [List.nil_append] at hsplit
  cases hstuck with
  | ended hfinish =>
    have hrefused := (Scan.Stuck.ended hfinish).refused hreads (.of_stops (Ends.nil _))
    have hviable := hreads.viable hlimits
    rw [List.append_nil] at hsplit hrefused
    rw [← hsplit, String.ofList_toList] at hrefused hviable
    rcases Scan.of_finish_eq_error hfinish with
      rfl | rfl | ⟨offset, opened, hopened, rfl⟩
    · trivial
    · exact ⟨hviable, hrefused⟩
    · have hleft := hreads.opened
      rw [hopened] at hleft
      exact ⟨hviable, hrefused, leavesOpen_of_opened hsplit hleft hreads.utf8Size_of_mem⟩
  | noOperand hs hblank hx =>
    exact breaks_of_stuck hlimits hsplit hreads fun _ => .noOperand hs hblank hx
  | noOperator hs hblank hclose hx =>
    exact breaks_of_stuck hlimits hsplit hreads fun _ => .noOperator hs hblank hclose hx
  | noOpening hs hopened =>
    exact breaks_of_stuck hlimits hsplit hreads fun _ => .noOpening hs hopened
  | noFaces hs hdigits hrest =>
    have hrefused := (Scan.Stuck.noFaces hs hdigits hrest).refused hreads (fun _ hc _ => hc)
    rw [← hsplit, String.ofList_toList] at hrefused
    exact ⟨hrefused, lacksFaces_of_stuck hlimits hsplit hreads hs hdigits hrest⟩

/-- Behind an operator inside parentheses no text can go on with an accented letter. -/
theorem explains_of_parse_accented :
    Limits.Below {} .unbounded ∧ parse {} "2*(d6+é)" = .error (.unexpected 'é' 6) ∧
      Breaks "2*(d6+é)" 'é' 6 := by
  have hlimits : Limits.Below {} .unbounded := ⟨by decide, by decide, by decide⟩
  have h : parse {} "2*(d6+é)" = .error (.unexpected 'é' 6) := by decide +kernel
  exact ⟨hlimits, h, explains_of_parse hlimits h⟩

end Priority

end DiceOdds
