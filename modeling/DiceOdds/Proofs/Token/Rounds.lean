import DiceOdds.Proofs.Reading.Priority
import DiceOdds.Proofs.Token.Positions
import DiceOdds.Proofs.Token.Stuck

/-!
# The pass has no fault

In a text of less than `2 ^ 32` bytes no check of the pass fails. What an operand is read from is a
slice between two positions, a pool has at most as many dice as fit in 32 bits, and the parentheses
that are open together with what is left to read are never more than there are characters.

The pass without checks is not written in rounds, so a round is compared with it at a position:
either both refuse the text there, or the pass goes on behind the round as it would have gone on in
front of it.

## Main definitions

* `Checked.Agrees`: what a round comes to, compared with the pass without checks.

## Main results

* `Checked.number_eq`, `Checked.die_eq`, `Checked.priority_eq`: what is computed in a round.
* `Checked.agrees_round`: one round.
* `Checked.rounds_eq`: the rounds up to the end.
-/

namespace DiceOdds

namespace Checked

variable {limits : Limits} {text : String} {c : Cursor} {offset : Nat} {x : Char}
  {rest : List Char} {s : Scan}

theorem lift_ok {α : Type} (a : α) : lift (.ok a) = .ok a := rfl

theorem ok_bind {ε α β : Type} (a : α) (f : α → Except ε β) : (Except.ok a >>= f) = f a := rfl

theorem word_eq {n : Int} {m : Nat} (hn : n = m) (hm : m ≤ maxCount) : word n = .ok m := by
  rw [hn, word, if_pos ⟨Int.natCast_nonneg m, Int.ofNat_le.2 hm⟩, Int.toNat_natCast]

/-! ### Operands -/

theorem digitsEnd_eq (offset : Nat) (rest : List Char) (h : offset + rest.length ≤ maxCount) :
    digitsEnd offset offset rest =
      .ok ((Cursor.mk offset rest).skipDigits.offset, (Cursor.mk offset rest).skipDigits) := by
  induction rest generalizing offset with
  | nil => rfl
  | cons c rest ih =>
    rw [List.length_cons] at h
    rw [digitsEnd]
    split
    · next hc =>
      rw [Cursor.skipDigits_cons hc, utf8Size_of_isDigit hc,
        word_eq (m := offset + 1) (by omega) (by omega)]
      exact ih (offset + 1) (by omega)
    · next hc =>
      have hnil : Ends Char.isDigit (c :: rest) := Ends.cons (eq_false_of_ne_true hc) rest
      rw [Cursor.skipDigits_of_ends hnil]

theorem faces_eq {letter : Nat} (h : c.In text) (hletter : c.offset = letter + 1)
    (hsize : text.utf8ByteSize < 4294967296) :
    faces text letter c = lift ((Scan.faces letter c).map fun n => (n, c.skipDigits)) := by
  have hle := h.offset_add_size_le
  have hstart : word (letter + 1) = .ok c.offset :=
    word_eq (by omega) (by rw [maxCount]; omega)
  have hend : digitsEnd c.offset c.offset c.rest = .ok (c.skipDigits.offset, c.skipDigits) :=
    digitsEnd_eq c.offset c.rest (Nat.le_trans hle (by rw [maxCount]; omega))
  rw [faces, hstart, ok_bind, hend, ok_bind]
  by_cases hdigits : c.digits = []
  · have hstop : c.skipDigits.offset = c.offset := by
      rw [Cursor.skipDigits, hdigits]
      rfl
    simp only [hstop, if_true, Scan.faces, hdigits]
    rfl
  · have hstop : c.skipDigits.offset ≠ c.offset := by
      have hpos := List.length_pos_iff.2 hdigits
      simp only [Cursor.skipDigits]
      omega
    simp only [hstop, if_false, slice_digits h, ok_bind, Scan.faces, hdigits]
    cases Outcome.ofInt? (numeral c.digits) <;> rfl

theorem bounds_of_dice {digits : List Char} {k : Nat}
    (h : Scan.dice limits offset digits = .ok k) : 1 ≤ k ∧ k ≤ Scan.maxPool := by
  simp only [Scan.dice] at h
  repeat' split at h
  all_goals cases h
  omega

theorem number_eq {nodes : Nat} (h : (Cursor.mk offset (x :: rest)).In text)
    (hx : x.isDigit = true) (hsize : text.utf8ByteSize < 4294967296) :
    number limits text nodes offset ⟨offset + x.utf8Size, rest⟩ =
      lift (Scan.number limits nodes ⟨offset, x :: rest⟩) := by
  have hle := h.offset_add_size_le
  simp only [Cursor.size, List.length_cons] at hle
  have hfirst : word (offset + 1) = .ok (offset + 1) := word_eq rfl (by rw [maxCount]; omega)
  have hend := digitsEnd_eq (offset + 1) rest (by rw [maxCount]; omega)
  have hslice := slice_digits h
  have hbehind := h.skipDigits
  rw [← Cursor.skipDigits_cons hx] at hend
  rw [number, Scan.number, utf8Size_of_isDigit hx, hfirst, ok_bind, hend, ok_bind]
  simp only [hslice, ok_bind]
  cases hd : (Cursor.mk offset (x :: rest)).skipDigits.take? 'd' with
  | none =>
    simp only
    cases Scan.count limits nodes 1 with
    | error error => rfl
    | ok nodes => cases Scan.constant offset (Cursor.mk offset (x :: rest)).digits <;> rfl
  | some d =>
    simp only
    rw [faces_eq (hbehind.take? hd) (Cursor.offset_of_take? hd) hsize]
    cases Scan.faces (Cursor.mk offset (x :: rest)).skipDigits.offset d with
    | error error => rfl
    | ok n =>
      cases hk : Scan.dice limits offset (Cursor.mk offset (x :: rest)).digits with
      | error error => rfl
      | ok k =>
        have hbounds := bounds_of_dice hk
        rw [Scan.maxPool] at hbounds
        have htwice : word (2 * k) = .ok (2 * k) := word_eq rfl (by rw [maxCount]; omega)
        have hmore : word ((2 * k : Nat) - 1) = .ok (2 * k - 1) :=
          word_eq (by omega) (by rw [maxCount]; omega)
        simp only [lift_ok, Except.map, ok_bind, htwice, hmore]
        cases Scan.count limits nodes (2 * k - 1) <;> rfl

theorem die_eq {nodes letter : Nat} (h : c.In text) (hletter : c.offset = letter + 1)
    (hsize : text.utf8ByteSize < 4294967296) :
    die limits text nodes letter c = lift (Scan.die limits nodes letter c) := by
  rw [die, Scan.die]
  cases Scan.count limits nodes 1 with
  | error error => rfl
  | ok nodes =>
    rw [lift_ok, ok_bind, ok_bind, faces_eq h hletter hsize]
    cases Scan.faces letter c <;> rfl

theorem priority_eq {depth : Nat} (op : Operator) (h : depth < 4294967296) :
    priority depth op = .ok (DiceOdds.priority depth op) := by
  have hop : op.precedence ≤ 5 := by cases op <;> decide
  have hraised : word (depth * nestingStep) = .ok (depth * nestingStep) :=
    word_eq rfl (by rw [nestingStep, maxCount]; omega)
  rw [priority, hraised, ok_bind]
  exact word_eq rfl (by rw [DiceOdds.priority, nestingStep, maxCount]; omega)

/-! ### The pass -/

/-- What a round comes to, compared with the pass without checks: the text is refused, or the pass
goes on with less to read. -/
inductive Agrees (limits : Limits) (text : String) (s : Scan) (c : Cursor) :
    Checked (Scan × Cursor) → Prop where
  | refuses {error : ParseError} (h : Scan.readOn limits s c = .error error) :
      Agrees limits text s c (lift (.error error))
  | goesOn {s' : Scan} {c' : Cursor} (h : Scan.readOn limits s c = Scan.readOn limits s' c')
      (hlt : c'.size < c.size) (hin : c'.In text)
      (hopened : s'.opened.length + c'.size ≤ s.opened.length + c.size) :
      Agrees limits text s c (.ok (s', c'))

theorem Agrees.operand {r : Except ParseError (Expr × Nat × Cursor)}
    (hread : Scan.readOn limits s c = r.bind fun (e, nodes, behind) =>
      Scan.readOn limits (s.addOperand nodes e) behind)
    (hr : ∀ e nodes behind, r = .ok (e, nodes, behind) →
      behind.size < c.size ∧ behind.In text) :
    Agrees limits text s c (lift r >>= fun (e, nodes, behind) =>
      pure (s.addOperand nodes e, behind)) := by
  cases r with
  | error error => exact .refuses hread
  | ok found =>
    obtain ⟨e, nodes, behind⟩ := found
    obtain ⟨hlt, hin⟩ := hr e nodes behind rfl
    exact .goesOn hread hlt hin (Nat.add_le_add_left (Nat.le_of_lt hlt) _)

theorem agrees_operandRound (h : (Cursor.mk offset (x :: rest)).In text)
    (hs : s.wanted = true) (hblank : isBlank x = false) (hsize : text.utf8ByteSize < 4294967296) :
    Agrees limits text s ⟨offset, x :: rest⟩
      (operandRound limits text s offset x ⟨offset + x.utf8Size, rest⟩) := by
  have hnext := h.next
  have hlt : rest.length < (x :: rest).length := Nat.lt_succ_self _
  rw [operandRound]
  by_cases hx : x.isDigit = true
  · rw [if_pos hx, number_eq h hx hsize]
    refine .operand (Scan.readOn_number limits offset hs hx rest) fun e nodes behind hr => ?_
    have hdigits : (Cursor.mk offset (x :: rest)).digits ≠ [] := by
      rw [Cursor.digits_cons hx]
      exact List.cons_ne_nil _ _
    exact ⟨Scan.size_lt_of_number hdigits hr, h.number hr⟩
  rw [if_neg hx]
  by_cases hd : x = 'd'
  · subst hd
    rw [if_pos rfl, die_eq hnext rfl hsize]
    refine .operand (Scan.readOn_die limits offset hs rest) fun e nodes behind hr => ?_
    exact ⟨Nat.lt_of_le_of_lt (Scan.size_le_of_die hr) hlt, hnext.die hr⟩
  rw [if_neg hd]
  by_cases hopen : x = '('
  · subst hopen
    have hread := Scan.readOn_open limits offset hs rest
    rw [if_pos rfl]
    split
    · next hdepth => exact .refuses (hread.trans (if_pos hdepth))
    · next hdepth =>
      refine .goesOn (hread.trans (if_neg hdepth)) hlt hnext ?_
      simp only [Cursor.size, List.length_cons]
      omega
  rw [if_neg hopen]
  have hstarts : startsOperand x = false := by
    simp only [startsOperand, eq_false_of_ne_true hx, hd, hopen, decide_false, Bool.or_false]
  exact .refuses (Scan.readOn_noOperand limits hs hblank hstarts rest)

theorem agrees_operatorRound (h : (Cursor.mk offset (x :: rest)).In text)
    (hs : s.wanted = false) (hblank : isBlank x = false) (hopened : s.opened.length < 4294967296) :
    Agrees limits text s ⟨offset, x :: rest⟩
      (operatorRound limits s offset x ⟨offset + x.utf8Size, rest⟩) := by
  have hnext := h.next
  have hlt : rest.length < (x :: rest).length := Nat.lt_succ_self _
  rw [operatorRound]
  by_cases hclose : x = ')'
  · subst hclose
    rw [if_pos rfl]
    split
    · next hnone => exact .refuses (Scan.readOn_noOpening limits hs hnone rest)
    · next opening opened hsome =>
      refine .goesOn (Scan.readOn_close limits offset hs hsome rest) hlt hnext ?_
      simp only [hsome, Cursor.size, List.length_cons]
      omega
  rw [if_neg hclose]
  cases hop : Operator.ofSymbol? x with
  | none => exact .refuses (Scan.readOn_noOperator limits hs hblank hclose hop rest)
  | some op =>
    obtain rfl := Operator.ofSymbol?_eq_some_iff.1 hop
    have hread := Scan.readOn_operator limits offset hs op rest
    rw [op.utf8Size_symbol] at hnext ⊢
    simp only [priority_eq op hopened]
    cases hcount : Scan.count limits s.nodes 1 with
    | error error =>
      rw [hcount] at hread
      exact .refuses hread
    | ok nodes =>
      rw [hcount] at hread
      exact .goesOn hread hlt hnext (Nat.add_le_add_left (Nat.le_of_lt hlt) _)

/-- **One round.** -/
theorem agrees_round (limits : Limits) (h : (Cursor.mk offset (x :: rest)).In text)
    (hopened : s.opened.length < 4294967296) (hsize : text.utf8ByteSize < 4294967296) :
    Agrees limits text s ⟨offset, x :: rest⟩
      (round limits text s offset x ⟨offset + x.utf8Size, rest⟩) := by
  rw [round]
  split
  · next hblank =>
    have hlt : rest.length < (x :: rest).length := Nat.lt_succ_self _
    refine .goesOn ?_ hlt h.next (Nat.add_le_add_left (Nat.le_of_lt hlt) _)
    rw [Scan.readOn_blank limits offset hblank, utf8Size_of_isBlank hblank]
  · next hblank =>
    have hblank := eq_false_of_ne_true hblank
    split
    · next hs => exact agrees_operandRound h hs hblank hsize
    · next hs => exact agrees_operatorRound h (eq_false_of_ne_true hs) hblank hopened

/-- **All rounds.** What is open together with what is left to read never grows. -/
theorem rounds_eq (h : c.In text) (hopened : s.opened.length + c.size < 4294967296)
    (hsize : text.utf8ByteSize < 4294967296) :
    rounds limits text s c = lift (Scan.readOn limits s c) := by
  have hdepth := Nat.lt_of_le_of_lt (Nat.le_add_right _ _) hopened
  fun_induction rounds limits text s c
  case case1 s offset => rw [Scan.readOn_nil]
  -- In each of the other cases something is known of what the round comes to.
  case case2 s offset x rest error hround =>
    have hagrees := agrees_round limits h hdepth hsize
    rw [hround] at hagrees
    cases hagrees with
    | refuses hread =>
      rw [hread]
      rfl
  case case3 s offset x rest s' behind hround hlt ih =>
    have hagrees := agrees_round limits h hdepth hsize
    rw [hround] at hagrees
    cases hagrees with
    | goesOn hread _ hin hle =>
      have hopened' := Nat.lt_of_le_of_lt hle hopened
      rw [hread, ih hin hopened' (Nat.lt_of_le_of_lt (Nat.le_add_right _ _) hopened')]
  case case4 s offset x rest s' behind hround hlt =>
    have hagrees := agrees_round limits h hdepth hsize
    rw [hround] at hagrees
    cases hagrees with
    | goesOn _ hless _ _ => exact absurd hless hlt

theorem scan_eq {s : String} (hsize : s.utf8ByteSize < 4294967296) :
    scan limits s = lift (Token.scan limits s) := by
  have hin := Cursor.in_ofString s
  have hle := hin.offset_add_size_le
  refine rounds_eq hin ?_ hsize
  rw [Scan.start, List.length_nil]
  omega

end Checked

end DiceOdds
