import DiceOdds.Proofs.Grammar.Runs
import DiceOdds.Proofs.Token.Priorities
import DiceOdds.Token.Scan

/-!
# Reading the tokens of a derivation

In front of a derivation the pass over a text either goes on behind it, with its size counted and
its tokens noted, or it fails. Which of the two happens depends on the numbers, the nesting and the
size of the derivation alone. The induction is on the derivation; what is remembered in front of it
and the text behind it are arbitrary.

## Main definitions

* `Leads`: a computation goes on as another one under a condition and fails without it.
* `Derivation.StandsBefore`: an operand without parentheses that is read as a whole.
* `Derivation.Allowed`: the condition on a derivation.
* `Derivation.behind`: what is remembered behind a derivation.

## Main results

* `Scan.readOn_blanks`, `Scan.readOn_number`, `Scan.readOn_die`, `Scan.readOn_open`,
  `Scan.readOn_close`, `Scan.readOn_operator`: the pass, one character at a time.
* `Scan.leads_readOn_operand`: the pass over an operand without parentheses.
* `Derivation.leads_readOn`: the pass over a derivation.
-/

namespace DiceOdds

/-! ### Computations that go on under a condition -/

/-- Under a condition a computation goes on as another one, and otherwise it fails. -/
structure Leads {ε α : Type} (p : Prop) (r r' : Except ε α) : Prop where
  eq : p → r = r'
  fails : ¬ p → ∃ error, r = .error error

namespace Leads

variable {ε α β : Type} {p q : Prop} {r r' r'' : Except ε α}

theorem congr (h : Leads p r r') (hpq : p ↔ q) : Leads q r r' :=
  ⟨fun hq => h.eq (hpq.2 hq), fun hq => h.fails fun hp => hq (hpq.1 hp)⟩

theorem trans (h : Leads p r r') (h' : p → Leads q r' r'') : Leads (p ∧ q) r r'' := by
  refine ⟨fun hpq => (h.eq hpq.1).trans ((h' hpq.1).eq hpq.2), fun hpq => ?_⟩
  by_cases hp : p
  · rw [h.eq hp]
    exact (h' hp).fails fun hq => hpq ⟨hp, hq⟩
  · exact h.fails hp

theorem bind {a : α} (h : Leads p r (.ok a)) (f : α → Except ε β) : Leads p (r.bind f) (f a) := by
  refine ⟨fun hp => by rw [h.eq hp]; rfl, fun hp => ?_⟩
  obtain ⟨error, herror⟩ := h.fails hp
  exact ⟨error, by rw [herror]; rfl⟩

theorem of_eq_ok {a b : α} (h : Leads p r (.ok a)) (hr : r = .ok b) : p ∧ a = b := by
  by_cases hp : p
  · exact ⟨hp, Except.ok.inj ((h.eq hp).symm.trans hr)⟩
  · obtain ⟨error, herror⟩ := h.fails hp
    rw [herror] at hr
    cases hr

end Leads

namespace Scan

variable (limits : Limits) {s : Scan} (offset : Nat)

/-! ### One character at a time -/

theorem readOn_nil : readOn limits s ⟨offset, []⟩ = s.finish := by
  rw [readOn]

/-- Nothing is missing at the end if no operand is missing and nothing is open. -/
theorem finish_eq_ok (hs : s.wanted = false) (hopened : s.opened = []) (htokens : s.tokens ≠ []) :
    s.finish = .ok s.tokens.reverse := by
  obtain ⟨nodes, opened, wanted, tokens⟩ := s
  obtain ⟨token, tokens, rfl⟩ := List.exists_cons_of_ne_nil htokens
  cases hs
  cases hopened
  rfl

theorem readOn_blank {x : Char} (hx : isBlank x = true) (rest : List Char) :
    readOn limits s ⟨offset, x :: rest⟩ = readOn limits s ⟨offset + 1, rest⟩ := by
  rw [readOn]
  simp only [hx, if_true, utf8Size_of_isBlank hx]

theorem readOn_blanks (b : Blanks) (rest : List Char) :
    readOn limits s ⟨offset, b.chars ++ rest⟩ =
      readOn limits s ⟨offset + b.chars.length, rest⟩ := by
  obtain ⟨cs, hcs⟩ := b
  induction cs generalizing offset with
  | nil => rfl
  | cons c cs ih =>
    have ih := ih (offset + 1) fun x hx => hcs x (List.mem_cons_of_mem _ hx)
    rw [List.cons_append, readOn_blank limits offset (hcs c List.mem_cons_self), ih,
      List.length_cons, Nat.add_assoc, Nat.add_comm 1]

theorem readOn_number (hs : s.wanted = true) {x : Char} (hx : x.isDigit = true)
    (rest : List Char) :
    readOn limits s ⟨offset, x :: rest⟩ =
      (number limits s.nodes ⟨offset, x :: rest⟩).bind fun (e, nodes, behind) =>
        readOn limits (s.addOperand nodes e) behind := by
  rw [readOn]
  simp only [isBlank_of_isDigit hx, hs, hx, if_true, dif_pos, Bool.false_eq_true, if_false]
  split
  · next error h =>
    rw [h]
    rfl
  · next e nodes behind h =>
    rw [h]
    rfl

theorem readOn_die (hs : s.wanted = true) (rest : List Char) :
    readOn limits s ⟨offset, 'd' :: rest⟩ =
      (die limits s.nodes offset ⟨offset + 1, rest⟩).bind fun (e, nodes, behind) =>
        readOn limits (s.addOperand nodes e) behind := by
  rw [readOn]
  have hblank : isBlank 'd' = false := rfl
  have hdigit : ('d').isDigit = false := rfl
  have hsize : ('d').utf8Size = 1 := rfl
  simp only [hblank, hs, hdigit, if_true, Bool.false_eq_true, if_false, dite_false]
  split
  · next error h =>
    rw [hsize] at h
    rw [h]
    rfl
  · next e nodes behind h =>
    rw [hsize] at h
    rw [h]
    rfl

theorem readOn_open (hs : s.wanted = true) (rest : List Char) :
    readOn limits s ⟨offset, '(' :: rest⟩ =
      if s.opened.length = limits.maxDepth then .error (.tooDeep limits.maxDepth)
      else readOn limits { s with opened := offset :: s.opened } ⟨offset + 1, rest⟩ := by
  rw [readOn]
  have hblank : isBlank '(' = false := rfl
  have hdigit : ('(').isDigit = false := rfl
  have hd : ¬ '(' = 'd' := by decide
  have hsize : ('(').utf8Size = 1 := rfl
  simp only [hblank, hs, hdigit, hd, hsize, if_true, Bool.false_eq_true, if_false, dite_false]

theorem readOn_close (hs : s.wanted = false) {opening : Nat} {opened : List Nat}
    (ho : s.opened = opening :: opened) (rest : List Char) :
    readOn limits s ⟨offset, ')' :: rest⟩ =
      readOn limits { s with opened } ⟨offset + 1, rest⟩ := by
  rw [readOn]
  have hblank : isBlank ')' = false := rfl
  have hsize : (')').utf8Size = 1 := rfl
  simp only [hblank, hs, ho, hsize, if_true, Bool.false_eq_true, if_false]

theorem readOn_operator (hs : s.wanted = false) (op : Operator) (rest : List Char) :
    readOn limits s ⟨offset, op.symbol :: rest⟩ =
      (count limits s.nodes 1).bind fun nodes =>
        readOn limits (s.addOperator nodes op) ⟨offset + 1, rest⟩ := by
  rw [readOn]
  have hclose : ¬ op.symbol = ')' := by cases op <;> decide
  simp only [op.isBlank_symbol, op.utf8Size_symbol, hs, hclose, op.ofSymbol?_symbol,
    Bool.false_eq_true, if_false]
  cases count limits s.nodes 1 <;> rfl

theorem leads_count (nodes more : Nat) :
    Leads (nodes + more ≤ limits.maxNodes) (count limits nodes more) (.ok (nodes + more)) :=
  ⟨fun h => if_neg (Nat.not_lt.2 h), fun h => ⟨_, if_pos (Nat.lt_of_not_ge h)⟩⟩

/-- An opening parenthesis is passed over where nesting is not too deep yet. -/
theorem leads_readOn_open (hs : s.wanted = true) (hopened : s.opened.length ≤ limits.maxDepth)
    (before : Blanks) (rest : List Char) :
    Leads (s.opened.length + 1 ≤ limits.maxDepth)
      (readOn limits s ⟨offset, '(' :: (before.chars ++ rest)⟩)
      (readOn limits { s with opened := offset :: s.opened }
        ⟨offset + 1 + before.chars.length, rest⟩) := by
  rw [readOn_open limits offset hs, readOn_blanks limits]
  exact ⟨fun hlt => if_neg (by omega), fun hlt => ⟨_, if_pos (by omega)⟩⟩

/-- An operator is passed over if its node is not one too many. -/
theorem leads_readOn_operator (hs : s.wanted = false) (before : Blanks) (op : Operator)
    (after : Blanks) (rest : List Char) :
    Leads (s.nodes + 1 ≤ limits.maxNodes)
      (readOn limits s ⟨offset, before.chars ++ op.symbol :: (after.chars ++ rest)⟩)
      (readOn limits (s.addOperator (s.nodes + 1) op)
        ⟨offset + before.chars.length + 1 + after.chars.length, rest⟩) := by
  rw [readOn_blanks limits, readOn_operator limits _ hs, ← readOn_blanks limits _ after rest]
  exact (leads_count limits s.nodes 1).bind _

/-! ### Operands without parentheses -/

theorem leads_constant (n : Digits) :
    Leads n.Fits (constant offset n.chars) (.ok (.constant n.outcome)) := by
  refine ⟨fun h => ?_, fun h => ⟨.numberTooLarge offset, ?_⟩⟩
  · simp only [constant, n.ofInt?_numeral h]
  · simp only [constant, n.ofInt?_numeral_eq_none h]

theorem leads_faces (letter : Nat) (n : Digits) {rest : List Char} (h : Ends Char.isDigit rest) :
    Leads n.Fits (faces letter ⟨offset, n.chars ++ rest⟩) (.ok n.outcome) := by
  have hdigits := n.digits_append offset h
  refine ⟨fun hn => ?_, fun hn => ⟨.numberTooLarge offset, ?_⟩⟩
  · simp only [faces, hdigits, n.ne_nil, if_false, n.ofInt?_numeral hn]
  · simp only [faces, hdigits, n.ne_nil, if_false, n.ofInt?_numeral_eq_none hn]

theorem dice_digits (n : Digits) :
    dice limits offset n.chars =
      if n.value > maxCount then .error (.numberTooLarge offset)
      else if 1 ≤ n.value ∧ n.value ≤ min limits.maxDice 4294967295 then .ok n.value
      else .error (.diceCount n.value limits.maxDice) := by
  have hread : dice limits offset n.chars =
      if n.value > maxCount then .error (.numberTooLarge offset)
      else if n.value = 0 ∨ n.value > maxPool ∨ n.value > limits.maxDice then
        .error (.diceCount n.value limits.maxDice)
      else .ok n.value := by
    rw [← n.numeral_chars]
    rfl
  have hpool : (n.value = 0 ∨ n.value > maxPool ∨ n.value > limits.maxDice) ↔
      ¬ (1 ≤ n.value ∧ n.value ≤ min limits.maxDice 4294967295) := by
    rw [maxPool]
    omega
  simp only [hread, hpool, ite_not]

theorem leads_dice (n : Digits) :
    Leads (1 ≤ n.value ∧ n.value ≤ min limits.maxDice 4294967295) (dice limits offset n.chars)
      (.ok n.value) := by
  rw [dice_digits]
  refine ⟨fun h => ?_, fun h => ?_⟩
  · have hcount : ¬ n.value > maxCount := by
      rw [maxCount]
      omega
    rw [if_neg hcount, if_pos h]
  · by_cases hcount : n.value > maxCount
    · exact ⟨_, if_pos hcount⟩
    · exact ⟨_, (if_neg hcount).trans (if_neg h)⟩

/-- A constant counts as a node before its value is looked at. -/
theorem number_constant (nodes : Nat) (n : Digits) {rest : List Char} (h : Stops rest) :
    number limits nodes ⟨offset, n.chars ++ rest⟩ =
      (count limits nodes 1).bind fun nodes => (constant offset n.chars).bind fun e =>
        .ok (e, nodes, ⟨offset + n.chars.length, rest⟩) := by
  have htake : (Cursor.mk (offset + n.chars.length) rest).take? 'd' = none := by
    refine Cursor.take?_eq_none fun y hy => ?_
    rintro rfl
    exact absurd (h _ hy) (by decide)
  rw [number]
  rw [n.skipDigits_append offset h.isDigit, htake, n.digits_append offset h.isDigit]
  rfl

/-- The faces of a pool are read before its dice, and both before its nodes are counted. -/
theorem number_pool (nodes : Nat) (m n : Digits) {rest : List Char} (h : Ends Char.isDigit rest) :
    number limits nodes ⟨offset, m.chars ++ 'd' :: (n.chars ++ rest)⟩ =
      (faces (offset + m.chars.length) ⟨offset + m.chars.length + 1, n.chars ++ rest⟩).bind
        fun a => (dice limits offset m.chars).bind fun k =>
          (count limits nodes (2 * k - 1)).bind fun nodes =>
            .ok (.pool k a, nodes, ⟨offset + m.chars.length + 1 + n.chars.length, rest⟩) := by
  have hd : Ends Char.isDigit ('d' :: (n.chars ++ rest)) := Ends.cons rfl _
  have hsize : ('d').utf8Size = 1 := rfl
  rw [number]
  rw [m.skipDigits_append offset hd, m.digits_append offset hd, Cursor.take?_cons, hsize]
  simp only [n.skipDigits_append _ h]
  rfl

/-- A die counts as a node before its faces are looked at. -/
theorem die_faces (nodes letter : Nat) (n : Digits) {rest : List Char}
    (h : Ends Char.isDigit rest) :
    die limits nodes letter ⟨offset, n.chars ++ rest⟩ =
      (count limits nodes 1).bind fun nodes =>
        (faces letter ⟨offset, n.chars ++ rest⟩).bind fun a =>
          .ok (.die a, nodes, ⟨offset + n.chars.length, rest⟩) := by
  rw [die]
  rw [n.skipDigits_append offset h]
  rfl

theorem leads_number_constant (nodes : Nat) (n : Digits) {rest : List Char} (h : Stops rest) :
    Leads (nodes + 1 ≤ limits.maxNodes ∧ n.Fits) (number limits nodes ⟨offset, n.chars ++ rest⟩)
      (.ok (.constant n.outcome, nodes + 1, ⟨offset + n.chars.length, rest⟩)) := by
  rw [number_constant limits offset nodes n h]
  exact ((leads_count limits nodes 1).bind _).trans fun _ => (leads_constant offset n).bind _

theorem leads_number_pool (nodes : Nat) (m n : Digits) {rest : List Char}
    (h : Ends Char.isDigit rest) :
    Leads (n.Fits ∧ (1 ≤ m.value ∧ m.value ≤ min limits.maxDice 4294967295) ∧
        nodes + (2 * m.value - 1) ≤ limits.maxNodes)
      (number limits nodes ⟨offset, m.chars ++ 'd' :: (n.chars ++ rest)⟩)
      (.ok (.pool m.value n.outcome, nodes + (2 * m.value - 1),
        ⟨offset + m.chars.length + 1 + n.chars.length, rest⟩)) := by
  rw [number_pool limits offset nodes m n h]
  exact ((leads_faces _ _ n h).bind _).trans fun _ =>
    ((leads_dice limits offset m).bind _).trans fun _ =>
      (leads_count limits nodes (2 * m.value - 1)).bind _

theorem leads_die (nodes letter : Nat) (n : Digits) {rest : List Char}
    (h : Ends Char.isDigit rest) :
    Leads (nodes + 1 ≤ limits.maxNodes ∧ n.Fits)
      (die limits nodes letter ⟨offset, n.chars ++ rest⟩)
      (.ok (.die n.outcome, nodes + 1, ⟨offset + n.chars.length, rest⟩)) := by
  rw [die_faces limits offset nodes letter n h]
  exact ((leads_count limits nodes 1).bind _).trans fun _ => (leads_faces offset letter n h).bind _

end Scan

/-- The derivation is a number, a die or a pool, and the text behind it does not continue it. -/
def Derivation.StandsBefore (rest : List Char) {l : Tier} : Derivation l → Prop
  | number _ => Stops rest
  | die _ => Ends Char.isDigit rest
  | pool _ _ => Ends Char.isDigit rest
  | enclosed _ _ _ => False
  | single _ _ => False
  | repeated _ _ _ _ _ _ => False

/-- An operand without parentheses is passed over if its numbers fit and its nodes are not too
many. -/
theorem Scan.leads_readOn_operand (limits : Limits) {s : Scan} (offset : Nat)
    (hs : s.wanted = true) (p : Derivation .primary) {rest : List Char}
    (h : p.StandsBefore rest) :
    Leads (p.Fits limits.maxDice ∧ s.nodes + p.nodes ≤ limits.maxNodes)
      (Scan.readOn limits s ⟨offset, p.text ++ rest⟩)
      (Scan.readOn limits (s.addOperand (s.nodes + p.nodes) p.expr)
        ⟨offset + p.text.length, rest⟩) := by
  cases p with
  | number n =>
    obtain ⟨c, cs, hcs, hc⟩ := n.exists_eq_cons
    have hread := (Scan.leads_number_constant limits offset s.nodes n h).bind
      fun (e, nodes, behind) => Scan.readOn limits (s.addOperand nodes e) behind
    rw [Derivation.text, hcs, List.cons_append, Scan.readOn_number limits offset hs hc,
      ← List.cons_append, ← hcs]
    exact hread.congr and_comm
  | die faces =>
    have hread := (Scan.leads_die limits (offset + 1) s.nodes offset faces h).bind
      fun (e, nodes, behind) => Scan.readOn limits (s.addOperand nodes e) behind
    have hlength : offset + (Derivation.die faces).text.length =
        offset + 1 + faces.chars.length := by
      rw [Derivation.text, List.length_cons]
      omega
    rw [hlength, Derivation.text, List.cons_append, Scan.readOn_die limits offset hs]
    exact hread.congr and_comm
  | pool count faces =>
    obtain ⟨c, cs, hcs, hc⟩ := count.exists_eq_cons
    have hread := (Scan.leads_number_pool limits offset s.nodes count faces h).bind
      fun (e, nodes, behind) => Scan.readOn limits (s.addOperand nodes e) behind
    have hlength : offset + (Derivation.pool count faces).text.length =
        offset + count.chars.length + 1 + faces.chars.length := by
      rw [Derivation.text, List.length_append, List.length_cons]
      omega
    rw [hlength, Derivation.text, List.append_assoc, List.cons_append, hcs, List.cons_append,
      Scan.readOn_number limits offset hs hc, ← List.cons_append, ← hcs]
    exact hread.congr and_assoc.symm
  | enclosed => exact h.elim
  | single hl => exact absurd rfl hl
  | repeated left before op hop => exact absurd hop (by cases op <;> decide)

/-! ### Derivations -/

namespace Derivation

/-- The derivation can be read behind what is remembered: its numbers fit and it keeps the limits on
nesting and size. -/
def Allowed (limits : Limits) (s : Scan) {l : Tier} (d : Derivation l) : Prop :=
  d.Fits limits.maxDice ∧ s.opened.length + d.depth ≤ limits.maxDepth ∧
    s.nodes + d.nodes ≤ limits.maxNodes

/-- What is remembered behind a derivation. -/
def behind (s : Scan) {l : Tier} (d : Derivation l) : Scan :=
  ⟨s.nodes + d.nodes, s.opened, false, (d.grouping s.opened.length).tokens.reverse ++ s.tokens⟩

theorem allowed_leaf {limits : Limits} {s : Scan} {l : Tier} (d : Derivation l)
    (hopened : s.opened.length ≤ limits.maxDepth) (hdepth : d.depth = 0) :
    d.Allowed limits s ↔ d.Fits limits.maxDice ∧ s.nodes + d.nodes ≤ limits.maxNodes := by
  simp only [Allowed, hdepth, Nat.add_zero, hopened, true_and]

/-- Parentheses are allowed where one more may be open and what stands between them is allowed
behind the opening one. -/
theorem allowed_enclosed {limits : Limits} {s : Scan} (offset : Nat) (before : Blanks)
    (inner : Derivation .compare) (after : Blanks) :
    (enclosed before inner after).Allowed limits s ↔
      s.opened.length + 1 ≤ limits.maxDepth ∧
        inner.Allowed limits { s with opened := offset :: s.opened } := by
  simp only [Allowed, Fits, depth, nodes, List.length_cons]
  constructor
  · rintro ⟨hfits, hdepth, hnodes⟩
    exact ⟨by omega, hfits, by omega, hnodes⟩
  · rintro ⟨_, hfits, hdepth, hnodes⟩
    exact ⟨hfits, by omega, hnodes⟩

/-- A repetition is allowed where its left part is, where the operator can be counted behind that,
and where its right part is allowed behind the operator. -/
theorem allowed_repeated {limits : Limits} {s : Scan} {l : Tier} (left : Derivation l)
    (before : Blanks) (op : Operator) (hop : op.tier = l) (after : Blanks)
    (right : Derivation l.operand) :
    (repeated left before op hop after right).Allowed limits s ↔
      left.Allowed limits s ∧ (left.behind s).nodes + 1 ≤ limits.maxNodes ∧
        right.Allowed limits ((left.behind s).addOperator ((left.behind s).nodes + 1) op) := by
  simp only [Allowed, Fits, depth, nodes, behind, Scan.addOperator]
  constructor
  · rintro ⟨⟨hfits, hfits'⟩, hdepth, hnodes⟩
    exact ⟨⟨hfits, by omega, by omega⟩, by omega, hfits', by omega, by omega⟩
  · rintro ⟨⟨hfits, hdepth, _⟩, _, hfits', hdepth', hnodes⟩
    exact ⟨⟨hfits, hfits'⟩, by omega, by omega⟩

/-- **Reading on past a derivation.** A derivation that is allowed is noted as its grouping, and any
other one is refused. -/
theorem leads_readOn (limits : Limits) (s : Scan) (offset : Nat) {l : Tier} (d : Derivation l)
    {rest : List Char} (hs : s.wanted = true) (hopened : s.opened.length ≤ limits.maxDepth)
    (h : Stops rest) :
    Leads (d.Allowed limits s) (Scan.readOn limits s ⟨offset, d.text ++ rest⟩)
      (Scan.readOn limits (d.behind s) ⟨offset + d.text.length, rest⟩) := by
  induction d generalizing s offset rest with
  | number n =>
    exact (Scan.leads_readOn_operand limits offset hs (number n) h).congr
      (allowed_leaf _ hopened rfl).symm
  | die faces =>
    exact (Scan.leads_readOn_operand limits offset hs (die faces) h.isDigit).congr
      (allowed_leaf _ hopened rfl).symm
  | pool count faces =>
    exact (Scan.leads_readOn_operand limits offset hs (pool count faces) h.isDigit).congr
      (allowed_leaf _ hopened rfl).symm
  | enclosed before inner after ih =>
    have hlength : offset + (enclosed before inner after).text.length =
        offset + 1 + before.chars.length + inner.text.length + after.chars.length + 1 := by
      simp only [text, List.length_cons, List.length_append, List.length_nil]
      omega
    let s₁ : Scan := { s with opened := offset :: s.opened }
    have hopen := Scan.leads_readOn_open limits offset hs hopened before
      (inner.text ++ (after.chars ++ ')' :: rest))
    have hstops : Stops (after.chars ++ ')' :: rest) := after.stops_append (Ends.cons rfl _)
    have hclose : Scan.readOn limits (inner.behind s₁)
        ⟨offset + 1 + before.chars.length + inner.text.length, after.chars ++ ')' :: rest⟩ =
          Scan.readOn limits ((enclosed before inner after).behind s)
            ⟨offset + (enclosed before inner after).text.length, rest⟩ := by
      rw [hlength, Scan.readOn_blanks limits, Scan.readOn_close limits _ rfl rfl]
      rfl
    have htext : (enclosed before inner after).text ++ rest =
        '(' :: (before.chars ++ (inner.text ++ (after.chars ++ ')' :: rest))) := by
      simp only [text, List.cons_append, List.append_assoc, List.nil_append]
    have hread := hopen.trans fun hlt => ih s₁ _ hs hlt hstops
    rw [hclose] at hread
    rw [htext]
    exact hread.congr (allowed_enclosed offset before inner after).symm
  | single hl part ih => exact ih s offset hs hopened h
  | repeated left before op hop after right ihl ihr =>
    have hlength : offset + (repeated left before op hop after right).text.length =
        offset + left.text.length + before.chars.length + 1 + after.chars.length +
          right.text.length := by
      simp only [text, List.length_cons, List.length_append]
      omega
    let s₁ := left.behind s
    let s₂ := s₁.addOperator (s₁.nodes + 1) op
    have hstops : Stops (before.chars ++ op.symbol :: (after.chars ++ (right.text ++ rest))) :=
      before.stops_append (Ends.cons op.continuesNumber_symbol _)
    have hoperator := Scan.leads_readOn_operator limits (s := s₁) (offset + left.text.length) rfl
      before op after (right.text ++ rest)
    have hbehind : right.behind s₂ = (repeated left before op hop after right).behind s := by
      simp only [behind, grouping, Grouping.tokens, s₁, s₂, Scan.addOperator, nodes,
        List.reverse_append, List.reverse_cons, List.append_assoc, List.cons_append,
        List.nil_append, Nat.add_assoc, Nat.add_comm 1]
    have hread := (ihl s offset hs hopened hstops).trans fun _ =>
      hoperator.trans fun _ => ihr s₂ _ rfl hopened h
    rw [hbehind, ← hlength] at hread
    rw [text, List.append_assoc, List.append_assoc, List.cons_append, List.append_assoc]
    exact hread.congr (allowed_repeated left before op hop after right).symm

end Derivation

end DiceOdds
