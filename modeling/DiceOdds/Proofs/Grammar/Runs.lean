import DiceOdds.Proofs.Grammar.Derivation

/-!
# Runs of characters at a position

Reading goes by the longest run of digits or blanks. A run of the grammar is read as a whole when
the text behind it does not continue it, and reading a run always finds one of the grammar.

## Main definitions

* `Ends`: a text whose first character continues no run of a kind.
* `Stops`: a text that continues neither a number nor a pool.

## Main results

* `Digits.digits_append`, `Digits.skipDigits_append`, `Blanks.skipBlanks_append`: runs of the
  grammar are read as a whole.
* `Cursor.exists_digits`, `Cursor.exists_blanks`: what is read is a run of the grammar.
* `Derivation.exists_text_eq_cons`: a derived text starts with a digit, a letter `d` or an opening
  parenthesis.
* `Derivation.utf8Size_of_mem_text`: in a derived text characters and bytes are the same.
-/

namespace DiceOdds

/-- The first character, if there is one, does not satisfy `p`. -/
def Ends (p : Char → Bool) (rest : List Char) : Prop := ∀ c ∈ rest.head?, p c = false

/-- Whether a character would continue a number or turn it into a pool. -/
def continuesNumber (c : Char) : Bool := c.isDigit || c = 'd'

/-- The text continues neither a number nor a pool. -/
abbrev Stops (rest : List Char) : Prop := Ends continuesNumber rest

theorem Ends.mono {p q : Char → Bool} (hpq : ∀ c, q c = true → p c = true) {rest : List Char}
    (h : Ends p rest) : Ends q rest := by
  intro c hc
  cases hq : q c with
  | false => rfl
  | true => rw [← h c hc, hpq c hq]

theorem Ends.cons {p : Char → Bool} {c : Char} (h : p c = false) (rest : List Char) :
    Ends p (c :: rest) := by
  intro x hx
  cases hx
  exact h

theorem Ends.nil (p : Char → Bool) : Ends p [] := by
  intro c hc
  cases hc

/-- A run whose characters do not satisfy `p`, or the text behind it, starts with none that does. -/
theorem Ends.append {p : Char → Bool} {run rest : List Char} (hrun : ∀ c ∈ run, p c = false)
    (hrest : Ends p rest) : Ends p (run ++ rest) := by
  cases run with
  | nil => exact hrest
  | cons c run => exact Ends.cons (hrun c List.mem_cons_self) _

theorem Ends.concat {p : Char → Bool} {run rest : List Char} (hrun : Ends p run)
    (hrest : Ends p rest) : Ends p (run ++ rest) := by
  cases run with
  | nil => exact hrest
  | cons c run => exact Ends.cons (hrun c rfl) _

theorem Stops.isDigit {rest : List Char} (h : Stops rest) : Ends Char.isDigit rest :=
  h.mono fun c hc => by rw [continuesNumber, hc, Bool.true_or]

/-! ### Longest runs -/

theorem takeWhile_run {p : Char → Bool} {run rest : List Char} (hrun : ∀ c ∈ run, p c = true)
    (hrest : Ends p rest) : (run ++ rest).takeWhile p = run := by
  rw [List.takeWhile_append_of_pos hrun]
  cases rest with
  | nil => rw [List.takeWhile_nil, List.append_nil]
  | cons c rest =>
    have hc : ¬ p c = true := by rw [hrest c rfl]; exact Bool.false_ne_true
    rw [List.takeWhile_cons_of_neg hc, List.append_nil]

theorem dropWhile_run {p : Char → Bool} {run rest : List Char} (hrun : ∀ c ∈ run, p c = true)
    (hrest : Ends p rest) : (run ++ rest).dropWhile p = rest := by
  rw [List.dropWhile_append_of_pos hrun]
  cases rest with
  | nil => rfl
  | cons c rest =>
    have hc : ¬ p c = true := by rw [hrest c rfl]; exact Bool.false_ne_true
    exact List.dropWhile_cons_of_neg hc

theorem all_takeWhile {p : Char → Bool} {cs : List Char} : ∀ c ∈ cs.takeWhile p, p c = true := by
  induction cs with
  | nil => intro c hc; cases hc
  | cons x cs ih =>
    intro c hc
    rw [List.takeWhile_cons] at hc
    split at hc
    · next hx =>
      rcases List.mem_cons.1 hc with rfl | hc
      · exact hx
      · exact ih c hc
    · cases hc

/-! ### Blanks and digits at a position -/

theorem isDigit_of_isBlank {c : Char} (h : isBlank c = true) : continuesNumber c = false := by
  simp only [isBlank, Bool.or_eq_true, decide_eq_true_eq] at h
  rcases h with ((rfl | rfl) | rfl) | rfl <;> decide

theorem isBlank_of_isDigit {c : Char} (h : c.isDigit = true) : isBlank c = false := by
  cases hc : isBlank c with
  | false => rfl
  | true =>
    have := isDigit_of_isBlank hc
    rw [continuesNumber, h, Bool.true_or] at this
    cases this

theorem utf8Size_of_isBlank {c : Char} (h : isBlank c = true) : c.utf8Size = 1 := by
  simp only [isBlank, Bool.or_eq_true, decide_eq_true_eq] at h
  rcases h with ((rfl | rfl) | rfl) | rfl <;> rfl

theorem utf8Size_of_isDigit {c : Char} (h : c.isDigit = true) : c.utf8Size = 1 := by
  rw [Char.utf8Size_eq_one_iff]
  simp only [Char.isDigit, Bool.and_eq_true, decide_eq_true_eq] at h
  exact UInt32.le_trans h.2 (by decide)

namespace Blanks

/-- No blanks. -/
def none : Blanks := ⟨[], fun _ hc => by cases hc⟩

/-- One space. -/
def space : Blanks := ⟨[' '], fun _ hc => by rw [List.mem_singleton.1 hc]; rfl⟩

theorem utf8Size_of_mem (b : Blanks) : ∀ c ∈ b.chars, c.utf8Size = 1 := fun c hc =>
  utf8Size_of_isBlank (b.all_blank c hc)

theorem skipBlanks_append (b : Blanks) (offset : Nat) {rest : List Char}
    (h : Ends isBlank rest) : (Cursor.mk offset (b.chars ++ rest)).skipBlanks =
      ⟨offset + b.chars.length, rest⟩ := by
  simp only [Cursor.skipBlanks, takeWhile_run b.all_blank h, dropWhile_run b.all_blank h]

theorem stops_append (b : Blanks) {rest : List Char} (h : Stops rest) :
    Stops (b.chars ++ rest) :=
  Ends.append (fun c hc => isDigit_of_isBlank (b.all_blank c hc)) h

theorem stops (b : Blanks) : Stops b.chars := by
  have h := b.stops_append (Ends.nil _)
  rwa [List.append_nil] at h

theorem ends_isDigit_reverse (b : Blanks) : Ends Char.isDigit b.chars.reverse := by
  have hrun : ∀ c ∈ b.chars.reverse, continuesNumber c = false := fun c hc =>
    isDigit_of_isBlank (b.all_blank c (List.mem_reverse.1 hc))
  have h := Ends.append hrun (Ends.nil continuesNumber)
  rw [List.append_nil] at h
  exact Stops.isDigit h

theorem dropWhile_chars (b : Blanks) : b.chars.dropWhile isBlank = [] := by
  have h := dropWhile_run b.all_blank (Ends.nil isBlank)
  rwa [List.append_nil] at h

end Blanks

namespace Digits

variable (n : Digits) (offset : Nat) {rest : List Char}

theorem utf8Size_of_mem : ∀ c ∈ n.chars, c.utf8Size = 1 := fun c hc =>
  utf8Size_of_isDigit (n.all_digit c hc)

theorem digits_append (h : Ends Char.isDigit rest) :
    (Cursor.mk offset (n.chars ++ rest)).digits = n.chars :=
  takeWhile_run n.all_digit h

theorem skipDigits_append (h : Ends Char.isDigit rest) :
    (Cursor.mk offset (n.chars ++ rest)).skipDigits = ⟨offset + n.chars.length, rest⟩ := by
  simp only [Cursor.skipDigits, digits_append n offset h, dropWhile_run n.all_digit h]

/-- The first of the digits. -/
theorem exists_eq_cons : ∃ c cs, n.chars = c :: cs ∧ c.isDigit = true := by
  obtain ⟨c, cs, hcs⟩ := List.exists_cons_of_ne_nil n.ne_nil
  exact ⟨c, cs, hcs, n.all_digit c (hcs ▸ List.mem_cons_self)⟩

end Digits

namespace Cursor

theorem digits_eq_nil {c : Cursor} (h : Ends Char.isDigit c.rest) : c.digits = [] := by
  have hnil : ∀ x ∈ ([] : List Char), x.isDigit = true := fun _ hx => by cases hx
  exact takeWhile_run hnil h

/-- The blanks read at a position are blanks of the grammar. -/
theorem exists_blanks (c : Cursor) : ∃ b : Blanks, c.rest = b.chars ++ c.skipBlanks.rest :=
  ⟨⟨c.rest.takeWhile isBlank, all_takeWhile⟩, List.takeWhile_append_dropWhile.symm⟩

/-- The digits read at a position are digits of the grammar. -/
theorem exists_digits {c : Cursor} (h : c.digits ≠ []) :
    ∃ n : Digits, n.chars = c.digits ∧ c.rest = n.chars ++ c.skipDigits.rest :=
  ⟨⟨c.digits, h, all_takeWhile⟩, rfl, List.takeWhile_append_dropWhile.symm⟩

theorem rest_of_take? {c c' : Cursor} {x : Char} (h : c.take? x = some c') :
    c.rest = x :: c'.rest := by
  rw [take?] at h
  split at h
  · cases h
  · next y rest hrest =>
    split at h
    · next hyx =>
      cases h
      rw [hrest, hyx]
    · cases h

theorem take?_cons (offset : Nat) (x : Char) (rest : List Char) :
    (Cursor.mk offset (x :: rest)).take? x = some ⟨offset + x.utf8Size, rest⟩ := by
  simp only [take?, if_true]

theorem take?_eq_none {c : Cursor} {x : Char} (h : ∀ y ∈ c.rest.head?, y ≠ x) :
    c.take? x = Option.none := by
  rw [take?]
  split
  · rfl
  · next y rest hrest =>
    rw [hrest] at h
    exact if_neg (h y rfl)

end Cursor

/-! ### The first character of a derivation -/

/-- Whether an operand can start with a character. -/
def startsOperand (c : Char) : Bool := c.isDigit || c = 'd' || c = '('

theorem isBlank_of_startsOperand {c : Char} (h : startsOperand c = true) : isBlank c = false := by
  simp only [startsOperand, Bool.or_eq_true, decide_eq_true_eq] at h
  rcases h with (h | rfl) | rfl
  · exact isBlank_of_isDigit h
  · rfl
  · rfl

namespace Derivation

theorem exists_text_eq_cons {l : Tier} (d : Derivation l) :
    ∃ c cs, d.text = c :: cs ∧ startsOperand c = true := by
  induction d with
  | number n =>
    obtain ⟨c, cs, hcs, hc⟩ := n.exists_eq_cons
    exact ⟨c, cs, hcs, by rw [startsOperand, hc, Bool.true_or, Bool.true_or]⟩
  | die faces => exact ⟨'d', faces.chars, rfl, rfl⟩
  | pool count faces =>
    obtain ⟨c, cs, hcs, hc⟩ := count.exists_eq_cons
    refine ⟨c, cs ++ 'd' :: faces.chars, ?_, by rw [startsOperand, hc, Bool.true_or, Bool.true_or]⟩
    rw [text, hcs, List.cons_append]
  | enclosed before inner after _ => exact ⟨'(', _, rfl, rfl⟩
  | single _ part ih => exact ih
  | repeated left before op _ after right ihl _ =>
    obtain ⟨c, cs, hcs, hc⟩ := ihl
    refine ⟨c, cs ++ (before.chars ++ op.symbol :: (after.chars ++ right.text)), ?_, hc⟩
    rw [text, hcs, List.cons_append]

theorem text_ends_isBlank {l : Tier} (d : Derivation l) (rest : List Char) :
    Ends isBlank (d.text ++ rest) := by
  obtain ⟨c, cs, hcs, hc⟩ := d.exists_text_eq_cons
  rw [hcs, List.cons_append]
  exact Ends.cons (isBlank_of_startsOperand hc) _

end Derivation

namespace Operator

theorem symbol_injective {op op' : Operator} (h : op.symbol = op'.symbol) : op = op' := by
  have hop := op.ofSymbol?_symbol
  rw [h, op'.ofSymbol?_symbol] at hop
  exact (Option.some.inj hop).symm

theorem isBlank_symbol (op : Operator) : isBlank op.symbol = false := by
  cases op <;> rfl

theorem continuesNumber_symbol (op : Operator) : continuesNumber op.symbol = false := by
  cases op <;> rfl

theorem isDigit_symbol (op : Operator) : op.symbol.isDigit = false := by
  cases op <;> rfl

theorem utf8Size_symbol (op : Operator) : op.symbol.utf8Size = 1 := by
  cases op <;> rfl

end Operator

/-! ### Bytes -/

theorem utf8ByteSize_ofList {t : List Char} (h : ∀ c ∈ t, c.utf8Size = 1) :
    (String.ofList t).utf8ByteSize = t.length := by
  induction t with
  | nil => rfl
  | cons c t ih =>
    rw [List.forall_mem_cons] at h
    rw [String.ofList_cons, String.utf8ByteSize_append, String.utf8ByteSize_singleton, h.1, ih h.2,
      List.length_cons, Nat.add_comm]

/-- Every character of a derived text is one byte long. -/
theorem Derivation.utf8Size_of_mem_text {l : Tier} (d : Derivation l) :
    ∀ c ∈ d.text, c.utf8Size = 1 := by
  induction d with
  | number n => exact n.utf8Size_of_mem
  | die faces =>
    simp only [text, List.forall_mem_cons]
    exact ⟨rfl, faces.utf8Size_of_mem⟩
  | pool count faces =>
    simp only [text, List.forall_mem_append, List.forall_mem_cons]
    exact ⟨count.utf8Size_of_mem, rfl, faces.utf8Size_of_mem⟩
  | enclosed before inner after ih =>
    simp only [text, List.forall_mem_append, List.forall_mem_cons, List.not_mem_nil, false_implies,
      implies_true, and_true]
    exact ⟨rfl, before.utf8Size_of_mem, ih, after.utf8Size_of_mem, rfl⟩
  | single _ _ ih => exact ih
  | repeated left before op _ after right ihl ihr =>
    simp only [text, List.forall_mem_append, List.forall_mem_cons]
    exact ⟨ihl, before.utf8Size_of_mem, op.utf8Size_symbol, after.utf8Size_of_mem, ihr⟩

theorem Sentence.utf8Size_of_mem_text (u : Sentence) : ∀ c ∈ u.text, c.utf8Size = 1 := by
  simp only [text, List.forall_mem_append]
  exact ⟨u.before.utf8Size_of_mem, u.body.utf8Size_of_mem_text, u.after.utf8Size_of_mem⟩

end DiceOdds
