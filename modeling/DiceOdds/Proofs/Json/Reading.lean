import DiceOdds.Json.Reader
import DiceOdds.Proofs.Json.Writing

/-!
# Reading written JSON

A well-formed value is read back from what is written of it. The induction is on the value; what
follows it in the text is arbitrary, as long as it does not continue a number, and so is the fuel
beyond the length of what is written.

## Main definitions

* `Json.continuesNumeral`: the characters that would continue a number.
* `Json.Value.ReadsBack`: a value is read back in front of any text.

## Main results

* `Json.Numeral.WellFormed.readNumeral?_append`, `Json.Plain.readRaw?_append`: numbers and strings.
* `Json.Value.WellFormed.readsBack`: values.
* `Json.Value.WellFormed.read?_write`: the text of a value.
-/

namespace DiceOdds.Json

theorem skipBlanks_cons {c : Char} (hc : isBlank c = false) (s : List Char) :
    skipBlanks (c :: s) = c :: s :=
  List.dropWhile_cons_of_neg (ne_true_of_eq_false hc)

/-! ### Numbers -/

/-- Whether a character behind a number would be taken for a part of it. -/
def continuesNumeral (c : Char) : Bool := c.isDigit || c = '.' || c = 'e' || c = 'E'

variable {digits rest : List Char} {n : Numeral}

theorem isDigit_of_continuesNumeral {c : Char} (h : c.isDigit = true) :
    continuesNumeral c = true := by
  rw [continuesNumeral, h, Bool.true_or, Bool.true_or, Bool.true_or]

theorem readDigits?_append (hne : digits ≠ []) (hdigits : ∀ c ∈ digits, c.isDigit = true)
    (hrest : Ends Char.isDigit rest) : readDigits? (digits ++ rest) = some (digits, rest) := by
  rw [readDigits?, takeWhile_run hdigits hrest, dropWhile_run hdigits hrest]
  exact if_neg hne

namespace Numeral

theorem ends_powerChars (n : Numeral) (hrest : Ends continuesNumeral rest) {p : Char → Bool}
    (hp : ∀ c, p c = true → continuesNumeral c = true) (he : p 'e' = false) :
    Ends p (n.powerChars ++ rest) := by
  rw [powerChars]
  split
  · exact hrest.mono hp
  · exact Ends.cons he _

namespace WellFormed

theorem readWhole?_append (h : n.WellFormed) (hrest : Ends Char.isDigit rest) :
    readWhole? (n.whole ++ rest) = some (n.whole, rest) := by
  rw [readWhole?, readDigits?_append h.whole_ne_nil h.whole_digits hrest]
  split
  · next c cs _ hzero =>
    have hwhole : n.whole = '0' :: c :: cs := congrArg Prod.fst (Option.some.inj hzero)
    cases h.leading_zero _ hwhole
  · rfl

theorem readFraction?_append (h : n.WellFormed) (hrest : Ends continuesNumeral rest) :
    readFraction? (n.pointChars ++ (n.powerChars ++ rest)) =
      some (n.fraction, n.powerChars ++ rest) := by
  rw [pointChars]
  split
  · next hfraction =>
    have hpoint : Ends (· = '.') (n.powerChars ++ rest) :=
      n.ends_powerChars hrest (fun c hc => by rw [of_decide_eq_true hc]; rfl) rfl
    rw [hfraction, List.nil_append]
    cases hchars : n.powerChars ++ rest with
    | nil => rfl
    | cons c cs =>
      rw [hchars] at hpoint
      have hc := of_decide_eq_false (hpoint c rfl)
      rw [readFraction?]
      rintro s ⟨rfl⟩
      exact hc rfl
  · next hfraction =>
    have hdigit : Ends Char.isDigit (n.powerChars ++ rest) :=
      n.ends_powerChars hrest (fun _ hc => isDigit_of_continuesNumeral hc) rfl
    rw [List.cons_append, readFraction?]
    exact readDigits?_append hfraction h.fraction_digits hdigit

theorem readExponent?_append (h : n.WellFormed) (hrest : Ends continuesNumeral rest) :
    readExponent? (n.powerChars ++ rest) = some (n.exponent, rest) := by
  have hdigit : Ends Char.isDigit rest := hrest.mono fun _ hc => isDigit_of_continuesNumeral hc
  rw [powerChars]
  split
  · next hexponent =>
    rw [hexponent, List.nil_append]
    cases rest with
    | nil => rfl
    | cons c cs =>
      have hc := hrest c rfl
      simp only [continuesNumeral, Bool.or_eq_false_iff, decide_eq_false_iff_not] at hc
      have he : ¬ (c = 'e' ∨ c = 'E') := not_or.2 ⟨hc.1.2, hc.2⟩
      simp only [readExponent?, he, if_false]
  · next negative digits hexponent =>
    have hread := readDigits?_append (h.power_ne_nil _ hexponent) (h.power_digits _ hexponent)
      hdigit
    cases negative <;> simp [readExponent?, hread, hexponent]

theorem readUnsigned?_append (h : n.WellFormed) (hrest : Ends continuesNumeral rest) :
    readUnsigned? n.negative (n.unsignedChars ++ rest) = some (n, rest) := by
  have hdigit : Ends Char.isDigit (n.pointChars ++ (n.powerChars ++ rest)) := by
    rw [pointChars]
    split
    · exact n.ends_powerChars hrest (fun _ hc => isDigit_of_continuesNumeral hc) rfl
    · exact Ends.cons rfl _
  rw [readUnsigned?, unsignedChars, List.append_assoc, List.append_assoc]
  simp only [h.readWhole?_append hdigit, h.readFraction?_append hrest,
    h.readExponent?_append hrest, Option.bind_some, Option.map_some]

/-- A number is read back where the text does not continue it. -/
theorem readNumeral?_append (h : n.WellFormed) (hrest : Ends continuesNumeral rest) :
    readNumeral? (n.chars ++ rest) = some (n, rest) := by
  have hread := h.readUnsigned?_append hrest
  rw [chars]
  split
  · next hnegative =>
    rw [hnegative] at hread
    exact hread
  · next hnegative =>
    obtain ⟨c, cs, hcs⟩ := List.exists_cons_of_ne_nil h.whole_ne_nil
    have hc : c.isDigit = true := h.whole_digits c (hcs ▸ List.mem_cons_self)
    rw [eq_false_of_ne_true hnegative, unsignedChars, hcs] at hread
    rw [unsignedChars, hcs]
    rw [List.cons_append, List.cons_append] at hread ⊢
    rw [readNumeral?]
    · exact hread
    · rintro s ⟨rfl⟩
      cases hc

end WellFormed

end Numeral

/-! ### Strings -/

theorem Plain.readRaw?_append {raw : List Char} (h : Plain raw) (before rest : List Char) :
    readRaw? before (raw ++ '"' :: rest) = some (before.reverse ++ raw, rest) := by
  induction raw generalizing before with
  | nil => rw [List.nil_append, readRaw?, List.append_nil]
  | cons c raw ih =>
    rw [Plain, List.forall_mem_cons] at h
    obtain ⟨⟨hquote, hescape, hcontrol⟩, hraw⟩ := h
    have hc : ¬ (c = '\\' ∨ c.toNat < 32) := not_or.2 ⟨hescape, Nat.not_lt.2 hcontrol⟩
    have hstep : readRaw? before (c :: (raw ++ '"' :: rest)) =
        readRaw? (c :: before) (raw ++ '"' :: rest) := by
      rw [readRaw?, if_neg hc]
      · exact hquote
      · exact fun _ _ _ _ _ hc _ => hescape hc
      · exact fun _ _ hc _ => hescape hc
    rw [List.cons_append, hstep, ih hraw, List.reverse_cons, List.append_assoc]
    rfl

/-! ### Values -/

namespace Value

/-- Whatever follows it without continuing a number, a value is read back. -/
def ReadsBack (v : Value) : Prop :=
  ∀ (fuel : Nat) (rest : List Char), v.chars.length ≤ fuel → Ends continuesNumeral rest →
    readValue? fuel (v.chars ++ rest) = some (v, rest)

theorem ends_itemsBehind (items : List Value) (rest : List Char) :
    Ends continuesNumeral (itemsBehind items ++ rest) := by
  cases items <;> exact Ends.cons rfl _

theorem ends_fieldsBehind (fields : List (List Char × Value)) (rest : List Char) :
    Ends continuesNumeral (fieldsBehind fields ++ rest) := by
  cases fields with
  | nil => exact Ends.cons rfl _
  | cons => exact Ends.cons rfl _

/-- The items of an array. -/
theorem readItems?_append {item : Value} {items : List Value}
    (h : ∀ x ∈ item :: items, x.ReadsBack) (before : List Value) (rest : List Char) (fuel : Nat)
    (hfuel : (item.chars ++ itemsBehind items).length ≤ fuel) :
    readItems? fuel before (item.chars ++ (itemsBehind items ++ rest)) =
      some (.array (before.reverse ++ item :: items), rest) := by
  induction items generalizing item fuel before with
  | nil =>
    rw [List.length_append, itemsBehind, List.length_singleton] at hfuel
    obtain ⟨fuel, rfl⟩ : ∃ k, fuel = k + 1 := ⟨fuel - 1, by omega⟩
    rw [readItems?, h item List.mem_cons_self fuel _ (by omega) (ends_itemsBehind [] rest)]
    simp [itemsBehind, skipBlanks, isBlank]
  | cons next items ih =>
    obtain ⟨hitem, hitems⟩ := List.forall_mem_cons.1 h
    rw [List.length_append, itemsBehind, List.length_cons] at hfuel
    obtain ⟨fuel, rfl⟩ : ∃ k, fuel = k + 1 := ⟨fuel - 1, by omega⟩
    have hrest := ih hitems (item :: before) fuel (by omega)
    rw [readItems?, hitem fuel _ (by omega) (ends_itemsBehind (next :: items) rest)]
    simp [itemsBehind, skipBlanks, isBlank, hrest]

/-- A field of an object in front of a comma. -/
theorem readFields?_comma {name : List Char} {value : Value} (hname : Plain name)
    (before : List (List Char × Value)) {rest : List Char} {fuel : Nat}
    (hvalue : readValue? fuel (value.chars ++ ',' :: rest) = some (value, ',' :: rest)) :
    readFields? (fuel + 1) before
        ('"' :: (name ++ '"' :: ':' :: (value.chars ++ ',' :: rest))) =
      readFields? fuel ((name, value) :: before) rest := by
  have hquote : isBlank '"' = false := rfl
  have hcolon : isBlank ':' = false := rfl
  have hcomma : isBlank ',' = false := rfl
  simp only [readFields?, skipBlanks_cons, hquote, hcolon, hcomma, hname.readRaw?_append, hvalue,
    List.reverse_nil, List.nil_append]

/-- The last field of an object. -/
theorem readFields?_close {name : List Char} {value : Value} (hname : Plain name)
    (before : List (List Char × Value)) {rest : List Char} {fuel : Nat}
    (hvalue : readValue? fuel (value.chars ++ '\x7d' :: rest) = some (value, '\x7d' :: rest)) :
    readFields? (fuel + 1) before
        ('"' :: (name ++ '"' :: ':' :: (value.chars ++ '\x7d' :: rest))) =
      some (.object ((name, value) :: before).reverse, rest) := by
  have hquote : isBlank '"' = false := rfl
  have hcolon : isBlank ':' = false := rfl
  have hbrace : isBlank '\x7d' = false := rfl
  simp only [readFields?, skipBlanks_cons, hquote, hcolon, hbrace, hname.readRaw?_append, hvalue,
    List.reverse_nil, List.nil_append]

/-- The fields of an object. -/
theorem readFields?_append {name : List Char} {value : Value} {fields : List (List Char × Value)}
    (hnames : ∀ x ∈ (name, value) :: fields, Plain x.1)
    (hvalues : ∀ x ∈ (name, value) :: fields, x.2.ReadsBack) (before : List (List Char × Value))
    (rest : List Char) (fuel : Nat)
    (hfuel : (value.chars ++ fieldsBehind fields).length ≤ fuel) :
    readFields? fuel before
        ('"' :: (name ++ '"' :: ':' :: (value.chars ++ (fieldsBehind fields ++ rest)))) =
      some (.object (before.reverse ++ (name, value) :: fields), rest) := by
  induction fields generalizing name value fuel before with
  | nil =>
    have hname : Plain name := hnames _ List.mem_cons_self
    have hvalue : value.ReadsBack := hvalues _ List.mem_cons_self
    rw [List.length_append, fieldsBehind, List.length_singleton] at hfuel
    obtain ⟨fuel, rfl⟩ : ∃ k, fuel = k + 1 := ⟨fuel - 1, by omega⟩
    have hclose := readFields?_close hname before
      (hvalue fuel ('\x7d' :: rest) (by omega) (ends_fieldsBehind [] rest))
    rw [List.reverse_cons] at hclose
    exact hclose
  | cons next fields ih =>
    obtain ⟨(hname : Plain name), hnames⟩ := List.forall_mem_cons.1 hnames
    obtain ⟨(hvalue : value.ReadsBack), hvalues⟩ := List.forall_mem_cons.1 hvalues
    rw [List.length_append, fieldsBehind, List.length_cons, List.length_cons, List.length_append,
      List.length_cons, List.length_cons] at hfuel
    obtain ⟨fuel, rfl⟩ : ∃ k, fuel = k + 1 := ⟨fuel - 1, by omega⟩
    have hread := hvalue fuel _ (by omega) (ends_fieldsBehind (next :: fields) rest)
    have hrest := ih hnames hvalues ((name, value) :: before) fuel (by omega)
    simp only [fieldsBehind, List.cons_append, List.append_assoc] at hread ⊢
    rw [readFields?_comma hname before hread, hrest, List.reverse_cons, List.append_assoc]
    rfl

/-- Reading a value takes some fuel, because something is written of it. -/
theorem WellFormed.readsBack_of_succ {v : Value} (h : v.WellFormed)
    (hread : ∀ (fuel : Nat) (rest : List Char), v.chars.length ≤ fuel + 1 →
      Ends continuesNumeral rest → readValue? (fuel + 1) (v.chars ++ rest) = some (v, rest)) :
    v.ReadsBack := by
  intro fuel rest hfuel hrest
  obtain ⟨c, cs, hcs, -⟩ := h.exists_chars_eq_cons
  cases fuel with
  | zero =>
    rw [hcs, List.length_cons] at hfuel
    omega
  | succ fuel => exact hread fuel rest hfuel hrest

theorem readValue?_number {n : Numeral} (h : n.WellFormed) (fuel : Nat) {rest : List Char}
    (hrest : Ends continuesNumeral rest) :
    readValue? (fuel + 1) (n.chars ++ rest) = some (number n, rest) := by
  obtain ⟨c, cs, hcs, hc⟩ := h.exists_chars_eq_cons
  have hread := h.readNumeral?_append hrest
  have hother : ∀ x : Char, x ≠ '-' → x.isDigit = false → c ≠ x := by
    rintro x hminus hdigit rfl
    rcases hc with rfl | hc
    · exact hminus rfl
    · exact Bool.false_ne_true (hdigit.symm.trans hc)
  have hblank : isBlank c = false := by
    rcases hc with rfl | hc
    · rfl
    · exact isBlank_of_isDigit hc
  rw [hcs, List.cons_append] at hread ⊢
  rw [readValue?, skipBlanks_cons hblank]
  simp only [hother '[' (by decide) rfl, hother '\x7b' (by decide) rfl,
    hother '"' (by decide) rfl, hother 'n' (by decide) rfl, hother 't' (by decide) rfl,
    hother 'f' (by decide) rfl, if_false, hread, Option.map_some]

theorem readValue?_array {item : Value} {items : List Value} (hitem : item.WellFormed)
    (h : ∀ x ∈ item :: items, x.ReadsBack) {fuel : Nat} (rest : List Char)
    (hfuel : (item.chars ++ itemsBehind items).length ≤ fuel) :
    readValue? (fuel + 1) ('[' :: (item.chars ++ (itemsBehind items ++ rest))) =
      some (array (item :: items), rest) := by
  obtain ⟨c, cs, hcs, hblank, hclose⟩ := hitem.exists_chars_eq_cons
  have hread := readItems?_append h [] rest fuel hfuel
  rw [hcs, List.cons_append] at hread ⊢
  rw [readValue?, skipBlanks_cons (c := '[') rfl]
  simp only [if_true, skipBlanks_cons hblank]
  split
  · next heq => exact absurd (List.cons.inj heq).1 hclose
  · exact hread

theorem readValue?_object {name : List Char} {value : Value} {fields : List (List Char × Value)}
    (hnames : ∀ x ∈ (name, value) :: fields, Plain x.1)
    (hvalues : ∀ x ∈ (name, value) :: fields, x.2.ReadsBack) (fuel : Nat) (rest : List Char)
    (hfuel : (value.chars ++ fieldsBehind fields).length ≤ fuel) :
    readValue? (fuel + 1)
        ('\x7b' :: '"' :: (name ++ '"' :: ':' :: (value.chars ++ (fieldsBehind fields ++ rest)))) =
      some (object ((name, value) :: fields), rest) := by
  have hread := readFields?_append hnames hvalues [] rest fuel hfuel
  rw [readValue?, skipBlanks_cons (c := '\x7b') rfl]
  exact hread

/-- **Values are read back.** -/
theorem WellFormed.readsBack {v : Value} (h : v.WellFormed) : v.ReadsBack := by
  refine h.readsBack_of_succ ?_
  induction h with
  | null =>
    intro fuel rest _ _
    simp [chars, readValue?, skipBlanks, isBlank, readWord?]
  | bool b =>
    intro fuel rest _ _
    cases b <;> simp [chars, readValue?, skipBlanks, isBlank, readWord?]
  | number h => exact fun fuel rest _ hrest => readValue?_number h fuel hrest
  | string h =>
    intro fuel rest _ _
    have hread := h.readRaw?_append [] rest
    simp [chars, readValue?, skipBlanks, isBlank, hread]
  | @array items h ih =>
    intro fuel rest hfuel _
    cases items with
    | nil => simp [chars, readValue?, skipBlanks, isBlank]
    | cons item items =>
      have hitems := fun x hx => (h x hx).readsBack_of_succ (ih x hx)
      rw [chars, List.length_cons] at hfuel
      rw [chars, List.cons_append, List.append_assoc]
      exact readValue?_array (h item List.mem_cons_self) hitems rest (by omega)
  | @object fields hnames hvalues ih =>
    intro fuel rest hfuel _
    cases fields with
    | nil => simp [chars, readValue?, skipBlanks, isBlank]
    | cons field fields =>
      obtain ⟨name, value⟩ := field
      have hread := fun x hx => (hvalues x hx).readsBack_of_succ (ih x hx)
      simp only [chars, List.length_cons, List.length_append] at hfuel
      have hfield := readValue?_object hnames hread fuel rest (by
        rw [List.length_append]
        omega)
      simpa [chars] using hfield

/-- **The text of a value.** -/
theorem WellFormed.read?_write {v : Value} (h : v.WellFormed) : read? v.write = some v := by
  have hread := h.readsBack (v.chars.length + 1) [] (Nat.le_succ _) (Ends.nil _)
  rw [List.append_nil] at hread
  simp only [read?, toList_write, hread]
  rfl

end Value

end DiceOdds.Json
