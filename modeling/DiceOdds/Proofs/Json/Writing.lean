import DiceOdds.Json.Writer
import DiceOdds.Proofs.Grammar.Runs

/-!
# The characters of written JSON

A value is written by adding to a text. What is added does not depend on the text in front, and its
characters follow the structure of the value. In a plain value, whose strings have no escapes and
whose numbers are written as the format asks for, the first character tells the kind of the value.

## Main definitions

* `Json.Numeral.chars`, `Json.Value.chars`: the characters of a number and of a value.
* `Json.Numeral.WellFormed`, `Json.Plain`, `Json.Value.WellFormed`: numbers, strings and values that
  are read back.

## Main results

* `Json.Value.toList_write`: what is written.
* `Json.Value.WellFormed.exists_chars_eq_cons`: the first character.
-/

namespace DiceOdds.Json

/-! ### Characters -/

namespace Numeral

/-- The point with the digits behind it. -/
def pointChars (n : Numeral) : List Char := if n.fraction = [] then [] else '.' :: n.fraction

/-- The power of ten. -/
def powerChars (n : Numeral) : List Char :=
  match n.exponent with
  | none => []
  | some (negative, digits) => 'e' :: (if negative then '-' else '+') :: digits

/-- The characters of a number without its sign. -/
def unsignedChars (n : Numeral) : List Char := n.whole ++ (n.pointChars ++ n.powerChars)

/-- The characters of a number. -/
def chars (n : Numeral) : List Char :=
  if n.negative then '-' :: n.unsignedChars else n.unsignedChars

theorem toList_text (n : Numeral) : n.text.toList = n.chars := by
  obtain ⟨negative, whole, fraction, exponent⟩ := n
  have hpoint : (if fraction = [] then "" else "." ++ String.ofList fraction).toList =
      if fraction = [] then [] else '.' :: fraction := by
    split <;> simp
  cases exponent with
  | none =>
    simp only [text, chars, unsignedChars, pointChars, powerChars, String.toList_append, hpoint]
    cases negative <;> simp
  | some power =>
    simp only [text, chars, unsignedChars, pointChars, powerChars, String.toList_append, hpoint]
    cases negative <;> cases power.1 <;> simp

/-- A number is written with digits in each of its parts, and with a leading zero only if its whole
part is zero. -/
structure WellFormed (n : Numeral) : Prop where
  whole_ne_nil : n.whole ≠ []
  whole_digits : ∀ c ∈ n.whole, c.isDigit = true
  leading_zero : ∀ cs, n.whole = '0' :: cs → cs = []
  fraction_digits : ∀ c ∈ n.fraction, c.isDigit = true
  power_ne_nil : ∀ x ∈ n.exponent, x.2 ≠ []
  power_digits : ∀ x ∈ n.exponent, ∀ c ∈ x.2, c.isDigit = true

/-- A number starts with a minus sign or a digit. -/
theorem WellFormed.exists_chars_eq_cons {n : Numeral} (h : n.WellFormed) :
    ∃ c cs, n.chars = c :: cs ∧ (c = '-' ∨ c.isDigit = true) := by
  rw [chars]
  split
  · exact ⟨'-', _, rfl, .inl rfl⟩
  · obtain ⟨c, cs, hcs⟩ := List.exists_cons_of_ne_nil h.whole_ne_nil
    refine ⟨c, cs ++ (n.pointChars ++ n.powerChars), ?_, .inr ?_⟩
    · rw [unsignedChars, hcs, List.cons_append]
    · exact h.whole_digits c (hcs ▸ List.mem_cons_self)

end Numeral

namespace Value

mutual

/-- The characters of a value. -/
def chars : Value → List Char
  | null => ['n', 'u', 'l', 'l']
  | bool true => ['t', 'r', 'u', 'e']
  | bool false => ['f', 'a', 'l', 's', 'e']
  | number n => n.chars
  | string raw => '"' :: (raw ++ ['"'])
  | array [] => ['[', ']']
  | array (item :: items) => '[' :: (item.chars ++ itemsBehind items)
  | object [] => ['\x7b', '\x7d']
  | object ((name, value) :: fields) =>
    '\x7b' :: '"' :: (name ++ '"' :: ':' :: (value.chars ++ fieldsBehind fields))

/-- The characters of further items up to the closing bracket. -/
def itemsBehind : List Value → List Char
  | [] => [']']
  | item :: items => ',' :: (item.chars ++ itemsBehind items)

/-- The characters of further fields up to the closing brace. -/
def fieldsBehind : List (List Char × Value) → List Char
  | [] => ['\x7d']
  | (name, value) :: fields =>
    ',' :: '"' :: (name ++ '"' :: ':' :: (value.chars ++ fieldsBehind fields))

end

mutual

theorem toList_addTo (out : String) :
    (v : Value) → (v.addTo out).toList = out.toList ++ v.chars
  | null => by simp [addTo, chars]
  | bool true => by simp [addTo, chars]
  | bool false => by simp [addTo, chars]
  | number n => by rw [addTo, chars, String.toList_append, Numeral.toList_text]
  | string raw => by simp [addTo, chars]
  | array [] => by simp [addTo, chars]
  | array (item :: items) => by
    rw [addTo, toList_addItems, toList_addTo, chars]
    simp
  | object [] => by simp [addTo, chars]
  | object ((name, value) :: fields) => by
    rw [addTo, toList_addFields, toList_addTo, chars]
    simp

theorem toList_addItems (out : String) : (items : List Value) →
    ((addItems out items).push ']').toList = out.toList ++ itemsBehind items
  | [] => by simp [addItems, itemsBehind]
  | item :: items => by
    rw [addItems, toList_addItems, toList_addTo, itemsBehind]
    simp

theorem toList_addFields (out : String) : (fields : List (List Char × Value)) →
    ((addFields out fields).push '\x7d').toList = out.toList ++ fieldsBehind fields
  | [] => by simp [addFields, fieldsBehind]
  | (name, value) :: fields => by
    rw [addFields, toList_addFields, toList_addTo, fieldsBehind]
    simp

end

/-- What is written. -/
theorem toList_write (v : Value) : v.write.toList = v.chars := by
  rw [write, toList_addTo]
  rfl

end Value

/-! ### Well-formed values -/

/-- A string has neither quotes nor escapes nor controls. -/
def Plain (raw : List Char) : Prop := ∀ c ∈ raw, c ≠ '"' ∧ c ≠ '\\' ∧ 32 ≤ c.toNat

instance (raw : List Char) : Decidable (Plain raw) :=
  inferInstanceAs (Decidable (∀ c ∈ raw, c ≠ '"' ∧ c ≠ '\\' ∧ 32 ≤ c.toNat))

theorem plain_of_isDigit {raw : List Char} (h : ∀ c ∈ raw, c.isDigit = true) :
    Plain raw := by
  intro c hc
  have hdigit := h c hc
  have hother : ∀ x : Char, x.isDigit = false → c ≠ x := by
    rintro x hx rfl
    exact Bool.false_ne_true (hx.symm.trans hdigit)
  refine ⟨hother '"' rfl, hother '\\' rfl, ?_⟩
  simp only [Char.isDigit, Bool.and_eq_true, decide_eq_true_eq] at hdigit
  have hlow : 48 ≤ c.toNat := UInt32.le_iff_toNat_le.1 hdigit.1
  omega

namespace Value

/-- All strings of a value are plain, and all its numbers are well-formed. -/
inductive WellFormed : Value → Prop where
  | null : WellFormed null
  | bool (b : Bool) : WellFormed (bool b)
  | number {n : Numeral} (h : n.WellFormed) : WellFormed (number n)
  | string {raw : List Char} (h : Plain raw) : WellFormed (string raw)
  | array {items : List Value} (h : ∀ item ∈ items, WellFormed item) : WellFormed (array items)
  | object {fields : List (List Char × Value)} (hnames : ∀ field ∈ fields, Plain field.1)
      (hvalues : ∀ field ∈ fields, WellFormed field.2) : WellFormed (object fields)

/-- A value starts neither with a blank nor with a closing bracket. -/
theorem WellFormed.exists_chars_eq_cons {v : Value} (h : v.WellFormed) :
    ∃ c cs, v.chars = c :: cs ∧ isBlank c = false ∧ c ≠ ']' := by
  cases h with
  | null => exact ⟨'n', _, rfl, rfl, by decide⟩
  | bool b => cases b <;> exact ⟨_, _, rfl, rfl, by decide⟩
  | number h =>
    obtain ⟨c, cs, hcs, hc⟩ := h.exists_chars_eq_cons
    refine ⟨c, cs, hcs, ?_⟩
    rcases hc with rfl | hc
    · exact ⟨rfl, by decide⟩
    · refine ⟨isBlank_of_isDigit hc, ?_⟩
      rintro rfl
      cases hc
  | string => exact ⟨'"', _, rfl, rfl, by decide⟩
  | @array items => cases items <;> exact ⟨'[', _, rfl, rfl, by decide⟩
  | @object fields => cases fields <;> exact ⟨'\x7b', _, rfl, rfl, by decide⟩

end Value

end DiceOdds.Json
