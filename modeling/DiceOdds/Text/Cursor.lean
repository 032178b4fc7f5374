/-!
# Positions in a text

Both ways of reading an expression go through the text once from left to right. A cursor holds
what is still to be read and how many bytes of the text came before, because positions are
reported in bytes of the encoded text.

## Main definitions

* `isBlank`: the characters that may stand between the parts of an expression.
* `Cursor`, `Cursor.ofString`: a position in a text.
* `Cursor.skipBlanks`, `Cursor.digits`, `Cursor.skipDigits`, `Cursor.take?`: reading on.
* `numeral`: the number written by a run of digits.

## Main results

* `Cursor.size_skipBlanks_le`, `Cursor.size_skipDigits_lt`, `Cursor.size_lt_of_take?`: how much
  less there is to read afterwards.
-/

namespace DiceOdds

/-- Whether a character may stand between the parts of an expression: space, tab, carriage return
and line feed. -/
def isBlank (c : Char) : Bool := c = ' ' || c = '\t' || c = '\r' || c = '\n'

/-- The number written by a run of decimal digits. -/
def numeral (digits : List Char) : Nat :=
  digits.foldl (fun n c => 10 * n + (c.toNat - '0'.toNat)) 0

/-- A position in a text: how many bytes came before, and what is still to be read. -/
structure Cursor where
  offset : Nat
  rest : List Char
  deriving DecidableEq, Repr

namespace Cursor

/-- The start of a text. -/
def ofString (s : String) : Cursor := ⟨0, s.toList⟩

/-- How many characters are still to be read. -/
def size (c : Cursor) : Nat := c.rest.length

/-- The position behind the blanks that come next. -/
def skipBlanks (c : Cursor) : Cursor :=
  -- A blank is one byte long.
  ⟨c.offset + (c.rest.takeWhile isBlank).length, c.rest.dropWhile isBlank⟩

/-- The run of decimal digits that comes next. -/
def digits (c : Cursor) : List Char := c.rest.takeWhile Char.isDigit

/-- The position behind the digits that come next. -/
def skipDigits (c : Cursor) : Cursor :=
  -- A digit is one byte long.
  ⟨c.offset + c.digits.length, c.rest.dropWhile Char.isDigit⟩

/-- The position behind the given character, if that character comes next. -/
def take? (c : Cursor) (x : Char) : Option Cursor :=
  match c.rest with
  | [] => none
  | y :: rest => if y = x then some ⟨c.offset + x.utf8Size, rest⟩ else none

/-! ### What is left to read -/

private theorem length_dropWhile_le (p : Char → Bool) (l : List Char) :
    (l.dropWhile p).length ≤ l.length :=
  (List.dropWhile_suffix p).length_le

theorem size_skipBlanks_le (c : Cursor) : c.skipBlanks.size ≤ c.size :=
  length_dropWhile_le isBlank c.rest

theorem size_skipDigits_le (c : Cursor) : c.skipDigits.size ≤ c.size :=
  length_dropWhile_le Char.isDigit c.rest

theorem size_skipDigits_lt {c : Cursor} (h : c.digits ≠ []) : c.skipDigits.size < c.size := by
  have hsplit : (c.rest.takeWhile Char.isDigit ++ c.rest.dropWhile Char.isDigit).length =
      c.rest.length := by rw [List.takeWhile_append_dropWhile]
  rw [List.length_append] at hsplit
  have hpos : 0 < (c.rest.takeWhile Char.isDigit).length := List.length_pos_iff.2 h
  simp only [size, skipDigits]
  omega

theorem size_lt_of_take? {c c' : Cursor} {x : Char} (h : c.take? x = some c') :
    c'.size < c.size := by
  unfold take? at h
  split at h
  · cases h
  · next y rest hrest =>
    split at h
    · cases h
      simp [size, hrest]
    · cases h

end Cursor

end DiceOdds
