import DiceOdds.Proofs.Token.Checked
import DiceOdds.Proofs.Grammar.Runs

/-!
# Positions of a text

A cursor is a position of a text when what it holds is the rest of the text and its offset counts
the bytes in front. Every cursor that reading reaches is one, whatever characters the text has, so
the offsets at both ends of a run are the bounds of the slice that holds the run.

## Main definitions

* `Cursor.In`: a cursor is a position of a text.

## Main results

* `Cursor.In.next`, `Cursor.In.skipDigits`, `Cursor.In.take?`, `Cursor.In.number`, `Cursor.In.die`:
  moving on.
* `Cursor.In.offset_add_size_le`: what is in front and what is behind.
* `Checked.slice_eq`, `Checked.slice_digits`: the slice between two positions.
-/

namespace DiceOdds

/-- A character takes at least one byte. -/
theorem length_le_utf8ByteSize (t : List Char) : t.length ≤ (String.ofList t).utf8ByteSize := by
  induction t with
  | nil => exact Nat.zero_le _
  | cons c t ih =>
    have hpos := c.utf8Size_pos
    rw [String.ofList_cons, String.utf8ByteSize_append, String.utf8ByteSize_singleton,
      List.length_cons]
    omega

/-- A cursor holds the rest of a text and counts the bytes in front of it. -/
def Cursor.In (text : String) (c : Cursor) : Prop :=
  ∃ front : String, text = front ++ String.ofList c.rest ∧ c.offset = front.utf8ByteSize

namespace Cursor

variable {text : String} {c c' : Cursor} {offset : Nat} {x : Char} {rest run : List Char}

theorem digits_append_rest (c : Cursor) : c.digits ++ c.skipDigits.rest = c.rest :=
  List.takeWhile_append_dropWhile

theorem utf8ByteSize_digits (c : Cursor) :
    (String.ofList c.digits).utf8ByteSize = c.digits.length :=
  utf8ByteSize_ofList fun x hx => utf8Size_of_isDigit (all_takeWhile x hx)

theorem digits_cons (hx : x.isDigit = true) :
    (Cursor.mk offset (x :: rest)).digits = x :: (Cursor.mk (offset + 1) rest).digits :=
  List.takeWhile_cons_of_pos hx

theorem skipDigits_cons (hx : x.isDigit = true) :
    (Cursor.mk offset (x :: rest)).skipDigits = (Cursor.mk (offset + 1) rest).skipDigits := by
  rw [skipDigits, digits_cons hx, List.length_cons, List.dropWhile_cons_of_pos hx,
    Nat.add_comm _ 1, ← Nat.add_assoc]
  rfl

theorem skipDigits_of_ends (h : Ends Char.isDigit c.rest) : c.skipDigits = c := by
  have hrest := c.digits_append_rest
  rw [digits_eq_nil h, List.nil_append] at hrest
  rw [skipDigits, digits_eq_nil h]
  exact congrArg (Cursor.mk c.offset) hrest

theorem offset_of_take? (h : c.take? x = some c') : c'.offset = c.offset + x.utf8Size := by
  rw [take?] at h
  split at h
  · cases h
  · split at h <;> cases h
    rfl

theorem in_ofString (s : String) : (ofString s).In s :=
  ⟨"", by rw [ofString, String.ofList_toList, String.empty_append], rfl⟩

namespace In

/-- Behind a run of characters. -/
theorem behind (h : (Cursor.mk offset (run ++ rest)).In text) :
    (Cursor.mk (offset + (String.ofList run).utf8ByteSize) rest).In text := by
  obtain ⟨front, htext, hoffset⟩ := h
  refine ⟨front ++ String.ofList run, ?_, ?_⟩
  · rw [htext, String.ofList_append, String.append_assoc]
  · rw [String.utf8ByteSize_append, ← hoffset]

theorem next (h : (Cursor.mk offset (x :: rest)).In text) :
    (Cursor.mk (offset + x.utf8Size) rest).In text := by
  have hx : (String.ofList [x]).utf8ByteSize = x.utf8Size := by
    rw [← String.singleton_eq_ofList, String.utf8ByteSize_singleton]
  have hin : (Cursor.mk offset ([x] ++ rest)).In text := h
  have hbehind := hin.behind
  rwa [hx] at hbehind

theorem skipDigits (h : c.In text) : c.skipDigits.In text := by
  have hbehind : (Cursor.mk c.offset (c.digits ++ c.skipDigits.rest)).In text := by
    rwa [digits_append_rest]
  have hbehind := hbehind.behind
  rwa [utf8ByteSize_digits] at hbehind

theorem take? (h : c.In text) (hc : c.take? x = some c') : c'.In text := by
  rw [Cursor.take?] at hc
  split at hc
  · cases hc
  · next y rest hrest =>
    split at hc
    · next hy =>
      cases hc
      have hc : (Cursor.mk c.offset (x :: rest)).In text := by
        rw [← hy, ← hrest]
        exact h
      exact hc.next
    · cases hc

theorem offset_add_size_le (h : c.In text) : c.offset + c.size ≤ text.utf8ByteSize := by
  obtain ⟨front, htext, hoffset⟩ := h
  rw [htext, String.utf8ByteSize_append, ← hoffset]
  exact Nat.add_le_add_left (length_le_utf8ByteSize c.rest) _

variable {limits : Limits} {nodes nodes' letter : Nat} {e : Expr}

theorem number (h : c.In text) (hc : Scan.number limits nodes c = .ok (e, nodes', c')) :
    c'.In text := by
  rw [Scan.number] at hc
  split at hc
  · next d hd =>
    simp only [bind, Except.bind, pure, Except.pure] at hc
    repeat' split at hc
    all_goals cases hc
    exact (h.skipDigits.take? hd).skipDigits
  · simp only [bind, Except.bind, pure, Except.pure] at hc
    repeat' split at hc
    all_goals cases hc
    exact h.skipDigits

theorem die (h : c.In text) (hc : Scan.die limits nodes letter c = .ok (e, nodes', c')) :
    c'.In text := by
  rw [Scan.die] at hc
  simp only [bind, Except.bind, pure, Except.pure] at hc
  repeat' split at hc
  all_goals cases hc
  exact h.skipDigits

end In

end Cursor

namespace Checked

variable {text : String} {start : Nat} {run rest : List Char}

/-- Between two parts of a text there is a position. -/
theorem exists_pos?_eq {front back : String} (htext : text = front ++ back) :
    ∃ p : text.Pos, text.pos? ⟨front.utf8ByteSize⟩ = some p ∧ p.Splits front back := by
  have hvalid : (front.rawEndPos).IsValid text :=
    String.Pos.Raw.isValid_iff_exists_append.2 ⟨front, back, htext, rfl⟩
  refine ⟨text.pos front.rawEndPos hvalid, ?_, htext, rfl⟩
  have hslice := String.Pos.Raw.isValidForSlice_eq_true_iff.2 hvalid.toSlice
  exact congrArg (Option.map String.Pos.ofToSlice) (dif_pos hslice)

/-- **Slices between positions.** A run in front of the rest of a text is the slice from the
position in front of it to the position behind it. -/
theorem slice_eq (h : (Cursor.mk start (run ++ rest)).In text) :
    slice text start (start + (String.ofList run).utf8ByteSize) = .ok run := by
  obtain ⟨front, htext, rfl : start = front.utf8ByteSize⟩ := h
  let back := String.ofList rest
  have htext : text = front ++ (String.ofList run ++ back) := by
    rw [htext, String.ofList_append]
  obtain ⟨a, ha, hsplits⟩ := exists_pos?_eq htext
  rw [← String.append_assoc] at htext
  obtain ⟨b, hb, hsplits'⟩ := exists_pos?_eq htext
  obtain ⟨hle, hcopy⟩ := String.copy_slice_eq_iff_splits.2 ⟨front, back, hsplits, hsplits'⟩
  have hpart : text.slice? a b = some (text.slice a b hle) := dif_pos hle
  rw [slice, ← String.utf8ByteSize_append, ha, hb]
  simp only [hpart, hcopy, String.toList_ofList]

theorem slice_digits {c : Cursor} (h : c.In text) :
    slice text c.offset c.skipDigits.offset = .ok c.digits := by
  have hin : (Cursor.mk c.offset (c.digits ++ c.skipDigits.rest)).In text := by
    rwa [Cursor.digits_append_rest]
  have hslice := slice_eq hin
  rwa [Cursor.utf8ByteSize_digits] at hslice

end Checked

end DiceOdds
