import DiceOdds.Proofs.Json.Forms

/-!
# The JSON forms are faithful

The text of a form is read back as what was written, except that an expression whose objects would
nest too deeply is refused. The fields of a distribution are named by its outcomes and come in their
order. Putting them into a tally one by one restores the distribution, because no outcome comes
twice.

## Main definitions

* `Distribution.tallyOf`: the tally that some entries are put into.

## Main results

* `Outcome.outcomeOfName?_toString`: the names of the fields.
* `Distribution.ofTally_tallyOf`, `Distribution.ofJson?_toJson`: distributions.
* `Json.readJson?_write_toJson`: expressions and distributions as texts.
-/

namespace DiceOdds

open Json (Numeral integer)

/-! ### Names of outcomes -/

namespace Outcome

theorem toList_toString (a : Outcome) : (toString a).toList = (Numeral.ofInt a.toInt).chars := by
  have hprint : toString a = toString a.toInt := rfl
  rw [hprint, Numeral.chars_ofInt]
  cases a.toInt with
  | ofNat k => exact Nat.toList_repr
  | negSucc k =>
    have hprint : toString (Int.negSucc k) = "-" ++ (k + 1).repr := rfl
    rw [hprint, String.toList_append, Nat.toList_repr, if_pos (Int.negSucc_lt_zero k)]
    rfl

theorem plain_toString (a : Outcome) : Json.Plain (toString a).toList := by
  have hdigits : Json.Plain (Nat.toDigits 10 a.toInt.natAbs) := Json.plain_of_isDigit fun _ hc =>
    Nat.isDigit_of_mem_toDigits (by decide) (by decide) hc
  rw [toList_toString, Numeral.chars_ofInt]
  split
  · exact List.forall_mem_cons.2 ⟨by decide, hdigits⟩
  · exact hdigits

/-- The name of an outcome is read back. -/
theorem outcomeOfName?_toString (a : Outcome) : outcomeOfName? (toString a).toList = some a := by
  have hread := (Numeral.wellFormed_ofInt a.toInt).readNumeral?_append (Ends.nil _)
  rw [List.append_nil] at hread
  rw [toList_toString, outcomeOfName?, hread]
  simp only [Numeral.integer?_ofInt, Option.bind_some, ofInt?_toInt]

end Outcome

/-! ### Distributions -/

namespace Distribution

/-- The tally that some entries are put into. -/
def tallyOf {α : Type} (entries : List (Outcome × α)) (t : Tally α) : Tally α :=
  entries.foldl (fun t x => t.insert x.1 x.2) t

/-- Entries of different outcomes replace what a tally has of them. -/
theorem getElem?_tallyOf {α : Type} {entries : List (Outcome × α)}
    (h : entries.Pairwise fun x y => x.1 < y.1) (t : Tally α) (n : Outcome) :
    (tallyOf entries t)[n]? = (entries.lookup n).or t[n]? := by
  induction entries generalizing t with
  | nil => rfl
  | cons x entries ih =>
    obtain ⟨k, v⟩ := x
    obtain ⟨hhead, htail⟩ := List.pairwise_cons.1 h
    refine (ih htail (t.insert k v)).trans ?_
    rw [Std.TreeMap.getElem?_insert]
    by_cases hn : n = k
    · subst hn
      have hnone : entries.lookup n = none := by
        refine List.lookup_eq_none_iff.2 fun x hx => ?_
        have hne : n ≠ x.1 := Int64.ne_of_lt (hhead x hx)
        simpa using hne
      rw [hnone, if_pos (Std.compare_eq_iff_eq.2 rfl), List.lookup_cons_self]
      rfl
    · have hkey : (n == k) = false := beq_false_of_ne hn
      rw [if_neg fun h => hn (Std.compare_eq_iff_eq.1 h).symm, List.lookup_cons, hkey]

theorem ofTally_tallyOf {α : Type} (p : Distribution α) : ofTally (tallyOf p.entries ∅) = p := by
  refine ext_of_chance? fun n => Option.ext fun w => ?_
  rw [chance?_eq_some_iff, Tally.mem_entries_ofTally, getElem?_tallyOf p.sorted,
    Std.TreeMap.getElem?_emptyc, Option.or_none]
  rfl

theorem wellFormed_toJson (p : Distribution Int64) : p.toJson.WellFormed := by
  refine Json.wellFormed_object (fun x hx => ?_) fun x hx => ?_
  all_goals obtain ⟨entry, -, rfl⟩ := List.mem_map.1 hx
  · exact entry.1.plain_toString
  · exact Json.wellFormed_integer entry.2.toInt

theorem addFields?_entries (entries : List (Outcome × Int64)) (t : Tally Int64) :
    addFields? t (entries.map fun x => ((toString x.1).toList, integer x.2.toInt)) =
      some (tallyOf entries t) := by
  induction entries generalizing t with
  | nil => rfl
  | cons x entries ih =>
    have hvalue : JsonChance.ofJson? (integer x.2.toInt) = some x.2 := Json.outcome?_integer x.2
    simp only [List.map_cons, addFields?, x.1.outcomeOfName?_toString, hvalue, ih]
    rfl

theorem ofJson?_toJson (p : Distribution Int64) : ofJson? p.toJson = some p := by
  have hfields := addFields?_entries p.entries ∅
  rw [toJson, Json.object, List.map_map, ofJson?]
  exact (congrArg (Option.map ofTally) hfields).trans (congrArg some p.ofTally_tallyOf)

end Distribution

/-! ### Texts -/

/-- **The JSON forms are faithful.** The text of an expression is read as the expression itself when
no path from its root to a leaf passes more than 63 operators, and is refused otherwise. The text of
a distribution is read as the distribution itself. -/
theorem Json.readJson?_write_toJson :
    (∀ e : Expr, Expr.readJson? e.toJson.write =
      if ∀ k, e.Path k → k ≤ 63 then some e else none) ∧
    ∀ p : Distribution Int64, Distribution.readJson? p.toJson.write = some p := by
  refine ⟨fun e => ?_, fun p => ?_⟩
  · have hroom : 2 * e.height + 1 ≤ maxNesting ↔ ∀ k, e.Path k → k ≤ 63 := by
      rw [← Expr.height_le_iff, maxNesting]
      omega
    rw [Expr.readJson?, e.wellFormed_toJson.read?_write, Option.bind_some, e.ofJson?_toJson]
    simp only [hroom]
  · rw [Distribution.readJson?, p.wellFormed_toJson.read?_write, Option.bind_some, p.ofJson?_toJson]

end DiceOdds
