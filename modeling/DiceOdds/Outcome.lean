/-!
# Outcomes

The values of dice expressions are signed 64-bit integers. Arithmetic on them is done on
unbounded integers and brought back by `Outcome.ofInt?`, so that a result is either exact or
missing and never wraps round.

## Main definitions

* `Outcome`: a value a dice expression can take.
* `Outcome.ofInt?`: the outcome equal to an integer, when there is one.

## Main results

* `Outcome.ofInt?_eq_some_iff`: an integer gives the outcome that has its value.
* `Outcome.ofInt?_eq_none_iff`: the integers that fit no outcome.
-/

namespace DiceOdds

/-- A value a dice expression can take. -/
abbrev Outcome := Int64

namespace Outcome

/-- The outcome equal to an integer: an integer fits when its 64-bit word reads back as the same
integer. -/
def ofInt? (n : Int) : Option Outcome :=
  let a := Int64.ofInt n
  if a.toInt = n then some a else none

theorem ofInt?_eq_some_iff {n : Int} {a : Outcome} : ofInt? n = some a ↔ a.toInt = n := by
  simp only [ofInt?]
  constructor
  · intro h
    split at h
    · next hn => cases h; exact hn
    · cases h
  · rintro rfl
    simp

theorem ofInt?_toInt (a : Outcome) : ofInt? a.toInt = some a :=
  ofInt?_eq_some_iff.2 rfl

theorem ofInt?_eq_none_iff {n : Int} :
    ofInt? n = none ↔ n < -9223372036854775808 ∨ 9223372036854775807 < n := by
  constructor
  · intro h
    by_cases hlow : -9223372036854775808 ≤ n
    · by_cases hhigh : n ≤ 9223372036854775807
      · have hread : (Int64.ofInt n).toInt = n := Int64.toInt_ofInt_of_le (by omega) (by omega)
        rw [ofInt?_eq_some_iff.2 hread] at h
        cases h
      · exact .inr (Int.not_le.1 hhigh)
    · exact .inl (Int.not_le.1 hlow)
  · intro h
    cases hn : ofInt? n with
    | none => rfl
    | some a =>
      have ha := ofInt?_eq_some_iff.1 hn
      have hlow := a.le_toInt
      have hhigh := a.toInt_lt
      omega

end Outcome

end DiceOdds
