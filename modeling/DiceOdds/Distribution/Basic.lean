import DiceOdds.Chance
import DiceOdds.EvalError

/-!
# Distributions

A distribution gives every possible outcome its chance. Outcomes are listed in increasing order
and each is listed once, so two distributions are equal exactly when they give the same outcomes
the same chances. An outcome may be listed with chance zero.

## Main definitions

* `Distribution`: the outcomes with their chances.
* `Distribution.certain`, `Distribution.die`: a constant, and a fair die.
* `Distribution.chance?`, `Distribution.least?`, `Distribution.greatest?`: looking things up.
* `Distribution.map`, `Distribution.scale?`: the same outcomes with other chances.
-/

namespace DiceOdds

/-- Outcomes with their chances, in increasing order of the outcomes. -/
structure Distribution (α : Type) where
  entries : List (Outcome × α)
  sorted : entries.Pairwise fun x y => x.1 < y.1

namespace Distribution

variable {α β : Type}

theorem ext {p q : Distribution α} (h : p.entries = q.entries) : p = q := by
  cases p
  cases q
  cases h
  rfl

instance [DecidableEq α] : DecidableEq (Distribution α) := fun p q =>
  decidable_of_iff (p.entries = q.entries) ⟨ext, congrArg entries⟩

/-- Two distributions agree when they list the same outcomes with chances that compare equal. -/
instance [BEq α] : BEq (Distribution α) := ⟨fun p q => p.entries == q.entries⟩

/-! ### Building -/

/-- An outcome that is certain to occur. -/
def certain [Chance α] (n : Outcome) : Distribution α :=
  ⟨[(n, Chance.one)], List.pairwise_singleton _ _⟩

private theorem faces_sorted (faces : Outcome) (chance : α) :
    ((List.range faces.toNatClampNeg).map fun k => (Int64.ofNat (k + 1), chance)).Pairwise
      fun x y => x.1 < y.1 := by
  rw [List.pairwise_map]
  refine List.Pairwise.imp_of_mem ?_ List.pairwise_lt_range
  intro a b ha hb hab
  have hfaces := faces.toInt_lt
  rw [List.mem_range] at ha hb
  have hclamp : (faces.toNatClampNeg : Int) < 2 ^ 63 := by
    rw [← Int64.toNat_toInt]
    omega
  rw [Int64.lt_iff_toInt_lt, Int64.toInt_ofNat_of_lt (by omega), Int64.toInt_ofNat_of_lt (by omega)]
  omega

/-- A fair die: every outcome from one to the number of faces is equally likely. -/
def die [Chance α] (faces : Outcome) : Except EvalError (Distribution α) :=
  if faces ≤ 0 then .error (.noFaces faces)
  else
    match (Chance.ofOutcome? faces : Option α) with
    | none => .error (.unrepresentable faces)
    | some n =>
      match Chance.div? Chance.one n with
      | none => .error .chanceOutOfRange
      | some chance => .ok ⟨_, faces_sorted faces chance⟩

/-! ### Looking up -/

/-- How many outcomes are listed. -/
def size (p : Distribution α) : Nat := p.entries.length

/-- The chance of an outcome, if it is listed. -/
def chance? (p : Distribution α) (n : Outcome) : Option α := p.entries.lookup n

/-- The least outcome. -/
def least? (p : Distribution α) : Option Outcome := p.entries.head?.map (·.1)

/-- The greatest outcome. -/
def greatest? (p : Distribution α) : Option Outcome := p.entries.getLast?.map (·.1)

/-! ### Other chances -/

/-- The same outcomes with chances computed from the given ones. -/
def map (f : α → β) (p : Distribution α) : Distribution β :=
  ⟨p.entries.map fun x => (x.1, f x.2), by
    rw [List.pairwise_map]
    exact p.sorted⟩

/-- The same outcomes with chances multiplied by a factor, if there is a number for every
product. -/
def scale? [Chance α] (factor : α) (p : Distribution α) : Option (Distribution α) :=
  if p.entries.all fun x => (Chance.mul? x.2 factor).isSome then
    some (p.map fun x => (Chance.mul? x factor).getD Chance.zero)
  else none

end Distribution

end DiceOdds
