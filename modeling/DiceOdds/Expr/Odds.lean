import DiceOdds.Distribution.Convolution
import DiceOdds.Expr.Walk
import DiceOdds.Journal
import DiceOdds.Limits

/-!
# The distribution of an expression

Every node of an expression gets its distribution from those of its operands. Limits bound how
many outcomes a node may have and how many pairs of outcomes an operator may combine; the pairs are
counted before the work is done. Every combination is remarked on in a journal.

## Main definitions

* `Odds.die`, `Odds.combine`: the distribution of a die and of an operator within limits.
* `Expr.distribution`: the distribution of an expression.

## Main results

* `Expr.distribution_binary`: the distribution of an operator node comes from those of its
  operands.
-/

namespace DiceOdds

namespace Odds

variable {α : Type} [Chance α]

/-- The distribution of a die, unless it has more faces than outcomes are allowed. -/
def die (limits : Limits) (faces : Outcome) : Except EvalError (Distribution α) :=
  if 0 < faces ∧ limits.maxOutcomes < faces.toNatClampNeg then
    .error (.tooManyOutcomes faces.toNatClampNeg limits.maxOutcomes)
  else Distribution.die faces

/-- How many pairs of outcomes two distributions have. -/
def pairs (p q : Distribution α) : Nat := Limits.saturate (p.size * q.size)

/-- A distribution, unless it has too many outcomes. -/
def checkSize (limits : Limits) (r : Distribution α) : Except EvalError (Distribution α) :=
  let outcomes := Limits.saturate r.size
  if limits.maxOutcomes < outcomes then .error (.tooManyOutcomes outcomes limits.maxOutcomes)
  else .ok r

/-- The distribution of an operator, unless it combines too many pairs or has too many
outcomes. -/
def combine (limits : Limits) (op : Operator) (p q : Distribution α) :
    Except EvalError (Distribution α) :=
  if limits.maxPairs < pairs p q then .error (.tooManyPairs op (pairs p q) limits.maxPairs)
  else (Distribution.combine op p q).bind (checkSize limits)

/-- The remark on a combination. -/
def remark (op : Operator) (p q r : Distribution α) : Remark where
  level := .trace
  message := s!"{p.size} x {q.size} outcomes under '{op.symbol}' gave {r.size}"

/-- The distribution of an operator within limits. A combination that was carried out is remarked
on. -/
def combineWithJournal (limits : Limits) (op : Operator) (p q : Distribution α) :
    ExceptT EvalError (StateM Journal) (Distribution α) := fun journal =>
  if limits.maxPairs < pairs p q then
    (.error (.tooManyPairs op (pairs p q) limits.maxPairs), journal)
  else
    match Distribution.combine op p q with
    | .error error => (.error error, journal)
    | .ok r => (checkSize limits r, journal.push (remark op p q r))

theorem combineWithJournal_fst (limits : Limits) (op : Operator) (p q : Distribution α)
    (journal : Journal) : (combineWithJournal limits op p q journal).1 = combine limits op p q := by
  unfold combineWithJournal combine
  split
  · rfl
  · cases Distribution.combine op p q <;> rfl

/-- Computes the distribution of each node within limits. -/
def analysis (limits : Limits) : Analysis Journal EvalError (Distribution α) where
  constant n := pure (.certain n)
  die faces := Analysis.lift (die limits faces)
  binary op p q := combineWithJournal limits op p q

theorem eval_fst (limits : Limits) (e : Expr) (journal journal' : Journal) :
    ((analysis (α := α) limits).eval e journal).1 = ((analysis limits).eval e journal').1 :=
  Analysis.eval_fst_eq (fun _ _ _ => rfl) (fun _ _ _ => rfl)
    (fun op p q s s' => (combineWithJournal_fst limits op p q s).trans
      (combineWithJournal_fst limits op p q s').symm) e journal journal'

end Odds

namespace Expr

variable {α : Type} [Chance α]

/-- The distribution of an expression within limits, with the remarks made on the way. -/
def distributionWithJournal (limits : Limits) (e : Expr) :
    Except EvalError (Distribution α) × Journal :=
  (Odds.analysis limits).walk e #[]

/-- The distribution of an expression within limits. -/
def distribution (limits : Limits) (e : Expr) : Except EvalError (Distribution α) :=
  (e.distributionWithJournal limits).1

theorem distribution_constant (limits : Limits) (n : Outcome) :
    (constant n).distribution (α := α) limits = .ok (.certain n) := by
  rw [distribution, distributionWithJournal, Analysis.walk_eq_eval]
  rfl

theorem distribution_die (limits : Limits) (faces : Outcome) :
    (die faces).distribution (α := α) limits = Odds.die limits faces := by
  rw [distribution, distributionWithJournal, Analysis.walk_eq_eval]
  rfl

theorem distribution_binary (limits : Limits) (op : Operator) (left right : Expr) :
    (binary op left right).distribution (α := α) limits =
      (left.distribution limits).bind fun p =>
        (right.distribution limits).bind fun q => Odds.combine limits op p q := by
  simp only [distribution, distributionWithJournal, Analysis.walk_eq_eval]
  rw [Analysis.eval_binary]
  rcases (Odds.analysis (α := α) limits).eval left #[] with ⟨x | p, journal⟩
  · rfl
  · rw [Odds.eval_fst limits right #[] journal]
    simp only [Except.bind]
    rcases (Odds.analysis (α := α) limits).eval right journal with ⟨x | q, journal'⟩
    · rfl
    · exact Odds.combineWithJournal_fst limits op p q journal'

end Expr

end DiceOdds
