import DiceOdds.Expr.Basic

/-!
# Walking an expression

Every analysis of an expression says what to do at a constant, at a die and at an operator, and
combines the answers from the leaves up. The steps may change a state and may fail, so their order
matters: the left operand, then the right operand, then the operator.

`Analysis.eval` is that rule as a recursion on the expression. `Analysis.run` is the loop that
carries it out with the work still to do in one list and the values still to be used in another,
so that the height of an expression costs no call stack. The loop has no answer when an operator
finds fewer than two values or when other than one value is left over; `Analysis.run_visit` shows
that this never happens, and `Analysis.walk` is the loop without those cases.

## Main definitions

* `Analysis`: what an analysis does at each kind of node.
* `Analysis.eval`: the analysis by recursion.
* `Analysis.run`, `Analysis.walk`: the analysis by a loop over explicit stacks.

## Main results

* `Analysis.run_visit`: visiting an expression pushes the value the recursion gives it.
* `Analysis.walk_eq_eval`: the loop and the recursion are the same function.
-/

namespace DiceOdds

/-- What an analysis does at each kind of node, with a state `σ`, errors `ε` and values `τ`. -/
structure Analysis (σ ε τ : Type) where
  constant : Outcome → ExceptT ε (StateM σ) τ
  die : Outcome → ExceptT ε (StateM σ) τ
  binary : Operator → τ → τ → ExceptT ε (StateM σ) τ

namespace Analysis

variable {σ ε τ : Type}

/-- A step that fails or succeeds and leaves the state alone. -/
def lift (r : Except ε τ) : ExceptT ε (StateM σ) τ := fun s => (r, s)

/-! ### By recursion -/

/-- The value of an expression: the left operand, the right operand, then the operator. -/
def eval (v : Analysis σ ε τ) : Expr → ExceptT ε (StateM σ) τ
  | .constant n => v.constant n
  | .die faces => v.die faces
  | .binary op left right => do
    let a ← eval v left
    let b ← eval v right
    v.binary op a b

theorem eval_binary (v : Analysis σ ε τ) (op : Operator) (left right : Expr) (s : σ) :
    v.eval (.binary op left right) s =
      match v.eval left s with
      | (.error x, s₁) => (.error x, s₁)
      | (.ok a, s₁) =>
        match v.eval right s₁ with
        | (.error x, s₂) => (.error x, s₂)
        | (.ok b, s₂) => v.binary op a b s₂ := by
  simp only [eval, bind, ExceptT.bind, ExceptT.mk, StateT.bind]
  rcases v.eval left s with ⟨x | a, s₁⟩
  · rfl
  · simp only [ExceptT.bindCont, bind, StateT.bind]
    rcases v.eval right s₁ with ⟨x | b, s₂⟩ <;> rfl

/-- Steps whose answers do not depend on the state give an answer that does not either. -/
theorem eval_fst_eq {v : Analysis σ ε τ}
    (hconstant : ∀ n s s', (v.constant n s).1 = (v.constant n s').1)
    (hdie : ∀ faces s s', (v.die faces s).1 = (v.die faces s').1)
    (hbinary : ∀ op a b s s', (v.binary op a b s).1 = (v.binary op a b s').1) (e : Expr)
    (s s' : σ) : (v.eval e s).1 = (v.eval e s').1 := by
  induction e generalizing s s' with
  | constant n => exact hconstant n s s'
  | die faces => exact hdie faces s s'
  | binary op left right ihl ihr =>
    rw [eval_binary, eval_binary]
    have hl := ihl s s'
    generalize v.eval left s = l, v.eval left s' = l' at hl ⊢
    obtain ⟨a, s₁⟩ := l
    obtain ⟨a', s₁'⟩ := l'
    cases hl
    cases a with
    | error x => rfl
    | ok a =>
      have hr := ihr s₁ s₁'
      simp only
      generalize v.eval right s₁ = r, v.eval right s₁' = r' at hr ⊢
      obtain ⟨b, s₂⟩ := r
      obtain ⟨b', s₂'⟩ := r'
      cases hr
      cases b with
      | error x => rfl
      | ok b => exact hbinary op a b s₂ s₂'

/-! ### By a loop -/

/-- A piece of work still to do. -/
inductive Task where
  | visit (e : Expr)
  | finish (op : Operator)

/-- How many rounds of the loop a visit to an expression takes. -/
def rounds : Expr → Nat
  | .constant _ => 1
  | .die _ => 1
  | .binary _ left right => rounds left + rounds right + 2

namespace Task

/-- How many rounds of the loop a piece of work takes. -/
def rounds : Task → Nat
  | visit e => Analysis.rounds e
  | finish _ => 1

end Task

/-- How many rounds of the loop are still to come. -/
def remaining : List Task → Nat
  | [] => 0
  | task :: rest => task.rounds + remaining rest

/-- The loop. A visit to a leaf pushes its value; a visit to an operator puts both operands and
the operator in front of the remaining work; an operator takes the two topmost values, the right
one first. -/
def run (v : Analysis σ ε τ) : List Task → List τ → σ → Except ε (Option τ) × σ
  | [], [x], s => (.ok (some x), s)
  | [], _, s => (.ok none, s)
  | .visit (.constant n) :: rest, values, s =>
    match v.constant n s with
    | (.ok x, s) => run v rest (x :: values) s
    | (.error x, s) => (.error x, s)
  | .visit (.die faces) :: rest, values, s =>
    match v.die faces s with
    | (.ok x, s) => run v rest (x :: values) s
    | (.error x, s) => (.error x, s)
  | .visit (.binary op left right) :: rest, values, s =>
    run v (.visit left :: .visit right :: .finish op :: rest) values s
  | .finish op :: rest, b :: a :: values, s =>
    match v.binary op a b s with
    | (.ok x, s) => run v rest (x :: values) s
    | (.error x, s) => (.error x, s)
  | .finish _ :: _, _, s => (.ok none, s)
termination_by tasks => remaining tasks
decreasing_by all_goals simp only [remaining, Task.rounds, rounds]; omega

/-- Visiting an expression pushes the value the recursion gives it, or stops with its error. -/
theorem run_visit (v : Analysis σ ε τ) (e : Expr) (rest : List Task) (values : List τ) (s : σ) :
    v.run (.visit e :: rest) values s =
      match v.eval e s with
      | (.ok x, s') => v.run rest (x :: values) s'
      | (.error x, s') => (.error x, s') := by
  induction e generalizing rest values s with
  | constant n => rw [run, eval]
  | die faces => rw [run, eval]
  | binary op left right ihl ihr =>
    rw [run, ihl, eval_binary]
    rcases v.eval left s with ⟨x | a, s₁⟩
    · rfl
    · simp only [ihr]
      rcases v.eval right s₁ with ⟨x | b, s₂⟩
      · rfl
      · simp only [run]

/-- The loop gives the value of the recursion, and leaves exactly that one. -/
theorem run_start (v : Analysis σ ε τ) (e : Expr) (s : σ) :
    v.run [.visit e] [] s =
      match v.eval e s with
      | (.ok x, s') => (.ok (some x), s')
      | (.error x, s') => (.error x, s') := by
  rw [run_visit]
  rcases v.eval e s with ⟨x | a, s'⟩ <;> simp only [run]

theorem run_start_ne_none (v : Analysis σ ε τ) (e : Expr) (s s' : σ) :
    v.run [.visit e] [] s ≠ (.ok none, s') := by
  rw [run_start]
  rcases v.eval e s with ⟨x | a, s''⟩ <;> simp

/-- The value of an expression, computed by the loop. -/
def walk (v : Analysis σ ε τ) (e : Expr) : ExceptT ε (StateM σ) τ := fun s =>
  match h : v.run [.visit e] [] s with
  | (.ok (some x), s') => (.ok x, s')
  | (.error x, s') => (.error x, s')
  | (.ok none, s') => absurd h (v.run_start_ne_none e s s')

theorem walk_eq_eval (v : Analysis σ ε τ) (e : Expr) : v.walk e = v.eval e := by
  funext s
  have hrun := v.run_start e s
  unfold walk
  split
  · next x s' h =>
    rw [h] at hrun
    rcases hv : v.eval e s with ⟨y | y, s''⟩ <;> rw [hv] at hrun <;> cases hrun
    rfl
  · next x s' h =>
    rw [h] at hrun
    rcases hv : v.eval e s with ⟨y | y, s''⟩ <;> rw [hv] at hrun <;> cases hrun
    rfl
  · next s' h => exact absurd h (v.run_start_ne_none e s s')

/-! ### Analyses without a state -/

/-- The outcome of an analysis that keeps no state. -/
def result (v : Analysis Unit ε τ) (e : Expr) : Except ε τ := (v.walk e ()).1

theorem result_constant (v : Analysis Unit ε τ) (n : Outcome) :
    v.result (.constant n) = (v.constant n ()).1 := by
  rw [result, walk_eq_eval, eval]

theorem result_die (v : Analysis Unit ε τ) (faces : Outcome) :
    v.result (.die faces) = (v.die faces ()).1 := by
  rw [result, walk_eq_eval, eval]

theorem result_binary (v : Analysis Unit ε τ) (op : Operator) (left right : Expr) :
    v.result (.binary op left right) =
      (v.result left).bind fun a => (v.result right).bind fun b => (v.binary op a b ()).1 := by
  simp only [result, walk_eq_eval, eval_binary]
  rcases v.eval left () with ⟨x | a, ⟨⟩⟩
  · rfl
  · simp only [Except.bind]
    rcases v.eval right () with ⟨x | b, ⟨⟩⟩ <;> rfl

/-- The value of an analysis that keeps no state and cannot fail. -/
def value (v : Analysis Unit Empty τ) (e : Expr) : τ :=
  match v.result e with
  | .ok x => x

theorem result_eq_ok_value (v : Analysis Unit Empty τ) (e : Expr) :
    v.result e = .ok (v.value e) := by
  unfold value
  rcases v.result e with x | x
  · exact x.elim
  · rfl

end Analysis

end DiceOdds
