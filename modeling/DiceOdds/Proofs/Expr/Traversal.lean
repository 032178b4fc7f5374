import DiceOdds.Expr.Walk

/-!
# The loop and the recursion

The loop of a walk is followed here round by round. Every round takes away exactly one of the rounds
that the work still to do needs, so the loop ends, whatever the operations do. What operations it
uses is seen with an analysis that writes them down: as in the recursion, those of the left operand
come first, then those of the right operand, then the operator with both values, and nothing comes
after an operation that fails.

## Main definitions

* `Analysis.step`: one round of the loop.
* `Analysis.EndsAfter`: the loop ends after a number of rounds.
* `Analysis.recorded`: the analysis that writes down every operation with its answer.
* `Analysis.Calls`: the operations of the recursion, with their answers.

## Main results

* `Analysis.exists_endsAfter`: the loop ends, wherever it is started.
* `Analysis.eval_recorded`: what is written down are the operations of the recursion.
* `Analysis.walk_recursion`: the loop is the recursion.
-/

namespace DiceOdds

namespace Analysis

variable {σ ε τ : Type}

/-! ### Rounds of the loop -/

/-- Where the loop stands: the work still to do, the values still to be used and the state. -/
structure Config (σ τ : Type) where
  tasks : List Task
  values : List τ
  state : σ

/-- What the loop gives at its end: a value or an error, or nothing if an operator found fewer than
two values or if not exactly one value was left. -/
abbrev Ending (σ ε τ : Type) := Except ε (Option τ) × σ

/-- The value of an operation is pushed, and an error ends the loop. -/
def proceed (tasks : List Task) (values : List τ) :
    Except ε τ × σ → Config σ τ ⊕ Ending σ ε τ
  | (.ok x, s) => .inl ⟨tasks, x :: values, s⟩
  | (.error x, s) => .inr (.error x, s)

/-- One round of the loop, which may be the last one. -/
def step (v : Analysis σ ε τ) : Config σ τ → Config σ τ ⊕ Ending σ ε τ
  | ⟨[], [x], s⟩ => .inr (.ok (some x), s)
  | ⟨[], _, s⟩ => .inr (.ok none, s)
  | ⟨.visit (.constant n) :: rest, values, s⟩ => proceed rest values (v.constant n s)
  | ⟨.visit (.die faces) :: rest, values, s⟩ => proceed rest values (v.die faces s)
  | ⟨.visit (.binary op left right) :: rest, values, s⟩ =>
    .inl ⟨.visit left :: .visit right :: .finish op :: rest, values, s⟩
  | ⟨.finish op :: rest, b :: a :: values, s⟩ => proceed rest values (v.binary op a b s)
  | ⟨.finish _ :: _, _, s⟩ => .inr (.ok none, s)

/-- The loop from a configuration. -/
def runFrom (v : Analysis σ ε τ) (c : Config σ τ) : Ending σ ε τ := v.run c.tasks c.values c.state

/-- The loop is the repetition of its rounds. -/
theorem runFrom_eq_step (v : Analysis σ ε τ) (c : Config σ τ) :
    v.runFrom c = match v.step c with
      | .inl c' => v.runFrom c'
      | .inr r => r := by
  obtain ⟨tasks, values, s⟩ := c
  rcases tasks with _ | ⟨e | op, rest⟩
  · rcases values with _ | ⟨x, _ | ⟨y, values⟩⟩ <;> simp [runFrom, run, step]
  · cases e with
    | constant n =>
      simp only [runFrom, run, step]
      rcases v.constant n s with ⟨x | a, s'⟩ <;> rfl
    | die faces =>
      simp only [runFrom, run, step]
      rcases v.die faces s with ⟨x | a, s'⟩ <;> rfl
    | binary op left right => simp only [runFrom, run, step]
  · rcases values with _ | ⟨b, _ | ⟨a, values⟩⟩
    · simp only [runFrom, run, step]
    · simp only [runFrom, run, step]
    · simp only [runFrom, run, step]
      rcases v.binary op a b s with ⟨x | c, s'⟩ <;> rfl

theorem tasks_of_proceed {tasks : List Task} {values : List τ} {answer : Except ε τ × σ}
    {c : Config σ τ} (h : proceed tasks values answer = .inl c) : c.tasks = tasks := by
  obtain ⟨x | a, s⟩ := answer
  · cases h
  · cases h
    rfl

/-- A round takes away one of the rounds still to come. -/
theorem remaining_of_step {v : Analysis σ ε τ} {c c' : Config σ τ} (h : v.step c = .inl c') :
    remaining c.tasks = remaining c'.tasks + 1 := by
  obtain ⟨tasks, values, s⟩ := c
  rcases tasks with _ | ⟨e | op, rest⟩
  · rcases values with _ | ⟨x, _ | ⟨y, values⟩⟩ <;> cases h
  · cases e with
    | constant n =>
      rw [tasks_of_proceed h, remaining, Task.rounds, rounds, Nat.add_comm]
    | die faces =>
      rw [tasks_of_proceed h, remaining, Task.rounds, rounds, Nat.add_comm]
    | binary op left right =>
      cases h
      simp only [remaining, Task.rounds, rounds]
      omega
  · rcases values with _ | ⟨b, _ | ⟨a, values⟩⟩
    · cases h
    · cases h
    · rw [tasks_of_proceed h, remaining, Task.rounds, Nat.add_comm]

/-- The loop ends after a number of rounds and one last round. -/
inductive EndsAfter (v : Analysis σ ε τ) : Nat → Config σ τ → Ending σ ε τ → Prop
  | last {c : Config σ τ} {r : Ending σ ε τ} (h : v.step c = .inr r) : EndsAfter v 0 c r
  | more {k : Nat} {c c' : Config σ τ} {r : Ending σ ε τ} (h : v.step c = .inl c')
      (hrest : EndsAfter v k c' r) : EndsAfter v (k + 1) c r

/-- Wherever the loop is started, it ends, at the latest when no round is still to come. -/
theorem exists_endsAfter (v : Analysis σ ε τ) (c : Config σ τ) :
    ∃ k ≤ remaining c.tasks, v.EndsAfter k c (v.runFrom c) := by
  induction hremaining : remaining c.tasks generalizing c with
  | zero =>
    rw [runFrom_eq_step]
    cases hstep : v.step c with
    | inl c' =>
      have hround := remaining_of_step hstep
      omega
    | inr r => exact ⟨0, Nat.le_refl 0, .last hstep⟩
  | succ n ih =>
    rw [runFrom_eq_step]
    cases hstep : v.step c with
    | inl c' =>
      have hround := remaining_of_step hstep
      obtain ⟨k, hk, hends⟩ := ih c' (by omega)
      exact ⟨k + 1, Nat.succ_le_succ hk, .more hstep hends⟩
    | inr r => exact ⟨0, Nat.zero_le _, .last hstep⟩

/-! ### Operations -/

/-- A use of an operation. -/
inductive Call (τ : Type) where
  | constant (n : Outcome)
  | die (faces : Outcome)
  | binary (op : Operator) (a b : τ)

/-- The operations that were used, in order, with their answers. -/
abbrev Log (ε τ : Type) := List (Call τ × Except ε τ)

/-- Does what an operation does and writes it down with its answer. -/
def record (call : Call τ) (m : ExceptT ε (StateM σ) τ) : ExceptT ε (StateM (σ × Log ε τ)) τ :=
  fun (s, log) => ((m s).1, ((m s).2, log ++ [(call, (m s).1)]))

/-- The analysis that also writes down every operation with its answer. -/
def recorded (v : Analysis σ ε τ) : Analysis (σ × Log ε τ) ε τ where
  constant n := record (.constant n) (v.constant n)
  die faces := record (.die faces) (v.die faces)
  binary op a b := record (.binary op a b) (v.binary op a b)

/-- The operations with which the recursion comes to an answer: those of the left operand, those of
the right operand, then the operator with both values, unless an operand has an error. -/
inductive Calls : Expr → Except ε τ → Log ε τ → Prop
  | constant (n : Outcome) (r : Except ε τ) : Calls (.constant n) r [(.constant n, r)]
  | die (faces : Outcome) (r : Except ε τ) : Calls (.die faces) r [(.die faces, r)]
  | left {op : Operator} {left right : Expr} {x : ε} {log : Log ε τ}
      (h : Calls left (.error x) log) : Calls (.binary op left right) (.error x) log
  | right {op : Operator} {left right : Expr} {a : τ} {x : ε} {log log' : Log ε τ}
      (hleft : Calls left (.ok a) log) (h : Calls right (.error x) log') :
      Calls (.binary op left right) (.error x) (log ++ log')
  | operator {op : Operator} {left right : Expr} {a b : τ} {log log' : Log ε τ}
      (hleft : Calls left (.ok a) log) (hright : Calls right (.ok b) log') (r : Except ε τ) :
      Calls (.binary op left right) r (log ++ log' ++ [(.binary op a b, r)])

/-- What is written down are the operations of the recursion. -/
theorem eval_recorded (v : Analysis σ ε τ) (e : Expr) (s : σ) (log : Log ε τ) :
    ∃ log', v.recorded.eval e (s, log) = ((v.eval e s).1, ((v.eval e s).2, log ++ log')) ∧
      Calls e (v.eval e s).1 log' := by
  induction e generalizing s log with
  | constant n => exact ⟨_, rfl, .constant n _⟩
  | die faces => exact ⟨_, rfl, .die faces _⟩
  | binary op left right ihl ihr =>
    obtain ⟨logl, hleft, hcallsl⟩ := ihl s log
    rw [eval_binary, eval_binary, hleft]
    generalize v.eval left s = l at hcallsl ⊢
    obtain ⟨x | a, s₁⟩ := l
    · exact ⟨logl, rfl, .left hcallsl⟩
    · obtain ⟨logr, hright, hcallsr⟩ := ihr s₁ (log ++ logl)
      dsimp only
      rw [hright]
      generalize v.eval right s₁ = r at hcallsr ⊢
      obtain ⟨x | b, s₂⟩ := r
      · exact ⟨logl ++ logr, by simp only [List.append_assoc], .right hcallsl hcallsr⟩
      · refine ⟨logl ++ logr ++ [(.binary op a b, (v.binary op a b s₂).1)], ?_,
          .operator hcallsl hcallsr _⟩
        simp only [recorded, record, List.append_assoc]

/-- No operation has an error. -/
def Succeeds (log : Log ε τ) : Prop := ∀ y ∈ log, ∃ a, y.2 = .ok a

theorem Succeeds.append {log log' : Log ε τ} (h : Succeeds log) (h' : Succeeds log') :
    Succeeds (log ++ log') := by
  intro y hy
  rcases List.mem_append.1 hy with hy | hy
  · exact h y hy
  · exact h' y hy

theorem succeeds_single (call : Call τ) (a : τ) : Succeeds (ε := ε) [(call, .ok a)] := by
  intro y hy
  rw [List.mem_singleton.1 hy]
  exact ⟨a, rfl⟩

/-- The last operation gives the answer, and all operations before it succeed. -/
theorem Calls.exists_last {e : Expr} {r : Except ε τ} {log : Log ε τ} (h : Calls e r log) :
    ∃ before call, log = before ++ [(call, r)] ∧ Succeeds before := by
  induction h with
  | constant n r => exact ⟨[], _, rfl, nofun⟩
  | die faces r => exact ⟨[], _, rfl, nofun⟩
  | left _ ih => exact ih
  | right _ _ ihl ihr =>
    obtain ⟨before, call, rfl, hbefore⟩ := ihl
    obtain ⟨before', call', rfl, hbefore'⟩ := ihr
    exact ⟨_, call', (List.append_assoc _ before' _).symm,
      (hbefore.append (succeeds_single call _)).append hbefore'⟩
  | operator _ _ r ihl ihr =>
    obtain ⟨before, call, rfl, hbefore⟩ := ihl
    obtain ⟨before', call', rfl, hbefore'⟩ := ihr
    exact ⟨_, _, rfl, (hbefore.append (succeeds_single call _)).append
      (hbefore'.append (succeeds_single call' _))⟩

/-! ### The walk -/

/-- **The loop is the recursion.** For every analysis, whatever its operations do to the state and
whether or not they fail, the walk gives the value or the error of the recursion and leaves the same
state. The loop under it ends after no more rounds than the expression asks for, never with an
operator that lacks a value or with other than one value left over. The operations it uses are those
of the recursion in the same order, and the first one that fails is the last one that is used. -/
theorem walk_recursion (v : Analysis σ ε τ) (e : Expr) (s : σ) :
    v.walk e s = v.eval e s ∧
      v.run [.visit e] [] s = ((v.eval e s).1.map some, (v.eval e s).2) ∧
      (∃ k ≤ rounds e, v.EndsAfter k ⟨[.visit e], [], s⟩ (v.run [.visit e] [] s)) ∧
      ∃ before call, Calls e (v.eval e s).1 (before ++ [(call, (v.eval e s).1)]) ∧
        (∀ y ∈ before, ∃ a, y.2 = .ok a) ∧ v.recorded.walk e (s, []) =
          ((v.eval e s).1, ((v.eval e s).2, before ++ [(call, (v.eval e s).1)])) := by
  refine ⟨by rw [walk_eq_eval], ?_, v.exists_endsAfter ⟨[.visit e], [], s⟩, ?_⟩
  · rw [run_start]
    rcases v.eval e s with ⟨x | a, s'⟩ <;> rfl
  · obtain ⟨log, heval, hcalls⟩ := v.eval_recorded e s []
    obtain ⟨before, call, rfl, hbefore⟩ := hcalls.exists_last
    exact ⟨before, call, hcalls, hbefore, by rw [walk_eq_eval, heval, List.nil_append]⟩

end Analysis

end DiceOdds
