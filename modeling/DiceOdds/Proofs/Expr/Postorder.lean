import DiceOdds.Proofs.Expr.Law

/-!
# Where the work on an expression stops

Whatever is computed node by node goes through the nodes of an expression in post-order: the left
operand, the right operand, then the operator. If it fails, it does so at the first node without a
value, whose operands all have one, and what is reported is the failure of that node. Two
computations that have values for the same expressions stop at the same nodes.

## Main definitions

* `Expr.postorder`: the expressions below the nodes of an expression, in post-order.
* `Expr.NodeByNode`: a computation that combines the values of the operands.
* `Expr.StopsAt`: the node at which a computation fails.

## Main results

* `Expr.exists_ok_of_mem_postorder`: with an expression, all its parts have values.
* `Expr.exists_stopsAt`: two computations that fail alike stop at the same node.
-/

namespace DiceOdds

namespace Expr

/-- The expressions below the nodes of an expression, in post-order. The last one is the expression
itself. -/
def postorder : Expr → List Expr
  | constant n => [constant n]
  | die faces => [die faces]
  | binary op left right => left.postorder ++ (right.postorder ++ [binary op left right])

variable {ε ε' τ τ' : Type}

/-- The value of an operator node is combined from the values of its operands, the left one
first. -/
def NodeByNode (f : Expr → Except ε τ) (g : Operator → τ → τ → Except ε τ) : Prop :=
  ∀ op left right, f (binary op left right) =
    (f left).bind fun a => (f right).bind fun b => g op a b

/-- A computation fails at a node, when it has dealt with some nodes: these come first in
post-order and have values, the operands of the node have values, and the node has none. -/
structure StopsAt (f : Expr → Except ε τ) (e : Expr) (done : List Expr) (node : Expr) (x : ε) :
    Prop where
  position : ∃ rest, e.postorder = done ++ node :: rest
  done : ∀ m ∈ done, ∃ a, f m = .ok a
  operands {op : Operator} {left right : Expr} : node = binary op left right →
    (∃ a, f left = .ok a) ∧ ∃ b, f right = .ok b
  error : f node = .error x

variable {f : Expr → Except ε τ} {g : Operator → τ → τ → Except ε τ}

theorem NodeByNode.eq_ok_iff (hf : NodeByNode f g) {op : Operator} {left right : Expr} {c : τ} :
    f (binary op left right) = .ok c ↔
      ∃ a, f left = .ok a ∧ ∃ b, f right = .ok b ∧ g op a b = .ok c := by
  rw [hf]
  simp only [bind_eq_ok_iff]

/-- A node fails because its left operand does, or its right one, or it does itself. -/
theorem NodeByNode.eq_error_iff (hf : NodeByNode f g) {op : Operator} {left right : Expr} {x : ε} :
    f (binary op left right) = .error x ↔ f left = .error x ∨
      ∃ a, f left = .ok a ∧ (f right = .error x ∨ ∃ b, f right = .ok b ∧ g op a b = .error x) := by
  rw [hf]
  simp only [bind_eq_error_iff]

/-- If there is a value, there is one at every node. -/
theorem exists_ok_of_mem_postorder (hf : NodeByNode f g) {e m : Expr} (h : ∃ a, f e = .ok a)
    (hm : m ∈ e.postorder) : ∃ a, f m = .ok a := by
  induction e with
  | constant n => rwa [List.mem_singleton.1 hm]
  | die faces => rwa [List.mem_singleton.1 hm]
  | binary op left right ihl ihr =>
    obtain ⟨c, hc⟩ := h
    obtain ⟨a, ha, b, hb, -⟩ := hf.eq_ok_iff.1 hc
    rcases List.mem_append.1 hm with hm | hm
    · exact ihl ⟨a, ha⟩ hm
    · rcases List.mem_append.1 hm with hm | hm
      · exact ihr ⟨b, hb⟩ hm
      · exact ⟨c, by rwa [List.mem_singleton.1 hm]⟩

theorem nodeByNode_distribution {α : Type} [Chance α] :
    NodeByNode (distribution (α := α) .unbounded) Distribution.combine :=
  distribution_binary_unbounded

/-! ### Stopping at a node -/

variable {e left right node : Expr} {op : Operator} {done : List Expr} {x : ε}

theorem stopsAt_constant {n : Outcome} (h : f (constant n) = .error x) :
    StopsAt f (constant n) [] (constant n) x :=
  ⟨⟨[], rfl⟩, nofun, nofun, h⟩

theorem stopsAt_die {faces : Outcome} (h : f (die faces) = .error x) :
    StopsAt f (die faces) [] (die faces) x :=
  ⟨⟨[], rfl⟩, nofun, nofun, h⟩

theorem StopsAt.of_left (h : StopsAt f left done node x) :
    StopsAt f (binary op left right) done node x := by
  obtain ⟨rest, hrest⟩ := h.position
  refine ⟨⟨rest ++ (right.postorder ++ [binary op left right]), ?_⟩, h.done, h.operands, h.error⟩
  rw [postorder, hrest, List.append_assoc, List.cons_append]

theorem StopsAt.of_right (hf : NodeByNode f g) (hleft : ∃ a, f left = .ok a)
    (h : StopsAt f right done node x) :
    StopsAt f (binary op left right) (left.postorder ++ done) node x := by
  obtain ⟨rest, hrest⟩ := h.position
  refine ⟨⟨rest ++ [binary op left right], ?_⟩, fun m hm => ?_, h.operands, h.error⟩
  · rw [postorder, hrest, List.append_assoc, List.append_assoc, List.cons_append]
  · rcases List.mem_append.1 hm with hm | hm
    · exact exists_ok_of_mem_postorder hf hleft hm
    · exact h.done m hm

theorem stopsAt_binary (hf : NodeByNode f g) (hleft : ∃ a, f left = .ok a)
    (hright : ∃ b, f right = .ok b) (h : f (binary op left right) = .error x) :
    StopsAt f (binary op left right) (left.postorder ++ right.postorder) (binary op left right)
      x := by
  refine ⟨⟨[], by rw [postorder, List.append_assoc]⟩, fun m hm => ?_, fun he => ?_, h⟩
  · rcases List.mem_append.1 hm with hm | hm
    · exact exists_ok_of_mem_postorder hf hleft hm
    · exact exists_ok_of_mem_postorder hf hright hm
  · cases he
    exact ⟨hleft, hright⟩

/-- **Stopping at the same node.** Two computations that go node by node and have values for the
same expressions fail at the same node. -/
theorem exists_stopsAt {f' : Expr → Except ε' τ'} {g' : Operator → τ' → τ' → Except ε' τ'}
    (hf : NodeByNode f g) (hf' : NodeByNode f' g')
    (hsame : ∀ m, (∃ a, f m = .ok a) ↔ ∃ b, f' m = .ok b) {y : ε'}
    (hx : f e = .error x) (hy : f' e = .error y) :
    ∃ done node, StopsAt f e done node x ∧ StopsAt f' e done node y := by
  have hnot : ∀ {m x}, f m = .error x → ¬ ∃ b, f' m = .ok b := by
    intro m x hm hb
    obtain ⟨a, ha⟩ := (hsame m).2 hb
    rw [hm] at ha
    cases ha
  induction e with
  | constant n => exact ⟨[], constant n, stopsAt_constant hx, stopsAt_constant hy⟩
  | die faces => exact ⟨[], die faces, stopsAt_die hx, stopsAt_die hy⟩
  | binary op left right ihl ihr =>
    rcases hf.eq_error_iff.1 hx with hleft | ⟨a, ha, h⟩
    · rcases hf'.eq_error_iff.1 hy with hleft' | ⟨a', ha', _⟩
      · obtain ⟨done, node, hstop, hstop'⟩ := ihl hleft hleft'
        exact ⟨done, node, hstop.of_left, hstop'.of_left⟩
      · exact absurd ⟨a', ha'⟩ (hnot hleft)
    · have ha' := (hsame left).1 ⟨a, ha⟩
      rcases h with hright | ⟨b, hb, _⟩
      · rcases hf'.eq_error_iff.1 hy with hleft' | ⟨_, _, hright' | ⟨b', hb', _⟩⟩
        · obtain ⟨_, h⟩ := ha'
          rw [hleft'] at h
          cases h
        · obtain ⟨done, node, hstop, hstop'⟩ := ihr hright hright'
          exact ⟨_, node, hstop.of_right hf ⟨a, ha⟩, hstop'.of_right hf' ha'⟩
        · exact absurd ⟨b', hb'⟩ (hnot hright)
      · have hb' := (hsame right).1 ⟨b, hb⟩
        exact ⟨_, _, stopsAt_binary hf ⟨a, ha⟩ ⟨b, hb⟩ hx, stopsAt_binary hf' ha' hb' hy⟩

/-- A computation that goes node by node and fails does so at some node. -/
theorem exists_stopsAt_of_eq_error (hf : NodeByNode f g) (hx : f e = .error x) :
    ∃ done node, StopsAt f e done node x := by
  obtain ⟨done, node, hstop, -⟩ := exists_stopsAt hf hf (fun _ => Iff.rfl) hx hx
  exact ⟨done, node, hstop⟩

end Expr

end DiceOdds
