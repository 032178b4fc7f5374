import DiceOdds.Expr.Basic
import DiceOdds.ParseError
import DiceOdds.Text.Cursor

/-!
# Precedence climbing

Reads an expression from the left and builds its nodes on the way. At a binding strength, an
operand is followed by operators that bind at least so strongly, each with a right operand that
binds more strongly than the operator itself. An operator without such a right operand is given up:
the expression then ends in front of it.

An operand is the first of these that can be read: a pool of dice, a number, a single die, an
expression in parentheses. Everything that was tried in vain at the furthest place reached is
noted, because it makes up the message when the text is no expression.

## Main definitions

* `Furthest`: what was tried in vain at the furthest place.
* `Climb.number?`, `Climb.pool?`, `Climb.die?`: the operands without parentheses.
* `Climb.operand?`, `Climb.climb?`: operands, and expressions of a binding strength.
* `Climb.whole?`: an expression that is the whole text.
-/

namespace DiceOdds

/-- What was tried in vain at the furthest place reached so far. -/
structure Furthest where
  offset : Nat
  expected : List Expectation
  deriving DecidableEq, Repr

namespace Furthest

/-- Nothing was tried in vain. -/
def start : Furthest := ⟨0, []⟩

/-- Notes that something was tried in vain at a place. -/
def note (f : Furthest) (offset : Nat) (x : Expectation) : Furthest :=
  if offset < f.offset then f
  else if f.offset < offset then ⟨offset, [x]⟩
  else if x ∈ f.expected then f
  else ⟨f.offset, x :: f.expected⟩

end Furthest

namespace Climb

/-- An answer together with what was tried in vain. -/
abbrev Tried (α : Type) := Furthest × α

/-- Something read from a position, which leaves less to read. -/
abbrev Found (α : Type) (c : Cursor) := Option { r : α × Cursor // r.2.size < c.size }

/-- Something read from a position, which leaves less to read than a number of characters. -/
abbrev Below (α : Type) (n : Nat) := { r : α × Cursor // r.2.size < n }

/-! ### Operands without parentheses -/

/-- The given character at a position. -/
def letter? (x : Char) (c : Cursor) (f : Furthest) : Tried (Found Unit c) :=
  match h : c.take? x with
  | some c' => (f, some ⟨((), c'), Cursor.size_lt_of_take? h⟩)
  | none => (f.note c.offset (.letter x), none)

/-- A run of digits at a position. The place where it ends could hold a further digit. -/
def digits? (c : Cursor) (f : Furthest) : Tried (Found (List Char) c) :=
  (f.note c.skipDigits.offset .digit,
    if h : c.digits ≠ [] then some ⟨(c.digits, c.skipDigits), Cursor.size_skipDigits_lt h⟩
    else none)

/-- A number that fits in an outcome. -/
def number? (c : Cursor) (f : Furthest) : Tried (Found Outcome c) :=
  match digits? c f with
  | (f, none) => (f, none)
  | (f, some ⟨(digits, c'), h⟩) =>
    match Outcome.ofInt? (numeral digits) with
    | some n => (f, some ⟨(n, c'), h⟩)
    | none => (f.note c'.offset .outcome, none)

/-- The number of dice of a pool, if there is a pool of so many. -/
def dice? (maxDice n : Nat) : Option Nat :=
  if 1 ≤ n ∧ n ≤ 4294967295 ∧ n ≤ maxDice then some n else none

/-- A pool: digits that count the dice, the letter `d`, and the number of faces. -/
def pool? (maxDice : Nat) (c : Cursor) (f : Furthest) : Tried (Found Expr c) :=
  match digits? c f with
  | (f, none) => (f, none)
  | (f, some ⟨(digits, c₁), h₁⟩) =>
    match letter? 'd' c₁ f with
    | (f, none) => (f, none)
    | (f, some ⟨(_, c₂), h₂⟩) =>
      match number? c₂ f with
      | (f, none) => (f, none)
      | (f, some ⟨(faces, c₃), h₃⟩) =>
        match dice? maxDice (numeral digits) with
        | some count =>
          (f, some ⟨(.pool count faces, c₃), Nat.lt_trans h₃ (Nat.lt_trans h₂ h₁)⟩)
        | none => (f.note c₃.offset .diceCount, none)

/-- A single die: the letter `d` and the number of faces. -/
def die? (c : Cursor) (f : Furthest) : Tried (Found Expr c) :=
  match letter? 'd' c f with
  | (f, none) => (f, none)
  | (f, some ⟨(_, c₁), h₁⟩) =>
    match number? c₁ f with
    | (f, none) => (f, none)
    | (f, some ⟨(faces, c₂), h₂⟩) => (f, some ⟨(.die faces, c₂), Nat.lt_trans h₂ h₁⟩)

/-- An operand that is not in parentheses: a pool, a number or a single die. -/
def atom? (maxDice : Nat) (c : Cursor) (f : Furthest) : Tried (Found Expr c) :=
  match pool? maxDice c f with
  | (f, some r) => (f, some r)
  | (f, none) =>
    match number? c f with
    | (f, some ⟨(n, c'), h⟩) => (f, some ⟨(.constant n, c'), h⟩)
    | (f, none) => die? c f

/-! ### Expressions -/

/-- The operators in the order in which they are tried, the loosest first. -/
def loosestFirst : List Operator := [.greater, .add, .sub, .mul]

@[simp] theorem length_loosestFirst : loosestFirst.length = 4 := rfl

mutual

/-- An operand. -/
def operand? (maxDice : Nat) (c : Cursor) (f : Furthest) : Tried (Found Expr c) :=
  match atom? maxDice c f with
  | (f, some r) => (f, some r)
  | (f, none) =>
    match letter? '(' c f with
    | (f, none) => (f, none)
    | (f, some ⟨(_, c₁), h₁⟩) =>
      have h₂ : c₁.skipBlanks.size < c.size := Nat.lt_of_le_of_lt c₁.size_skipBlanks_le h₁
      match climb? maxDice 0 c₁.skipBlanks f with
      | (f, none) => (f, none)
      | (f, some ⟨(e, c₂), h₃⟩) =>
        match letter? ')' c₂.skipBlanks f with
        | (f, none) => (f, none)
        | (f, some ⟨(_, c₃), h₄⟩) =>
          (f, some ⟨(e, c₃), Nat.lt_trans (Nat.lt_of_lt_of_le h₄ c₂.size_skipBlanks_le)
            (Nat.lt_trans h₃ h₂)⟩)
termination_by 6 * c.size

/-- An expression whose operators bind at least as strongly as given. -/
def climb? (maxDice strength : Nat) (c : Cursor) (f : Furthest) : Tried (Found Expr c) :=
  match operand? maxDice c f with
  | (f, none) => (f, none)
  | (f, some r) =>
    match extend maxDice strength c.size r f with
    | (f, r) => (f, some r)
termination_by 6 * c.size + 1

/-- Extends an expression by operators that bind at least as strongly as given, as far as
possible. -/
def extend (maxDice strength size : Nat) (r : Below Expr size) (f : Furthest) :
    Tried (Below Expr size) :=
  match step? maxDice strength r.1.1 r.1.2 loosestFirst f with
  | (f, none) => (f, r)
  | (f, some ⟨r', h⟩) => extend maxDice strength size ⟨r', Nat.lt_trans h r.2⟩ f
termination_by 6 * r.1.2.size + 5

/-- Extends an expression by the first of some operators that binds strongly enough and is
followed by a right operand. -/
def step? (maxDice strength : Nat) (left : Expr) (c : Cursor) (ops : List Operator)
    (f : Furthest) : Tried (Found Expr c) :=
  match ops with
  | [] => (f, none)
  | op :: ops =>
    if op.precedence < strength then step? maxDice strength left c ops f
    else
      match letter? op.symbol c.skipBlanks f with
      | (f, none) => step? maxDice strength left c ops f
      | (f, some ⟨(_, c₁), h₁⟩) =>
        have h₂ : c₁.skipBlanks.size < c.size :=
          Nat.lt_of_le_of_lt c₁.size_skipBlanks_le (Nat.lt_of_lt_of_le h₁ c.size_skipBlanks_le)
        match climb? maxDice (op.precedence + 1) c₁.skipBlanks f with
        | (f, none) => step? maxDice strength left c ops f
        | (f, some ⟨(right, c₂), h₃⟩) =>
          (f, some ⟨(.binary op left right, c₂), Nat.lt_trans h₃ h₂⟩)
termination_by 6 * c.size + ops.length

end

/-- An expression that is the whole text. -/
def whole? (maxDice : Nat) (s : String) : Tried (Option Expr) :=
  match climb? maxDice 0 (Cursor.ofString s).skipBlanks .start with
  | (f, none) => (f, none)
  | (f, some ⟨(e, c), _⟩) =>
    let c := c.skipBlanks
    if c.rest = [] then (f, some e) else (f.note c.offset .endOfText, none)

end Climb

end DiceOdds
