import DiceOdds.Expr.Reader

/-!
# Reading with every assumption checked

Reading by priorities relies on facts that it does not check: that the offsets it computes are the
bounds of slices of the text, that its counts fit in 64 bits, that every round of the pass uses up a
character, and that there are two operands for every operator and one at the end. Here the same pass
and the same fold are written down with each of these checked where it is relied on. A check that
fails ends reading with a fault, which is kept apart from the reasons to refuse a text.

Digits are handled as offsets: the pass only moves on past them, and the number is read from the
slice of the text between two offsets that are computed on the way.

## Main definitions

* `Fault`: an assumption that does not hold.
* `Checked`: a computation that ends with a result, a fault or a reason to refuse the text.
* `Checked.word`, `Checked.slice`: arithmetic in 64 bits and slices of a text.
* `Checked.round`, `Checked.scan`: the pass over a text.
* `Checked.fold`, `Checked.parse`: the fold, and both together.
-/

namespace DiceOdds

/-- An assumption of reading that does not hold. -/
inductive Fault where
  /-- The bounds of a slice are reversed, out of range or inside a character. -/
  | slice (start stop : Nat)
  /-- A number is no 64-bit count. -/
  | count (n : Int)
  /-- A round of the pass uses up no character. -/
  | standstill (offset : Nat)
  /-- An operator finds fewer than two operands. -/
  | operands (op : Operator)
  /-- At the end there is no operand, or more than one. -/
  | leftOver (operands : Nat)
  deriving DecidableEq, Repr

/-- What a computation with checks ends with: a result, a fault, or a reason to refuse the text. -/
abbrev Checked (α : Type) : Type := Except (Fault ⊕ ParseError) α

namespace Checked

variable {α β : Type}

/-- A check that fails. -/
def fault (f : Fault) : Checked α := .error (.inl f)

/-- A computation that relies on nothing. -/
def lift (r : Except ParseError α) : Checked α := r.mapError .inr

/-- A number as a 64-bit count. -/
def word (n : Int) : Checked Nat :=
  if 0 ≤ n ∧ n ≤ maxCount then .ok n.toNat else fault (.count n)

/-- The characters of a text from an offset to another one, both in bytes. -/
def slice (text : String) (start stop : Nat) : Checked (List Char) :=
  match text.pos? ⟨start⟩, text.pos? ⟨stop⟩ with
  | some a, some b =>
    match text.slice? a b with
    | some part => .ok part.copy.toList
    | none => fault (.slice start stop)
  | _, _ => fault (.slice start stop)

/-! ### Operands -/

/-- The offset behind the digits that come next, which is the given one if there are none, and the
position there. -/
def digitsEnd (stop offset : Nat) : List Char → Checked (Nat × Cursor)
  | [] => .ok (stop, ⟨offset, []⟩)
  | c :: rest =>
    if c.isDigit then do
      let behind ← word (offset + c.utf8Size)
      digitsEnd behind behind rest
    else .ok (stop, ⟨offset, c :: rest⟩)

/-- The number of faces at a position, which follows the letter at the given offset. -/
def faces (text : String) (letter : Nat) (c : Cursor) : Checked (Outcome × Cursor) := do
  let start ← word (letter + 1)
  let (stop, behind) ← digitsEnd start c.offset c.rest
  if stop = start then lift (.error (.missingFaces letter))
  else
    let digits ← slice text start stop
    match Outcome.ofInt? (numeral digits) with
    | some n => return (n, behind)
    | none => lift (.error (.numberTooLarge start))

/-- The operand whose first digit is at the given offset, in front of the position. -/
def number (limits : Limits) (text : String) (nodes start : Nat) (c : Cursor) :
    Checked (Expr × Nat × Cursor) := do
  let first ← word (start + 1)
  let (stop, behind) ← digitsEnd first c.offset c.rest
  let digits ← slice text start stop
  match behind.take? 'd' with
  | some faceDigits =>
    let (n, last) ← faces text behind.offset faceDigits
    let k ← lift (Scan.dice limits start digits)
    let twice ← word (2 * k)
    let more ← word (twice - 1)
    let nodes ← lift (Scan.count limits nodes more)
    return (.pool k n, nodes, last)
  | none =>
    let nodes ← lift (Scan.count limits nodes 1)
    let e ← lift (Scan.constant start digits)
    return (e, nodes, behind)

/-- The die whose letter is at the given offset, in front of the position. -/
def die (limits : Limits) (text : String) (nodes letter : Nat) (c : Cursor) :
    Checked (Expr × Nat × Cursor) := do
  let nodes ← lift (Scan.count limits nodes 1)
  let (n, behind) ← faces text letter c
  return (.die n, nodes, behind)

/-! ### The pass -/

/-- The priority of an operator inside a number of parentheses. -/
def priority (depth : Nat) (op : Operator) : Checked Nat := do
  let raised ← word (depth * nestingStep)
  word (raised + op.precedence)

/-- A round in which an operand is wanted, for a character at an offset and the position behind
it. -/
def operandRound (limits : Limits) (text : String) (s : Scan) (offset : Nat) (x : Char)
    (next : Cursor) : Checked (Scan × Cursor) :=
  if x.isDigit then do
    let (e, nodes, behind) ← number limits text s.nodes offset next
    return (s.addOperand nodes e, behind)
  else if x = 'd' then do
    let (e, nodes, behind) ← die limits text s.nodes offset next
    return (s.addOperand nodes e, behind)
  else if x = '(' then
    if s.opened.length = limits.maxDepth then lift (.error (.tooDeep limits.maxDepth))
    else .ok ({ s with opened := offset :: s.opened }, next)
  else lift (.error (.unexpected x offset))

/-- A round in which no operand is wanted. -/
def operatorRound (limits : Limits) (s : Scan) (offset : Nat) (x : Char) (next : Cursor) :
    Checked (Scan × Cursor) :=
  if x = ')' then
    match s.opened with
    | [] => lift (.error (.unmatchedClose offset))
    | _ :: opened => .ok ({ s with opened }, next)
  else
    match Operator.ofSymbol? x with
    | none => lift (.error (.unexpected x offset))
    | some op => do
      let nodes ← lift (Scan.count limits s.nodes 1)
      let priority ← priority s.opened.length op
      return (⟨nodes, s.opened, true, .operator op priority :: s.tokens⟩, next)

/-- One round of the pass. -/
def round (limits : Limits) (text : String) (s : Scan) (offset : Nat) (x : Char) (next : Cursor) :
    Checked (Scan × Cursor) :=
  if isBlank x then .ok (s, next)
  else if s.wanted then operandRound limits text s offset x next
  else operatorRound limits s offset x next

/-- The rounds from a position to the end of the text. -/
def rounds (limits : Limits) (text : String) (s : Scan) : Cursor → Checked (List Token)
  | ⟨_, []⟩ => lift s.finish
  | ⟨offset, x :: rest⟩ =>
    match round limits text s offset x ⟨offset + x.utf8Size, rest⟩ with
    | .error e => .error e
    | .ok (s', behind) =>
      if _h : behind.size < (Cursor.mk offset (x :: rest)).size then
        rounds limits text s' behind
      else fault (.standstill offset)
termination_by c => c.size

/-- The tokens of a text. -/
def scan (limits : Limits) (s : String) : Checked (List Token) :=
  rounds limits s .start (.ofString s)

/-! ### The fold -/

/-- Carries out an operator on the two topmost operands, the right one first. -/
def carryOut (op : Operator) : List Expr → Checked (List Expr)
  | right :: left :: operands => .ok (.binary op left right :: operands)
  | _ => fault (.operands op)

/-- Carries out the waiting operators down to the first one of a priority below the given one. -/
def carryOutWhile (priority : Nat) :
    List Expr → List (Operator × Nat) → Checked (List Expr × List (Operator × Nat))
  | operands, [] => .ok (operands, [])
  | operands, (op, waiting) :: operators =>
    if waiting < priority then .ok (operands, (op, waiting) :: operators)
    else do
      let operands ← carryOut op operands
      carryOutWhile priority operands operators

/-- Takes the tokens one by one, with the operands and the operators that wait. -/
def foldOn : List Token → List Expr → List (Operator × Nat) → Checked Expr
  | [], operands, operators => do
    -- Every priority is at least zero.
    let (operands, _) ← carryOutWhile 0 operands operators
    match operands with
    | [e] => return e
    | _ => fault (.leftOver operands.length)
  | .operand e :: tokens, operands, operators => foldOn tokens (e :: operands) operators
  | .operator op priority :: tokens, operands, operators => do
    let (operands, operators) ← carryOutWhile priority operands operators
    foldOn tokens operands ((op, priority) :: operators)

/-- The expression of a list of tokens. -/
def fold (tokens : List Token) : Checked Expr := foldOn tokens [] []

/-- Reads an expression by folding its tokens. -/
def parse (limits : Limits) (s : String) : Checked Expr := do
  let tokens ← scan limits s
  fold tokens

end Checked

end DiceOdds
