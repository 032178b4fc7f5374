import DiceOdds.Limits
import DiceOdds.ParseError
import DiceOdds.Text.Cursor
import DiceOdds.Token.Basic

/-!
# Reading tokens

One pass over a text that remembers only which parentheses are open, how many nodes the tokens so
far stand for, and whether an operand or an operator comes next. It stops at the first character
that cannot be continued and as soon as a limit is exceeded.

## Main definitions

* `Scan`: what the pass remembers.
* `Scan.number`, `Scan.die`: reading a constant or a pool, and a single die.
* `Token.scan`: the tokens of a text.
-/

namespace DiceOdds

/-- What is remembered between two characters of a text. -/
structure Scan where
  /-- How many nodes the tokens read so far stand for. -/
  nodes : Nat
  /-- The offsets of the open parentheses, the innermost first. -/
  opened : List Nat
  /-- Whether an operand comes next. -/
  wanted : Bool
  /-- The tokens read so far, the last one first. -/
  tokens : List Token

namespace Scan

/-- Before the first character. -/
def start : Scan := ⟨0, [], true, []⟩

/-! ### Operands -/

/-- The greatest number of dice there is a pool of. -/
def maxPool : Nat := 4294967295

/-- Counts more nodes, unless that exceeds the limit. -/
def count (limits : Limits) (nodes more : Nat) : Except ParseError Nat :=
  if nodes + more > limits.maxNodes then .error (.tooManyNodes limits.maxNodes)
  else .ok (nodes + more)

/-- The number of faces at a position, which follows the letter at the given offset. -/
def faces (letter : Nat) (c : Cursor) : Except ParseError Outcome :=
  if c.digits = [] then .error (.missingFaces letter)
  else match Outcome.ofInt? (numeral c.digits) with
    | some n => .ok n
    | none => .error (.numberTooLarge c.offset)

/-- The number of dice written by some digits at an offset, if there is a pool of so many. -/
def dice (limits : Limits) (offset : Nat) (digits : List Char) : Except ParseError Nat :=
  let n := numeral digits
  if n > maxCount then .error (.numberTooLarge offset)
  else if n = 0 ∨ n > maxPool ∨ n > limits.maxDice then .error (.diceCount n limits.maxDice)
  else .ok n

/-- The constant written by some digits at an offset. -/
def constant (offset : Nat) (digits : List Char) : Except ParseError Expr :=
  match Outcome.ofInt? (numeral digits) with
  | some n => .ok (.constant n)
  | none => .error (.numberTooLarge offset)

/-- The operand that starts with digits, the number of nodes with it, and the position behind it.
Digits directly followed by the letter `d` count the dice of a pool. -/
def number (limits : Limits) (nodes : Nat) (c : Cursor) :
    Except ParseError (Expr × Nat × Cursor) := do
  match c.skipDigits.take? 'd' with
  | some faceDigits =>
    let n ← faces c.skipDigits.offset faceDigits
    let k ← dice limits c.offset c.digits
    let nodes ← count limits nodes (2 * k - 1)
    return (.pool k n, nodes, faceDigits.skipDigits)
  | none =>
    let nodes ← count limits nodes 1
    let e ← constant c.offset c.digits
    return (e, nodes, c.skipDigits)

/-- The die whose letter is at the given offset, the number of nodes with it, and the position
behind it. -/
def die (limits : Limits) (nodes letter : Nat) (c : Cursor) :
    Except ParseError (Expr × Nat × Cursor) := do
  let nodes ← count limits nodes 1
  let n ← faces letter c
  return (.die n, nodes, c.skipDigits)

theorem size_lt_of_number {limits : Limits} {nodes nodes' : Nat} {c c' : Cursor} {e : Expr}
    (hc : c.digits ≠ []) (h : number limits nodes c = .ok (e, nodes', c')) :
    c'.size < c.size := by
  have hdigits := Cursor.size_skipDigits_lt hc
  unfold number at h
  split at h
  · next d hd =>
    have hlt := Cursor.size_lt_of_take? hd
    have hle := d.size_skipDigits_le
    simp only [bind, Except.bind, pure, Except.pure] at h
    repeat' split at h
    all_goals cases h
    omega
  · simp only [bind, Except.bind, pure, Except.pure] at h
    repeat' split at h
    all_goals cases h
    exact hdigits

theorem size_le_of_die {limits : Limits} {nodes nodes' letter : Nat} {c c' : Cursor} {e : Expr}
    (h : die limits nodes letter c = .ok (e, nodes', c')) : c'.size ≤ c.size := by
  have hle := c.size_skipDigits_le
  unfold die at h
  simp only [bind, Except.bind, pure, Except.pure] at h
  repeat' split at h
  all_goals cases h
  exact hle

/-! ### The whole text -/

/-- Notes an operand. -/
def addOperand (s : Scan) (nodes : Nat) (e : Expr) : Scan :=
  ⟨nodes, s.opened, false, .operand e :: s.tokens⟩

/-- Notes an operator. -/
def addOperator (s : Scan) (nodes : Nat) (op : Operator) : Scan :=
  ⟨nodes, s.opened, true, .operator op (priority s.opened.length op) :: s.tokens⟩

/-- What has been read at the end of the text, unless something is missing there. -/
def finish (s : Scan) : Except ParseError (List Token) :=
  match s.tokens, s.opened with
  | [], [] => .error .empty
  | tokens, opened =>
    if s.wanted then .error .unexpectedEnd
    else match opened with
      | offset :: _ => .error (.unclosed offset)
      | [] => .ok tokens.reverse

/-- Reads on from a position to the end of the text. -/
def readOn (limits : Limits) (s : Scan) : Cursor → Except ParseError (List Token)
  | ⟨_, []⟩ => s.finish
  | ⟨offset, x :: rest⟩ =>
    let next : Cursor := ⟨offset + x.utf8Size, rest⟩
    if isBlank x then readOn limits s next
    else if s.wanted then
      if _hx : x.isDigit then
        match _h : number limits s.nodes ⟨offset, x :: rest⟩ with
        | .error error => .error error
        | .ok (e, nodes, behind) => readOn limits (s.addOperand nodes e) behind
      else if x = 'd' then
        match _h : die limits s.nodes offset next with
        | .error error => .error error
        | .ok (e, nodes, behind) => readOn limits (s.addOperand nodes e) behind
      else if x = '(' then
        if s.opened.length = limits.maxDepth then .error (.tooDeep limits.maxDepth)
        else readOn limits { s with opened := offset :: s.opened } next
      else .error (.unexpected x offset)
    else if x = ')' then
      match s.opened with
      | [] => .error (.unmatchedClose offset)
      | _ :: opened => readOn limits { s with opened } next
    else
      match Operator.ofSymbol? x with
      | none => .error (.unexpected x offset)
      | some op =>
        match count limits s.nodes 1 with
        | .error error => .error error
        | .ok nodes => readOn limits (s.addOperator nodes op) next
termination_by c => c.size
decreasing_by
  · exact Nat.lt_succ_self _
  · exact size_lt_of_number (by simp [Cursor.digits, _hx]) _h
  · exact Nat.lt_of_le_of_lt (size_le_of_die _h) (Nat.lt_succ_self _)
  · exact Nat.lt_succ_self _
  · exact Nat.lt_succ_self _
  · exact Nat.lt_succ_self _

end Scan

/-- The tokens of a text. -/
def Token.scan (limits : Limits) (s : String) : Except ParseError (List Token) :=
  Scan.readOn limits .start (.ofString s)

end DiceOdds
