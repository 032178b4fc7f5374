import DiceOdds.Distribution.Tally
import DiceOdds.Expr.Walk
import DiceOdds.Json.Float
import DiceOdds.Json.Numeral
import DiceOdds.Json.Reader
import DiceOdds.Json.Text
import DiceOdds.Json.Writer
import DiceOdds.Limits

/-!
# The JSON forms of expressions, limits and distributions

An operator is written as its name. An expression is an object with one field, whose name tells the
kind of the node. Limits are an object with one field for each bound, and a distribution is an
object from outcomes to chances.

Reading admits a little more than is written: fields in any order and further fields, a list of
the fields in order instead of an object, and an operator as an object with null. It refuses values
that nest more deeply than a fixed number of objects and lists.

## Main definitions

* `Operator.toJson`, `Operator.ofJson?`, and the same for `Expr` and `Limits`.
* `JsonChance`: chances with a JSON form.
* `Distribution.toJson`, `Distribution.ofJson?`: the form of a distribution.
* `Expr.readJson?`, `Operator.readJson?`, `Limits.readJson?`, `Distribution.readJson?`: a text read
  as one of these forms.
-/

namespace DiceOdds

open Json (Value Numeral)

namespace Json

/-- How many objects and lists may be open at once. -/
def maxNesting : Nat := 127

/-- An object whose field names need no escapes. -/
def object (fields : List (String × Value)) : Value :=
  .object (fields.map fun (name, value) => (name.toList, value))

/-- A string that needs no escapes. -/
def plainString (s : String) : Value := .string s.toList

/-- An integer. -/
def integer (n : Int) : Value := .number (.ofInt n)

/-- A value read as a signed integer of 64 bits. -/
def outcome? : Value → Option Outcome
  | .number n => n.integer?.bind Outcome.ofInt?
  | _ => none

/-- A value read as an integer of 64 bits without a sign. -/
def count? : Value → Option Nat
  | .number n => n.integer?.bind fun n => if 0 ≤ n then some n.toNat else none
  | _ => none

/-- The field of a name, if there is exactly one. -/
def only? (name : String) (fields : List (String × Value)) : Option Value :=
  match fields.filter (·.1 = name) with
  | [(_, value)] => some value
  | _ => none

/-- The fields of the given names in their order. They come from an object in which each of the
names occurs once, or from a list of exactly so many values. -/
def fields? (names : List String) : Value → Option (List Value)
  | .object fields =>
    (fields.mapM fun field => (unescape? field.1).map (·, field.2)).bind fun fields =>
      names.mapM fun name => only? name fields
  | .array items => if items.length = names.length then some items else none
  | _ => none

/-- The name and the content of an object with a single field. -/
def tagged? : Value → Option (String × Value)
  | .object [(raw, value)] => (unescape? raw).map (·, value)
  | _ => none

end Json

open Json (object plainString integer outcome? count? fields? tagged? unescape?)

/-! ### Operators -/

/-- The operator of an English name. -/
def Operator.ofName? (name : String) : Option Operator := Operator.all.find? (·.name = name)

/-- An operator as a JSON value. -/
def Operator.toJson (op : Operator) : Value := plainString op.name

/-- A value read as an operator; an object with null needs room for one more object. -/
def Operator.ofJson? (room : Nat) : Value → Option Operator
  | .string raw => (unescape? raw).bind ofName?
  | .object fields =>
    match room, tagged? (.object fields) with
    | _ + 1, some (name, .null) => ofName? name
    | _, _ => none
  | _ => none

/-! ### Expressions -/

/-- The names of the fields of an operator node. -/
def nodeFields : List String := ["op", "left", "right"]

/-- Builds the JSON value of each node. -/
def jsonBuilder : Analysis Unit Empty Value where
  constant n := pure (object [("Constant", integer n.toInt)])
  die faces := pure (object [("Die", integer faces.toInt)])
  binary op a b :=
    pure (object [("Operator", object [("op", op.toJson), ("left", a), ("right", b)])])

/-- An expression as a JSON value. -/
def Expr.toJson (e : Expr) : Value := jsonBuilder.value e

namespace Expr

theorem toJson_constant (n : Outcome) :
    (constant n).toJson = object [("Constant", integer n.toInt)] :=
  Except.ok.inj (jsonBuilder.result_eq_ok_value _ ▸ jsonBuilder.result_constant n)

theorem toJson_die (faces : Outcome) :
    (die faces).toJson = object [("Die", integer faces.toInt)] :=
  Except.ok.inj (jsonBuilder.result_eq_ok_value _ ▸ jsonBuilder.result_die faces)

theorem toJson_binary (op : Operator) (left right : Expr) :
    (binary op left right).toJson =
      object [("Operator",
        object [("op", op.toJson), ("left", left.toJson), ("right", right.toJson)])] := by
  have h := jsonBuilder.result_binary op left right
  simp only [Analysis.result_eq_ok_value] at h
  exact Except.ok.inj h

end Expr

/-- A value read as an expression, with room for a number of objects and lists. -/
def Expr.ofJson? : Nat → Value → Option Expr
  | 0, _ => none
  | 1, v =>
    match tagged? v with
    | some ("Constant", n) => (outcome? n).map .constant
    | some ("Die", n) => (outcome? n).map .die
    | _ => none
  | room + 2, v =>
    match tagged? v with
    | some ("Constant", n) => (outcome? n).map .constant
    | some ("Die", n) => (outcome? n).map .die
    | some ("Operator", node) =>
      match fields? nodeFields node with
      | some [op, left, right] =>
        match Operator.ofJson? room op, ofJson? room left, ofJson? room right with
        | some op, some left, some right => some (.binary op left right)
        | _, _, _ => none
      | _ => none
    | _ => none

/-! ### Limits -/

/-- The names of the bounds. -/
def limitFields : List String :=
  ["max_depth", "max_dice", "max_nodes", "max_outcomes", "max_pairs"]

/-- Limits as a JSON value. -/
def Limits.toJson (limits : Limits) : Value :=
  let bounds := [limits.maxDepth, limits.maxDice, limits.maxNodes, limits.maxOutcomes,
    limits.maxPairs]
  object (limitFields.zip (bounds.map fun n : Nat => integer n))

/-- A value read as limits. -/
def Limits.ofJson? (v : Value) : Option Limits :=
  match (fields? limitFields v).bind (·.mapM count?) with
  | some [depth, dice, nodes, outcomes, pairs] => some ⟨depth, dice, nodes, outcomes, pairs⟩
  | _ => none

/-! ### Distributions -/

/-- Chances with a JSON form. -/
class JsonChance (α : Type) extends Chance α where
  toJson : α → Value
  ofJson? : Value → Option α

instance : JsonChance Float where
  toJson := Value.ofFloat
  ofJson?
    | .number n => n.float?
    | _ => none

instance : JsonChance Int64 where
  toJson n := integer n.toInt
  ofJson? := outcome?

/-- The outcome that the name of a field stands for, which has no escapes. -/
def outcomeOfName? (raw : List Char) : Option Outcome :=
  match Json.readNumeral? raw with
  | some (n, []) => n.integer?.bind Outcome.ofInt?
  | _ => none

namespace Distribution

variable {α : Type} [JsonChance α]

/-- A distribution as a JSON value. -/
def toJson (p : Distribution α) : Value :=
  object (p.entries.map fun x => (toString x.1, JsonChance.toJson x.2))

/-- Puts the chances of some fields into a tally. Of a repeated outcome the last chance counts. -/
def addFields? (t : Tally α) : List (List Char × Value) → Option (Tally α)
  | [] => some t
  | (name, value) :: fields =>
    match outcomeOfName? name, JsonChance.ofJson? value with
    | some n, some p => addFields? (t.insert n p) fields
    | _, _ => none

/-- A value read as a distribution. -/
def ofJson? : Value → Option (Distribution α)
  | .object fields => (addFields? ∅ fields).map ofTally
  | _ => none

end Distribution

/-! ### Texts -/

/-- A text read as an expression. -/
def Expr.readJson? (s : String) : Option Expr := (Value.read? s).bind (ofJson? Json.maxNesting)

/-- A text read as an operator. -/
def Operator.readJson? (s : String) : Option Operator :=
  (Value.read? s).bind (ofJson? Json.maxNesting)

/-- A text read as limits. -/
def Limits.readJson? (s : String) : Option Limits := (Value.read? s).bind ofJson?

/-- A text read as a distribution. -/
def Distribution.readJson? {α : Type} [JsonChance α] (s : String) : Option (Distribution α) :=
  (Value.read? s).bind ofJson?

end DiceOdds
