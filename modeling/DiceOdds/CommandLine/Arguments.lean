import DiceOdds.Expr.Reader

/-!
# Arguments of the command line

The arguments are an optional expression and settings, each of which takes a value and may be given
once. A value follows its setting as the next argument or behind an equals sign. An argument that
starts with a hyphen is never an expression, except for a lone hyphen and behind two hyphens.

## Main definitions

* `Setting`: what can be set.
* `Arguments`: what a list of arguments asks for.
* `Arguments.read`: reading a list of arguments.
-/

namespace DiceOdds

/-- What can be set on the command line. -/
inductive Setting where
  | parser
  | rolls
  | seed
  | maxDepth
  | maxDice
  | maxNodes
  | maxOutcomes
  | maxPairs
  deriving DecidableEq, Repr

/-- The setting of a name. -/
def Setting.ofName? : String → Option Setting
  | "parser" => some parser
  | "rolls" => some rolls
  | "seed" => some seed
  | "max-depth" => some maxDepth
  | "max-dice" => some maxDice
  | "max-nodes" => some maxNodes
  | "max-outcomes" => some maxOutcomes
  | "max-pairs" => some maxPairs
  | _ => none

/-- The strategy of a name. -/
def Strategy.ofName? : String → Option Strategy
  | "descent" => some .descent
  | "priority" => some .priority
  | _ => none

/-- Why arguments do not ask for an expression to be worked on. -/
inductive Stop where
  | usage
  | help
  | version
  deriving DecidableEq, Repr

/-- What a list of arguments asks for. -/
structure Arguments where
  /-- The expression; without one a line of the input is read. -/
  expression : Option String := none
  strategy : Strategy := .descent
  /-- How often to roll; otherwise the distribution is shown. -/
  rolls : Option Nat := none
  seed : Option Nat := none
  limits : Limits := {}
  /-- The settings given so far. -/
  given : List Setting := []

namespace Arguments

/-- An integer of 64 bits without a minus sign. -/
def count? (s : String) : Option Nat :=
  let digits := match s.toList with
    | '+' :: digits => digits
    | digits => digits
  if digits = [] ∨ !digits.all Char.isDigit then none
  else
    let n := numeral digits
    if n ≤ maxCount then some n else none

/-- Changes one of the limits. -/
def setLimit (a : Arguments) (value : String) (change : Limits → Nat → Limits) :
    Option Arguments :=
  (count? value).map fun n => { a with limits := change a.limits n }

/-- Gives a setting its value, unless the value is not one of the setting. -/
def assign? (a : Arguments) (value : String) : Setting → Option Arguments
  | .parser => (Strategy.ofName? value).map fun strategy => { a with strategy }
  | .rolls => (count? value).map fun n => { a with rolls := some n }
  | .seed => (count? value).map fun n => { a with seed := some n }
  | .maxDepth => a.setLimit value fun l n => { l with maxDepth := n }
  | .maxDice => a.setLimit value fun l n => { l with maxDice := n }
  | .maxNodes => a.setLimit value fun l n => { l with maxNodes := n }
  | .maxOutcomes => a.setLimit value fun l n => { l with maxOutcomes := n }
  | .maxPairs => a.setLimit value fun l n => { l with maxPairs := n }

/-- Gives a setting its value for the first time. -/
def set (a : Arguments) (setting : Setting) (value : String) : Except Stop Arguments :=
  if setting ∈ a.given then .error .usage
  else
    match a.assign? value setting with
    | some a => .ok { a with given := setting :: a.given }
    | none => .error .usage

/-- Notes the only expression. -/
def setExpression (a : Arguments) (s : String) : Except Stop Arguments :=
  match a.expression with
  | none => .ok { a with expression := some s }
  | some _ => .error .usage

/-- Whether an argument is an option and not an expression or a value. -/
def isOption (s : String) : Bool :=
  match s.toList with
  | '-' :: _ :: _ => true
  | _ => false

/-- An argument behind two hyphens, split at the first equals sign. -/
def splitOption (letters : List Char) : String × Option String :=
  match letters.dropWhile (· ≠ '=') with
  | [] => (String.ofList letters, none)
  | _ :: value => (String.ofList (letters.takeWhile (· ≠ '=')), some (String.ofList value))

/-- What an option behind a single hyphen asks for, which the first letter decides. -/
def short : List Char → Stop
  | 'h' :: _ => .help
  | 'V' :: _ => .version
  | _ => .usage

/-- Reads further arguments. -/
def readOn (a : Arguments) : List String → Except Stop Arguments
  | [] => .ok a
  | arg :: args =>
    match arg.toList with
    | ['-', '-'] => args.foldlM setExpression a
    | '-' :: '-' :: letters =>
      match splitOption letters with
      | ("help", none) => .error .help
      | ("version", none) => .error .version
      | (name, value) =>
        match Setting.ofName? name, value, args with
        | none, _, _ => .error .usage
        | some setting, some value, args =>
          match a.set setting value with
          | .ok a => readOn a args
          | .error stop => .error stop
        | some _, none, [] => .error .usage
        | some setting, none, value :: args =>
          if isOption value then .error .usage
          else
            match a.set setting value with
            | .ok a => readOn a args
            | .error stop => .error stop
    | '-' :: c :: letters => .error (short (c :: letters))
    | _ =>
      match a.setExpression arg with
      | .ok a => readOn a args
      | .error stop => .error stop
termination_by args => args.length

/-- Reads a list of arguments. -/
def read (args : List String) : Except Stop Arguments := readOn {} args

end Arguments

end DiceOdds
