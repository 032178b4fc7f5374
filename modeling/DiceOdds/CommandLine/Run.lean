import DiceOdds.CommandLine.Arguments
import DiceOdds.Distribution.Table
import DiceOdds.Expr.Odds
import DiceOdds.Expr.Roll
import DiceOdds.Text.Trim

/-!
# The command line

Reads an expression from the arguments or from one line of the input and shows its distribution or
some rolls. An empty expression shows nothing. A failure is reported with what was being done and
with its causes, one below the other.

## Main definitions

* `Output`: what a run shows and how it ends.
* `CommandLine.report`: the report of a failure.
* `CommandLine.run`: a run for some arguments and an input.
-/

namespace DiceOdds

/-- What a run shows, how it ends, and the remarks made on the way. -/
structure Output where
  code : Nat
  text : String
  errors : String
  journal : Journal

namespace CommandLine

/-! ### Fixed texts -/

/-- The name and the version of the program. -/
def versionText : String := "diceprob 0.1.0\n"

/-- How the program is called. -/
def callText : String := "Usage: diceprob [OPTIONS] [EXPRESSION]\n"

/-- What the program is for and what it can be asked. -/
def helpText : String :=
  "\n".intercalate
    ["Print the chance of every outcome of a dice expression such as 2d6+3>10", "", callText,
      "Arguments:",
      "  [EXPRESSION]  Expression to evaluate; one line is read from standard input if omitted",
      "", "Options:",
      "      --parser <PARSER>              descent or priority [default: descent]",
      "      --rolls <ROLLS>                Print this many rolls instead of the distribution",
      "      --seed <SEED>                  Seed for --rolls",
      "      --max-depth <MAX_DEPTH>        [default: 64]",
      "      --max-dice <MAX_DICE>          [default: 100]",
      "      --max-nodes <MAX_NODES>        [default: 10000]",
      "      --max-outcomes <MAX_OUTCOMES>  [default: 1000000]",
      "      --max-pairs <MAX_PAIRS>        [default: 10000000]",
      "  -h, --help                         Print help",
      "  -V, --version                      Print version", ""]

/-- What is said about arguments that cannot be understood. -/
def usageText : String :=
  "error: unexpected arguments\n\n" ++ callText ++ "\nFor more information, try '--help'.\n"

/-! ### Failures -/

/-- The causes of a text being no expression: a syntax error is followed by its place and what was
expected there. -/
def causes : ParseError → List String
  | .stuck error => [(ParseError.stuck error).message, error.message]
  | error => [error.message]

/-- The numbered lines of several causes. -/
def numbered (first : Nat) : List String → String
  | [] => ""
  | cause :: rest => "    " ++ toString first ++ ": " ++ cause ++ "\n" ++ numbered (first + 1) rest

/-- The report of a failure: what was being done, and why it failed. -/
def report (context : String) : List String → String
  | [] => "Error: " ++ context ++ "\n"
  | [cause] => "Error: " ++ context ++ "\n\nCaused by:\n    " ++ cause ++ "\n"
  | causes => "Error: " ++ context ++ "\n\nCaused by:\n" ++ numbered 0 causes

/-! ### The input -/

/-- The first line of an input with its line feed, which must be properly encoded. -/
def firstLine? (input : ByteArray) : Option String :=
  let line := input.toList.takeWhile (· ≠ 10)
  let ended := if line.length < input.size then line ++ [10] else line
  String.fromUTF8? ⟨ended.toArray⟩

/-! ### A run -/

/-- Random words that depend on a seed: the words of a counter in equal steps, each of them
scrambled. -/
def seeded (seed : UInt64) : Words :=
  .fresh fun k =>
    let x := seed + (k.toUInt64 + 1) * 0x9e3779b97f4a7c15
    let y := (x ^^^ (x >>> 30)) * 0xbf58476d1ce4e5b9
    let z := (y ^^^ (y >>> 27)) * 0x94d049bb133111eb
    z ^^^ (z >>> 31)

/-- Rolls a number of times, one line for each roll, until a roll fails. -/
def rollLines (e : Expr) : Nat → String → Words → String × Option EvalError
  | 0, out, _ => (out, none)
  | n + 1, out, words =>
    match e.roll words with
    | (.ok value, words) => rollLines e n (out ++ toString value ++ "\n") words
    | (.error error, _) => (out, some error)

/-- Shows rolls of an expression or its distribution. -/
def answer (entropy : UInt64) (a : Arguments) (e : Expr) (journal : Journal) : Output :=
  let journal := journal.push ⟨.info, "evaluating " ++ e.print⟩
  match a.rolls with
  | some n =>
    let seed := match a.seed with
      | some seed => seed.toUInt64
      | none => entropy
    match rollLines e n "" (seeded seed) with
    | (out, none) => ⟨0, out, "", journal⟩
    | (out, some error) => ⟨1, out, report error.message [], journal⟩
  | none =>
    match e.distributionWithJournal a.limits with
    | (.ok (p : Distribution Float), remarks) =>
      ⟨0, p.table ++ "\n", "",
        (journal ++ remarks).push ⟨.info, toString p.size ++ " outcomes"⟩⟩
    | (.error error, remarks) =>
      ⟨1, "", report ("evaluating " ++ e.print) [error.message], journal ++ remarks⟩

/-- Works on the expression that a line stands for. -/
def runLine (entropy : UInt64) (a : Arguments) (line : String) : Output :=
  let journal := a.strategy.journal a.limits line
  match Expr.parse a.strategy a.limits line with
  | .ok e => answer entropy a e journal
  | .error .empty => ⟨0, "", "", journal.push ⟨.info, "nothing to evaluate"⟩⟩
  | .error error =>
    ⟨1, "", report ("parsing " ++ quotedText (trimEnd line)) (causes error), journal⟩

/-- Whether arguments ask for a line of the input. -/
def wantsInput : Except Stop Arguments → Bool
  | .ok a => a.expression.isNone
  | .error _ => false

/-- A run for some arguments and an input. The entropy takes the place of a seed if none is
given. -/
def run (entropy : UInt64) (arguments : Except Stop Arguments) (input : ByteArray) : Output :=
  match arguments with
  | .error .usage => ⟨2, "", usageText, #[]⟩
  | .error .help => ⟨0, helpText, "", #[]⟩
  | .error .version => ⟨0, versionText, "", #[]⟩
  | .ok a =>
    match a.expression with
    | some line => runLine entropy a line
    | none =>
      match firstLine? input with
      | some line => runLine entropy a line
      | none =>
        ⟨1, "", report "reading the expression" ["stream did not contain valid UTF-8"], #[]⟩

end CommandLine

end DiceOdds
