/-!
# Journal

Remarks on what is being done, in the order in which they are made. A remark has a level, and a
reader of the journal chooses down to which level remarks are shown.

## Main definitions

* `Level`: how much a remark matters.
* `Remark`, `Journal`: remarks in order.
* `Journal.upTo`: the remarks down to a level.
-/

namespace DiceOdds

/-- How much a remark matters. -/
inductive Level where
  | error
  | warn
  | info
  | debug
  | trace
  deriving DecidableEq, Repr

namespace Level

/-- The depth of a level, the most important level being the first. -/
def depth : Level → Nat
  | error => 1
  | warn => 2
  | info => 3
  | debug => 4
  | trace => 5

/-- How a level is shown. -/
def label : Level → String
  | error => "ERROR"
  | warn => "WARN"
  | info => "INFO"
  | debug => "DEBUG"
  | trace => "TRACE"

/-- The level of a name in letters of either case; other names stand for no level. -/
def threshold (name : String) : Option Level :=
  [error, warn, info, debug, trace].find? (·.label = name.map Char.toUpper)

end Level

/-- A remark on what is being done. -/
structure Remark where
  level : Level
  message : String
  deriving DecidableEq, Repr

/-- Remarks in the order in which they were made. -/
abbrev Journal := Array Remark

/-- The remarks down to a level; no remark is shown without one. -/
def Journal.upTo (level : Option Level) (journal : Journal) : Journal :=
  match level with
  | none => #[]
  | some level => journal.filter (·.level.depth ≤ level.depth)

end DiceOdds
