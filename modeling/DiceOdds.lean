import DiceOdds.Distribution.Moments
import DiceOdds.Distribution.Sampling
import DiceOdds.Evaluate
import DiceOdds.Expr.Random
import DiceOdds.Json.Forms
import DiceOdds.Main
import DiceOdds.Proofs.Distribution.Exactness
import DiceOdds.Proofs.Distribution.Moments
import DiceOdds.Proofs.Distribution.Monoid
import DiceOdds.Proofs.Distribution.Thresholds
import DiceOdds.Proofs.Expr.Limited
import DiceOdds.Proofs.Expr.Pool
import DiceOdds.Proofs.Expr.Random
import DiceOdds.Proofs.Expr.Range
import DiceOdds.Proofs.Expr.Rolls
import DiceOdds.Proofs.Expr.Traversal
import DiceOdds.Proofs.Json.Faithful
import DiceOdds.Proofs.Reading.Alarms
import DiceOdds.Proofs.Reading.Necessity
import DiceOdds.Proofs.Reading.Viable
import DiceOdds.Proofs.Token.Alternation
