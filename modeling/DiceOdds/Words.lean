import DiceOdds.Outcome

/-!
# Random words

All randomness comes from a sequence of 64-bit words that is used up from the front. A draw takes
as many words as it needs, and how many were used is part of its result.

## Main definitions

* `Words`: a sequence of words and how many of them were used.
* `Draw`: something computed from words.
* `Draw.oneTo`: a number from one to a bound.
* `Draw.attempt`, `Draw.below`: a number below a bound, every one equally likely.
* `Draw.trueOnceIn`: something that happens once in a number of times.
* `Draw.fraction`, `Draw.narrowFraction`: a binary fraction from zero to one.
-/

namespace DiceOdds

/-- A sequence of random words and how many of them were used. -/
structure Words where
  word : Nat → UInt64
  used : Nat
  deriving Inhabited

namespace Words

/-- A sequence of which nothing is used yet. -/
def fresh (word : Nat → UInt64) : Words := ⟨word, 0⟩

/-- Some words over and over. -/
def cycle (script : Array UInt64) : Words := fresh fun k => script.getD (k % script.size) 0

end Words

/-- Something computed from random words. -/
abbrev Draw (α : Type) := StateM Words α

namespace Draw

/-- The next word. -/
def word : Draw UInt64 := fun w => (w.word w.used, { w with used := w.used + 1 })

/-- The number of words there are. -/
def wordCount : Nat := 18446744073709551616

/-- The next word times a bound, in units of the number of words, and what is left over. -/
def scaled (bound : Nat) : Draw (Nat × Nat) := do
  let product := (← word).toNat * bound
  return (product / wordCount, product % wordCount)

/-- A number from one to a bound. What is left over of the first word decides whether a second
word is taken to correct the result upwards. -/
def oneTo (bound : Outcome) : Draw Outcome := do
  let n := bound.toNatClampNeg
  let (high, low) ← scaled n
  if low > wordCount - n then
    let (carry, _) ← scaled n
    return Int64.ofNat (1 + if low + carry ≥ wordCount then high + 1 else high)
  else return Int64.ofNat (1 + high)

/-- An attempt at a number below a bound. It fails if the remainder of the next word is too small
for every number to be equally likely. -/
def attempt (bound : Nat) : Draw (Unit ⊕ Nat) := do
  let (high, low) ← scaled bound
  return if low < (wordCount - bound) % bound then .inl () else .inr high

/-- A number below a bound, from the first attempt that does not fail. A sequence of words need not
have such an attempt. -/
def below (bound : Nat) : Draw Nat := repeatM (fun _ => attempt bound) ()

/-- Whether the next word is in the first of a number of equal parts of all words. -/
def trueOnceIn (parts : Nat) : Draw Bool := return (← word).toNat < wordCount / parts

/-- The lower half of the next word. -/
def halfWord : Draw UInt32 := return (← word).toUInt32

/-- A fraction from zero to one with 52 binary places. -/
def fraction : Draw Float := do
  let w ← word
  return Float.ofBits ((0x3ff0000000000000 : UInt64) ||| (w >>> 12)) - 1.0

/-- A fraction from zero to one with 23 binary places. -/
def narrowFraction : Draw Float32 := do
  let w ← halfWord
  return Float32.ofBits ((0x3f800000 : UInt32) ||| (w >>> 9)) - 1.0

end Draw

end DiceOdds
