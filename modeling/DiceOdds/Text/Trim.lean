/-!
# White space at the end of a text

Messages quote a line without the white space at its end, where more characters count as white
space than may stand inside an expression.

## Main definitions

* `isWhiteSpace`: the property White_Space.
* `trimEnd`: a text without the white space at its end.
-/

namespace DiceOdds

/-- The first and the last code point of each range of characters with the property
White_Space. -/
def whiteSpace : List (Nat × Nat) :=
  [(0x9, 0xd), (0x20, 0x20), (0x85, 0x85), (0xa0, 0xa0), (0x1680, 0x1680), (0x2000, 0x200a),
    (0x2028, 0x2029), (0x202f, 0x202f), (0x205f, 0x205f), (0x3000, 0x3000)]

/-- Whether a character is white space. -/
def isWhiteSpace (c : Char) : Bool :=
  whiteSpace.any fun (low, high) => low ≤ c.toNat && c.toNat ≤ high

/-- A text without the white space at its end. -/
def trimEnd (s : String) : String :=
  String.ofList (s.toList.reverse.dropWhile isWhiteSpace).reverse

end DiceOdds
