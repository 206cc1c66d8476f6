import OriginFacts.Text.Digit
import OriginFacts.Text.Split

/-! Whole numbers as people write them: with blanks around them, a sign, and digits in groups. -/

namespace OriginFacts.Text

/-- The ranges of code points, ends included, that may stand around a number. -/
def blankRanges : List (Nat × Nat) :=
  [(0x9, 0xd), (0x20, 0x20), (0x85, 0x85), (0xa0, 0xa0), (0x1680, 0x1680), (0x2000, 0x200a),
   (0x2028, 0x2029), (0x202f, 0x202f), (0x205f, 0x205f), (0x3000, 0x3000)]

def isBlank (c : Char) : Bool :=
  blankRanges.any fun (low, high) => low ≤ c.toNat && c.toNat ≤ high

/-- A text without the blanks around it. -/
def trimBlanks (cs : List Char) : List Char :=
  ((cs.dropWhile isBlank).reverse.dropWhile isBlank).reverse

/-- The number that digits write. Groups of digits may be set apart by one underscore. -/
def natural? (cs : List Char) : Option Nat :=
  let groups := splitAtMark '_' cs
  if groups.any List.isEmpty then none
  else do
    let values ← groups.flatten.mapM decimalValue?
    return values.foldl (fun n value => 10 * n + value) 0

/-- The number that a text writes. -/
def integer? (cs : List Char) : Option Int :=
  match trimBlanks cs with
  | '-' :: digits => (natural? digits).map fun n => -(n : Int)
  | '+' :: digits => (natural? digits).map Int.ofNat
  | digits => (natural? digits).map Int.ofNat

end OriginFacts.Text
