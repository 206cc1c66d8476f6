/-! Hexadecimal digits. -/

namespace OriginFacts.Hex

/-- The digits of a number, in lower case. -/
def digits (n : Nat) : List Char :=
  Nat.toDigits 16 n

/-- The digits of a number with zeros in front up to a width. -/
def padded (width n : Nat) : List Char :=
  List.replicate (width - (digits n).length) '0' ++ digits n

/-- The value of a digit in either case. -/
def value? (c : Char) : Option Nat :=
  if '0' ≤ c ∧ c ≤ '9' then some (c.toNat - 48)
  else if 'a' ≤ c ∧ c ≤ 'f' then some (c.toNat - 87)
  else if 'A' ≤ c ∧ c ≤ 'F' then some (c.toNat - 55)
  else none

end OriginFacts.Hex
