/-!
Decimal digits and the numbers that they spell.
-/

namespace Stencil.Text

/-- The number that some digits spell, when `n` is what the digits in front of the last one do. -/
def appendDigit (n : Nat) (digit : Char) : Nat :=
  10 * n + (digit.toNat - '0'.toNat)

def decimalValue (digits : List Char) : Nat :=
  digits.foldl appendDigit 0

end Stencil.Text
