import Stencil.Double.Shortest

/-!
The text of a double: the digits of its shortest decimal, either in positional notation, which has
a point always, or with an exponent.
-/

namespace Stencil

structure DoubleStyle where
  /-- least and greatest place of the point, counted from in front of the first digit, for which
  the notation is positional -/
  least : Int
  greatest : Int
  plus : Bool
  tie : Tie
deriving DecidableEq, Repr

namespace Decimal

/-- Digits with a point behind the first `place` of them; zeros fill up on either side. -/
def positional (digits : List Char) (place : Int) : List Char :=
  if place ≤ 0 then ['0', '.'] ++ List.replicate (-place).toNat '0' ++ digits
  else if place < digits.length then
    digits.take place.toNat ++ '.' :: digits.drop place.toNat
  else digits ++ List.replicate (place.toNat - digits.length) '0' ++ ['.', '0']

/-- Digits with a point behind the first one, if more follow, and the power of ten. -/
def scientific (plus : Bool) (digits : List Char) (place : Int) : List Char :=
  digits.take 1 ++ (if digits.length = 1 then [] else '.' :: digits.drop 1) ++
    'e' :: (if plus ∧ 1 < place then ['+'] else []) ++ (toString (place - 1)).toList

def text (style : DoubleStyle) (d : Decimal) : List Char :=
  let digits := Nat.toDigits 10 d.digits
  let place := digits.length + d.exponent
  if style.least ≤ place ∧ place ≤ style.greatest then positional digits place
  else scientific style.plus digits place

end Decimal

def Double.text (style : DoubleStyle) (x : Double) : String :=
  if x.isNaN then "NaN"
  else
    let magnitude :=
      if !x.isFinite then ['i', 'n', 'f']
      else if x.isZero then ['0', '.', '0']
      else (x.shortest style.tie).text style
    String.ofList (if x.negative then '-' :: magnitude else magnitude)

end Stencil
