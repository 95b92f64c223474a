import Stencil.Double

/-!
The double nearest to a number, halfway cases to the even neighbour.
-/

namespace Stencil

def roundHalfEven (num den : Nat) : Nat :=
  let quotient := num / den
  let rest := num % den
  if 2 * rest < den then quotient
  else if den < 2 * rest then quotient + 1
  else if quotient % 2 = 0 then quotient else quotient + 1

namespace Double

/-- The number `±m * 2 ^ q`, provided that `m` has at most fifty-three bits, and just fifty-three
unless `q` is the least scale, -1074. Nothing if that is beyond the greatest double. -/
def ofScaled (negative : Bool) (m : Nat) (q : Int) : Option Double :=
  let position := (q + 1074).toNat * fractionCount + m
  if h : position < (exponentCount - 1) * fractionCount then
    some {
      negative
      exponent := ⟨position / fractionCount,
        Nat.div_lt_of_lt_mul (Nat.lt_of_lt_of_le h (by decide))⟩
      fraction := fractionOf position }
  else none

/-- The double nearest to `±num / den`; nothing if that is beyond the greatest double. -/
def nearest (negative : Bool) (num den : Nat) : Option Double :=
  let power : Int := ((num <<< 1138) / den).log2 - 1138
  let q := max (power - 52) (-1074)
  ofScaled negative (roundHalfEven (num <<< (-q).toNat) (den <<< q.toNat)) q

/-- The double nearest to a whole number, of which none but those up to the greatest double are
asked for. -/
def ofNat (n : Nat) : Double :=
  (nearest false n 1).getD (zero false)

def mul? (x y : Double) : Option Double :=
  let q := x.scale + y.scale
  nearest (x.negative != y.negative)
    ((x.significand * y.significand) <<< q.toNat) (1 <<< (-q).toNat)

def div? (x y : Double) : Option Double :=
  let q := x.scale - y.scale
  nearest (x.negative != y.negative) (x.significand <<< q.toNat) (y.significand <<< (-q).toNat)

def ofSingleBits (bits : UInt32) : Double :=
  let negative : Bool := 0x80000000 ≤ bits.toNat
  let exponent := bits.toNat / 0x800000 % 256
  let fraction := bits.toNat % 0x800000
  if exponent = 255 then
    { negative, exponent := exponentOf 2047, fraction := fractionOf (fraction <<< 29) }
  else
    let m := if exponent = 0 then fraction else 0x800000 + fraction
    (nearest negative (m <<< (exponent - 1)) (1 <<< 149)).getD (zero negative)

end Double
end Stencil
