/-!
Double precision binary floating point numbers: a sign, eleven bits of exponent and fifty-two bits
of fraction.
-/

namespace Stencil

namespace Double

abbrev fractionCount : Nat := 0x10000000000000

abbrev exponentCount : Nat := 0x800

def fractionOf (n : Nat) : Fin fractionCount :=
  ⟨n % fractionCount, Nat.mod_lt n (by decide)⟩

def exponentOf (n : Nat) : Fin exponentCount :=
  ⟨n % exponentCount, Nat.mod_lt n (by decide)⟩

end Double

structure Double where
  negative : Bool
  exponent : Fin Double.exponentCount
  fraction : Fin Double.fractionCount
deriving DecidableEq, Repr

namespace Double

def signBit : Nat := 0x8000000000000000

def ofBits (bits : UInt64) : Double where
  negative := signBit ≤ bits.toNat
  exponent := exponentOf (bits.toNat / fractionCount)
  fraction := fractionOf bits.toNat

def toBits (x : Double) : UInt64 :=
  .ofNat ((if x.negative then signBit else 0) + x.exponent.val * fractionCount + x.fraction.val)

def zero (negative : Bool) : Double :=
  ⟨negative, exponentOf 0, fractionOf 0⟩

/-- Infinities and NaN have the greatest exponent. -/
def isFinite (x : Double) : Bool :=
  x.exponent.val != 2047

def isNaN (x : Double) : Bool :=
  x.exponent.val == 2047 && x.fraction.val != 0

def isZero (x : Double) : Bool :=
  x.exponent.val == 0 && x.fraction.val == 0

/-- The whole number `m` in the magnitude `m * 2 ^ q` of a finite number. -/
def significand (x : Double) : Nat :=
  if x.exponent.val = 0 then x.fraction.val else fractionCount + x.fraction.val

/-- The power `q` in the magnitude `m * 2 ^ q` of a finite number. -/
def scale (x : Double) : Int :=
  if x.exponent.val = 0 then -1074 else x.exponent.val - 1075

/-- Comparison of values: NaN differs from everything, and the two zeros are equal. -/
def eq (x y : Double) : Bool :=
  !x.isNaN && !y.isNaN && (x == y || x.isZero && y.isZero)

end Double
end Stencil
