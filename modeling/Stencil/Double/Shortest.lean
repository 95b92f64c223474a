import Stencil.Double

/-!
Shortest decimals: the fewest digits that are nearer to a double than to any other double.
-/

namespace Stencil

/-- The number `digits * 10 ^ exponent`. -/
structure Decimal where
  digits : Nat
  exponent : Int
deriving DecidableEq, Repr

/-- A number with an interval around it; all three are multiples of `2 ^ scale`. -/
structure Interval where
  low : Nat
  middle : Nat
  high : Nat
  scale : Int
  closed : Bool
deriving DecidableEq, Repr

inductive Tie where
  | upper
  | even
deriving DecidableEq, Repr

namespace Interval

/-- The multiple of `10 ^ exponent` in the interval that is nearest to the middle, if one is in the
interval at all. With `unit = 10 ^ exponent` and `part = 2 ^ scale`, both made whole by one common
factor, the two multiples next to the middle are `below * unit` and `(below + 1) * unit`. -/
def onGrid (i : Interval) (tie : Tie) (exponent : Int) : Option Decimal :=
  let unit := Nat.pow 10 exponent.toNat <<< (-i.scale).toNat
  let part := Nat.pow 10 (-exponent).toNat <<< i.scale.toNat
  let below := i.middle * part / unit
  let rest := i.middle * part % unit
  let isBelowIn := if i.closed then i.low * part ≤ below * unit else i.low * part < below * unit
  let isAboveIn :=
    if i.closed then (below + 1) * unit ≤ i.high * part else (below + 1) * unit < i.high * part
  let isBelowNearer :=
    2 * rest < unit ∨ (2 * rest = unit ∧ tie = .even ∧ below % 2 = 0)
  if isBelowIn ∧ (¬ isAboveIn ∨ isBelowNearer) then some ⟨below, exponent⟩
  else if isAboveIn then some ⟨below + 1, exponent⟩
  else none

/-- The first hit on the grids of `10 ^ exponent`, `10 ^ (exponent - 1)` and so on. -/
def firstOnGrids (i : Interval) (tie : Tie) (exponent : Int) : Nat → Option Decimal
  | 0 => none
  | steps + 1 => (i.onGrid tie exponent).or (i.firstOnGrids tie (exponent - 1) steps)

/-- The shortest decimal in the interval. The search starts at a power of ten that is above the
interval, and never needs more than eighteen digits for an interval around a double. -/
def shortest (i : Interval) (tie : Tie) : Option Decimal :=
  i.firstOnGrids tie ((i.high.log2 + i.scale + 1) * 30103 / 100000 + 1) 22

end Interval

namespace Double

/-- The numbers that are nearer to the magnitude of a finite double than to that of any other: half
way to its two neighbours, where the lower one is closer if the fraction is zero. A number half way
between belongs to the one with the even significand. -/
def interval (x : Double) : Interval where
  low := 4 * x.significand - (if x.fraction.val = 0 ∧ 1 < x.exponent.val then 1 else 2)
  middle := 4 * x.significand
  high := 4 * x.significand + 2
  scale := x.scale - 2
  closed := x.significand % 2 = 0

/-- The shortest decimal that reads back as the magnitude of a finite double. -/
def shortest (x : Double) (tie : Tie) : Decimal :=
  (x.interval.shortest tie).getD ⟨0, 0⟩

end Double
end Stencil
