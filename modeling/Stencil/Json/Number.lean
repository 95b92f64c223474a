import Stencil.Json
import Stencil.Json.Cursor
import Stencil.Double.Nearest
import Stencil.Text.Digits

/-!
Numbers in a JSON text: reading one, and passing over one whose value does not matter.
-/

namespace Stencil.Json

variable {start : Cursor}

def readDigits (cursor : Onward start) : List Char × Onward start :=
  (cursor.rest.takeWhile Char.isDigit, cursor.skipWhile Char.isDigit)

/-- The number that digits spell behind `n`, and what is left of them: the digits from the first one
on that would take the number beyond a bound. -/
def spellUpTo (bound n : Nat) : List Char → Nat × List Char
  | [] => (n, [])
  | c :: digits =>
    let next := Text.appendDigit n c
    if bound < next then (n, c :: digits) else spellUpTo bound next digits

def exponentBound : Nat := 0x7fffffff

/-- The greatest number that the digits of a double are counted as. Those for which it leaves no
room make a difference in front of the point only, to the exponent. -/
def significandBound : Nat := 0xffffffffffffffff

def greatestPower : Nat := 308

/-- The double `x * 10 ^ exponent` for an `x` without sign, by a product or quotient with a power of
ten. Each step is rounded, so the result need not be the nearest double. Nothing if it is beyond the
greatest double. -/
def scaleByTen (x : Double) (exponent : Int) : Option Double :=
  if exponent.natAbs ≤ greatestPower then
    let power := Double.ofNat (Nat.pow 10 exponent.natAbs)
    if 0 ≤ exponent then x.mul? power else x.div? power
  else if x.isZero then some x
  else if 0 ≤ exponent then none
  else do scaleByTen (← x.div? (.ofNat (Nat.pow 10 greatestPower))) (exponent + greatestPower)
termination_by exponent.natAbs
decreasing_by
  have : greatestPower = 308 := rfl
  omega

def finishDouble (negative : Bool) (significand : Nat) (exponent : Int) (cursor : Onward start) :
    Except (Located Fault) (Number × Onward start) :=
  match scaleByTen (.ofNat significand) exponent with
  | some x => .ok (.double { x with negative }, cursor)
  | none => cursor.failBefore .numberOutOfRange

def readSign (cursor : Onward start) : Bool × Onward start :=
  match cursor.rest with
  | '+' :: _ => (false, cursor.advance)
  | '-' :: _ => (true, cursor.advance)
  | _ => (false, cursor)

/-- Reads what follows the `e` behind `significand * 10 ^ scale`. An exponent that is too great to
be counted is out of range, at the digit that makes it so; one that is too small gives zero, and so
does every exponent of zero. -/
def readExponent (negative : Bool) (significand : Nat) (scale : Int) (cursor : Onward start) :
    Except (Located Fault) (Number × Onward start) :=
  let (down, cursor) := readSign cursor
  let (exponent, behind) := readDigits cursor
  if exponent.isEmpty then cursor.failAtEndOr .endInValue .invalidNumber
  else
    match spellUpTo exponentBound 0 exponent with
    | (n, []) =>
      finishDouble negative significand (if down then scale - n else scale + n) behind
    | (_, _ :: left) =>
      if down ∨ significand = 0 then .ok (.double (.zero negative), behind)
      else
        let column := cursor.position.column + (exponent.length - left.length)
        .error ⟨.numberOutOfRange, { cursor.position with column }⟩

def readFraction (negative : Bool) (significand scale : Nat) (cursor : Onward start) :
    Except (Located Fault) (Number × Onward start) :=
  let (fraction, behind) := readDigits cursor
  if fraction.isEmpty then cursor.failAtEndOr .endInValue .invalidNumber
  else
    let (significand, left) := spellUpTo significandBound significand fraction
    let scale : Int := scale + left.length - fraction.length
    match behind.rest with
    | 'e' :: _ | 'E' :: _ => readExponent negative significand scale behind.advance
    | _ => finishDouble negative significand scale behind

def finishWhole (negative : Bool) (significand scale : Nat) (cursor : Onward start) :
    Except (Located Fault) (Number × Onward start) :=
  let n : Int := if negative then -significand else significand
  if 0 < scale then finishDouble negative significand scale cursor
  else if negative = false then .ok (.whole n, cursor)
  else if n < 0 ∧ Int64.minValue.toInt ≤ n then .ok (.whole n, cursor)
  else finishDouble true significand 0 cursor

/-- Reads a number behind its sign. Only the number zero starts with a zero. -/
def readNumber (negative : Bool) (cursor : Onward start) :
    Except (Located Fault) (Number × Onward start) :=
  let (digits, behind) := readDigits cursor
  match digits with
  | [] => cursor.failAtEndOr .endInValue .invalidNumber
  | '0' :: _ :: _ => cursor.advance.fail .invalidNumber
  | _ =>
    let (significand, left) := spellUpTo significandBound 0 digits
    match behind.rest with
    | '.' :: _ => readFraction negative significand left.length behind.advance
    | 'e' :: _ | 'E' :: _ => readExponent negative significand left.length behind.advance
    | _ => finishWhole negative significand left.length behind

def skipExponent (cursor : Onward start) : Except (Located Fault) (Onward start) :=
  let (_, cursor) := readSign cursor
  let (exponent, behind) := readDigits cursor
  if exponent.isEmpty then cursor.fail .invalidNumber else .ok behind

def skipNumber (first : Char) (cursor : Onward start) : Except (Located Fault) (Onward start) :=
  let (digits, behind) := readDigits cursor
  if first = '0' ∧ ¬ digits.isEmpty then cursor.fail .invalidNumber
  else
    match behind.rest with
    | '.' :: _ =>
      let (fraction, last) := readDigits behind.advance
      if fraction.isEmpty then behind.advance.fail .invalidNumber
      else
        match last.rest with
        | 'e' :: _ | 'E' :: _ => skipExponent last.advance
        | _ => .ok last
    | 'e' :: _ | 'E' :: _ => skipExponent behind.advance
    | _ => .ok behind

end Stencil.Json
