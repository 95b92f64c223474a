import Stencil.Settings
import Stencil.Json.Skip
import Stencil.Text.Quoted
import Stencil.Double.Text

/-!
Reading settings from a JSON text: an object, whose members may come in any order and of which the
unknown ones do not matter, or a list with the values alone. What is not given is as it is by
default.
-/

namespace Stencil.Settings

open Json

/-- A value of the wrong kind. Of a list or an object only the bracket has been seen. -/
inductive Found where
  | null
  | bool (b : Bool)
  | number (n : Json.Number)
  | string (s : String)
  | list
  | object
deriving DecidableEq, Repr

/-- Doubles in messages are written in positional notation from 0.00001 on and below 10 ^ 16. -/
def messageStyle : DoubleStyle where
  least := -4
  greatest := 16
  plus := true
  tie := .even

def Found.label : Found → String
  | .null => "null"
  | .bool b => "boolean `" ++ (if b then "true" else "false") ++ "`"
  | .number (.whole n) => "integer `" ++ toString n ++ "`"
  | .number (.double x) => "floating point `" ++ x.text messageStyle ++ "`"
  | .string s => "string " ++ Text.quoted s
  | .list => "sequence"
  | .object => "map"

inductive Fault where
  | json (fault : Json.Fault)
  | wrongKind (found : Found) (expected : String)
  | wrongValue (found : Found) (expected : String)
  | duplicateField (name : String)
deriving DecidableEq, Repr

def Fault.message : Fault → String
  | .json fault => fault.message
  | .wrongKind found expected => "invalid type: " ++ found.label ++ ", expected " ++ expected
  | .wrongValue found expected => "invalid value: " ++ found.label ++ ", expected " ++ expected
  | .duplicateField name => "duplicate field `" ++ name ++ "`"

abbrev Result := Except (Located Fault)

def ofJson {α : Type} (result : Except (Located Json.Fault) α) : Result α :=
  result.mapError (·.map .json)

variable {start : Cursor}

/-- Refuses the value that comes next. Anything but a list or an object is read first, and the
fault is reported behind it. -/
def refuse {α : Type} (expected : String) (cursor : Onward start) : Result α := do
  let wrong (found : Found) (behind : Onward start) : Result α :=
    .error ⟨.wrongKind found expected, behind.position⟩
  match cursor.rest with
  | 'n' :: _ => wrong .null (← ofJson (readWord ['u', 'l', 'l'] cursor.advance))
  | 't' :: _ => wrong (.bool true) (← ofJson (readWord ['r', 'u', 'e'] cursor.advance))
  | 'f' :: _ => wrong (.bool false) (← ofJson (readWord ['a', 'l', 's', 'e'] cursor.advance))
  | '"' :: _ =>
    let (s, behind) ← ofJson (readString [] cursor.advance)
    wrong (.string s) behind
  | '[' :: _ => wrong .list cursor
  | '{' :: _ => wrong .object cursor
  | '-' :: _ =>
    let (n, behind) ← ofJson (readNumber true cursor.advance)
    wrong (.number n) behind
  | c :: _ =>
    if c.isDigit then
      let (n, behind) ← ofJson (readNumber false cursor)
      wrong (.number n) behind
    else ofJson (cursor.fail .expectedValue)
  | [] => ofJson (cursor.fail .endInValue)

def countLabel : String := "usize"

def readCount (cursor : Onward start) : Result (Nat × Onward start) := do
  let place := cursor.skipBlanks
  let accept (n : Json.Number) (behind : Onward start) : Result (Nat × Onward start) :=
    match n with
    | .whole (.ofNat n) => .ok (n, behind)
    | .whole n => .error ⟨.wrongValue (.number (.whole n)) countLabel, behind.position⟩
    | .double x => .error ⟨.wrongKind (.number (.double x)) countLabel, behind.position⟩
  match place.rest with
  | '-' :: _ =>
    let (n, behind) ← ofJson (readNumber true place.advance)
    accept n behind
  | c :: _ =>
    if c.isDigit then
      let (n, behind) ← ofJson (readNumber false place)
      accept n behind
    else refuse countLabel place
  | [] => ofJson (place.fail .endInValue)

def depthField : String := "max_nesting_depth"

/-- The fault of a field that is given a second time, seen behind its name. The place is that of
what follows, or behind the object if it ends there. -/
def duplicate {α : Type} (cursor : Onward start) : Result α :=
  let place := cursor.skipBlanks
  .error ⟨.duplicateField depthField,
    (if place.rest.head? = some '}' then place.advance else place).position⟩

def readFields (depth : Option Nat) (cursor : Onward start) :
    Result (Option Nat × Onward start) := do
  match _h : cursor.rest with
  | '"' :: _ =>
    let (key, behind) ← ofJson (readString [] (Onward.here cursor.advance.toCursor))
    let (depth, behind) ←
      if key = depthField then
        if depth.isSome then duplicate behind
        else
          let (n, behind) ← readCount (← ofJson (readColon behind))
          pure (some n, behind)
      else pure (depth, ← ofJson (skipValue (← ofJson (readColon behind))))
    match ← ofJson (readComma '}' .endInObject .expectedObjectEnd behind) with
    | none => return (depth, (cursor.advance.trans behind).skipBlanks.advance)
    | some next => readFields depth (cursor.advance.trans next.val)
  | _ => ofJson (cursor.failAtEndOr .endInValue .keyNotString)
termination_by cursor.rest.length
decreasing_by
  exact Nat.lt_trans next.property (Nat.lt_of_le_of_lt behind.length_le (Onward.advance_lt _h))

def readListEnd (cursor : Onward start) : Except (Located Json.Fault) (Onward start) :=
  let place := cursor.skipBlanks
  match place.rest with
  | ']' :: _ => .ok place.advance
  | ',' :: _ =>
    let next := place.advance.skipBlanks
    next.fail (if next.rest.head? = some ']' then .trailingComma else .trailingCharacters)
  | _ => place.failAtEndOr .endInList .trailingCharacters

def readForm (cursor : Onward start) : Result (Option Nat × Onward start) := do
  let place := cursor.skipBlanks
  match place.rest with
  | '[' :: _ =>
    let first := place.advance.skipBlanks
    match first.rest with
    | [] => ofJson (first.fail .endInList)
    | ']' :: _ => return (none, first.advance)
    | _ =>
      let (n, behind) ← readCount first
      return (some n, ← ofJson (readListEnd behind))
  | '{' :: _ =>
    let first := place.advance.skipBlanks
    match first.rest with
    | [] => ofJson (first.fail .endInObject)
    | '}' :: _ => return (none, first.advance)
    | _ => readFields none first
  | _ => refuse "struct EngineConfig" place

def read (text : String) : Result Settings := do
  let (depth, behind) ← readForm (.here ⟨text.toList, {}⟩)
  let last := behind.skipBlanks
  if last.rest.isEmpty then return { maxNestingDepth := depth.getD defaultLimit }
  else ofJson (last.fail .trailingCharacters)

end Stencil.Settings
