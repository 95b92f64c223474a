import Stencil.Json.Reader

/-!
Passing over a value that does not matter. Brackets may be open to any depth, numbers may have any
size, and surrogates need no partner.
-/

namespace Stencil.Json

inductive Bracket where
  | array
  | object
deriving DecidableEq, Repr

namespace Bracket

def close : Bracket → Char
  | array => ']'
  | object => '}'

def unfinished : Bracket → Fault
  | array => .endInList
  | object => .endInObject

def noComma : Bracket → Fault
  | array => .expectedListEnd
  | object => .expectedObjectEnd

end Bracket

variable {start : Cursor}

/-- Passes over a value without brackets, behind its first character. Nothing starts with another
character than those listed. -/
def skipScalar? (first : Char) (cursor : Onward start) :
    Option (Except (Located Fault) (Onward start)) :=
  match first with
  | 'n' => some (readWord ['u', 'l', 'l'] cursor)
  | 't' => some (readWord ['r', 'u', 'e'] cursor)
  | 'f' => some (readWord ['a', 'l', 's', 'e'] cursor)
  | '"' => some (skipString cursor)
  | '-' =>
    match cursor.rest.head? with
    | none => some (cursor.fail .invalidNumber)
    | some digit =>
      some (if digit.isDigit then skipNumber digit cursor.advance else cursor.fail .invalidNumber)
  | _ => if first.isDigit then some (skipNumber first cursor) else none

def skipKey (bracket : Bracket) (cursor : Onward start) :
    Except (Located Fault) (Onward start) :=
  match bracket with
  | .array => .ok cursor
  | .object =>
    let place := cursor.skipBlanks
    match place.rest with
    | '"' :: _ => skipString place.advance >>= readColon
    | _ => place.failAtEndOr .endInObject .keyNotString

mutual

/-- Passes over a value and over everything up to the last bracket of those that are open around
it. -/
def skipItem (brackets : List Bracket) (cursor : Onward start) :
    Except (Located Fault) (Onward start) := do
  let place := cursor.skipBlanks
  match _h : place.rest with
  | [] => place.fail .endInValue
  | '[' :: _ => skipRest false (.array :: brackets) place.advance
  | '{' :: _ => skipRest false (.object :: brackets) place.advance
  | c :: _ =>
    match skipScalar? c (.here place.advance.toCursor) with
    | none => place.fail .expectedValue
    | some result =>
      let behind ← result
      skipRest true brackets (place.advance.trans behind)
termination_by (cursor.rest.length, 0)
decreasing_by
  · exact Prod.Lex.left _ _ (Nat.lt_of_lt_of_le (Onward.advance_lt _h) cursor.skipBlanks_le)
  · exact Prod.Lex.left _ _ (Nat.lt_of_lt_of_le (Onward.advance_lt _h) cursor.skipBlanks_le)
  · exact Prod.Lex.left _ _ (Nat.lt_of_le_of_lt behind.length_le
      (Nat.lt_of_lt_of_le (Onward.advance_lt _h) cursor.skipBlanks_le))

/-- Passes over what is left between the brackets that are open, the innermost one first. A comma
can only stand behind an item. -/
def skipRest (behindItem : Bool) (brackets : List Bracket) (cursor : Onward start) :
    Except (Located Fault) (Onward start) := do
  match brackets with
  | [] => return cursor
  | bracket :: outer =>
    let place := cursor.skipBlanks
    match _h : place.rest with
    | [] => place.fail bracket.unfinished
    | c :: _ =>
      if c = bracket.close then skipRest true outer place.advance
      else if behindItem then
        if c = ',' then
          let value ← skipKey bracket (.here place.advance.toCursor)
          skipItem brackets (place.advance.trans value)
        else place.fail bracket.noComma
      else
        let value ← skipKey bracket (.here place.toCursor)
        skipItem brackets (place.trans value)
termination_by (cursor.rest.length, 1)
decreasing_by
  · exact Prod.Lex.left _ _ (Nat.lt_of_lt_of_le (Onward.advance_lt _h) cursor.skipBlanks_le)
  · exact Prod.Lex.left _ _ (Nat.lt_of_le_of_lt value.length_le
      (Nat.lt_of_lt_of_le (Onward.advance_lt _h) cursor.skipBlanks_le))
  · have h := Nat.le_trans value.length_le cursor.skipBlanks_le
    rcases Nat.lt_or_eq_of_le h with h | h
    · exact Prod.Lex.left _ _ h
    · exact h ▸ Prod.Lex.right _ (by omega)

end

def skipValue (cursor : Onward start) : Except (Located Fault) (Onward start) :=
  skipItem [] cursor

end Stencil.Json
