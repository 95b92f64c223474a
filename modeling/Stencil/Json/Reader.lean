import Stencil.Json.Number
import Stencil.Json.Text

/-!
Reading a JSON document, and passing over a value that does not matter.
-/

namespace Stencil.Json

variable {start : Cursor}

def readWord (letters : List Char) (cursor : Onward start) :
    Except (Located Fault) (Onward start) :=
  match letters with
  | [] => .ok cursor
  | letter :: letters =>
    if cursor.rest.head? = some letter then readWord letters cursor.advance
    else cursor.failAtEndOr .endInValue .expectedWord

def readColon (cursor : Onward start) : Except (Located Fault) (Onward start) :=
  let cursor := cursor.skipBlanks
  match cursor.rest with
  | ':' :: _ => .ok cursor.advance
  | _ => cursor.failAtEndOr .endInObject .expectedColon

/-- Whether an array or object goes on behind one of its items or members: `none` at its closing
bracket, and otherwise the cursor at the next item or member, which is behind a comma. -/
def readComma (close : Char) (unfinished noComma : Fault) (cursor : Onward start) :
    Except (Located Fault)
      (Option { next : Onward start // next.rest.length < cursor.rest.length }) :=
  let place := cursor.skipBlanks
  match h : place.rest with
  | ',' :: _ =>
    let next := place.advance.skipBlanks
    if next.rest.head? = some close then next.fail .trailingComma
    else .ok (some ⟨next, Nat.lt_of_le_of_lt place.advance.skipBlanks_le
      (Nat.lt_of_lt_of_le (Onward.advance_lt h) cursor.skipBlanks_le)⟩)
  | c :: _ => if c = close then .ok none else place.fail noComma
  | [] => place.fail unfinished

def maxOpen : Nat := 127

mutual

/-- Reads a value. `room` more brackets may be opened. -/
def readValue {start : Cursor} (room : Nat) (cursor : Onward start) :
    Except (Located Fault) (Json × Onward start) := do
  let place := cursor.skipBlanks
  match _h : place.rest, room with
  | [], _ => place.fail .endInValue
  | 'n' :: _, _ => return (.null, ← readWord ['u', 'l', 'l'] place.advance)
  | 't' :: _, _ => return (.bool true, ← readWord ['r', 'u', 'e'] place.advance)
  | 'f' :: _, _ => return (.bool false, ← readWord ['a', 'l', 's', 'e'] place.advance)
  | '"' :: _, _ =>
    let (s, behind) ← readString [] place.advance
    return (.string s, behind)
  | '[' :: _, 0 => place.fail .tooDeep
  | '[' :: _, room + 1 =>
    let first := place.advance.skipBlanks
    match first.rest with
    | [] => first.fail .endInList
    | ']' :: _ => return (.array [], first.advance)
    | _ => readItems room [] first
  | '{' :: _, 0 => place.fail .tooDeep
  | '{' :: _, room + 1 =>
    let first := place.advance.skipBlanks
    match first.rest with
    | [] => first.fail .endInObject
    | '}' :: _ => return (.object [], first.advance)
    | _ => readMembers room [] first
  | '-' :: _, _ =>
    let (n, behind) ← readNumber true place.advance
    return (.number n, behind)
  | c :: _, _ =>
    if c.isDigit then
      let (n, behind) ← readNumber false place
      return (.number n, behind)
    else place.fail .expectedValue
termination_by (cursor.rest.length, 0)
decreasing_by
  all_goals
    exact Prod.Lex.left _ _ (Nat.lt_of_le_of_lt place.advance.skipBlanks_le
      (Nat.lt_of_lt_of_le (Onward.advance_lt _h) cursor.skipBlanks_le))

/-- Reads the items of an array from one of them on. The items before, the last one first, are
known. -/
def readItems {start : Cursor} (room : Nat) (known : List Json) (cursor : Onward start) :
    Except (Located Fault) (Json × Onward start) := do
  let (value, behind) ← readValue room (.here cursor.toCursor)
  match ← readComma ']' .endInList .expectedListEnd behind with
  | none => return (.array (value :: known).reverse, (cursor.trans behind).skipBlanks.advance)
  | some next => readItems room (value :: known) (cursor.trans next.val)
termination_by (cursor.rest.length, 1)
decreasing_by
  · exact Prod.Lex.right _ (by omega)
  · exact Prod.Lex.left _ _ (Nat.lt_of_lt_of_le next.property behind.length_le)

def readMembers {start : Cursor} (room : Nat) (known : List (String × Json))
    (cursor : Onward start) : Except (Located Fault) (Json × Onward start) := do
  match _h : cursor.rest with
  | '"' :: _ =>
    let (key, behind) ← readString [] (Onward.here cursor.advance.toCursor)
    let behind ← readColon behind
    let (value, behind) ← readValue room behind
    match ← readComma '}' .endInObject .expectedObjectEnd behind with
    | none =>
      return (.object ((key, value) :: known).reverse,
        (cursor.advance.trans behind).skipBlanks.advance)
    | some next => readMembers room ((key, value) :: known) (cursor.advance.trans next.val)
  | _ => cursor.failAtEndOr .endInValue .keyNotString
termination_by (cursor.rest.length, 1)
decreasing_by
  · exact Prod.Lex.left _ _ (Nat.lt_of_le_of_lt behind.length_le (Onward.advance_lt _h))
  · exact Prod.Lex.left _ _ (Nat.lt_trans next.property
      (Nat.lt_of_le_of_lt behind.length_le (Onward.advance_lt _h)))

end

def read (text : String) : Except (Located Fault) Json := do
  let (value, behind) ← readValue maxOpen (.here ⟨text.toList, {}⟩)
  let last := behind.skipBlanks
  if last.rest.isEmpty then return value else last.fail .trailingCharacters

end Stencil.Json
