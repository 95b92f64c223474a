/-!
Places in a JSON text, and the faults that are found there.
-/

namespace Stencil.Json

inductive Fault where
  | endInList
  | endInObject
  | endInString
  | endInValue
  | expectedColon
  | expectedListEnd
  | expectedObjectEnd
  | expectedWord
  | expectedValue
  | invalidEscape
  | invalidNumber
  | numberOutOfRange
  | controlCharacter
  | keyNotString
  | loneSurrogate
  | unfinishedSurrogates
  | trailingComma
  | trailingCharacters
  | tooDeep
deriving DecidableEq, Repr

def Fault.message : Fault → String
  | .endInList => "EOF while parsing a list"
  | .endInObject => "EOF while parsing an object"
  | .endInString => "EOF while parsing a string"
  | .endInValue => "EOF while parsing a value"
  | .expectedColon => "expected `:`"
  | .expectedListEnd => "expected `,` or `]`"
  | .expectedObjectEnd => "expected `,` or `\x7d`"
  | .expectedWord => "expected ident"
  | .expectedValue => "expected value"
  | .invalidEscape => "invalid escape"
  | .invalidNumber => "invalid number"
  | .numberOutOfRange => "number out of range"
  | .controlCharacter => "control character (\\u0000-\\u001F) found while parsing a string"
  | .keyNotString => "key must be a string"
  | .loneSurrogate => "lone leading surrogate in hex escape"
  | .unfinishedSurrogates => "unexpected end of hex escape"
  | .trailingComma => "trailing comma"
  | .trailingCharacters => "trailing characters"
  | .tooDeep => "recursion limit exceeded"

/-- A line and a column. A line ends with its line feed, and a column is a count of bytes. -/
structure Position where
  line : Nat := 1
  column : Nat := 0
deriving DecidableEq, Repr

def Position.behind (position : Position) (c : Char) : Position :=
  if c = '\n' then ⟨position.line + 1, 0⟩
  else { position with column := position.column + c.utf8Size }

structure Located (α : Type) where
  fault : α
  position : Position
deriving DecidableEq, Repr

def Located.map {α β : Type} (f : α → β) (located : Located α) : Located β :=
  ⟨f located.fault, located.position⟩

def Located.message {α : Type} (text : α → String) (located : Located α) : String :=
  text located.fault ++ " at line " ++ toString located.position.line ++
    " column " ++ toString located.position.column

structure Cursor where
  rest : List Char
  position : Position := {}
deriving DecidableEq, Repr

namespace Cursor

def advance (cursor : Cursor) : Cursor :=
  match cursor.rest with
  | [] => cursor
  | c :: rest => ⟨rest, cursor.position.behind c⟩

def skipWhile (p : Char → Bool) (cursor : Cursor) : Cursor where
  rest := cursor.rest.dropWhile p
  position := (cursor.rest.takeWhile p).foldl Position.behind cursor.position

def isBlank (c : Char) : Bool :=
  c == ' ' || c == '\n' || c == '\t' || c == '\r'

def failBefore {α : Type} (cursor : Cursor) (fault : Fault) : Except (Located Fault) α :=
  .error ⟨fault, cursor.position⟩

/-- A fault of the next character. It is reported behind the first byte of that character, or at
the end of the text if there is none. -/
def fail {α : Type} (cursor : Cursor) (fault : Fault) : Except (Located Fault) α :=
  .error ⟨fault,
    match cursor.rest with
    | [] => cursor.position
    | '\n' :: _ => cursor.position.behind '\n'
    | _ :: _ => { cursor.position with column := cursor.position.column + 1 }⟩

def failAtEndOr {α : Type} (cursor : Cursor) (atEnd otherwise : Fault) : Except (Located Fault) α :=
  cursor.fail (if cursor.rest.isEmpty then atEnd else otherwise)

theorem length_advance_lt {cursor : Cursor} (h : cursor.rest ≠ []) :
    cursor.advance.rest.length < cursor.rest.length := by
  unfold advance
  split
  · contradiction
  · next hr => simp [hr]

theorem length_advance_le (cursor : Cursor) : cursor.advance.rest.length ≤ cursor.rest.length := by
  unfold advance
  split
  · exact Nat.le_refl _
  · next hr => simp [hr]

theorem length_skipWhile_le (p : Char → Bool) (cursor : Cursor) :
    (cursor.skipWhile p).rest.length ≤ cursor.rest.length :=
  (List.dropWhile_sublist p).length_le

end Cursor

/-- A cursor that is no farther from the end than another one, from which it was reached. -/
structure Onward (start : Cursor) extends Cursor where
  length_le : rest.length ≤ start.rest.length

namespace Onward

variable {start : Cursor}

def here (start : Cursor) : Onward start :=
  ⟨start, Nat.le_refl _⟩

def advance (cursor : Onward start) : Onward start :=
  ⟨cursor.toCursor.advance, Nat.le_trans cursor.length_advance_le cursor.length_le⟩

def skipWhile (p : Char → Bool) (cursor : Onward start) : Onward start :=
  ⟨cursor.toCursor.skipWhile p, Nat.le_trans (cursor.length_skipWhile_le p) cursor.length_le⟩

def skipBlanks (cursor : Onward start) : Onward start :=
  cursor.skipWhile Cursor.isBlank

def trans (cursor : Onward start) (next : Onward cursor.toCursor) : Onward start :=
  ⟨next.toCursor, Nat.le_trans next.length_le cursor.length_le⟩

theorem advance_lt {cursor : Onward start} {c : Char} {rest : List Char}
    (h : cursor.rest = c :: rest) : cursor.advance.rest.length < cursor.rest.length :=
  Cursor.length_advance_lt (by simp [h])

theorem skipBlanks_le (cursor : Onward start) :
    cursor.skipBlanks.rest.length ≤ cursor.rest.length :=
  cursor.length_skipWhile_le Cursor.isBlank

end Onward
end Stencil.Json
