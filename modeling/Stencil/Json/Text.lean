import Stencil.Text.ByteLength
import Stencil.Json.Cursor

/-!
Strings in a JSON text: reading one, and passing over one whose content does not matter. Both
start behind the opening quote.
-/

namespace Stencil.Json

variable {start : Cursor}

def hexDigit? (c : Char) : Option Nat :=
  if '0' ≤ c ∧ c ≤ '9' then some (c.toNat - '0'.toNat)
  else if 'a' ≤ c ∧ c ≤ 'f' then some (c.toNat - 'a'.toNat + 10)
  else if 'A' ≤ c ∧ c ≤ 'F' then some (c.toNat - 'A'.toNat + 10)
  else none

def Position.afterBytes (position : Position) (bytes : Nat) : List Char → Position
  | [] => position
  | c :: rest =>
    if c.utf8Size ≤ bytes then (position.behind c).afterBytes (bytes - c.utf8Size) rest
    else { position with column := position.column + bytes }

/-- Reads four hexadecimal digits. They are taken together: where one of them is wrong, the fault is
reported behind the fourth byte. -/
def readHex (cursor : Onward start) : Except (Located Fault) (Nat × Onward start) :=
  match cursor.rest.take 4, (cursor.rest.take 4).mapM hexDigit? with
  | [_, _, _, _], some digits =>
    .ok (digits.foldl (fun n digit => 16 * n + digit) 0, cursor.advance.advance.advance.advance)
  | _, _ =>
    let bytes := Text.byteLength cursor.rest
    .error ⟨if bytes < 4 then .endInString else .invalidEscape,
      cursor.position.afterBytes 4 cursor.rest⟩

def isLeading (unit : Nat) : Bool := 0xd800 ≤ unit && unit < 0xdc00

def isTrailing (unit : Nat) : Bool := 0xdc00 ≤ unit && unit < 0xe000

/-- Reads what follows `\u`. A leading surrogate has to be followed by a trailing one, and the two
make one character. -/
def readUnicode (cursor : Onward start) : Except (Located Fault) (Char × Onward start) := do
  let (unit, cursor) ← readHex cursor
  if isTrailing unit then cursor.failBefore .loneSurrogate
  else if !isLeading unit then .ok (Char.ofNat unit, cursor)
  else
    match cursor.rest with
    | '\\' :: 'u' :: _ =>
      let (second, cursor) ← readHex cursor.advance.advance
      if isTrailing second then
        .ok (Char.ofNat (0x10000 + (unit - 0xd800) * 0x400 + (second - 0xdc00)), cursor)
      else cursor.failBefore .loneSurrogate
    | '\\' :: _ => cursor.advance.failAtEndOr .endInString .unfinishedSurrogates
    | _ => cursor.failAtEndOr .endInString .unfinishedSurrogates

def escape? : Char → Option Char
  | '"' => some '"'
  | '\\' => some '\\'
  | '/' => some '/'
  | 'b' => some '\x08'
  | 'f' => some '\x0c'
  | 'n' => some '\n'
  | 'r' => some '\r'
  | 't' => some '\t'
  | _ => none

def readEscape (cursor : Onward start) : Except (Located Fault) (Char × Onward start) :=
  match cursor.rest with
  | [] => cursor.fail .endInString
  | 'u' :: _ => readUnicode cursor.advance
  | c :: _ =>
    match escape? c with
    | some char => .ok (char, cursor.advance)
    | none => cursor.fail .invalidEscape

def skipEscape (cursor : Onward start) : Except (Located Fault) (Onward start) :=
  match cursor.rest with
  | [] => cursor.fail .endInString
  | 'u' :: _ => (readHex cursor.advance).map (·.2)
  | c :: _ => if (escape? c).isSome then .ok cursor.advance else cursor.fail .invalidEscape

def isControl (c : Char) : Bool := c.toNat < 0x20

def readString (known : List Char) (cursor : Onward start) :
    Except (Located Fault) (String × Onward start) :=
  match _h : cursor.rest with
  | [] => cursor.fail .endInString
  | '"' :: _ => .ok (String.ofList known.reverse, cursor.advance)
  | '\\' :: _ =>
    match readEscape (.here cursor.advance.toCursor) with
    | .error located => .error located
    | .ok (c, next) => readString (c :: known) (cursor.advance.trans next)
  | c :: _ =>
    if isControl c then cursor.fail .controlCharacter
    else readString (c :: known) cursor.advance
termination_by cursor.rest.length
decreasing_by
  · exact Nat.lt_of_le_of_lt next.length_le (Onward.advance_lt ‹_›)
  · exact Onward.advance_lt ‹_›

/-- Passes over the rest of a string. A control character is reported in front of it here. -/
def skipString (cursor : Onward start) : Except (Located Fault) (Onward start) :=
  match _h : cursor.rest with
  | [] => cursor.fail .endInString
  | '"' :: _ => .ok cursor.advance
  | '\\' :: _ =>
    match skipEscape (.here cursor.advance.toCursor) with
    | .error located => .error located
    | .ok next => skipString (cursor.advance.trans next)
  | c :: _ =>
    if isControl c then cursor.failBefore .controlCharacter
    else skipString cursor.advance
termination_by cursor.rest.length
decreasing_by
  · exact Nat.lt_of_le_of_lt next.length_le (Onward.advance_lt ‹_›)
  · exact Onward.advance_lt ‹_›

end Stencil.Json
