import Stencil.Text.Letters

/-!
The characters that names inside a tag are made of, and those that stand between names.
-/

namespace Stencil.Text

/-- A word character is a letter or an ASCII digit. Numbers of any other kind, such as `²`, `Ⅻ` or
the digits of another script, are none. -/
def isWordChar (c : Char) : Bool :=
  if c.toNat < 0x80 then c.isAlphanum else letterRanges.contains c

/-- The code points with the property White_Space, in increasing order. -/
def spaceRanges : CodeRanges :=
  [(0x9, 0xd), (0x20, 0x20), (0x85, 0x85), (0xa0, 0xa0), (0x1680, 0x1680), (0x2000, 0x200a),
   (0x2028, 0x2029), (0x202f, 0x202f), (0x205f, 0x205f), (0x3000, 0x3000)]

def isSpace (c : Char) : Bool :=
  spaceRanges.contains c

def isWordPart (c : Char) : Bool :=
  isWordChar c || c == '_'

def isWord : List Char → Bool
  | [] => false
  | c :: rest => isWordChar c && rest.all isWordPart

theorem isWordPart_of_isWordChar {c : Char} (h : isWordChar c = true) : isWordPart c = true := by
  simp [isWordPart, h]

end Stencil.Text
