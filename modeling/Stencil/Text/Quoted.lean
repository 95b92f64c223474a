import Stencil.Text.Escaped

/-!
Quoted text: one line between double quotes, whatever characters the text holds.
-/

namespace Stencil.Text

def codePoint (c : Char) : List Char :=
  ['\\', 'u', '{'] ++ Nat.toDigits 16 c.toNat ++ ['}']

/-- One character of quoted text. The two characters that quoting itself uses stand behind a
backslash, four controls have a letter, and what cannot be seen is given by its code point. -/
def quotedChar (c : Char) : List Char :=
  match c with
  | '"' => ['\\', '"']
  | '\\' => ['\\', '\\']
  | '\n' => ['\\', 'n']
  | '\r' => ['\\', 'r']
  | '\t' => ['\\', 't']
  | '\x00' => ['\\', '0']
  | _ =>
    if c.toNat < 0x7f then (if c.toNat < 0x20 then codePoint c else [c])
    else if escapedRanges.contains c then codePoint c else [c]

def quoted (text : String) : String :=
  String.ofList ('"' :: (text.toList.flatMap quotedChar ++ ['"']))

end Stencil.Text
