import Stencil.Text.Word

/-!
Tokens of a template's source, and how lists of them are shown.
-/

namespace Stencil

inductive Kind where
  | text
  | openTag
  | closeTag
  | dot
  | colon
  | identifier
  | keyword
deriving DecidableEq, Repr

def Kind.label : Kind → String
  | .text => "TEXT"
  | .openTag => "LBRACE2"
  | .closeTag => "RBRACE2"
  | .dot => "DOT"
  | .colon => "COLON"
  | .identifier => "IDENTIFIER"
  | .keyword => "KEYWORD"

structure Token where
  kind : Kind
  lexeme : String
deriving DecidableEq, Repr

def keywords : List String :=
  ["if", "else", "endif", "foreach", "endforeach"]

namespace Token

def text (content : String) : Token := ⟨.text, content⟩

def identifier (name : String) : Token := ⟨.identifier, name⟩

def keyword (word : String) : Token := ⟨.keyword, word⟩

def openTag : Token := ⟨.openTag, "\x7b\x7b"⟩

def closeTag : Token := ⟨.closeTag, "\x7d\x7d"⟩

def dot : Token := ⟨.dot, "."⟩

def colon : Token := ⟨.colon, ":"⟩

def ofWord (word : String) : Token :=
  if word ∈ keywords then keyword word else identifier word

def isKeyword (token : Token) (word : String) : Bool :=
  token.kind = .keyword && token.lexeme = word

def display (token : Token) : String :=
  token.kind.label ++ "(\"" ++ token.lexeme ++ "\")"

/-- A token on one line: shown without its spaces and line ends. -/
def line (token : Token) : String :=
  String.ofList (token.display.toList.filter fun c => c != ' ' && c != '\n')

end Token

def dump (tokens : List Token) : String :=
  String.join (tokens.map fun token => token.line ++ "\n")

end Stencil
