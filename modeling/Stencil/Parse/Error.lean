import Stencil.Token

/-!
What can be wrong with a template.
-/

namespace Stencil

inductive Expected where
  | identifier
  | colon
  | openTag
  | closeTag
  | tagContent
deriving DecidableEq, Repr

def Expected.label : Expected → String
  | .identifier => Kind.identifier.label
  | .colon => Kind.colon.label
  | .openTag => Kind.openTag.label
  | .closeTag => Kind.closeTag.label
  | .tagContent => "expression or directive"

inductive ParseError where
  | unexpected (expected : Expected) (found : Token)
  | unexpectedEnd (expected : Expected)
  /-- a token that only has a place inside tags stands outside of them -/
  | strayToken (found : Token)
  /-- a keyword that opens nothing and has nothing to close, or a word in front of another word -/
  | unknownDirective (word : String)
  | emptyPath
  | tooDeep (limit : Nat)
deriving DecidableEq, Repr

def ParseError.message : ParseError → String
  | .unexpected expected found => "expected " ++ expected.label ++ ", found " ++ found.display
  | .unexpectedEnd expected => "expected " ++ expected.label ++ ", found end of input"
  | .strayToken found => "unexpected token in template: " ++ found.display
  | .unknownDirective word => "unknown directive `" ++ word ++ "`"
  | .emptyPath => "expression has an empty property path"
  | .tooDeep limit => "directives nested deeper than " ++ toString limit ++ " levels"

end Stencil
