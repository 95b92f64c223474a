import Stencil.Proofs.Parse.Calls

/-! A reader of templates that descends into the body of a directive. It keeps no open directives
and no phase: each of its parts reads one construct, and checks every token that it needs, also one
that another part must have looked at before. A check that fails is a fault of its own, so it can be
told from the errors of the parser. -/

namespace Stencil

inductive Asked where
  | kind (kind : Kind)
  | keyword (word : String)
  | tagContent
deriving DecidableEq, Repr

inductive Fault where
  | unexpected (asked : Asked) (found : Token)
  | unexpectedEnd (asked : Asked)
  | strayToken (found : Token)
  | unknownDirective (word : String)
  | emptyTag
  | noParts
  | tooDeep (limit : Nat)
  | tokensLeft
  /-- more turns of a loop than there are tokens -/
  | turnsSpent
deriving DecidableEq, Repr

def Asked.ofExpected : Expected → Asked
  | .identifier => .kind .identifier
  | .colon => .kind .colon
  | .openTag => .kind .openTag
  | .closeTag => .kind .closeTag
  | .tagContent => .tagContent

/-- The fault that an error of the parser is. -/
def Fault.ofError : ParseError → Fault
  | .unexpected expected found => .unexpected (.ofExpected expected) found
  | .unexpectedEnd expected => .unexpectedEnd (.ofExpected expected)
  | .strayToken found => .strayToken found
  | .unknownDirective word => .unknownDirective word
  | .emptyPath => .emptyTag
  | .tooDeep limit => .tooDeep limit

/-- A reader moves a parser on, also where it finds a fault. -/
abbrev Descent := EStateM Fault Parser

namespace Descent

def peek : Descent (Option Token) := do
  return (← get).stream.peek

def peekNext : Descent (Option Token) := do
  return (← get).stream.peekNext

def next : Descent (Option Token) := do
  let p ← get
  let (token, stream) := p.stream.next
  set { p with stream }
  return token

/-- The next token, if it is one of those that are asked for. It is taken in any case. -/
def take (asked : Asked) (fits : Token → Bool) : Descent Token := do
  match ← next with
  | none => throw (.unexpectedEnd asked)
  | some token => if fits token then return token else throw (.unexpected asked token)

def expect (kind : Kind) : Descent Token :=
  take (.kind kind) fun token => token.kind = kind

def expectKeyword (word : String) : Descent Token :=
  take (.keyword word) fun token => token.isKeyword word

def identifier : Descent String := do
  return (← expect .identifier).lexeme

def enter : Descent Unit := do
  let p ← get
  if p.depth < p.limit then set { p with depth := p.depth + 1 } else throw (.tooDeep p.limit)

def leave : Descent Unit :=
  modify fun p => { p with depth := p.depth - 1 }

def start (word : String) : Descent Unit := do
  let _ ← expectKeyword word
  enter

def finish (word : String) : Descent Unit := do
  let _ ← expectKeyword word
  let _ ← expect .closeTag
  leave

def moreParts : Nat → List String → Descent (List String)
  | 0, _ => throw .turnsSpent
  | turns + 1, parts => do
    if (← peek).any (·.kind = .dot) then
      let _ ← next
      let part ← identifier
      moreParts turns (parts ++ [part])
    else return parts

def closePath (parts : List String) : Descent Path := do
  let _ ← expect .closeTag
  match Path.ofParts parts with
  | .ok path => return path
  | .error _ => throw .noParts

def path (turns : Nat) : Descent Path := do
  let first ← identifier
  let parts ← moreParts turns [first]
  closePath parts

section
variable (turns : Nat) (body : List String → Descent (List Node))

def second : Descent (Option (List Node)) := do
  let _ ← expect .openTag
  if (← peek).any (·.isKeyword "else") then
    let _ ← expectKeyword "else"
    let _ ← expect .closeTag
    let no ← body ["endif"]
    let _ ← expect .openTag
    return some no
  else return none

def branch : Descent Node := do
  start "if"
  let condition ← path turns
  let yes ← body ["else", "endif"]
  let no ← second body
  finish "endif"
  return .branch condition yes no

def loop : Descent Node := do
  start "foreach"
  let name ← identifier
  let _ ← expect .colon
  let items ← path turns
  let nodes ← body ["endforeach"]
  let _ ← expect .openTag
  finish "endforeach"
  return .loop name items nodes

def directive (word : String) : Descent Node :=
  if word = "if" then branch turns body
  else if word = "foreach" then loop turns body
  else throw (.unknownDirective word)

/-- A path that starts with a word. A word in front of another one is an unknown directive. -/
def output (word : String) : Descent Node := do
  if (← peekNext).any (·.kind = .identifier) then throw (.unknownDirective word)
  else return .output (← path turns)

def tagged : Descent Node := do
  let _ ← expect .openTag
  match ← peek with
  | none => throw (.unexpectedEnd .tagContent)
  | some token =>
    match token.kind with
    | .keyword => directive turns body token.lexeme
    | .closeTag => throw .emptyTag
    | .identifier => output turns token.lexeme
    | _ => return .output (← path turns)

end

def endsList (stops : List String) (first : Option Token) : Bool :=
  first.any fun token => token.kind = .keyword && stops.contains token.lexeme

/-- Nodes up to the end, or up to a tag that starts with one of the stop words. -/
def nodes : Nat → List String → List Node → Descent (List Node)
  | 0, _, _ => throw .turnsSpent
  | turns + 1, stops, before => do
    match ← peek with
    | none => return before.reverse
    | some token =>
      match token.kind with
      | .openTag =>
        if endsList stops (← peekNext) then return before.reverse
        else
          let node ← tagged turns fun stops => nodes turns stops []
          nodes turns stops (node :: before)
      | .text =>
        let _ ← next
        nodes turns stops (.text token.lexeme :: before)
      | _ => throw (.strayToken token)

def call (turns : Nat) : Call → Descent Template
  | .whole => do
    let template ← nodes turns [] []
    if (← get).stream.isExhausted then return template else throw .tokensLeft
  | .upTo stops => nodes turns stops []

end Descent

namespace Parser

/-- One call, read by descent. No loop of the reader takes more turns than there are tokens. -/
def descend (p : Parser) (call : Call) : Except Fault Template × Parser :=
  match Descent.call (p.stream.unread.length + 1) call p with
  | .ok template q => (.ok template, q)
  | .error fault q => (.error fault, q)

end Parser

end Stencil
