import Stencil.Template

/-!
The parser between two tokens: which directives are open, what is read of the innermost one, and
where inside a tag the next token stands. Every step takes one token, and either goes on or
refuses it.
-/

namespace Stencil

inductive Purpose where
  | output
  | condition
  | items (name : String)
deriving DecidableEq, Repr

/-- Where the next token stands. -/
inductive Phase where
  | content
  | opened
  | loopName
  | loopColon (name : String)
  /-- where a part of a path has to stand; the parts before it, if there are any, are known -/
  | part (purpose : Purpose) (before : Option Path)
  | path (purpose : Purpose) (path : Path)
  | turned
  | ended
deriving DecidableEq, Repr

/-- A directive that is open. It keeps the nodes in front of it, the last one first. -/
inductive Frame where
  | yes (condition : Path) (before : List Node)
  | no (condition : Path) (first : List Node) (before : List Node)
  | body (name : String) (items : Path) (before : List Node)

namespace Frame

def closers : Frame → List String
  | .yes .. => ["else", "endif"]
  | .no .. => ["endif"]
  | .body .. => ["endforeach"]

/-- Ends the directive with the nodes of its last part, the last one first. The result is the
enclosing list with the directive's own node, the last one first again. -/
def close (nodes : List Node) : Frame → List Node
  | .yes condition before => .branch condition nodes.reverse none :: before
  | .no condition first before => .branch condition first (some nodes.reverse) :: before
  | .body name items before => .loop name items nodes.reverse :: before

end Frame

structure Progress where
  phase : Phase := .content
  /-- the open directives whose first tag is read, the innermost one first -/
  frames : List Frame := []
  /-- the nodes read of the innermost list, the last one first -/
  nodes : List Node := []

/-- A refused token: why, and which tokens are left to be read again. -/
structure Refusal where
  error : ParseError
  unread : List Token

namespace Progress

/-- A directive counts from its keyword on. -/
def depth (s : Progress) : Nat :=
  s.frames.length +
    match s.phase with
    | .loopName | .loopColon _ | .part .condition _ | .part (.items _) _
    | .path .condition _ | .path (.items _) _ => 1
    | _ => 0

def closers (s : Progress) : List String :=
  (s.frames.head?.map Frame.closers).getD []

def enter (s : Progress) (room limit : Nat) (phase : Phase) : Except Refusal Progress :=
  if s.frames.length < room then .ok { s with phase } else .error ⟨.tooDeep limit, []⟩

def complete (s : Progress) (purpose : Purpose) (path : Path) : Progress :=
  match purpose with
  | .output => { s with phase := .content, nodes := .output path :: s.nodes }
  | .condition => { phase := .content, frames := .yes path s.nodes :: s.frames, nodes := [] }
  | .items name => { phase := .content, frames := .body name path s.nodes :: s.frames, nodes := [] }

def keyword (s : Progress) (room limit : Nat) (token : Token) : Except Refusal Progress :=
  if token.lexeme ∈ s.closers then
    match token.lexeme, s.frames with
    | "else", .yes condition before :: frames =>
      let second : Frame := .no condition s.nodes.reverse before
      .ok { phase := .turned, frames := second :: frames, nodes := [] }
    | _, _ => .ok { s with phase := .ended }
  else if token.lexeme = "if" then s.enter room limit (.part .condition none)
  else if token.lexeme = "foreach" then s.enter room limit .loopName
  else .error ⟨.unknownDirective token.lexeme, [token]⟩

def close (s : Progress) : Progress :=
  match s.frames with
  | [] => { s with phase := .content }
  | frame :: frames => { phase := .content, frames, nodes := frame.close s.nodes }

/-- Takes one token. `room` is how many levels of directives there may be. A token of the wrong
kind is taken all the same; the tokens that stay unread are those from which the reading of a
whole tag or a whole node would have to start. -/
def step (room limit : Nat) (s : Progress) (token : Token) : Except Refusal Progress :=
  match s.phase, token.kind with
  | .content, .text => .ok { s with nodes := .text token.lexeme :: s.nodes }
  | .content, .openTag => .ok { s with phase := .opened }
  | .content, _ => .error ⟨.strayToken token, [token]⟩
  | .opened, .keyword => s.keyword room limit token
  | .opened, .closeTag => .error ⟨.emptyPath, [token]⟩
  | .opened, .identifier => .ok { s with phase := .path .output ⟨token.lexeme, []⟩ }
  | .opened, _ => .error ⟨.unexpected .identifier token, []⟩
  | .loopName, .identifier => .ok { s with phase := .loopColon token.lexeme }
  | .loopName, _ => .error ⟨.unexpected .identifier token, []⟩
  | .loopColon name, .colon => .ok { s with phase := .part (.items name) none }
  | .loopColon _, _ => .error ⟨.unexpected .colon token, []⟩
  | .part purpose none, .identifier => .ok { s with phase := .path purpose ⟨token.lexeme, []⟩ }
  | .part purpose (some path), .identifier =>
    .ok { s with phase := .path purpose (path.extend token.lexeme) }
  | .part .., _ => .error ⟨.unexpected .identifier token, []⟩
  | .path purpose path, .dot => .ok { s with phase := .part purpose (some path) }
  | .path purpose path, .closeTag => .ok (s.complete purpose path)
  | .path .output ⟨word, []⟩, .identifier =>
    .error ⟨.unknownDirective word, [.identifier word, token]⟩
  | .path .., _ => .error ⟨.unexpected .closeTag token, []⟩
  | .turned, .closeTag => .ok { s with phase := .content }
  | .turned, _ => .error ⟨.unexpected .closeTag token, []⟩
  | .ended, .closeTag => .ok s.close
  | .ended, _ => .error ⟨.unexpected .closeTag token, []⟩

def missing (s : Progress) : Option Expected :=
  match s.phase with
  | .content => if s.frames.isEmpty then none else some .openTag
  | .opened => some .tagContent
  | .loopName | .part .. => some .identifier
  | .loopColon _ => some .colon
  | .path .. | .turned | .ended => some .closeTag

end Progress
end Stencil
