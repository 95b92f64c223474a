import Stencil.Parse.Progress
import Stencil.Token.Stream
import Stencil.Token.Scanner

/-!
Parsers. A parser reads templates one after the other from one stream of tokens, and keeps its
place and its depth from one to the next, also when a template is refused.
-/

namespace Stencil

def defaultLimit : Nat := 64

structure Parser where
  stream : TokenStream
  depth : Nat := 0
  limit : Nat := defaultLimit
deriving DecidableEq, Repr

namespace Parser

/-- Whether a template ends in front of this token and the ones behind it: no directive is open,
and the tag that starts here has one of the stop words. -/
def stopsAt (stops : List String) (s : Progress) (token : Token) (rest : List Token) : Bool :=
  match s.phase, s.frames, token.kind, rest with
  | .content, [], .openTag, next :: _ => next.kind = .keyword && stops.contains next.lexeme
  | _, _, _, _ => false

def leave (p : Parser) (s : Progress) (unread : List Token) : Parser :=
  { p with stream := ⟨unread⟩, depth := p.depth + s.depth }

def go (p : Parser) (stops : List String) (s : Progress) :
    List Token → Except ParseError Template × Parser
  | [] =>
    match s.missing with
    | none => (.ok s.nodes.reverse, p.leave s [])
    | some expected => (.error (.unexpectedEnd expected), p.leave s [])
  | token :: rest =>
    if stopsAt stops s token rest then (.ok s.nodes.reverse, p.leave s (token :: rest))
    else
      match s.step (p.limit - p.depth) p.limit token with
      | .ok next => p.go stops next rest
      | .error refusal => (.error refusal.error, p.leave s (refusal.unread ++ rest))

/-- Reads a template up to the end, or up to a tag that starts with one of the stop words. That
tag stays unread. -/
def parseUntil (p : Parser) (stops : List String) : Except ParseError Template × Parser :=
  p.go stops {} p.stream.unread

def parse (p : Parser) : Except ParseError Template × Parser :=
  p.parseUntil []

end Parser

def parseTokens (tokens : List Token) (limit : Nat := defaultLimit) : Except ParseError Template :=
  (Parser.parse { stream := ⟨tokens⟩, limit }).1

end Stencil
