import Stencil.Settings
import Stencil.Template.Outline
import Stencil.Render

/-!
Engines: from source text to output, with an account of what happens on the way.
-/

namespace Stencil

inductive Event where
  | tokenized (count : Nat)
  | tokens (dump : String)
  | parsed (nodes : Nat)
  | outlined (outline : String)
  | rendering (view : String)
  /-- a loop was passed over, because this path stands for no list -/
  | skipped (items : Path)
deriving DecidableEq, Repr

inductive Level where
  | debug
  | trace
deriving DecidableEq, Repr

namespace Event

/-- Tokens and trees are told in full to those alone who ask for every detail. -/
def level : Event → Level
  | tokens _ | outlined _ => .trace
  | _ => .debug

def message : Event → String
  | tokenized _ => "tokenized template"
  | tokens dump => "tokens:\n" ++ dump
  | parsed _ => "parsed template"
  | outlined outline => "ast:\n" ++ outline
  | rendering _ => "rendering view"
  | skipped _ => "foreach over a value that is not a list; rendering nothing"

def fields : Event → List (String × String)
  | tokenized count => [("tokens", toString count)]
  | parsed nodes => [("nodes", toString nodes)]
  | rendering view => [("view", view)]
  | skipped items => [("collection", items.display)]
  | _ => []

end Event

/-- A result, and the events on the way to it in their order. -/
structure Traced (α : Type) where
  result : α
  events : List Event

namespace Settings

def compile (settings : Settings) (source : String) : Traced (Except ParseError Template) :=
  let tokens := tokenize source
  let first := [.tokenized tokens.length, .tokens (dump tokens)]
  match parseTokens tokens settings.maxNestingDepth with
  | .error error => ⟨.error error, first⟩
  | .ok template =>
    ⟨.ok template, first ++ [.parsed template.length, .outlined (template.outline "")]⟩

def finish (events : List Event) (run : Run) : Traced String :=
  ⟨run.text, events ++ run.skipped.reverse.map .skipped⟩

def render (settings : Settings) (host : Host) (source : String) (model : Value) :
    Traced (Except ParseError String) :=
  let compiled := settings.compile source
  match compiled.result with
  | .error error => ⟨.error error, compiled.events⟩
  | .ok template =>
    let finished := finish compiled.events (template.render host model)
    ⟨.ok finished.result, finished.events⟩

end Settings
end Stencil
