import Stencil.Context

/-!
Rendering: nodes are carried out one after the other, on a context whose scopes they open and
leave again.
-/

namespace Stencil

structure Run where
  context : Context
  text : String := ""
  /-- the paths of loops whose items are no list, the last one first -/
  skipped : List Path := []

namespace Run

def write (run : Run) (text : String) : Run :=
  { run with text := run.text ++ text }

def skip (run : Run) (path : Path) : Run :=
  { run with skipped := path :: run.skipped }

def enter (run : Run) (name : String) (item : Value) : Run :=
  { run with context := run.context.push.set name item }

def leave (run : Run) : Run :=
  { run with context := run.context.pop }

end Run

mutual

/-- Carries out one node. The items of a loop are looked up once, before its first turn. -/
def Node.render (run : Run) : Node → Run
  | .text content => run.write content
  | .output path => run.write (run.context.pathText path)
  | .branch condition yes no =>
    if Value.isTruthy (run.context.pathText condition) then renderNodes run yes
    else
      match no with
      | none => run
      | some nodes => renderNodes run nodes
  | .loop name items body =>
    match (run.context.resolve items).bind Value.items? with
    | none => run.skip items
    | some values =>
      values.foldl (fun run item => (renderNodes (run.enter name item) body).leave) run

def renderNodes (run : Run) : List Node → Run
  | [] => run
  | node :: nodes => renderNodes (node.render run) nodes

end

def Template.renderIn (context : Context) (template : Template) : Run :=
  renderNodes { context } template

def Template.render (host : Host) (model : Value) (template : Template) : Run :=
  template.renderIn (.ofModel host model)

end Stencil
