import Stencil.Template
import Stencil.Text.Quoted

/-!
Outlines: a template as indented lines, one for each template, node and branch mark.
-/

namespace Stencil

structure OutlineLine where
  level : Nat
  label : String
deriving DecidableEq, Repr

/-- The line behind an indentation, with two more spaces for each level. -/
def OutlineLine.display (indent : String) (line : OutlineLine) : String :=
  indent ++ String.ofList (List.replicate (2 * line.level) ' ') ++ line.label ++ "\n"

mutual

def Node.outlineLines (level : Nat) : Node → List OutlineLine
  | .text content => [⟨level, "Text(" ++ Text.quoted content ++ ")"⟩]
  | .output path => [⟨level, "Expression(" ++ path.display ++ ")"⟩]
  | .branch condition yes none =>
    ⟨level, "If(" ++ condition.display ++ ")"⟩ ::
      ⟨level + 1, "Then"⟩ :: ⟨level + 2, "Template"⟩ :: nodeLines (level + 3) yes
  | .branch condition yes (some no) =>
    ⟨level, "If(" ++ condition.display ++ ")"⟩ ::
      ⟨level + 1, "Then"⟩ :: ⟨level + 2, "Template"⟩ :: (nodeLines (level + 3) yes ++
        ⟨level + 1, "Else"⟩ :: ⟨level + 2, "Template"⟩ :: nodeLines (level + 3) no)
  | .loop name items body =>
    ⟨level, "Foreach(" ++ name ++ " : " ++ items.display ++ ")"⟩ ::
      ⟨level + 1, "Template"⟩ :: nodeLines (level + 2) body

def nodeLines (level : Nat) : List Node → List OutlineLine
  | [] => []
  | node :: nodes => node.outlineLines level ++ nodeLines level nodes

end

/-- The lines of a template: its own, and those of its nodes one level below. -/
def Template.outlineLines (level : Nat) (template : Template) : List OutlineLine :=
  ⟨level, "Template"⟩ :: nodeLines (level + 1) template

def Node.outline (indent : String) (node : Node) : String :=
  String.join ((node.outlineLines 0).map (·.display indent))

def Template.outline (indent : String) (template : Template) : String :=
  String.join ((template.outlineLines 0).map (·.display indent))

end Stencil
