import Stencil.Proofs.Engine.Canonical
import Stencil.Proofs.Template.Outline
import Stencil.Proofs.Token.Dump

/-! The elements of a template and the lines of its outline. A template has its nodes inside of it,
a loop has the template that it repeats, and a branch has a mark for each of its parts, with the
template of that part inside of the mark. Every element has one line, however many lines its text
has, and the line stands two spaces deeper than that of the element around it. An indentation comes
in front of every line and changes nothing else. -/

namespace Stencil

/-- What has a line of its own in an outline, and the elements inside of it. -/
inductive Element where
  | mk (label : String) (inner : List Element)

mutual

/-- The lines of an element that stands at some level: its own, and behind it those of the elements
inside of it, one level below. -/
def Element.lines (level : Nat) : Element → List OutlineLine
  | .mk label inner => ⟨level, label⟩ :: elementLines (level + 1) inner

def elementLines (level : Nat) : List Element → List OutlineLine
  | [] => []
  | element :: elements => element.lines level ++ elementLines level elements

end

mutual

/-- The line of an element behind an indentation, and the elements inside of it behind two more
spaces. -/
def Element.print (indent : String) : Element → String
  | .mk label inner => indent ++ label ++ "\n" ++ printElements (indent ++ "  ") inner

def printElements (indent : String) : List Element → String
  | [] => ""
  | element :: elements => element.print indent ++ printElements indent elements

end

mutual

def Node.element : Node → Element
  | .text content => .mk (Heading.text content).label []
  | .output path => .mk (Heading.output path).label []
  | .branch condition yes none =>
    .mk (Heading.branch condition).label [.mk "Then" [.mk "Template" (nodeElements yes)]]
  | .branch condition yes (some no) =>
    .mk (Heading.branch condition).label
      [.mk "Then" [.mk "Template" (nodeElements yes)],
        .mk "Else" [.mk "Template" (nodeElements no)]]
  | .loop name items body =>
    .mk (Heading.loop name items).label [.mk "Template" (nodeElements body)]

def nodeElements : List Node → List Element
  | [] => []
  | node :: nodes => node.element :: nodeElements nodes

end

def Template.element (template : Template) : Element :=
  .mk "Template" (nodeElements template)

theorem nodeLines_eq (nodes : List Node) :
    ∀ level, nodeLines level nodes = elementLines level (nodeElements nodes) := by
  induction nodes using nodes_induction with
  | nil => exact fun _ => rfl
  | text content nodes ih =>
    intro level
    rw [nodeLines, nodeElements, elementLines, ih]
    rfl
  | output path nodes ih =>
    intro level
    rw [nodeLines, nodeElements, elementLines, ih]
    rfl
  | branch condition yes nodes ihyes ih =>
    intro level
    rw [nodeLines, nodeElements, elementLines, ih, Node.outlineLines, ihyes]
    simp [Node.element, Element.lines, elementLines, Heading.label]
  | branchElse condition yes no nodes ihyes ihno ih =>
    intro level
    rw [nodeLines, nodeElements, elementLines, ih, Node.outlineLines, ihyes, ihno]
    simp [Node.element, Element.lines, elementLines, Heading.label]
  | loop name items body nodes ihbody ih =>
    intro level
    rw [nodeLines, nodeElements, elementLines, ih, Node.outlineLines, ihbody]
    simp [Node.element, Element.lines, elementLines, Heading.label]

theorem outlineLines_eq_lines (template : Template) :
    template.outlineLines 0 = template.element.lines 0 := by
  rw [Template.outlineLines, nodeLines_eq, Template.element, Element.lines]

def OutlineLine.chars (line : OutlineLine) : List Char :=
  List.replicate (2 * line.level) ' ' ++ line.label.toList

theorem display_toList_eq (indent : String) (line : OutlineLine) :
    (line.display indent).toList = indent.toList ++ line.chars ++ ['\n'] := by
  simp [OutlineLine.display, OutlineLine.chars]

theorem spaces_succ (indent : String) (level : Nat) :
    indent ++ String.ofList (List.replicate (2 * level) ' ') ++ "  " =
      indent ++ String.ofList (List.replicate (2 * (level + 1)) ' ') := by
  have hspaces : List.replicate (2 * (level + 1)) ' ' =
      List.replicate (2 * level) ' ' ++ [' ', ' '] :=
    List.replicate_add ..
  rw [hspaces, String.ofList_append, String.append_assoc]

mutual

theorem Element.print_eq (indent : String) : ∀ (element : Element) (level : Nat),
    element.print (indent ++ String.ofList (List.replicate (2 * level) ' ')) =
      String.join ((element.lines level).map (·.display indent))
  | .mk label inner, level => by
    rw [Element.print, Element.lines, List.map_cons, String.join_cons, spaces_succ,
      printElements_eq indent inner]
    rfl

theorem printElements_eq (indent : String) : ∀ (elements : List Element) (level : Nat),
    printElements (indent ++ String.ofList (List.replicate (2 * level) ' ')) elements =
      String.join ((elementLines level elements).map (·.display indent))
  | [], level => rfl
  | element :: elements, level => by
    rw [printElements, elementLines, List.map_append, String.join_append,
      Element.print_eq indent element, printElements_eq indent elements]

end

/-- What the outline of a template looks like behind an indentation. -/
structure Outlined (template : Template) (indent : String) : Prop where
  /-- each element is printed behind the indentation of the one around it and two spaces more -/
  nested : template.outline indent = template.element.print indent
  /-- without an indentation there is one line for each element, in order, behind two spaces for
  each level -/
  lines : (template.outline "").toList.splitOn '\n' =
    (template.element.lines 0).map OutlineLine.chars ++ [[]]
  blanks : ∀ line ∈ template.element.lines 0, line.label.toList.head? ≠ some ' '
  /-- an indentation is put in front of every line -/
  indented : (template.outline indent).toList =
    ((template.outline "").toList.splitOn '\n').dropLast.flatMap fun line =>
      indent.toList ++ line ++ ['\n']
  /-- if it is on one line itself, there are no other lines -/
  count : '\n' ∉ indent.toList → (template.outline indent).toList.splitOn '\n' =
    ((template.outline "").toList.splitOn '\n').dropLast.map (indent.toList ++ ·) ++ [[]]

section
variable {template : Template}

theorem outline_toList (template : Template) (indent : String) :
    (template.outline indent).toList =
      ((template.element.lines 0).map OutlineLine.chars).flatMap fun line =>
        indent.toList ++ line ++ ['\n'] := by
  rw [Template.outline, String.toList_join, outlineLines_eq_lines, List.flatMap_map,
    List.flatMap_map]
  simp only [display_toList_eq]

theorem newline_not_mem_chars {line : OutlineLine} (h : line.Plain) : '\n' ∉ line.chars := by
  simp [OutlineLine.chars, h.2]

theorem splitOn_outline (h : template.OneLined) {indent : String} (hindent : '\n' ∉ indent.toList) :
    (template.outline indent).toList.splitOn '\n' =
      ((template.element.lines 0).map OutlineLine.chars).map (indent.toList ++ ·) ++ [[]] := by
  have hlines : ∀ line ∈ ((template.element.lines 0).map OutlineLine.chars).map
      (indent.toList ++ ·), '\n' ∉ line := by
    rw [List.forall_mem_map, List.forall_mem_map, ← outlineLines_eq_lines]
    intro line hline
    simp [hindent, newline_not_mem_chars (outlineLines_plain h line hline)]
  rw [← splitOn_lines hlines, outline_toList, List.flatMap_map (indent.toList ++ ·)]

/-- The outline has one line for each element, two spaces deeper for each level, and an indentation
stands in front of every line, if only the names in the template are on one line each, as in every
template that has a source. -/
theorem outline_of_elements (template : Template) (indent : String)
    (h : template.OneLined ∨
      ∃ (settings : Settings) (source : String), (settings.compile source).result = .ok template) :
    Outlined template indent := by
  have honeLined : template.OneLined := by
    rcases h with h | ⟨settings, source, h⟩
    · exact h
    · exact oneLined_of_wellFormed template false (Settings.wellFormed_of_compile h).1
  have hlines : (template.outline "").toList.splitOn '\n' =
      (template.element.lines 0).map OutlineLine.chars ++ [[]] := by
    rw [splitOn_outline honeLined (by simp)]
    simp
  refine ⟨?_, hlines, ?_, ?_, ?_⟩
  · rw [Template.outline, outlineLines_eq_lines, ← Element.print_eq]
    simp
  · rw [← outlineLines_eq_lines]
    exact fun line hline => (outlineLines_plain honeLined line hline).1
  · rw [hlines, List.dropLast_concat, outline_toList]
  · intro hindent
    rw [hlines, List.dropLast_concat, splitOn_outline honeLined hindent]

/-- A text of three lines, and a condition with blanks in it. -/
theorem outline_of_elements_multiline :
    let template : Template :=
      [.text "a\n\n", .branch ⟨" x", []⟩ [] (some [.loop "v" ⟨"é", ["f"]⟩ []])]
    template.OneLined ∧ Outlined template "\t" ∧ template.outline "\t" =
      "\tTemplate\n\t  Text(\"a\\n\\n\")\n\t  If( x)\n\t    Then\n\t      Template\n" ++
        "\t    Else\n\t      Template\n\t        Foreach(v : é.f)\n\t          Template\n" := by
  intro template
  have honeLined : template.OneLined := by
    simp [template, Template.OneLined, nodesOneLined, Node.OneLined, Path.OneLined, Path.parts]
  have houtlined := outline_of_elements template "\t" (Or.inl honeLined)
  exact ⟨honeLined, houtlined, houtlined.nested.trans (by decide)⟩

end
end Stencil
