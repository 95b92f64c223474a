import Stencil.Template.Outline
import Stencil.Proofs.Template.Canonical
import Stencil.Proofs.Text.Quoted

/-! The outline of a well-formed template determines it. Its text determines the lines, the line
of a node determines what the node holds itself, and the nodes inside of it end in front of the
first line that is less deep than they are. -/

namespace Stencil

theorem not_mem_of_isName {name : String} (hname : IsName name) {c : Char}
    (hc : ¬ Text.isWordPart c) : c ∉ name.toList :=
  fun hmem => hc (isWordPart_of_mem hname.1 c hmem)

theorem display_inj {path path' : Path} (hpath : path.WellFormed) (hpath' : path'.WellFormed)
    (h : path.display = path'.display) : path = path' := by
  have hsplit {path : Path} (hpath : path.WellFormed) :
      path.display.toList.splitOn '.' = path.parts.map String.toList := by
    rw [Path.display, String.toList_intercalate]
    refine List.splitOn_intercalate '.' (List.forall_mem_map.mpr ?_) (by simp [Path.parts])
    exact fun part hpart => not_mem_of_isName (hpath part hpart) (by decide)
  have hlists := hsplit hpath
  rw [h, hsplit hpath'] at hlists
  have hparts := (List.map_inj_right fun _ _ => String.toList_inj.mp).mp hlists
  obtain ⟨hhead, htail⟩ := List.cons.inj hparts
  cases path
  cases path'
  exact congrArg₂ Path.mk hhead.symm htail.symm

def Path.OneLined (path : Path) : Prop :=
  ∀ part ∈ path.parts, '\n' ∉ part.toList

mutual

/-- No path and no name of a loop reaches beyond its line. Text may. -/
def Node.OneLined : Node → Prop
  | .text _ => True
  | .output path => path.OneLined
  | .branch condition yes none => condition.OneLined ∧ nodesOneLined yes
  | .branch condition yes (some no) =>
    condition.OneLined ∧ nodesOneLined yes ∧ nodesOneLined no
  | .loop name items body => '\n' ∉ name.toList ∧ items.OneLined ∧ nodesOneLined body

def nodesOneLined : List Node → Prop
  | [] => True
  | node :: nodes => node.OneLined ∧ nodesOneLined nodes

end

def Template.OneLined (template : Template) : Prop :=
  nodesOneLined template

theorem newline_not_mem_name {name : String} (hname : IsName name) : '\n' ∉ name.toList :=
  not_mem_of_isName hname (by decide)

theorem Path.WellFormed.oneLined {path : Path} (h : path.WellFormed) : path.OneLined :=
  fun part hpart => newline_not_mem_name (h part hpart)

theorem oneLined_of_wellFormed (nodes : List Node) :
    ∀ inside, nodesWellFormed inside nodes → nodesOneLined nodes := by
  induction nodes using nodes_induction with
  | nil => exact fun _ _ => trivial
  | text content nodes ih => exact fun inside h => ⟨trivial, ih inside h.2.2⟩
  | output path nodes ih => exact fun inside h => ⟨Path.WellFormed.oneLined h.1, ih inside h.2.2⟩
  | branch condition yes nodes ihyes ih =>
    intro inside ⟨⟨hcondition, hyes⟩, _, hnodes⟩
    exact ⟨⟨hcondition.oneLined, ihyes true hyes⟩, ih inside hnodes⟩
  | branchElse condition yes no nodes ihyes ihno ih =>
    intro inside ⟨⟨hcondition, hyes, hno⟩, _, hnodes⟩
    exact ⟨⟨hcondition.oneLined, ihyes true hyes, ihno true hno⟩, ih inside hnodes⟩
  | loop name items body nodes ihbody ih =>
    intro inside ⟨⟨hname, hitems, hbody⟩, _, hnodes⟩
    exact ⟨⟨newline_not_mem_name hname, hitems.oneLined, ihbody true hbody⟩, ih inside hnodes⟩

theorem newline_not_mem_display {path : Path} (h : path.OneLined) :
    '\n' ∉ path.display.toList := by
  obtain ⟨hhead, htail⟩ := List.forall_mem_cons.mp h
  rw [display_toList, List.mem_append, not_or, tailSource, List.mem_flatMap]
  refine ⟨hhead, ?_⟩
  rintro ⟨part, hpart, hline⟩
  rcases List.mem_cons.mp hline with hdot | hline
  · cases hdot
  · exact htail part hpart hline

/-- What the line of a node says: all that the node holds but the nodes inside of it. -/
inductive Heading where
  | text (content : String)
  | output (path : Path)
  | branch (condition : Path)
  | loop (name : String) (items : Path)

namespace Heading

def label : Heading → String
  | text content => "Text(" ++ Text.quoted content ++ ")"
  | output path => "Expression(" ++ path.display ++ ")"
  | branch condition => "If(" ++ condition.display ++ ")"
  | loop name items => "Foreach(" ++ name ++ " : " ++ items.display ++ ")"

def WellFormed : Heading → Prop
  | text _ => True
  | output path => path.WellFormed
  | branch condition => condition.WellFormed
  | loop name items => IsName name ∧ items.WellFormed

theorem label_inj {heading heading' : Heading} (hheading : heading.WellFormed)
    (hheading' : heading'.WellFormed) (h : heading.label = heading'.label) :
    heading = heading' := by
  cases heading with
  | text content =>
    cases heading' with
    | text content' =>
      have hquoted := (String.append_right_inj _).mp ((String.append_left_inj _).mp h)
      rw [Text.quoted_inj hquoted]
    | _ => simp [label, ← String.toList_inj] at h
  | output path =>
    cases heading' with
    | output path' =>
      have hdisplay := (String.append_right_inj _).mp ((String.append_left_inj _).mp h)
      rw [display_inj hheading hheading' hdisplay]
    | _ => simp [label, ← String.toList_inj] at h
  | branch condition =>
    cases heading' with
    | branch condition' =>
      have hdisplay := (String.append_right_inj _).mp ((String.append_left_inj _).mp h)
      rw [display_inj hheading hheading' hdisplay]
    | _ => simp [label, ← String.toList_inj] at h
  | loop name items =>
    cases heading' with
    | loop name' items' =>
      have hcontent := (String.append_left_inj _).mp h
      have hchars : name.toList ++ ' ' :: (": " ++ items.display).toList =
          name'.toList ++ ' ' :: (": " ++ items'.display).toList := by
        simpa [← String.toList_inj] using hcontent
      obtain ⟨hname, hrest⟩ := Text.append_mark_inj (not_mem_of_isName hheading.1 (by decide))
        (not_mem_of_isName hheading'.1 (by decide)) hchars
      have hdisplay := (String.append_right_inj _).mp (String.toList_inj.mp hrest)
      rw [String.toList_inj.mp hname, display_inj hheading.2 hheading'.2 hdisplay]
    | _ => simp [label, ← String.toList_inj] at h

end Heading

/-- A line whose label is on one line, and does not start with a blank. -/
def OutlineLine.Plain (line : OutlineLine) : Prop :=
  line.label.toList.head? ≠ some ' ' ∧ '\n' ∉ line.label.toList

def Heading.OneLined : Heading → Prop
  | text _ => True
  | output path => path.OneLined
  | branch condition => condition.OneLined
  | loop name items => '\n' ∉ name.toList ∧ items.OneLined

theorem Heading.OneLined.plain {heading : Heading} (h : heading.OneLined) (level : Nat) :
    OutlineLine.Plain ⟨level, heading.label⟩ := by
  cases heading with
  | text content => simp [OutlineLine.Plain, label, Text.newline_not_mem_quoted]
  | output path => simp [OutlineLine.Plain, label, newline_not_mem_display h]
  | branch condition => simp [OutlineLine.Plain, label, newline_not_mem_display h]
  | loop name items => simp [OutlineLine.Plain, label, h.1, newline_not_mem_display h.2]

section
variable {line line' : OutlineLine}

theorem display_empty_toList (line : OutlineLine) : (line.display "").toList =
    List.replicate (2 * line.level) ' ' ++ line.label.toList ++ ['\n'] := by
  simp [OutlineLine.display]

theorem indented_inj {n m : Nat} {chars chars' : List Char} (hchars : chars.head? ≠ some ' ')
    (hchars' : chars'.head? ≠ some ' ')
    (h : List.replicate n ' ' ++ chars = List.replicate m ' ' ++ chars') :
    n = m ∧ chars = chars' := by
  induction n generalizing m with
  | zero =>
    cases m with
    | zero => exact ⟨rfl, h⟩
    | succ m => exact absurd (congrArg List.head? h) hchars
  | succ n ih =>
    cases m with
    | zero => exact absurd (congrArg List.head? h.symm) hchars'
    | succ m =>
      obtain ⟨hcount, hrest⟩ := ih (List.cons.inj h).2
      exact ⟨congrArg Nat.succ hcount, hrest⟩

theorem display_append_inj (hline : line.Plain) (hline' : line'.Plain) {rest rest' : List Char}
    (h : (line.display "").toList ++ rest = (line'.display "").toList ++ rest') :
    line = line' ∧ rest = rest' := by
  have hmark {line : OutlineLine} (hline : line.Plain) :
      '\n' ∉ List.replicate (2 * line.level) ' ' ++ line.label.toList := by
    simp [hline.2]
  rw [display_empty_toList, display_empty_toList, List.append_assoc _ _ rest,
    List.append_assoc _ _ rest'] at h
  obtain ⟨hshown, hrest⟩ := Text.append_mark_inj (hmark hline) (hmark hline') h
  obtain ⟨hlevel, hlabel⟩ := indented_inj hline.1 hline'.1 hshown
  have hlevel := Nat.eq_of_mul_eq_mul_left (by decide) hlevel
  rw [String.toList_inj] at hlabel
  cases line
  cases line'
  exact ⟨congrArg₂ OutlineLine.mk hlevel hlabel, hrest⟩

theorem lines_inj {lines lines' : List OutlineLine} (hlines : ∀ line ∈ lines, line.Plain)
    (hlines' : ∀ line ∈ lines', line.Plain)
    (h : String.join (lines.map (·.display "")) = String.join (lines'.map (·.display ""))) :
    lines = lines' := by
  rw [← String.toList_inj, String.toList_join, String.toList_join, List.flatMap_map,
    List.flatMap_map] at h
  refine Text.flatMap_inj ?_ ?_ h
  · intro line
    simp [display_empty_toList]
  · intro line hline line' hline' rest rest'
    exact display_append_inj (hlines line hline) (hlines' line' hline')

end

def Node.heading : Node → Heading
  | .text content => .text content
  | .output path => .output path
  | .branch condition _ _ => .branch condition
  | .loop name items _ => .loop name items

def elseLines (level : Nat) : Option (List Node) → List OutlineLine
  | none => []
  | some no => ⟨level + 1, "Else"⟩ :: ⟨level + 2, "Template"⟩ :: nodeLines (level + 3) no

def Node.innerLines (level : Nat) : Node → List OutlineLine
  | .text _ | .output _ => []
  | .branch _ yes no =>
    ⟨level + 1, "Then"⟩ :: ⟨level + 2, "Template"⟩ ::
      (nodeLines (level + 3) yes ++ elseLines level no)
  | .loop _ _ body => ⟨level + 1, "Template"⟩ :: nodeLines (level + 2) body

theorem outlineLines_eq (level : Nat) (node : Node) :
    node.outlineLines level = ⟨level, node.heading.label⟩ :: node.innerLines level := by
  rcases node with _ | _ | ⟨_, _, _ | _⟩ | _
  · rfl
  · rfl
  · rw [Node.outlineLines, Node.innerLines, elseLines, List.append_nil]
    rfl
  · rfl
  · rfl

theorem heading_wellFormed {node : Node} (h : node.WellFormed) : node.heading.WellFormed := by
  rcases node with _ | _ | ⟨_, _, _ | _⟩ | _
  · trivial
  · exact h
  · exact h.1
  · exact h.1
  · exact ⟨h.1, h.2.1⟩

theorem heading_oneLined {node : Node} (h : node.OneLined) : node.heading.OneLined := by
  rcases node with _ | _ | ⟨_, _, _ | _⟩ | _
  · trivial
  · exact h
  · exact h.1
  · exact h.1
  · exact ⟨h.1, h.2.1⟩

def Below (level : Nat) (rest : List OutlineLine) : Prop :=
  ∀ line ∈ rest.head?, line.level < level

/-- Whether no other nodes have the lines of these, whatever stands behind them. -/
def LinesDetermine (nodes : List Node) : Prop :=
  ∀ nodes' level inside inside' rest rest', nodesWellFormed inside nodes →
    nodesWellFormed inside' nodes' → Below level rest → Below level rest' →
    nodeLines level nodes ++ rest = nodeLines level nodes' ++ rest' → nodes = nodes' ∧ rest = rest'

def InnerLinesDetermine (node : Node) : Prop :=
  ∀ node' level rest rest', node.WellFormed → node'.WellFormed → Below (level + 1) rest →
    Below (level + 1) rest' → node.heading = node'.heading →
    node.innerLines level ++ rest = node'.innerLines level ++ rest' → node = node' ∧ rest = rest'

section
variable {level : Nat} {nodes : List Node} {rest : List OutlineLine}

theorem not_below_cons {label : String} : ¬ Below level (⟨level, label⟩ :: rest) :=
  fun h => Nat.lt_irrefl level (h _ rfl)

theorem Below.mono {level' : Nat} (h : Below level rest) (hlevel : level ≤ level') :
    Below level' rest :=
  fun line hline => Nat.lt_of_lt_of_le (h line hline) hlevel

theorem below_nodeLines (nodes : List Node) (hrest : Below level rest) :
    Below (level + 1) (nodeLines level nodes ++ rest) := by
  cases nodes with
  | nil => exact hrest.mono (Nat.le_succ level)
  | cons node nodes =>
    rw [nodeLines, outlineLines_eq]
    rintro _ ⟨⟩
    exact Nat.lt_succ_self level

theorem below_elseLines (no : Option (List Node)) (hrest : Below (level + 1) rest) :
    Below (level + 3) (elseLines level no ++ rest) := by
  cases no with
  | none => exact hrest.mono (by omega)
  | some no =>
    rintro _ ⟨⟩
    exact Nat.lt_succ_of_lt (Nat.lt_succ_self _)

end

theorem LinesDetermine.nil : LinesDetermine [] := by
  intro nodes' level inside inside' rest rest' _ _ hrest _ h
  cases nodes' with
  | nil => exact ⟨rfl, h⟩
  | cons node' nodes' =>
    rw [nodeLines, nodeLines, outlineLines_eq, List.nil_append] at h
    exact absurd (h ▸ hrest) not_below_cons

theorem LinesDetermine.cons {node : Node} {nodes : List Node} (hnode : InnerLinesDetermine node)
    (hnodes : LinesDetermine nodes) : LinesDetermine (node :: nodes) := by
  intro nodes' level inside inside' rest rest' hwell hwell' hrest hrest' h
  cases nodes' with
  | nil =>
    rw [nodeLines, nodeLines, outlineLines_eq, List.nil_append] at h
    exact absurd (h ▸ hrest') not_below_cons
  | cons node' nodes' =>
    obtain ⟨hhead, _, htail⟩ := hwell
    obtain ⟨hhead', _, htail'⟩ := hwell'
    rw [nodeLines, nodeLines, outlineLines_eq, outlineLines_eq, List.append_assoc,
      List.append_assoc] at h
    obtain ⟨hline, hlines⟩ := List.cons.inj h
    have hheading := Heading.label_inj (heading_wellFormed hhead) (heading_wellFormed hhead')
      (congrArg OutlineLine.label hline)
    -- what stands behind the node is less deep than what is inside of it
    obtain ⟨rfl, hbehind⟩ := hnode node' level _ _ hhead hhead' (below_nodeLines nodes hrest)
      (below_nodeLines nodes' hrest') hheading hlines
    obtain ⟨rfl, hrest⟩ :=
      hnodes nodes' level inside inside' rest rest' htail htail' hrest hrest' hbehind
    exact ⟨rfl, hrest⟩

theorem text_determined (content : String) : InnerLinesDetermine (.text content) := by
  intro node' level rest rest' _ _ _ _ hheading h
  cases node' with
  | text content' =>
    cases hheading
    exact ⟨rfl, h⟩
  | _ => cases hheading

theorem output_determined (path : Path) : InnerLinesDetermine (.output path) := by
  intro node' level rest rest' _ _ _ _ hheading h
  cases node' with
  | output path' =>
    cases hheading
    exact ⟨rfl, h⟩
  | _ => cases hheading

theorem branch_wellFormed {condition : Path} {yes : List Node} {no : Option (List Node)}
    (h : (Node.branch condition yes no).WellFormed) :
    nodesWellFormed true yes ∧ ∀ nodes ∈ no, nodesWellFormed true nodes := by
  cases no with
  | none => exact ⟨h.2, nofun⟩
  | some no =>
    refine ⟨h.2.1, ?_⟩
    rintro _ ⟨⟩
    exact h.2.2

section
variable {no : Option (List Node)}

theorem elseLines_determine (hno : ∀ nodes ∈ no, LinesDetermine nodes) {no' : Option (List Node)}
    {level : Nat} {rest rest' : List OutlineLine} (hwell : ∀ nodes ∈ no, nodesWellFormed true nodes)
    (hwell' : ∀ nodes ∈ no', nodesWellFormed true nodes) (hrest : Below (level + 1) rest)
    (hrest' : Below (level + 1) rest')
    (h : elseLines level no ++ rest = elseLines level no' ++ rest') : no = no' ∧ rest = rest' := by
  -- a line behind the first branch tells whether there is a second one
  cases no with
  | none =>
    cases no' with
    | none => exact ⟨rfl, h⟩
    | some nodes' =>
      rw [elseLines, List.nil_append] at h
      exact absurd (h ▸ hrest) not_below_cons
  | some nodes =>
    cases no' with
    | none =>
      rw [elseLines, elseLines, List.nil_append] at h
      exact absurd (h ▸ hrest') not_below_cons
    | some nodes' =>
      have hlines := (List.cons.inj (List.cons.inj h).2).2
      obtain ⟨rfl, hrest⟩ := hno nodes rfl nodes' (level + 3) true true rest rest'
        (hwell nodes rfl) (hwell' nodes' rfl) (hrest.mono (by omega)) (hrest'.mono (by omega))
        hlines
      exact ⟨rfl, hrest⟩

theorem branch_determined (condition : Path) {yes : List Node} (hyes : LinesDetermine yes)
    (hno : ∀ nodes ∈ no, LinesDetermine nodes) :
    InnerLinesDetermine (.branch condition yes no) := by
  intro node' level rest rest' hwell hwell' hrest hrest' hheading h
  cases node' with
  | branch condition' yes' no' =>
    cases hheading
    obtain ⟨hwellYes, hwellNo⟩ := branch_wellFormed hwell
    obtain ⟨hwellYes', hwellNo'⟩ := branch_wellFormed hwell'
    rw [Node.innerLines, Node.innerLines, List.cons_append, List.cons_append, List.cons_append,
      List.cons_append, List.append_assoc, List.append_assoc] at h
    have hlines := (List.cons.inj (List.cons.inj h).2).2
    obtain ⟨rfl, hbehind⟩ := hyes yes' (level + 3) true true _ _ hwellYes hwellYes'
      (below_elseLines no hrest) (below_elseLines no' hrest') hlines
    obtain ⟨rfl, hrest⟩ := elseLines_determine hno hwellNo hwellNo' hrest hrest' hbehind
    exact ⟨rfl, hrest⟩
  | _ => cases hheading

end

theorem loop_determined (name : String) (items : Path) {body : List Node}
    (hbody : LinesDetermine body) : InnerLinesDetermine (.loop name items body) := by
  intro node' level rest rest' hwell hwell' hrest hrest' hheading h
  cases node' with
  | loop name' items' body' =>
    cases hheading
    obtain ⟨rfl, hrest⟩ := hbody body' (level + 2) true true rest rest' hwell.2.2 hwell'.2.2
      (hrest.mono (by omega)) (hrest'.mono (by omega)) (List.cons.inj h).2
    exact ⟨rfl, hrest⟩
  | _ => cases hheading

theorem lines_determine (nodes : List Node) : LinesDetermine nodes := by
  induction nodes using nodes_induction with
  | nil => exact .nil
  | text content nodes ih => exact .cons (text_determined content) ih
  | output path nodes ih => exact .cons (output_determined path) ih
  | branch condition yes nodes ihyes ih => exact .cons (branch_determined condition ihyes nofun) ih
  | branchElse condition yes no nodes ihyes ihno ih =>
    refine .cons (branch_determined condition ihyes ?_) ih
    rintro _ ⟨⟩
    exact ihno
  | loop name items body nodes ihbody ih => exact .cons (loop_determined name items ihbody) ih

theorem plain_mark (level : Nat) :
    ∀ label ∈ ["Then", "Else", "Template"], OutlineLine.Plain ⟨level, label⟩ := by
  simp [OutlineLine.Plain]

def LinesPlain (nodes : List Node) : Prop :=
  ∀ level, nodesOneLined nodes → ∀ line ∈ nodeLines level nodes, line.Plain

theorem LinesPlain.cons {node : Node} {nodes : List Node}
    (hnode : ∀ level, node.OneLined → ∀ line ∈ node.innerLines level, line.Plain)
    (hnodes : LinesPlain nodes) : LinesPlain (node :: nodes) := by
  intro level ⟨hhead, htail⟩
  rw [nodeLines, outlineLines_eq, List.cons_append, List.forall_mem_cons, List.forall_mem_append]
  exact ⟨(heading_oneLined hhead).plain level, hnode level hhead, hnodes level htail⟩

theorem lines_plain (nodes : List Node) : LinesPlain nodes := by
  induction nodes using nodes_induction with
  | nil => exact fun _ _ => List.forall_mem_nil _
  | text content nodes ih => exact .cons (fun _ _ => List.forall_mem_nil _) ih
  | output path nodes ih => exact .cons (fun _ _ => List.forall_mem_nil _) ih
  | branch condition yes nodes ihyes ih =>
    refine .cons (fun level h => ?_) ih
    simp only [Node.innerLines, elseLines, List.append_nil, List.forall_mem_cons]
    exact ⟨plain_mark _ _ (by decide), plain_mark _ _ (by decide), ihyes _ h.2⟩
  | branchElse condition yes no nodes ihyes ihno ih =>
    refine .cons (fun level h => ?_) ih
    simp only [Node.innerLines, elseLines, List.forall_mem_cons, List.forall_mem_append]
    exact ⟨plain_mark _ _ (by decide), plain_mark _ _ (by decide), ihyes _ h.2.1,
      plain_mark _ _ (by decide), plain_mark _ _ (by decide), ihno _ h.2.2⟩
  | loop name items body nodes ihbody ih =>
    refine .cons (fun level h => ?_) ih
    simp only [Node.innerLines, List.forall_mem_cons]
    exact ⟨plain_mark _ _ (by decide), ihbody _ h.2.2⟩

/-- The lines of a template are plain if its names do not reach beyond theirs. -/
theorem outlineLines_plain {template : Template} (h : template.OneLined) :
    ∀ line ∈ template.outlineLines 0, line.Plain :=
  List.forall_mem_cons.mpr ⟨plain_mark 0 _ (by decide), lines_plain template 1 h⟩

/-- Well-formed templates are told apart by their outlines. -/
theorem Template.outline_inj {template template' : Template} (hwell : template.WellFormed)
    (hwell' : template'.WellFormed) (h : template.outline "" = template'.outline "") :
    template = template' := by
  have hplain {template : Template} (hwell : template.WellFormed) :
      ∀ line ∈ template.outlineLines 0, line.Plain :=
    outlineLines_plain (oneLined_of_wellFormed template false hwell)
  have hlines := (List.cons.inj (lines_inj (hplain hwell) (hplain hwell') h)).2
  rw [← List.append_nil (nodeLines 1 template), ← List.append_nil (nodeLines 1 template')] at hlines
  exact (lines_determine template template' _ false false [] [] hwell hwell' nofun nofun hlines).1

end Stencil
