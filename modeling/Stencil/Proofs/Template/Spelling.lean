import Stencil.Template

/-! The tokens that spell a template. Braces, dots and colons have no lexeme of
their own: the grammar never looks at it, so tokens are compared in the form
that `normal` gives them. -/

namespace Stencil

/-- The token, with its usual lexeme if it is a brace, a dot or a colon. -/
def Token.normal (token : Token) : Token :=
  match token.kind with
  | .openTag => .openTag
  | .closeTag => .closeTag
  | .dot => .dot
  | .colon => .colon
  | _ => token

namespace Token

@[simp] theorem normal_text (content : String) : (text content).normal = text content := rfl

@[simp] theorem normal_identifier (name : String) :
    (identifier name).normal = identifier name := rfl

@[simp] theorem normal_keyword (word : String) : (keyword word).normal = keyword word := rfl

theorem normal_openTag {token : Token} (h : token.kind = .openTag) : token.normal = openTag := by
  rw [normal, h]

theorem normal_closeTag {token : Token} (h : token.kind = .closeTag) :
    token.normal = closeTag := by
  rw [normal, h]

theorem normal_dot {token : Token} (h : token.kind = .dot) : token.normal = dot := by
  rw [normal, h]

theorem normal_colon {token : Token} (h : token.kind = .colon) : token.normal = colon := by
  rw [normal, h]

theorem normal_kind (token : Token) : token.normal.kind = token.kind := by
  obtain ⟨kind, lexeme⟩ := token
  cases kind <;> rfl

theorem normal_of_not_mark {token : Token}
    (h : token.kind ∉ [Kind.openTag, .closeTag, .dot, .colon]) : token.normal = token := by
  obtain ⟨kind, lexeme⟩ := token
  cases kind <;> first | rfl | simp at h

end Token

def Path.spelling (path : Path) : List Token :=
  .identifier path.head :: path.tail.flatMap fun part => [.dot, .identifier part]

theorem Path.spelling_extend (path : Path) (part : String) :
    (path.extend part).spelling = path.spelling ++ [.dot, .identifier part] := by
  simp [spelling, extend]

def tag (content : List Token) : List Token :=
  .openTag :: content ++ [.closeTag]

mutual

def Node.spelling : Node → List Token
  | .text content => [.text content]
  | .output path => tag path.spelling
  | .branch condition yes none =>
    tag (.keyword "if" :: condition.spelling) ++ nodesSpelling yes ++ tag [.keyword "endif"]
  | .branch condition yes (some no) =>
    tag (.keyword "if" :: condition.spelling) ++ nodesSpelling yes ++
      tag [.keyword "else"] ++ nodesSpelling no ++ tag [.keyword "endif"]
  | .loop name items body =>
    tag (.keyword "foreach" :: .identifier name :: .colon :: items.spelling) ++
      nodesSpelling body ++ tag [.keyword "endforeach"]

def nodesSpelling : List Node → List Token
  | [] => []
  | node :: nodes => node.spelling ++ nodesSpelling nodes

end

theorem nodesSpelling_append (before after : List Node) :
    nodesSpelling (before ++ after) = nodesSpelling before ++ nodesSpelling after := by
  induction before with
  | nil => rfl
  | cons node nodes ih => rw [List.cons_append, nodesSpelling, nodesSpelling, ih, List.append_assoc]

def Template.spelling (template : Template) : List Token :=
  nodesSpelling template

mutual

def Node.nesting : Node → Nat
  | .text _ | .output _ => 0
  | .branch _ yes none => nodesNesting yes + 1
  | .branch _ yes (some no) => max (nodesNesting yes) (nodesNesting no) + 1
  | .loop _ _ body => nodesNesting body + 1

def nodesNesting : List Node → Nat
  | [] => 0
  | node :: nodes => max node.nesting (nodesNesting nodes)

end

/-- How many levels of directives a template has. -/
def Template.nesting (template : Template) : Nat :=
  nodesNesting template

/-- Induction on the nodes of a list, and on those inside of them. -/
theorem nodes_induction {motive : List Node → Prop}
    (nil : motive [])
    (text : ∀ content nodes, motive nodes → motive (.text content :: nodes))
    (output : ∀ path nodes, motive nodes → motive (.output path :: nodes))
    (branch : ∀ condition yes nodes, motive yes → motive nodes →
      motive (.branch condition yes none :: nodes))
    (branchElse : ∀ condition yes no nodes, motive yes → motive no → motive nodes →
      motive (.branch condition yes (some no) :: nodes))
    (loop : ∀ name items body nodes, motive body → motive nodes →
      motive (.loop name items body :: nodes)) :
    ∀ nodes, motive nodes := by
  intro nodes
  refine @Node.rec_1 (fun node => ∀ nodes, motive nodes → motive (node :: nodes)) motive
    (fun no => ∀ nodes, no = some nodes → motive nodes) ?_ ?_ ?_ ?_ ?_ ?_ ?_ ?_ nodes
  · exact text
  · exact output
  · intro condition yes no hyes hno nodes h
    cases no with
    | none => exact branch condition yes nodes hyes h
    | some no => exact branchElse condition yes no nodes hyes (hno no rfl) h
  · intro name items body hbody nodes h
    exact loop name items body nodes hbody h
  · exact nil
  · intro node nodes hnode h
    exact hnode nodes h
  · intro nodes h
    cases h
  · intro no hno nodes h
    cases h
    exact hno

end Stencil
