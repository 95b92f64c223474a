import Stencil.Text.Word
import Stencil.Proofs.Template.Literals
import Stencil.Proofs.Token.Segments

/-! The source in which a template is written canonically, and the templates that can be
written at all. `Readable` says the same of the tokens of a template: what each of them
may hold, and what may stand behind a text. -/

namespace Stencil

open Segments (NoDelimiter)

def tagSource (content : String) : String :=
  "\x7b\x7b " ++ content ++ " \x7d\x7d"

mutual

/-- Text as it is, and one tag for each path and keyword. -/
def Node.canonical : Node → String
  | .text content => content
  | .output path => tagSource path.display
  | .branch condition yes none =>
    tagSource ("if " ++ condition.display) ++ nodesCanonical yes ++ tagSource "endif"
  | .branch condition yes (some no) =>
    tagSource ("if " ++ condition.display) ++ nodesCanonical yes ++
      tagSource "else" ++ nodesCanonical no ++ tagSource "endif"
  | .loop name items body =>
    tagSource ("foreach " ++ name ++ " : " ++ items.display) ++
      nodesCanonical body ++ tagSource "endforeach"

def nodesCanonical : List Node → String
  | [] => ""
  | node :: nodes => node.canonical ++ nodesCanonical nodes

end

def Template.canonical (template : Template) : String :=
  nodesCanonical template

example : Template.canonical [.loop "v" ⟨"a", ["b"]⟩ [.text "-", .output ⟨"v", []⟩]] =
    "\x7b\x7b foreach v : a.b \x7d\x7d-\x7b\x7b v \x7d\x7d\x7b\x7b endforeach \x7d\x7d" := by
  decide

/-- A word that is no keyword. -/
def IsName (name : String) : Prop :=
  Text.isWord name.toList ∧ name ∉ keywords

def Path.WellFormed (path : Path) : Prop :=
  ∀ part ∈ path.parts, IsName part

theorem isWordPart_of_mem {word : List Char} (h : Text.isWord word) :
    ∀ c ∈ word, Text.isWordPart c := by
  cases word with
  | nil => cases h
  | cons c word =>
    obtain ⟨hfirst, hparts⟩ := (Bool.and_eq_true ..).mp h
    exact List.forall_mem_cons.mpr
      ⟨Text.isWordPart_of_isWordChar hfirst, List.all_eq_true.mp hparts⟩

def tailSource (tail : List String) : List Char :=
  tail.flatMap fun part => '.' :: part.toList

theorem display_toList (path : Path) :
    path.display.toList = path.head.toList ++ tailSource path.tail := by
  obtain ⟨head, tail⟩ := path
  rw [Path.display, Path.parts, String.toList_intercalate]
  induction tail generalizing head with
  | nil => simp [tailSource, List.intercalate]
  | cons part tail ih =>
    have hpart := ih part
    simp_all [tailSource, List.intercalate]

theorem mem_display {path : Path} (hpath : path.WellFormed) {c : Char}
    (hc : c ∈ path.display.toList) : Text.isWordPart c ∨ c = '.' := by
  obtain ⟨hhead, htail⟩ := List.forall_mem_cons.mp hpath
  rw [display_toList] at hc
  rcases List.mem_append.mp hc with hc | hc
  · exact Or.inl (isWordPart_of_mem hhead.1 c hc)
  · obtain ⟨part, hpart, hc⟩ := List.mem_flatMap.mp hc
    rcases List.mem_cons.mp hc with hdot | hc
    · exact Or.inr hdot
    · exact Or.inl (isWordPart_of_mem (htail part hpart).1 c hc)

def Node.isText : Node → Bool
  | .text _ => true
  | _ => false

/-- Whether these nodes may stand behind a node in its list. Behind text there is no other
text, and behind text that ends in an opening brace there is nothing at all, neither in the
list nor, if the list is inside of a directive, behind it. -/
def Node.Joins (inside : Bool) (node : Node) (nodes : List Node) : Prop :=
  match node with
  | .text content => (∀ next ∈ nodes.head?, ¬ next.isText) ∧
      (content.toList.getLast? = some '{' → inside = false ∧ nodes = [])
  | _ => True

mutual

def Node.WellFormed : Node → Prop
  | .text content => content ≠ "" ∧ NoDelimiter content.toList
  | .output path => path.WellFormed
  | .branch condition yes none => condition.WellFormed ∧ nodesWellFormed true yes
  | .branch condition yes (some no) =>
    condition.WellFormed ∧ nodesWellFormed true yes ∧ nodesWellFormed true no
  | .loop name items body => IsName name ∧ items.WellFormed ∧ nodesWellFormed true body

def nodesWellFormed (inside : Bool) : List Node → Prop
  | [] => True
  | node :: nodes => node.WellFormed ∧ node.Joins inside nodes ∧ nodesWellFormed inside nodes

end

/-- A template that some source may stand for. -/
def Template.WellFormed (template : Template) : Prop :=
  nodesWellFormed false template

def Token.WellFormed (token : Token) : Prop :=
  match token.kind with
  | .text => token.lexeme ≠ "" ∧ NoDelimiter token.lexeme.toList
  | .identifier => IsName token.lexeme
  | _ => True

/-- Whether these tokens may stand behind a token. -/
def Token.Joins (token : Token) (tokens : List Token) : Prop :=
  token.kind = .text → ∀ next ∈ tokens.head?,
    next.kind ≠ .text ∧ token.lexeme.toList.getLast? ≠ some '{'

def Readable : List Token → Prop
  | [] => True
  | token :: tokens => token.WellFormed ∧ token.Joins tokens ∧ Readable tokens

theorem joins_of_inner {token : Token} (inner : token.Inner) (tokens : List Token) :
    token.Joins tokens := by
  intro hkind
  simp [Token.Inner, hkind] at inner

theorem readable_inner {content : List Token} (inner : ∀ token ∈ content, token.Inner)
    (rest : List Token) :
    Readable (content ++ rest) ↔ (∀ token ∈ content, token.WellFormed) ∧ Readable rest := by
  induction content with
  | nil => simp
  | cons token content ih =>
    have hjoins := joins_of_inner (inner token List.mem_cons_self) (content ++ rest)
    rw [List.cons_append, Readable, ih fun token h => inner token (List.mem_cons_of_mem _ h),
      List.forall_mem_cons, and_assoc]
    exact and_congr_right fun _ => and_iff_right hjoins

theorem readable_brace {token : Token} (brace : token.kind ∈ [Kind.openTag, .closeTag])
    (tokens : List Token) : Readable (token :: tokens) ↔ Readable tokens := by
  obtain ⟨kind, lexeme⟩ := token
  cases kind <;> simp_all [Readable, Token.WellFormed, Token.Joins]

theorem readable_tag {content : List Token} (inner : ∀ token ∈ content, token.Inner)
    (rest : List Token) :
    Readable (tag content ++ rest) ↔ (∀ token ∈ content, token.WellFormed) ∧ Readable rest := by
  rw [tag, List.cons_append, List.cons_append, List.append_assoc, readable_brace (by decide),
    readable_inner inner, List.singleton_append, readable_brace (by decide)]

theorem path_wellFormed_iff (path : Path) :
    (∀ token ∈ path.spelling, token.WellFormed) ↔ path.WellFormed := by
  have hpart (part : String) :
      (∀ token ∈ [Token.dot, .identifier part], token.WellFormed) ↔ IsName part := by
    rw [List.forall_mem_cons, List.forall_mem_singleton]
    exact and_iff_right trivial
  rw [Path.spelling, Path.WellFormed, Path.parts, List.forall_mem_cons, List.forall_mem_cons,
    List.forall_mem_flatMap]
  simp only [hpart]
  rfl

theorem readable_keyword_tag {word : String} {rest : List Token}
    (h : Readable (tag [.keyword word] ++ rest)) : Readable rest :=
  ((readable_tag (keyword_inner word (List.forall_mem_nil _)) rest).mp h).2

theorem readable_if_tag {condition : Path} {rest : List Token}
    (h : Readable (tag (.keyword "if" :: condition.spelling) ++ rest)) :
    condition.WellFormed ∧ Readable rest := by
  obtain ⟨hcontent, hrest⟩ :=
    (readable_tag (keyword_inner "if" condition.spelling_inner) rest).mp h
  rw [List.forall_mem_cons, path_wellFormed_iff] at hcontent
  exact ⟨hcontent.2, hrest⟩

theorem readable_foreach_tag {name : String} {items : Path} {rest : List Token}
    (h : Readable
      (tag (.keyword "foreach" :: .identifier name :: .colon :: items.spelling) ++ rest)) :
    IsName name ∧ items.WellFormed ∧ Readable rest := by
  obtain ⟨hcontent, hrest⟩ :=
    (readable_tag (keyword_inner "foreach" (foreach_inner name items)) rest).mp h
  rw [List.forall_mem_cons, List.forall_mem_cons, List.forall_mem_cons,
    path_wellFormed_iff] at hcontent
  exact ⟨hcontent.2.1, hcontent.2.2.2, hrest⟩

theorem spelling_ne_nil (node : Node) : node.spelling ≠ [] := by
  rcases node with _ | _ | ⟨_, _, _ | _⟩ | _ <;> simp [Node.spelling, tag]

/-- A text token joins what is behind it only if its node does. -/
theorem joins_of_readable {inside : Bool} {content : String} {nodes : List Node}
    {rest : List Token} (hinside : inside = true → rest ≠ [])
    (h : (Token.text content).Joins (nodesSpelling nodes ++ rest)) :
    (Node.text content).Joins inside nodes := by
  have hnext := h rfl
  cases nodes with
  | nil =>
    refine ⟨nofun, fun hlast => ⟨?_, rfl⟩⟩
    cases inside with
    | false => rfl
    | true =>
      obtain ⟨token, tokens, rfl⟩ := List.exists_cons_of_ne_nil (hinside rfl)
      exact absurd hlast (hnext token rfl).2
  | cons node nodes =>
    obtain ⟨token, tokens, hspelling⟩ := List.exists_cons_of_ne_nil (spelling_ne_nil node)
    have hnode := hnext token (by rw [nodesSpelling, hspelling]; rfl)
    refine ⟨?_, fun hlast => absurd hlast hnode.2⟩
    rintro _ ⟨⟩ htext
    cases node with
    | text other => cases hspelling; exact hnode.1 rfl
    | _ => cases htext

/-- The nodes are well-formed where their tokens are readable. Inside of a directive other
tokens stand behind them. -/
def WellFormedIfReadable (nodes : List Node) : Prop :=
  ∀ inside rest, (inside = true → rest ≠ []) → Readable (nodesSpelling nodes ++ rest) →
    nodesWellFormed inside nodes ∧ Readable rest

theorem WellFormedIfReadable.body {nodes : List Node} {word : String} {rest : List Token}
    (hnodes : WellFormedIfReadable nodes)
    (h : Readable (nodesSpelling nodes ++ (tag [.keyword word] ++ rest))) :
    nodesWellFormed true nodes ∧ Readable rest := by
  obtain ⟨hbody, hrest⟩ := hnodes true _ (fun _ => List.cons_ne_nil _ _) h
  exact ⟨hbody, readable_keyword_tag hrest⟩

theorem wellFormed_of_readable (nodes : List Node) : WellFormedIfReadable nodes := by
  induction nodes using nodes_induction with
  | nil => intro inside rest _ h; exact ⟨trivial, h⟩
  | text content nodes ih =>
    intro inside rest hinside h
    obtain ⟨htoken, hjoins, hnodes⟩ := h
    obtain ⟨hnodes, hrest⟩ := ih inside rest hinside hnodes
    exact ⟨⟨htoken, joins_of_readable hinside hjoins, hnodes⟩, hrest⟩
  | output path nodes ih =>
    intro inside rest hinside h
    rw [nodesSpelling, Node.spelling, List.append_assoc, readable_tag path.spelling_inner,
      path_wellFormed_iff] at h
    obtain ⟨hnodes, hrest⟩ := ih inside rest hinside h.2
    exact ⟨⟨h.1, trivial, hnodes⟩, hrest⟩
  | branch condition yes nodes ihyes ih =>
    intro inside rest hinside h
    simp only [nodesSpelling, Node.spelling, List.append_assoc] at h
    obtain ⟨hcondition, h⟩ := readable_if_tag h
    obtain ⟨hyes, h⟩ := ihyes.body h
    obtain ⟨hnodes, hrest⟩ := ih inside rest hinside h
    exact ⟨⟨⟨hcondition, hyes⟩, trivial, hnodes⟩, hrest⟩
  | branchElse condition yes no nodes ihyes ihno ih =>
    intro inside rest hinside h
    simp only [nodesSpelling, Node.spelling, List.append_assoc] at h
    obtain ⟨hcondition, h⟩ := readable_if_tag h
    obtain ⟨hyes, h⟩ := ihyes.body h
    obtain ⟨hno, h⟩ := ihno.body h
    obtain ⟨hnodes, hrest⟩ := ih inside rest hinside h
    exact ⟨⟨⟨hcondition, hyes, hno⟩, trivial, hnodes⟩, hrest⟩
  | loop name items body nodes ihbody ih =>
    intro inside rest hinside h
    simp only [nodesSpelling, Node.spelling, List.append_assoc] at h
    obtain ⟨hname, hitems, h⟩ := readable_foreach_tag h
    obtain ⟨hbody, h⟩ := ihbody.body h
    obtain ⟨hnodes, hrest⟩ := ih inside rest hinside h
    exact ⟨⟨⟨hname, hitems, hbody⟩, trivial, hnodes⟩, hrest⟩

end Stencil
