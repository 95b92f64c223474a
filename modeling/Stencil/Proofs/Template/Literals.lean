import Stencil.Token.Scanner
import Stencil.Proofs.Template.Spelling

/-! The text nodes of a template and its tags, as its tokens show them. In a spelling
text and tags take turns, so no text token stands inside a tag. -/

namespace Stencil

mutual

def Node.texts : Node → List String
  | .text content => [content]
  | .output _ => []
  | .branch _ yes none => nodesTexts yes
  | .branch _ yes (some no) => nodesTexts yes ++ nodesTexts no
  | .loop _ _ body => nodesTexts body

def nodesTexts : List Node → List String
  | [] => []
  | node :: nodes => node.texts ++ nodesTexts nodes

end

/-- What the text nodes hold, in the order in which they stand in the source. -/
def Template.texts (template : Template) : List String :=
  nodesTexts template

mutual

def Node.tagCount : Node → Nat
  | .text _ => 0
  | .output _ => 1
  | .branch _ yes none => nodesTagCount yes + 2
  | .branch _ yes (some no) => nodesTagCount yes + nodesTagCount no + 3
  | .loop _ _ body => nodesTagCount body + 2

def nodesTagCount : List Node → Nat
  | [] => 0
  | node :: nodes => node.tagCount + nodesTagCount nodes

end

/-- How many tags a template has. A directive has one for each of its keywords. -/
def Template.tagCount (template : Template) : Nat :=
  nodesTagCount template

def Token.text? (token : Token) : Option String :=
  if token.kind = .text then some token.lexeme else none

def Token.opens (token : Token) : Bool :=
  token.kind = .openTag

def Token.Inner (token : Token) : Prop :=
  token.kind ∉ [Kind.text, .openTag, .closeTag]

theorem Token.inner_identifier (name : String) : (identifier name).Inner := by
  simp [Inner, identifier]

theorem Token.inner_keyword (word : String) : (keyword word).Inner := by
  simp [Inner, keyword]

theorem Token.inner_dot : dot.Inner := by
  simp [Inner, dot]

theorem Token.inner_colon : colon.Inner := by
  simp [Inner, colon]

/-- Text and tags take turns, from a place between tags or inside of one up to a place
between tags. -/
def TakeTurns : Mode → List Token → Prop
  | .text, [] => True
  | .tag, [] => False
  | .text, token :: tokens =>
    match token.kind with
    | .text => TakeTurns .text tokens
    | .openTag => TakeTurns .tag tokens
    | _ => False
  | .tag, token :: tokens =>
    match token.kind with
    | .closeTag => TakeTurns .text tokens
    | .text | .openTag => False
    | _ => TakeTurns .tag tokens

theorem takeTurns_inner {content : List Token} (inner : ∀ token ∈ content, token.Inner)
    (rest : List Token) : TakeTurns .tag (content ++ rest) ↔ TakeTurns .tag rest := by
  induction content with
  | nil => exact Iff.rfl
  | cons token content ih =>
    have htoken := inner token List.mem_cons_self
    rw [List.cons_append, ← ih fun token h => inner token (List.mem_cons_of_mem _ h), TakeTurns]
    obtain ⟨kind, lexeme⟩ := token
    cases kind <;> first | exact Iff.rfl | simp [Token.Inner] at htoken

theorem text?_of_inner {token : Token} (inner : token.Inner) : token.text? = none := by
  obtain ⟨kind, lexeme⟩ := token
  cases kind <;> first | rfl | simp [Token.Inner] at inner

theorem not_opens_of_inner {token : Token} (inner : token.Inner) : ¬ token.opens := by
  obtain ⟨kind, lexeme⟩ := token
  cases kind <;> simp_all [Token.opens, Token.Inner]

/-- Whole tokens of tags, and text between them: these texts and so many tags. -/
structure Shows (tokens : List Token) (texts : List String) (tags : Nat) : Prop where
  texts : tokens.filterMap Token.text? = texts
  tags : tokens.countP Token.opens = tags
  turns : ∀ rest, TakeTurns .text (tokens ++ rest) ↔ TakeTurns .text rest

namespace Shows

theorem nil : Shows [] [] 0 :=
  ⟨rfl, rfl, fun _ => Iff.rfl⟩

theorem text (content : String) : Shows [.text content] [content] 0 :=
  ⟨rfl, rfl, fun _ => Iff.rfl⟩

theorem append {before after : List Token} {texts texts' : List String} {tags tags' : Nat}
    (h : Shows before texts tags) (h' : Shows after texts' tags') :
    Shows (before ++ after) (texts ++ texts') (tags + tags') where
  texts := by rw [List.filterMap_append, h.texts, h'.texts]
  tags := by rw [List.countP_append, h.tags, h'.tags]
  turns rest := by rw [List.append_assoc, h.turns, h'.turns]

theorem tag {content : List Token} (inner : ∀ token ∈ content, token.Inner) :
    Shows (Stencil.tag content) [] 1 where
  texts := by
    have hcontent : content.filterMap Token.text? = [] :=
      List.filterMap_eq_nil_iff.mpr fun token h => text?_of_inner (inner token h)
    rw [Stencil.tag, List.filterMap_append, List.filterMap_cons_none rfl, hcontent]
    rfl
  tags := by
    have hcontent : content.countP Token.opens = 0 :=
      List.countP_eq_zero.mpr fun token h => not_opens_of_inner (inner token h)
    rw [Stencil.tag, List.countP_append, List.countP_cons_of_pos rfl, hcontent]
    rfl
  turns rest := by
    rw [Stencil.tag, List.cons_append, List.cons_append, List.append_assoc]
    exact takeTurns_inner inner _

theorem of_eq {tokens : List Token} {texts texts' : List String} {tags tags' : Nat}
    (h : Shows tokens texts tags) (htexts : texts = texts') (htags : tags = tags') :
    Shows tokens texts' tags' :=
  htexts ▸ htags ▸ h

end Shows

theorem Path.spelling_inner (path : Path) : ∀ token ∈ path.spelling, token.Inner := by
  intro token h
  rcases List.mem_cons.mp h with rfl | h
  · exact Token.inner_identifier path.head
  · obtain ⟨part, _, hpart⟩ := List.mem_flatMap.mp h
    rcases List.mem_cons.mp hpart with rfl | hpart
    · exact Token.inner_dot
    · obtain rfl := List.mem_singleton.mp hpart
      exact Token.inner_identifier part

theorem keyword_inner (word : String) {content : List Token}
    (inner : ∀ token ∈ content, token.Inner) :
    ∀ token ∈ Token.keyword word :: content, token.Inner := by
  intro token h
  rcases List.mem_cons.mp h with rfl | h
  · exact Token.inner_keyword word
  · exact inner token h

theorem foreach_inner (name : String) (items : Path) :
    ∀ token ∈ Token.identifier name :: .colon :: items.spelling, token.Inner := by
  intro token h
  rcases List.mem_cons.mp h with rfl | h
  · exact Token.inner_identifier name
  · rcases List.mem_cons.mp h with rfl | h
    · exact Token.inner_colon
    · exact items.spelling_inner token h

theorem keyword_tag_shows (word : String) : Shows (tag [.keyword word]) [] 1 :=
  .tag (keyword_inner word nofun)

/-- The tokens of nodes show their texts and tags. -/
theorem nodes_show (nodes : List Node) :
    Shows (nodesSpelling nodes) (nodesTexts nodes) (nodesTagCount nodes) := by
  induction nodes using nodes_induction with
  | nil => exact .nil
  | text content nodes ih =>
    have h := (Shows.text content).append ih
    exact h.of_eq rfl (by rw [nodesTagCount, Node.tagCount])
  | output path nodes ih =>
    have h := (Shows.tag path.spelling_inner).append ih
    exact h.of_eq rfl (by rw [nodesTagCount, Node.tagCount])
  | branch condition yes nodes ihyes ih =>
    have first := Shows.tag (keyword_inner "if" condition.spelling_inner)
    have h := ((first.append ihyes).append (keyword_tag_shows "endif")).append ih
    refine h.of_eq (by simp [nodesTexts, Node.texts]) ?_
    rw [nodesTagCount, Node.tagCount]
    omega
  | branchElse condition yes no nodes ihyes ihno ih =>
    have first := Shows.tag (keyword_inner "if" condition.spelling_inner)
    have second := (first.append ihyes).append (keyword_tag_shows "else")
    have h := ((second.append ihno).append (keyword_tag_shows "endif")).append ih
    refine h.of_eq (by simp [nodesTexts, Node.texts]) ?_
    rw [nodesTagCount, Node.tagCount]
    omega
  | loop name items body nodes ihbody ih =>
    have first := Shows.tag (keyword_inner "foreach" (foreach_inner name items))
    have h := ((first.append ihbody).append (keyword_tag_shows "endforeach")).append ih
    refine h.of_eq (by simp [nodesTexts, Node.texts]) ?_
    rw [nodesTagCount, Node.tagCount]
    omega

end Stencil
