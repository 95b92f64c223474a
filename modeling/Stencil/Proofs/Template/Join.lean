import Stencil.Proofs.Render.Meaning
import Stencil.Proofs.Template.Canonical
import Stencil.Proofs.Token.Reading

/-! A template behind another one. Where text meets text, both become one node, because two
texts next to each other have no source of their own. -/

namespace Stencil

/-- The nodes of both templates. The last text of the first one and the first text of the second
one become one node if they meet. -/
def Template.join (first second : Template) : Template :=
  match first.getLast?, second with
  | some (.text content), .text more :: nodes => first.dropLast ++ .text (content ++ more) :: nodes
  | _, _ => first ++ second

def textNodes (chars : List Char) : List Node :=
  if chars = [] then [] else [.text (String.ofList chars)]

/-- The last node, if there is one, is no text. -/
def EndsWithTag (nodes : List Node) : Prop :=
  ∀ node ∈ nodes.getLast?, ¬ node.isText

def StartsWithTag (nodes : List Node) : Prop :=
  ∀ node ∈ nodes.head?, ¬ node.isText

theorem join_eq (first second : Template) :
    first.join second = first ++ second ∨
      ∃ before content more after, first = before ++ [.text content] ∧
        second = .text more :: after ∧
        first.join second = before ++ .text (content ++ more) :: after := by
  unfold Template.join
  split
  · next content more after hlast =>
    obtain ⟨before, rfl⟩ := List.getLast?_eq_some_iff.mp hlast
    refine Or.inr ⟨before, content, more, after, rfl, rfl, ?_⟩
    rw [List.dropLast_concat]
  · exact Or.inl rfl

section
variable {before after nodes : List Node}

theorem join_of_endsWithTag (h : EndsWithTag before) (second : Template) :
    Template.join before second = before ++ second := by
  unfold Template.join
  split
  · next hlast => exact absurd rfl (h _ hlast)
  · rfl

theorem join_of_startsWithTag (first : Template) (h : StartsWithTag after) :
    Template.join first after = first ++ after := by
  unfold Template.join
  split
  · exact absurd rfl (h _ rfl)
  · rfl

theorem textNodes_nil : textNodes [] = [] :=
  if_pos rfl

theorem textNodes_of_ne_nil {chars : List Char} (h : chars ≠ []) :
    textNodes chars = [.text (String.ofList chars)] :=
  if_neg h

theorem join_textNodes (hbefore : EndsWithTag before) (hafter : StartsWithTag after)
    (chars more : List Char) :
    Template.join (before ++ textNodes chars) (textNodes more ++ after) =
      before ++ textNodes (chars ++ more) ++ after := by
  by_cases hchars : chars = []
  · rw [hchars, textNodes_nil, List.append_nil, join_of_endsWithTag hbefore, List.nil_append,
      List.append_assoc]
  · by_cases hmore : more = []
    · rw [hmore, textNodes_nil, List.nil_append, join_of_startsWithTag _ hafter, List.append_nil]
    · have hboth : chars ++ more ≠ [] := by simp [hchars]
      rw [textNodes_of_ne_nil hchars, textNodes_of_ne_nil hmore, textNodes_of_ne_nil hboth]
      simp [Template.join]

/-- Between an opening brace and a closing one. -/
def Braced (tokens : List Token) : Prop :=
  ∃ middle, tokens = .openTag :: middle ++ [.closeTag]

theorem braced_tag (content : List Token) : Braced (tag content) :=
  ⟨content, rfl⟩

theorem Braced.append {first last : List Token} (h : Braced first) (middle : List Token)
    (h' : Braced last) : Braced (first ++ middle ++ last) := by
  obtain ⟨inner, rfl⟩ := h
  obtain ⟨inner', rfl⟩ := h'
  exact ⟨inner ++ [.closeTag] ++ middle ++ .openTag :: inner', by simp⟩

theorem braced_spelling {node : Node} (h : ¬ node.isText) : Braced node.spelling := by
  rcases node with _ | path | ⟨condition, yes, _ | no⟩ | ⟨name, items, body⟩
  · exact absurd rfl h
  · exact braced_tag _
  · exact (braced_tag _).append _ (braced_tag _)
  · exact ((braced_tag _).append _ (braced_tag _)).append _ (braced_tag _)
  · exact (braced_tag _).append _ (braced_tag _)

theorem isText_iff {node : Node} : node.isText ↔ ∃ content, node = .text content := by
  cases node <;> simp [Node.isText]

theorem concat_of_spelling {front : List Token} {content : String}
    (h : nodesSpelling nodes = front ++ [.text content]) :
    ∃ before, nodes = before ++ [.text content] ∧ nodesSpelling before = front := by
  rcases List.eq_nil_or_concat' nodes with rfl | ⟨before, node, rfl⟩
  · simp [nodesSpelling] at h
  · rw [nodesSpelling_append, nodesSpelling, nodesSpelling, List.append_nil] at h
    by_cases htext : node.isText
    · obtain ⟨other, rfl⟩ := isText_iff.mp htext
      obtain ⟨hfront, hlast⟩ := List.append_inj' h rfl
      cases hlast
      exact ⟨before, rfl, hfront⟩
    · obtain ⟨middle, hmiddle⟩ := braced_spelling htext
      rw [hmiddle, ← List.append_assoc] at h
      cases (List.append_inj' h rfl).2

theorem cons_of_spelling {rest : List Token} {content : String}
    (h : nodesSpelling nodes = .text content :: rest) :
    ∃ after, nodes = .text content :: after ∧ nodesSpelling after = rest := by
  cases nodes with
  | nil => cases h
  | cons node after =>
    rw [nodesSpelling] at h
    by_cases htext : node.isText
    · obtain ⟨other, rfl⟩ := isText_iff.mp htext
      cases h
      exact ⟨after, rfl, rfl⟩
    · obtain ⟨middle, hmiddle⟩ := braced_spelling htext
      rw [hmiddle] at h
      cases h

theorem endsWithTag_of_spelling (h : ∀ token ∈ (nodesSpelling nodes).getLast?, token.kind ≠ .text) :
    EndsWithTag nodes := by
  intro node hnode htext
  obtain ⟨before, rfl⟩ := List.getLast?_eq_some_iff.mp hnode
  obtain ⟨content, rfl⟩ := isText_iff.mp htext
  refine h (.text content) ?_ rfl
  rw [nodesSpelling_append]
  exact List.getLast?_concat

theorem startsWithTag_of_spelling (h : ∀ token ∈ (nodesSpelling nodes).head?, token.kind ≠ .text) :
    StartsWithTag nodes := by
  intro node hnode htext
  obtain ⟨after, rfl⟩ := List.head?_eq_some_iff.mp hnode
  obtain ⟨content, rfl⟩ := isText_iff.mp htext
  exact h (.text content) rfl rfl

/-- Nodes whose tokens end with a segment of text are other nodes with this text behind them. -/
theorem append_textNodes_of_spelling {front : List Token} {chars : List Char}
    (hfront : ∀ token ∈ front.getLast?, token.kind ≠ .text)
    (h : nodesSpelling nodes = front ++ nodesSpelling (textNodes chars)) :
    ∃ before, nodes = before ++ textNodes chars ∧ nodesSpelling before = front ∧
      EndsWithTag before := by
  have hbefore : ∃ before, nodes = before ++ textNodes chars ∧ nodesSpelling before = front := by
    by_cases hchars : chars = []
    · rw [hchars, textNodes_nil, nodesSpelling, List.append_nil] at h
      exact ⟨nodes, by rw [hchars, textNodes_nil, List.append_nil], h⟩
    · rw [textNodes_of_ne_nil hchars] at h ⊢
      exact concat_of_spelling h
  obtain ⟨before, rfl, rfl⟩ := hbefore
  exact ⟨before, rfl, rfl, endsWithTag_of_spelling hfront⟩

theorem textNodes_append_of_spelling {rest : List Token} {chars : List Char}
    (hrest : ∀ token ∈ rest.head?, token.kind ≠ .text)
    (h : nodesSpelling nodes = nodesSpelling (textNodes chars) ++ rest) :
    ∃ after, nodes = textNodes chars ++ after ∧ nodesSpelling after = rest ∧
      StartsWithTag after := by
  have hafter : ∃ after, nodes = textNodes chars ++ after ∧ nodesSpelling after = rest := by
    by_cases hchars : chars = []
    · rw [hchars, textNodes_nil] at h
      exact ⟨nodes, by rw [hchars, textNodes_nil, List.nil_append], h⟩
    · rw [textNodes_of_ne_nil hchars] at h ⊢
      exact cons_of_spelling h
  obtain ⟨after, rfl, rfl⟩ := hafter
  exact ⟨after, rfl, rfl, startsWithTag_of_spelling hrest⟩

end

section
variable (first second : Template)

theorem nodesNesting_append (before after : List Node) :
    nodesNesting (before ++ after) = max (nodesNesting before) (nodesNesting after) := by
  induction before with
  | nil => simp [nodesNesting]
  | cons node nodes ih => rw [List.cons_append, nodesNesting, nodesNesting, ih, Nat.max_assoc]

theorem nesting_textNodes (chars : List Char) : nodesNesting (textNodes chars) = 0 := by
  unfold textNodes
  split <;> rfl

theorem nesting_join : (first.join second).nesting = max first.nesting second.nesting := by
  simp only [Template.nesting]
  rcases join_eq first second with h | ⟨before, content, more, after, rfl, rfl, h⟩
  · rw [h, nodesNesting_append]
  · rw [h, nodesNesting_append, nodesNesting_append]
    simp [nodesNesting, Node.nesting]

theorem nodesMeaning_append (host : Host) (before after : List Node) (env : Environment) :
    nodesMeaning host (before ++ after) env =
      nodesMeaning host before env ++ nodesMeaning host after env := by
  induction before with
  | nil => rw [nodesMeaning, List.nil_append, String.empty_append]
  | cons node nodes ih =>
    rw [List.cons_append, nodesMeaning, nodesMeaning, ih, String.append_assoc]

theorem meaning_textNodes (host : Host) (env : Environment) (chars : List Char) :
    nodesMeaning host (textNodes chars) env = String.ofList chars := by
  unfold textNodes
  split
  · next h => rw [h]; rfl
  · exact String.append_empty

theorem meaning_join (host : Host) (env : Environment) :
    (first.join second).meaning host env = first.meaning host env ++ second.meaning host env := by
  simp only [Template.meaning]
  rcases join_eq first second with h | ⟨before, content, more, after, rfl, rfl, h⟩
  · rw [h, nodesMeaning_append]
  · rw [h, nodesMeaning_append, nodesMeaning_append]
    simp [nodesMeaning, Node.meaning, String.append_assoc]

end
end Stencil
