import Mathlib
import Stencil.Proofs.Engine.Literals
import Stencil.Proofs.Template.Canonical
import Stencil.Proofs.Template.Outline
import Stencil.Proofs.Token.Tags

/-! Which templates have a source. The canonical source of a well-formed template is read
back as the tokens that spell it, and whatever source is read as the tokens of a template,
the template is well-formed. So compiling is onto the well-formed templates, writing them
canonically undoes it, and their outlines tell them apart. -/

namespace Stencil

open Segments (NoDelimiter NoBrace)

theorem noBrace_append {first second : List Char} (hfirst : NoBrace first)
    (hsecond : NoBrace second) : NoBrace (first ++ second) := by
  intro d hd
  rcases List.mem_append.mp hd with hd | hd
  · exact hfirst d hd
  · exact hsecond d hd

theorem noBrace_of_isWord {word : List Char} (h : Text.isWord word) : NoBrace word :=
  fun d hd => Segments.not_isWordPart_brace d (isWordPart_of_mem h d.brace hd)

theorem isWord_of_mem_keywords : ∀ word ∈ keywords, Text.isWord word.toList := by
  decide

section
variable {rest : List Char}

theorem innerTokens_name {name : String} (hname : IsName name) (hrest : WordEnds rest) :
    innerTokens (name.toList ++ rest) = .identifier name :: innerTokens rest := by
  rw [innerTokens_word hname.1 hrest, String.ofList_toList, Token.ofWord, if_neg hname.2]

theorem innerTokens_keyword {word : String} (hword : word ∈ keywords) (hrest : WordEnds rest) :
    innerTokens (word.toList ++ rest) = .keyword word :: innerTokens rest := by
  rw [innerTokens_word (isWord_of_mem_keywords word hword) hrest, String.ofList_toList,
    Token.ofWord, if_pos hword]

theorem wordEnds_cons {c : Char} (h : ¬ Text.isWordPart c) (rest : List Char) :
    WordEnds (c :: rest) := by
  rintro _ ⟨⟩
  exact h

end

section
variable {rest : List Char}

theorem wordEnds_tailSource (tail : List String) (hrest : WordEnds rest) :
    WordEnds (tailSource tail ++ rest) := by
  cases tail with
  | nil => exact hrest
  | cons part tail => exact wordEnds_cons (by decide) _

theorem innerTokens_tailSource {tail : List String} (htail : ∀ part ∈ tail, IsName part)
    (hrest : WordEnds rest) :
    innerTokens (tailSource tail ++ rest) =
      (tail.flatMap fun part => [.dot, .identifier part]) ++ innerTokens rest := by
  induction tail with
  | nil => rfl
  | cons part tail ih =>
    obtain ⟨hpart, htail⟩ := List.forall_mem_cons.mp htail
    have hsource : tailSource (part :: tail) ++ rest =
        '.' :: (part.toList ++ (tailSource tail ++ rest)) := by
      simp [tailSource]
    rw [hsource, innerTokens_dot, innerTokens_name hpart (wordEnds_tailSource tail hrest), ih htail]
    rfl

theorem innerTokens_path {path : Path} (hpath : path.WellFormed) (hrest : WordEnds rest) :
    innerTokens (path.display.toList ++ rest) = path.spelling ++ innerTokens rest := by
  obtain ⟨hhead, htail⟩ := List.forall_mem_cons.mp hpath
  rw [display_toList, List.append_assoc,
    innerTokens_name hhead (wordEnds_tailSource path.tail hrest),
    innerTokens_tailSource htail hrest]
  rfl

theorem noBrace_display {path : Path} (hpath : path.WellFormed) :
    NoBrace path.display.toList := by
  intro d hd
  rcases mem_display hpath hd with hpart | hdot
  · exact Segments.not_isWordPart_brace d hpart
  · cases d <;> cases hdot

end

section
variable {content : String} (rest : List Char)

theorem tagSource_toList (content : String) : (tagSource content).toList =
    Delimiter.opening.chars ++ (' ' :: content.toList ++ [' '] ++ Delimiter.closing.chars) := by
  simp [tagSource, Delimiter.chars, Delimiter.brace]

theorem tokensIn_tagSource (h : NoBrace content.toList) :
    tokensIn .text ((tagSource content).toList ++ rest) =
      tag (innerTokens (content.toList ++ [' '])) ++ tokensIn .text rest := by
  have hblank : NoBrace [' '] := by decide
  have hcontent := noBrace_append (noBrace_append hblank h) hblank
  have htag := tokensIn_tag hcontent rest
  rw [List.singleton_append, List.cons_append, innerTokens_blank] at htag
  rw [← htag, tagSource_toList]
  simp only [List.append_assoc, List.cons_append]

theorem innerTokens_last_blank : innerTokens [' '] = [] := by
  rw [innerTokens_blank, innerTokens, pieces]
  rfl

theorem wordEnds_blank (rest : List Char) : WordEnds (' ' :: rest) :=
  wordEnds_cons (by decide) rest

theorem tokensIn_output_tag {path : Path} (hpath : path.WellFormed) :
    tokensIn .text ((tagSource path.display).toList ++ rest) =
      tag path.spelling ++ tokensIn .text rest := by
  rw [tokensIn_tagSource rest (noBrace_display hpath),
    innerTokens_path hpath (wordEnds_blank []), innerTokens_last_blank, List.append_nil]

theorem tokensIn_keyword_tag {word : String} (hword : word ∈ keywords) :
    tokensIn .text ((tagSource word).toList ++ rest) =
      tag [.keyword word] ++ tokensIn .text rest := by
  have hbrace := noBrace_of_isWord (isWord_of_mem_keywords word hword)
  rw [tokensIn_tagSource rest hbrace, innerTokens_keyword hword (wordEnds_blank []),
    innerTokens_last_blank]

theorem tokensIn_if_tag {condition : Path} (hcondition : condition.WellFormed) :
    tokensIn .text ((tagSource ("if " ++ condition.display)).toList ++ rest) =
      tag (.keyword "if" :: condition.spelling) ++ tokensIn .text rest := by
  have hsource : ("if " ++ condition.display).toList =
      "if".toList ++ ' ' :: condition.display.toList := by
    simp
  have hbrace : NoBrace ("if " ++ condition.display).toList := by
    rw [String.toList_append]
    exact noBrace_append (by decide) (noBrace_display hcondition)
  rw [tokensIn_tagSource rest hbrace, hsource, List.append_assoc, List.cons_append,
    innerTokens_keyword (by decide) (wordEnds_blank _), innerTokens_blank,
    innerTokens_path hcondition (wordEnds_blank []), innerTokens_last_blank, List.append_nil]

theorem tokensIn_foreach_tag {name : String} {items : Path} (hname : IsName name)
    (hitems : items.WellFormed) :
    tokensIn .text ((tagSource ("foreach " ++ name ++ " : " ++ items.display)).toList ++ rest) =
      tag (.keyword "foreach" :: .identifier name :: .colon :: items.spelling) ++
        tokensIn .text rest := by
  have hsource : ("foreach " ++ name ++ " : " ++ items.display).toList ++ [' '] =
      "foreach".toList ++ (' ' :: (name.toList ++
        (' ' :: ':' :: ' ' :: (items.display.toList ++ [' '])))) := by
    simp
  have hbrace : NoBrace ("foreach " ++ name ++ " : " ++ items.display).toList := by
    rw [String.toList_append, String.toList_append, String.toList_append]
    have hname := noBrace_of_isWord hname.1
    refine noBrace_append (noBrace_append (noBrace_append ?_ hname) ?_) (noBrace_display hitems)
    · decide
    · decide
  rw [tokensIn_tagSource rest hbrace, hsource,
    innerTokens_keyword (by decide) (wordEnds_blank _), innerTokens_blank,
    innerTokens_name hname (wordEnds_blank _), innerTokens_blank, innerTokens_colon,
    innerTokens_blank, innerTokens_path hitems (wordEnds_blank []), innerTokens_last_blank,
    List.append_nil]

end

/-- What stands behind a list of nodes: a tag if the list is inside of a directive, and
otherwise the end. -/
def Follows (inside : Bool) (rest : List Char) : Prop :=
  if inside then Delimiter.opening.chars <+: rest else rest = []

theorem follows_tag (content : String) (rest : List Char) :
    Follows true ((tagSource content).toList ++ rest) := by
  rw [Follows, if_pos rfl, tagSource_toList, List.append_assoc]
  exact List.prefix_append ..

theorem tokensIn_text {content : String} (hcontent : content ≠ "")
    (h : NoDelimiter content.toList) {rest : List Char}
    (hrest : rest = [] ∨
      Delimiter.opening.chars <+: rest ∧ content.toList.getLast? ≠ some '{') :
    tokensIn .text (content.toList ++ rest) = .text content :: tokensIn .text rest := by
  have hchars : content.toList ≠ [] := by
    rwa [Ne, String.toList_eq_nil_iff]
  rcases hrest with rfl | ⟨⟨rest, rfl⟩, hlast⟩
  · rw [List.append_nil, tokensIn_text_end hchars h, String.ofList_toList, tokensIn_nil]
  · rw [tokensIn_text_opening hchars h hlast, String.ofList_toList]

theorem opening_isPrefix_canonical {node : Node} (h : ¬ node.isText) :
    Delimiter.opening.chars <+: node.canonical.toList := by
  have htag (content : String) : Delimiter.opening.chars <+: (tagSource content).toList := by
    rw [tagSource_toList]
    exact List.prefix_append ..
  rcases node with _ | _ | ⟨_, _, _ | _⟩ | _
  · exact absurd rfl h
  all_goals simp only [Node.canonical, String.toList_append, List.append_assoc]
  · exact htag _
  all_goals exact (htag _).trans (List.prefix_append ..)

theorem text_or_tag_follows {inside : Bool} {content : String} {nodes : List Node}
    {rest : List Char} (hjoins : (Node.text content).Joins inside nodes)
    (hrest : Follows inside rest) :
    (nodesCanonical nodes).toList ++ rest = [] ∨
      Delimiter.opening.chars <+: (nodesCanonical nodes).toList ++ rest ∧
        content.toList.getLast? ≠ some '{' := by
  obtain ⟨hnext, hlast⟩ := hjoins
  cases nodes with
  | nil =>
    have hempty : (nodesCanonical []).toList = [] := by
      simp [nodesCanonical]
    rw [hempty, List.nil_append]
    cases inside with
    | false => exact Or.inl hrest
    | true => exact Or.inr ⟨hrest, fun hbrace => nomatch (hlast hbrace).1⟩
  | cons node nodes =>
    have hnode := opening_isPrefix_canonical (hnext node rfl)
    refine Or.inr ⟨?_, fun hbrace => nomatch (hlast hbrace).2⟩
    rw [nodesCanonical, String.toList_append, List.append_assoc]
    exact hnode.trans (List.prefix_append ..)

/-- The canonical source of nodes is read back as the tokens that spell them. -/
theorem tokensIn_canonical (nodes : List Node) :
    ∀ inside rest, nodesWellFormed inside nodes → Follows inside rest →
      tokensIn .text ((nodesCanonical nodes).toList ++ rest) =
        nodesSpelling nodes ++ tokensIn .text rest := by
  induction nodes using nodes_induction with
  | nil =>
    intro inside rest _ _
    simp [nodesCanonical, nodesSpelling]
  | text content nodes ih =>
    intro inside rest hnodes hrest
    obtain ⟨⟨hcontent, hdelimiter⟩, hjoins, hnodes⟩ := hnodes
    rw [nodesCanonical, Node.canonical, String.toList_append, List.append_assoc,
      tokensIn_text hcontent hdelimiter (text_or_tag_follows hjoins hrest),
      ih inside rest hnodes hrest]
    rfl
  | output path nodes ih =>
    intro inside rest hnodes hrest
    obtain ⟨hpath, _, hnodes⟩ := hnodes
    rw [nodesCanonical, Node.canonical, String.toList_append, List.append_assoc,
      tokensIn_output_tag _ hpath, ih inside rest hnodes hrest, nodesSpelling, Node.spelling,
      List.append_assoc]
  | branch condition yes nodes ihyes ih =>
    intro inside rest hnodes hrest
    obtain ⟨⟨hcondition, hyes⟩, _, hnodes⟩ := hnodes
    simp only [nodesCanonical, Node.canonical, String.toList_append, List.append_assoc]
    rw [tokensIn_if_tag _ hcondition, ihyes true _ hyes (follows_tag ..),
      tokensIn_keyword_tag _ (by decide), ih inside rest hnodes hrest]
    simp only [nodesSpelling, Node.spelling, List.append_assoc]
  | branchElse condition yes no nodes ihyes ihno ih =>
    intro inside rest hnodes hrest
    obtain ⟨⟨hcondition, hyes, hno⟩, _, hnodes⟩ := hnodes
    simp only [nodesCanonical, Node.canonical, String.toList_append, List.append_assoc]
    rw [tokensIn_if_tag _ hcondition, ihyes true _ hyes (follows_tag ..),
      tokensIn_keyword_tag _ (by decide), ihno true _ hno (follows_tag ..),
      tokensIn_keyword_tag _ (by decide), ih inside rest hnodes hrest]
    simp only [nodesSpelling, Node.spelling, List.append_assoc]
  | loop name items body nodes ihbody ih =>
    intro inside rest hnodes hrest
    obtain ⟨⟨hname, hitems, hbody⟩, _, hnodes⟩ := hnodes
    simp only [nodesCanonical, Node.canonical, String.toList_append, List.append_assoc]
    rw [tokensIn_foreach_tag _ hname hitems, ihbody true _ hbody (follows_tag ..),
      tokensIn_keyword_tag _ (by decide), ih inside rest hnodes hrest]
    simp only [nodesSpelling, Node.spelling, List.append_assoc]

theorem tokenize_canonical {template : Template} (h : template.WellFormed) :
    tokenize template.canonical = template.spelling := by
  have htokens := tokensIn_canonical template false [] h rfl
  rwa [List.append_nil, tokensIn_nil, List.append_nil, ← tokenize_eq_tokensIn] at htokens

theorem token?_wellFormed {segment : List Char} :
    ∀ token ∈ (pieces segment).filterMap Piece.token?, token.WellFormed := by
  intro token htoken
  obtain ⟨piece, hpiece, hsome⟩ := List.mem_filterMap.mp htoken
  cases piece with
  | word chars =>
    cases hsome
    unfold Token.ofWord
    split
    · trivial
    · next hname =>
      have hword : Text.isWord (String.ofList chars).toList := by
        rw [String.toList_ofList]
        exact isWord_of_mem_pieces hpiece
      exact ⟨hword, hname⟩
  | noise c => cases hsome
  | _ => cases hsome; trivial

namespace Segments

theorem readable_leftover {chars : List Char} {next? : Option Delimiter} {rest : List Token}
    (h : NoDelimiter chars)
    (hrest : ∀ next ∈ rest.head?, next.kind ≠ .text ∧ chars.getLast? ≠ some '{')
    (hreadable : Readable rest) : Readable (leftover chars next? ++ rest) := by
  unfold leftover
  split
  · exact hreadable
  · next hsome =>
    rw [not_or] at hsome
    refine ⟨⟨?_, ?_⟩, fun _ => ?_, hreadable⟩
    · exact fun hempty => hsome.1 (String.ofList_eq_empty_iff.mp hempty)
    · rwa [Token.text, String.toList_ofList]
    · rwa [Token.text, String.toList_ofList]

/-- Where all tags are closed, the tokens of a text that is cut leftmost are readable. -/
theorem readable_ofTags {first : List Char} {tags : List (List Char × List Char)}
    (h : (ofTags first tags).Leftmost) : Readable (ofTags first tags).tokens := by
  induction tags generalizing first with
  | nil => exact readable_leftover h nofun trivial
  | cons inner tags ih =>
    obtain ⟨inside, behind⟩ := inner
    obtain ⟨hfirst, _, hbehind⟩ := h
    obtain ⟨hchars, hlast⟩ := (noDelimiter_concat ..).mp hfirst
    have htags := (readable_tag (filterMap_token?_inner (pieces inside)) _).mpr
      ⟨token?_wellFormed, ih hbehind⟩
    rw [tokens_ofTags_cons, List.append_assoc]
    refine readable_leftover hchars ?_ htags
    rintro _ ⟨⟩
    exact ⟨nofun, hlast .opening rfl⟩

end Segments

theorem tags_of_spelling {source : String} {template : Template}
    (h : tokenize source = template.spelling) :
    ∃ tags, Segments.ofSource source.toList =
      .ofTags (Segments.ofSource source.toList).first tags := by
  have hturns : TakeTurns .text (template.spelling ++ []) :=
    ((nodes_show template).turns []).mpr trivial
  rw [List.append_nil, ← h, tokenize_eq_tokens] at hturns
  exact Segments.tags_of_takeTurns hturns

theorem wellFormed_of_spelling {source : String} {template : Template}
    (h : tokenize source = template.spelling) : template.WellFormed := by
  obtain ⟨tags, htags⟩ := tags_of_spelling h
  have hleftmost := Segments.leftmost_ofSource source.toList
  rw [htags] at hleftmost
  have hreadable := Segments.readable_ofTags hleftmost
  rw [← htags, ← tokenize_eq_tokens, h, ← List.append_nil template.spelling] at hreadable
  exact (wellFormed_of_readable template false [] nofun hreadable).1

namespace Settings
variable {settings : Settings} {template : Template}

theorem wellFormed_of_compile {source : String}
    (h : (settings.compile source).result = .ok template) :
    template.WellFormed ∧ template.nesting ≤ settings.maxNestingDepth := by
  obtain ⟨hspelling, fits⟩ := compile_eq_ok_iff.mp h
  exact ⟨wellFormed_of_spelling hspelling, fits⟩

theorem compile_canonical_of_wellFormed (h : template.WellFormed)
    (fits : template.nesting ≤ settings.maxNestingDepth) :
    (settings.compile template.canonical).result = .ok template :=
  compile_eq_ok_iff.mpr ⟨tokenize_canonical h, fits⟩

/-- Exactly the well-formed templates within the limit have a source. Their canonical source
is one, and it may stand for every other one. -/
theorem compile_onto_wellFormed (settings : Settings) (template : Template) :
    ((∃ source, (settings.compile source).result = .ok template) ↔
        template.WellFormed ∧ template.nesting ≤ settings.maxNestingDepth) ∧
      (template.WellFormed ∧ template.nesting ≤ settings.maxNestingDepth →
        (settings.compile template.canonical).result = .ok template) ∧
      ∀ source, (settings.compile source).result = .ok template →
        (settings.compile template.canonical).result = (settings.compile source).result := by
  have hcanonical (h : template.WellFormed ∧ template.nesting ≤ settings.maxNestingDepth) :
      (settings.compile template.canonical).result = .ok template :=
    compile_canonical_of_wellFormed h.1 h.2
  refine ⟨⟨?_, fun h => ⟨_, hcanonical h⟩⟩, hcanonical, ?_⟩
  · rintro ⟨source, hsource⟩
    exact wellFormed_of_compile hsource
  · intro source hsource
    rw [hcanonical (wellFormed_of_compile hsource), hsource]

/-- Single braces at both sides of the tags, and one at the end. -/
theorem compile_onto_wellFormed_seams :
    let source := "\x7b\x7bx\x7d\x7d\x7da\x7b\x7bif x\x7d\x7dc\x7b\x7bendif\x7d\x7d\x7b"
    let template : Template :=
      [.output ⟨"x", []⟩, .text "\x7da", .branch ⟨"x", []⟩ [.text "c"] none, .text "\x7b"]
    (compile {} source).result = .ok template ∧
      template.WellFormed ∧ template.nesting ≤ Settings.maxNestingDepth {} ∧
      (compile {} template.canonical).result = .ok template := by
  intro source template
  have hcompile : (compile {} source).result = .ok template := by
    cbv
  obtain ⟨honto, hcanonical, _⟩ := compile_onto_wellFormed {} template
  have hwellFormed := honto.mp ⟨source, hcompile⟩
  exact ⟨hcompile, hwellFormed.1, hwellFormed.2, hcanonical hwellFormed⟩

/-- What two sources stand for is the same if its outlines are. -/
theorem template_of_outline {settings' : Settings} {source source' : String}
    {template' : Template} (h : (settings.compile source).result = .ok template)
    (h' : (settings'.compile source').result = .ok template')
    (same : template.outline "" = template'.outline "") : template = template' :=
  Template.outline_inj (wellFormed_of_compile h).1 (wellFormed_of_compile h').1 same

/-- A text that looks like the rest of an outline. -/
theorem template_of_outline_text :
    let source := "\x7b\x7bif x.y\x7d\x7d)\n  Text(\x7b\x7bendif\x7d\x7d"
    let source' := "\x7b\x7b if x . y \x7d\x7d)\n  Text(\x7b\x7b endif \x7d\x7d"
    let template : Template := [.branch ⟨"x", ["y"]⟩ [.text ")\n  Text("] none]
    (compile {} source).result = .ok template ∧
      (compile { maxNestingDepth := 1 } source').result = .ok template ∧
      (compile {} source).result = (compile { maxNestingDepth := 1 } source').result := by
  intro source source' template
  have hcompile : (compile {} source).result = .ok template := by
    cbv
  have hcompile' : (compile { maxNestingDepth := 1 } source').result = .ok template := by
    cbv
  refine ⟨hcompile, hcompile', ?_⟩
  rw [hcompile, hcompile', template_of_outline hcompile hcompile' rfl]

end Settings
end Stencil
