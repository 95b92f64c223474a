import Mathlib
import Stencil.Engine
import Stencil.Proofs.Parse.Grammar
import Stencil.Proofs.Template.Literals
import Stencil.Proofs.Token.Reading

/-! Text that is no part of a tag is never lost, and what stands inside of tags never
becomes text: the text nodes of a compiled template are the segments of its source
that lie between tags. -/

namespace Stencil

theorem Token.ofWord_inner (word : String) : (Token.ofWord word).Inner := by
  unfold ofWord
  split
  · exact inner_keyword word
  · exact inner_identifier word

theorem Piece.token?_inner {piece : Piece} {token : Token} (h : piece.token? = some token) :
    token.Inner := by
  cases piece with
  | word chars => cases h; exact Token.ofWord_inner _
  | dot => cases h; exact Token.inner_dot
  | colon => cases h; exact Token.inner_colon
  | noise c => cases h

theorem filterMap_token?_inner (pieces : List Piece) :
    ∀ token ∈ pieces.filterMap Piece.token?, token.Inner := by
  intro token h
  obtain ⟨piece, _, hpiece⟩ := List.mem_filterMap.mp h
  exact Piece.token?_inner hpiece

namespace Segments

/-- The segments of a text all of whose tags are closed: what stands in front of the first
tag, and what stands inside of each tag and behind it. -/
def ofTags (first : List Char) (tags : List (List Char × List Char)) : Segments :=
  ⟨first, tags.flatMap fun (inside, behind) => [(.opening, inside), (.closing, behind)]⟩

def tokensFrom (mode : Mode) (segment : List Char) (others : List (Delimiter × List Char)) :
    List Token :=
  segmentTokens mode segment (next? others) ++ tokensOf others

theorem noDelimiter_of_append {before after : List Char} (h : NoDelimiter (before ++ after)) :
    NoDelimiter before :=
  fun d hd => h d (hd.trans (List.prefix_append before after).isInfix)

theorem noDelimiter_of_leftmost {segment : List Char} {others : List (Delimiter × List Char)}
    (h : LeftmostFrom segment others) :
    NoDelimiter segment ∧ ∀ other ∈ others, NoDelimiter other.2 := by
  induction others generalizing segment with
  | nil => exact ⟨h, nofun⟩
  | cons other others ih =>
    obtain ⟨d, next⟩ := other
    obtain ⟨hnext, hothers⟩ := ih h.2
    refine ⟨noDelimiter_of_append h.1, ?_⟩
    intro other hother
    rcases List.mem_cons.mp hother with rfl | hother
    · exact hnext
    · exact hothers other hother

theorem tokensFrom_cons (mode : Mode) (segment : List Char) (d : Delimiter) (next : List Char)
    (others : List (Delimiter × List Char)) :
    tokensFrom mode segment ((d, next) :: others) =
      segmentTokens mode segment (some d) ++ d.token :: tokensFrom d.mode next others := rfl

theorem takeTurns_leftover (chars : List Char) (next? : Option Delimiter) (rest : List Token) :
    TakeTurns .text (leftover chars next? ++ rest) ↔ TakeTurns .text rest := by
  unfold leftover
  split <;> exact Iff.rfl

/-- A segment inside of a tag leaves the tag open, and must not leave any text. -/
theorem takeTurns_of_segment {segment : List Char} {next? : Option Delimiter} {rest : List Token}
    (h : TakeTurns .tag (segmentTokens .tag segment next? ++ rest)) : TakeTurns .tag rest := by
  rw [segmentTokens, pieceTokens, List.append_assoc,
    takeTurns_inner (filterMap_token?_inner _)] at h
  unfold leftover at h
  split at h
  · exact h
  · cases h

theorem others_of_text {segment : List Char} {others : List (Delimiter × List Char)}
    (h : TakeTurns .text (tokensFrom .text segment others)) :
    others = [] ∨ ∃ inside rest, others = (.opening, inside) :: rest ∧
      TakeTurns .tag (tokensFrom .tag inside rest) := by
  cases others with
  | nil => exact Or.inl rfl
  | cons other others =>
    obtain ⟨d, next⟩ := other
    rw [tokensFrom_cons, segmentTokens, takeTurns_leftover] at h
    cases d with
    | opening => exact Or.inr ⟨next, others, rfl, h⟩
    | closing => cases h

theorem others_of_tag {segment : List Char} {others : List (Delimiter × List Char)}
    (h : TakeTurns .tag (tokensFrom .tag segment others)) :
    ∃ behind rest, others = (.closing, behind) :: rest ∧
      TakeTurns .text (tokensFrom .text behind rest) := by
  have hothers := takeTurns_of_segment h
  cases others with
  | nil => cases hothers
  | cons other others =>
    obtain ⟨d, next⟩ := other
    cases d with
    | opening => cases hothers
    | closing => exact ⟨next, others, rfl, hothers⟩

theorem tags_of_takeTurns {segment : List Char} {others : List (Delimiter × List Char)}
    (h : TakeTurns .text (tokensFrom .text segment others)) :
    ∃ tags, (⟨segment, others⟩ : Segments) = ofTags segment tags := by
  induction hn : others.length using Nat.strongRecOn generalizing segment others with
  | ind n ih =>
    rcases others_of_text h with rfl | ⟨inside, rest, rfl, hinside⟩
    · exact ⟨[], rfl⟩
    · obtain ⟨behind, rest, rfl, hbehind⟩ := others_of_tag hinside
      simp only [List.length_cons] at hn
      obtain ⟨tags, htags⟩ := ih rest.length (by omega) hbehind rfl
      refine ⟨(inside, behind) :: tags, ?_⟩
      injection htags with _ hrest
      rw [hrest]
      rfl

def textsOf (segments : List (List Char)) : List String :=
  (segments.filter (· ≠ [])).map String.ofList

theorem leftover_shows (chars : List Char) {next? : Option Delimiter}
    (h : next? ≠ some .closing) : Shows (leftover chars next?) (textsOf [chars]) 0 := by
  by_cases hchars : chars = []
  · rw [leftover, if_pos (Or.inl hchars), hchars]
    exact .nil
  · rw [leftover, if_neg (by simp [hchars, h])]
    exact (Shows.text _).of_eq (by simp [textsOf, hchars]) rfl

theorem tokens_tag (first inside : List Char) (s : Segments) :
    tokens ⟨first, (.opening, inside) :: (.closing, s.first) :: s.others⟩ =
      leftover first (some .opening) ++ tag ((pieces inside).filterMap Piece.token?) ++
        s.tokens := by
  have hinside : segmentTokens .tag inside (some .closing) =
      (pieces inside).filterMap Piece.token? := by
    rw [segmentTokens, pieceTokens, leftover, if_pos (Or.inr rfl), List.append_nil]
  have htokens : tokens ⟨first, (.opening, inside) :: (.closing, s.first) :: s.others⟩ =
      leftover first (some .opening) ++ .openTag :: (segmentTokens .tag inside (some .closing) ++
        .closeTag :: s.tokens) := rfl
  rw [htokens, hinside, tag]
  simp only [List.append_assoc, List.cons_append, List.nil_append]

theorem tokens_ofTags_cons (first inside behind : List Char) (tags : List (List Char × List Char)) :
    (ofTags first ((inside, behind) :: tags)).tokens =
      leftover first (some .opening) ++ tag ((pieces inside).filterMap Piece.token?) ++
        (ofTags behind tags).tokens :=
  tokens_tag first inside (ofTags behind tags)

/-- If all tags are closed, the segments between them are the texts. -/
theorem tokens_ofTags_show (first : List Char) (tags : List (List Char × List Char)) :
    Shows (ofTags first tags).tokens (textsOf (first :: tags.map Prod.snd)) tags.length := by
  induction tags generalizing first with
  | nil =>
    have h := (leftover_shows first (show none ≠ some Delimiter.closing from nofun)).append .nil
    exact h.of_eq (List.append_nil _) rfl
  | cons inner tags ih =>
    obtain ⟨inside, behind⟩ := inner
    have hfirst := leftover_shows first (show some Delimiter.opening ≠ some .closing from nofun)
    have h := (hfirst.append (.tag (filterMap_token?_inner (pieces inside)))).append (ih behind)
    rw [tokens_ofTags_cons]
    refine h.of_eq ?_ ?_
    · rw [List.append_nil, textsOf, textsOf, textsOf, ← List.map_append, ← List.filter_append]
      rfl
    · rw [List.length_cons]
      omega

theorem source_ofTags (first : List Char) (tags : List (List Char × List Char)) :
    (ofTags first tags).source = first ++ tags.flatMap fun (inside, behind) =>
      ['{', '{'] ++ inside ++ ['}', '}'] ++ behind := by
  induction tags generalizing first with
  | nil => rfl
  | cons inner tags ih =>
    obtain ⟨inside, behind⟩ := inner
    have hsource : (ofTags first ((inside, behind) :: tags)).source =
        first ++ (['{', '{'] ++ (inside ++ (['}', '}'] ++ (ofTags behind tags).source))) := by
      rw [ofTags, List.flatMap_cons, List.cons_append, List.cons_append, source_cons, source_cons]
      rfl
    rw [hsource, ih, List.flatMap_cons]
    simp only [List.append_assoc]

theorem noDelimiter_ofTags {first : List Char} {tags : List (List Char × List Char)}
    (h : (ofTags first tags).Leftmost) :
    ∀ segment ∈ first :: tags.flatMap (fun (inside, behind) => [inside, behind]),
      NoDelimiter segment := by
  obtain ⟨hfirst, hothers⟩ := noDelimiter_of_leftmost h
  intro segment hsegment
  rcases List.mem_cons.mp hsegment with rfl | hsegment
  · exact hfirst
  · obtain ⟨⟨inside, behind⟩, hinner, hsegment⟩ := List.mem_flatMap.mp hsegment
    have hmem : ∀ other ∈ [(Delimiter.opening, inside), (.closing, behind)],
        NoDelimiter other.2 :=
      fun other hother => hothers other (List.mem_flatMap.mpr ⟨_, hinner, hother⟩)
    rcases List.mem_pair.mp hsegment with rfl | rfl
    · exact hmem (.opening, segment) (by simp)
    · exact hmem (.closing, segment) (by simp)

end Segments

theorem Piece.token?_normal {piece : Piece} {token : Token} (h : piece.token? = some token) :
    token.normal = token := by
  cases piece with
  | word chars =>
    cases h
    unfold Token.ofWord
    split <;> rfl
  | noise c => cases h
  | _ => cases h; rfl

theorem segmentTokens_normal (mode : Mode) (segment : List Char) (next? : Option Delimiter) :
    ∀ token ∈ segmentTokens mode segment next?, token.normal = token := by
  have hleftover : ∀ chars, ∀ token ∈ leftover chars next?, token.normal = token := by
    intro chars token h
    unfold leftover at h
    split at h
    · cases h
    · cases List.mem_singleton.mp h
      rfl
  cases mode with
  | text => exact hleftover segment
  | tag =>
    intro token h
    rcases List.mem_append.mp h with h | h
    · obtain ⟨piece, _, hpiece⟩ := List.mem_filterMap.mp h
      exact Piece.token?_normal hpiece
    · exact hleftover _ token h

theorem Segments.tokensOf_normal (others : List (Delimiter × List Char)) :
    ∀ token ∈ tokensOf others, token.normal = token := by
  induction others with
  | nil => nofun
  | cons other others ih =>
    obtain ⟨d, segment⟩ := other
    intro token h
    rcases List.mem_append.mp h with h | h
    · rcases List.mem_cons.mp h with rfl | h
      · cases d <;> rfl
      · exact segmentTokens_normal _ _ _ token h
    · exact ih token h

theorem tokenize_normal (source : String) :
    (tokenize source).map Token.normal = tokenize source := by
  have hnormal : ∀ token ∈ tokenize source, token.normal = token := by
    intro token h
    rw [tokenize_eq_tokens] at h
    rcases List.mem_append.mp h with h | h
    · exact segmentTokens_normal _ _ _ token h
    · exact Segments.tokensOf_normal _ token h
  rw [List.map_congr_left hnormal, List.map_id']

namespace Settings

theorem compile_result (settings : Settings) (source : String) :
    (settings.compile source).result =
      (Parser.parse { stream := ⟨tokenize source⟩, limit := settings.maxNestingDepth }).1 := by
  rw [compile, ← parseTokens]
  split <;> simp_all

/-- A source compiles to the template that its tokens spell. -/
theorem compile_eq_ok_iff {settings : Settings} {source : String} {template : Template} :
    (settings.compile source).result = .ok template ↔
      tokenize source = template.spelling ∧ template.nesting ≤ settings.maxNestingDepth := by
  rw [compile_result]
  constructor
  · intro h
    exact ⟨tokenize_normal source ▸ Parser.spelling_of_parse h, Parser.nesting_of_parse h⟩
  · rintro ⟨hspelling, fits⟩
    exact Parser.parse_of_spelling ((tokenize_normal source).trans hspelling) fits

end Settings

/-- If a source compiles, it is text and closed tags in turns, cut leftmost first. The
text nodes hold the pieces of text that are not empty, in their order, and there are
as many tags as the nodes need. -/
theorem texts_of_compile {settings : Settings} {source : String} {template : Template}
    (h : (settings.compile source).result = .ok template) :
    ∃ first tags,
      Segments.ofSource source.toList = .ofTags first tags ∧
      source.toList = first ++ tags.flatMap (fun (inside, behind) =>
        ['{', '{'] ++ inside ++ ['}', '}'] ++ behind) ∧
      (∀ segment ∈ first :: tags.flatMap (fun (inside, behind) => [inside, behind]),
        Segments.NoDelimiter segment) ∧
      template.texts = Segments.textsOf (first :: tags.map Prod.snd) ∧
      template.tagCount = tags.length := by
  have hspelling := (Settings.compile_eq_ok_iff.mp h).1
  have hnodes := nodes_show template
  rw [← Template.spelling, ← hspelling, tokenize_eq_tokens] at hnodes
  have hturns : TakeTurns .text (Segments.ofSource source.toList).tokens := by
    rw [← List.append_nil (Segments.tokens _), hnodes.turns]
    trivial
  obtain ⟨tags, htags⟩ := Segments.tags_of_takeTurns hturns
  have htags : Segments.ofSource source.toList = .ofTags _ tags := htags
  have hshow := Segments.tokens_ofTags_show (Segments.ofSource source.toList).first tags
  rw [← htags] at hshow
  have hleftmost := Segments.leftmost_ofSource source.toList
  rw [htags] at hleftmost
  refine ⟨_, tags, htags, ?_, Segments.noDelimiter_ofTags hleftmost, ?_, ?_⟩
  · rw [← Segments.source_ofTags, ← htags, Segments.source_ofSource]
  · exact hnodes.texts.symm.trans hshow.texts
  · exact hnodes.tags.symm.trans hshow.tags

/-- Single braces are text between tags, and noise inside of them. -/
theorem texts_of_compile_noise :
    (Settings.compile {} "a\x7b\x7b if x \x7d\x7d\x7bb\x7b\x7bendif ! \x7d\x7d").result =
        .ok [.text "a", .branch ⟨"x", []⟩ [.text "\x7bb"] none] ∧
      ∃ first tags,
        Segments.ofSource "a\x7b\x7b if x \x7d\x7d\x7bb\x7b\x7bendif ! \x7d\x7d".toList =
          .ofTags first tags ∧
        Template.texts [.text "a", .branch ⟨"x", []⟩ [.text "\x7bb"] none] =
          Segments.textsOf (first :: tags.map Prod.snd) ∧
        Template.tagCount [.text "a", .branch ⟨"x", []⟩ [.text "\x7bb"] none] = tags.length := by
  have hcompile :
      (Settings.compile {} "a\x7b\x7b if x \x7d\x7d\x7bb\x7b\x7bendif ! \x7d\x7d").result =
        .ok [.text "a", .branch ⟨"x", []⟩ [.text "\x7bb"] none] := by
    cbv
  obtain ⟨first, tags, htags, _, _, htexts, hcount⟩ := texts_of_compile hcompile
  exact ⟨hcompile, first, tags, htags, htexts, hcount⟩

end Stencil
