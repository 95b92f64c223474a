import Mathlib
import Stencil.Proofs.Engine.Canonical
import Stencil.Proofs.Template.Join
import Stencil.Proofs.Token.Seams

/-! Two sources one behind the other. A source that compiles ends outside of all tags and
directives, so another one goes on where it ends: the templates are joined, and what they
render to is written one behind the other. -/

namespace Stencil

theorem leftover_eq_spelling (chars : List Char) {next? : Option Delimiter}
    (h : next? ≠ some .closing) : leftover chars next? = nodesSpelling (textNodes chars) := by
  unfold leftover textNodes
  by_cases hchars : chars = []
  · rw [if_pos (Or.inl hchars), if_pos hchars]
    rfl
  · rw [if_neg (by simp [hchars, h]), if_neg hchars]
    rfl

namespace Segments

theorem tokens_ofTags_append (first : List Char) (tags : List (List Char × List Char)) :
    ∃ front, (∀ token ∈ front.getLast?, token.kind ≠ .text) ∧
      (ofTags first tags).tokens = front ++ leftover (ofTags first tags).last none ∧
      ∀ t, ((ofTags first tags).append t).tokens =
        front ++ leftover ((ofTags first tags).last ++ t.first) (next? t.others) ++
          tokensOf t.others := by
  induction tags generalizing first with
  | nil => exact ⟨[], by simp, List.append_nil _, fun _ => rfl⟩
  | cons inner tags ih =>
    obtain ⟨inside, behind⟩ := inner
    obtain ⟨front, hfront, htokens, happend⟩ := ih behind
    refine ⟨leftover first (some .opening) ++ tag ((pieces inside).filterMap Piece.token?) ++ front,
      ?_, ?_, ?_⟩
    · rcases List.eq_nil_or_concat' front with rfl | ⟨front, last, rfl⟩
      · rw [List.append_nil, tag, ← List.append_assoc, List.getLast?_concat]
        rintro _ ⟨⟩
        decide
      · rw [← List.append_assoc, List.getLast?_concat]
        rwa [List.getLast?_concat] at hfront
    · rw [tokens_ofTags_cons, htokens, ← List.append_assoc]
      rfl
    · intro t
      have htag := tokens_tag first inside ((ofTags behind tags).append t)
      rw [happend, ← List.append_assoc, ← List.append_assoc] at htag
      exact htag

theorem next?_ofTags (first : List Char) (tags : List (List Char × List Char)) :
    next? (ofTags first tags).others ≠ some .closing := by
  cases tags <;> simp [ofTags, next?]

theorem head?_tokensOf (others : List (Delimiter × List Char)) :
    ∀ token ∈ (tokensOf others).head?, token.kind ≠ .text := by
  rcases others with _ | ⟨⟨_ | _, segment⟩, others⟩
  · simp [tokensOf]
  all_goals
    rintro _ ⟨⟩
    decide

end Segments

section
variable {first second : String} {template template' : Template}

/-- Where no double braces arise at the seam, the tokens of two sources spell both templates. -/
theorem tokenize_append (h : tokenize first = template.spelling)
    (h' : tokenize second = template'.spelling)
    (apart : Segments.Apart first.toList second.toList) :
    tokenize (first ++ second) = (template.join template').spelling := by
  obtain ⟨start, tags, htags⟩ : ∃ start tags, Segments.ofSource first.toList = .ofTags start tags :=
    ⟨_, tags_of_spelling h⟩
  obtain ⟨start', tags', htags'⟩ :
      ∃ start tags, Segments.ofSource second.toList = .ofTags start tags := ⟨_, tags_of_spelling h'⟩
  obtain ⟨front, hfront, htokens, happend⟩ := Segments.tokens_ofTags_append start tags
  rw [tokenize_eq_tokens, htags, htokens,
    leftover_eq_spelling _ (show none ≠ some Delimiter.closing by decide)] at h
  obtain ⟨before, rfl, rfl, hends⟩ := append_textNodes_of_spelling hfront h.symm
  rw [tokenize_eq_tokens, htags', Segments.tokens, segmentTokens,
    leftover_eq_spelling _ (Segments.next?_ofTags _ _)] at h'
  obtain ⟨after, rfl, hafter, hstarts⟩ :=
    textNodes_append_of_spelling (Segments.head?_tokensOf _) h'.symm
  rw [tokenize_eq_tokens, String.toList_append, Segments.ofSource_append apart, htags, htags',
    happend, leftover_eq_spelling _ (Segments.next?_ofTags _ _), ← hafter,
    join_textNodes hends hstarts, Template.spelling, nodesSpelling_append, nodesSpelling_append]

end

namespace Settings
variable {settings : Settings} {first second source : String} {template template' : Template}

theorem render_of_compile (h : (settings.compile source).result = .ok template) (host : Host)
    (model : Value) :
    (settings.render host source model).result =
      .ok (template.meaning host (Context.ofModel host model).lookup) := by
  unfold render
  simp only [h, finish, Template.render]
  rw [(renderIn_eq_meaning (.ofModel host model) template).1]
  rfl

/-- If two sources compile and no double braces arise where they meet, the second one behind the
first one compiles to their templates joined, and renders to their texts one behind the other. -/
theorem compile_append (h : (settings.compile first).result = .ok template)
    (h' : (settings.compile second).result = .ok template')
    (apart : Segments.Apart first.toList second.toList) :
    (settings.compile (first ++ second)).result = .ok (template.join template') ∧
      ∀ host model, ∃ text text', (settings.render host first model).result = .ok text ∧
        (settings.render host second model).result = .ok text' ∧
        (settings.render host (first ++ second) model).result = .ok (text ++ text') := by
  obtain ⟨hspelling, fits⟩ := compile_eq_ok_iff.mp h
  obtain ⟨hspelling', fits'⟩ := compile_eq_ok_iff.mp h'
  have hjoin : (settings.compile (first ++ second)).result = .ok (template.join template') := by
    refine compile_eq_ok_iff.mpr ⟨tokenize_append hspelling hspelling' apart, ?_⟩
    rw [nesting_join]
    exact Nat.max_le.mpr ⟨fits, fits'⟩
  refine ⟨hjoin, fun host model => ⟨_, _, render_of_compile h host model,
    render_of_compile h' host model, ?_⟩⟩
  rw [render_of_compile hjoin, meaning_join]

/-- Text meets text between a brace of each kind, and becomes one node. -/
theorem compile_append_braces :
    let first := "a\x7b\x7b x \x7d\x7d\x7b b\x7b"
    let second := "\x7dc\x7b\x7b if x \x7d\x7d\x7d\x7b\x7b endif \x7d\x7d"
    let template : Template := [.text "a", .output ⟨"x", []⟩, .text "\x7b b\x7b"]
    let template' : Template := [.text "\x7dc", .branch ⟨"x", []⟩ [.text "\x7d"] none]
    (compile {} first).result = .ok template ∧
      (compile {} second).result = .ok template' ∧
      Segments.Apart first.toList second.toList ∧
      (compile {} (first ++ second)).result =
        .ok [.text "a", .output ⟨"x", []⟩, .text "\x7b b\x7b\x7dc",
          .branch ⟨"x", []⟩ [.text "\x7d"] none] := by
  intro first second template template'
  have hfirst : (compile {} first).result = .ok template := by
    cbv
  have hsecond : (compile {} second).result = .ok template' := by
    cbv
  have apart : Segments.Apart first.toList second.toList := by
    intro d
    cases d <;> decide
  exact ⟨hfirst, hsecond, apart, (compile_append hfirst hsecond apart).1⟩

end Settings
end Stencil
