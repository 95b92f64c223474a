import Mathlib
import Stencil.Proofs.Engine.Concat
import Stencil.Proofs.Engine.Noise
import Stencil.Proofs.Parse.Viable

/-! A source that ends inside of a tag. Noise behind the last word of the tag is thrown away only
where another word or the end of the tag follows. Where neither does, it is a text token like any
other text, so the parser finds a token there and not the end. -/

namespace Stencil

section
variable {noise : List Char} (next? : Option Delimiter)

theorem wordEnds_noise (hnoise : ∀ c ∈ noise, IsNoise c) : WordEnds noise :=
  fun c hc => (hnoise c (List.mem_of_head? hc)).not_isWordPart

theorem pieceTokens_name (kept : List Char) {name : String} (hname : IsName name)
    {rest : List Char} (hrest : WordEnds rest) :
    pieceTokens (kept.map .noise ++ pieces (name.toList ++ rest)) next? =
      .identifier name :: pieceTokens (pieces rest) next? := by
  rw [pieces_word hname.1 hrest, pieceTokens_word, String.ofList_toList, Token.ofWord,
    if_neg hname.2]

theorem pieceTokens_dot (rest : List Char) :
    pieceTokens (pieces ('.' :: rest)) next? = .dot :: pieceTokens (pieces rest) next? := by
  rw [pieces_other (by decide)]
  exact pieceTokens_mark [] (pieces rest) next? rfl rfl rfl

theorem pieceTokens_tailSource {tail : List String} (htail : ∀ part ∈ tail, IsName part)
    (hnoise : ∀ c ∈ noise, IsNoise c) :
    pieceTokens (pieces (tailSource tail ++ noise)) next? =
      (tail.flatMap fun part => [.dot, .identifier part]) ++ leftover noise next? := by
  induction tail with
  | nil =>
    have hpieces : pieces (tailSource [] ++ noise) = noise.map .noise := pieces_noise hnoise
    rw [hpieces, pieceTokens_noise]
    rfl
  | cons part tail ih =>
    obtain ⟨hpart, htail⟩ := List.forall_mem_cons.mp htail
    have hsource : tailSource (part :: tail) ++ noise =
        '.' :: (part.toList ++ (tailSource tail ++ noise)) := by
      simp [tailSource]
    have hends := wordEnds_tailSource tail (wordEnds_noise hnoise)
    have hname := pieceTokens_name next? [] hpart hends
    rw [List.map_nil, List.nil_append] at hname
    rw [hsource, pieceTokens_dot, hname, ih htail]
    rfl

theorem pieceTokens_path {path : Path} (hpath : path.WellFormed)
    (hnoise : ∀ c ∈ noise, IsNoise c) :
    pieceTokens (pieces (' ' :: (path.display.toList ++ noise))) next? =
      path.spelling ++ leftover noise next? := by
  obtain ⟨hhead, htail⟩ := List.forall_mem_cons.mp hpath
  have hends := wordEnds_tailSource path.tail (wordEnds_noise hnoise)
  have hblank (rest : List Char) : pieces (' ' :: rest) = [' '].map .noise ++ pieces rest :=
    pieces_other (by decide) rest
  rw [hblank, display_toList, List.append_assoc, pieceTokens_name next? [' '] hhead hends,
    pieceTokens_tailSource next? htail hnoise]
  rfl

end

section
variable {source noise : String} {template : Template} {path : Path}

theorem tokensIn_behind_spelling (h : tokenize source = template.spelling)
    (hlast : source.toList.getLast? ≠ some '{') (inside : List Char) :
    tokensIn .text (source.toList ++ (Delimiter.opening.chars ++ inside)) =
      template.spelling ++ tokensIn .text (Delimiter.opening.chars ++ inside) := by
  -- a source that spells a template ends outside of all tags, so a tag that opens behind it
  -- is read as if it stood alone
  have apart : Segments.Apart source.toList (Delimiter.opening.chars ++ inside) := by
    rintro (_ | _) ⟨hbrace, hfirst⟩
    · exact hlast hbrace
    · cases hfirst
  obtain ⟨start, tags, htags⟩ :
      ∃ start tags, Segments.ofSource source.toList = .ofTags start tags := ⟨_, tags_of_spelling h⟩
  obtain ⟨front, _, htokens, happend⟩ := Segments.tokens_ofTags_append start tags
  have hend : none ≠ some Delimiter.closing := by
    decide
  have hopening : some Delimiter.opening ≠ some .closing := by
    decide
  rw [tokenize_eq_tokens, htags, htokens, leftover_eq_spelling _ hend,
    ← leftover_eq_spelling _ hopening] at h
  have hcut : Segments.ofSource (source.toList ++ (Delimiter.opening.chars ++ inside)) =
      (Segments.ofTags start tags).append
        (Segments.ofSource (Delimiter.opening.chars ++ inside)) := by
    rw [Segments.ofSource_append apart, htags]
  calc tokensIn .text (source.toList ++ (Delimiter.opening.chars ++ inside))
    _ = ((Segments.ofTags start tags).append
          (Segments.ofSource (Delimiter.opening.chars ++ inside))).tokens := by
        rw [← hcut]
        rfl
    _ = front ++ leftover (Segments.ofTags start tags).last (some .opening) ++
          .openTag :: tokensIn .tag inside := by
        rw [happend, Segments.ofSource_delimiter, List.append_nil]
        rfl
    _ = template.spelling ++ tokensIn .text (Delimiter.opening.chars ++ inside) := by
        rw [h, tokensIn_opening]

/-- The tokens of a template, and of a tag behind it that is not closed. -/
theorem tokenize_unfinished_tag (h : tokenize source = template.spelling)
    (hlast : source.toList.getLast? ≠ some '{') (hpath : path.WellFormed)
    (hnoise : ∀ c ∈ noise.toList, IsNoise c) :
    tokenize (source ++ "\x7b\x7b " ++ path.display ++ noise) =
      template.spelling ++ .openTag :: (path.spelling ++ leftover noise.toList none) := by
  let inside := ' ' :: (path.display.toList ++ noise.toList)
  have hsource : (source ++ "\x7b\x7b " ++ path.display ++ noise).toList =
      source.toList ++ (Delimiter.opening.chars ++ inside) := by
    simp [inside, Delimiter.chars, Delimiter.brace]
  have hbrace : Segments.NoBrace inside := by
    have hblank : Segments.NoBrace [' '] := by
      decide
    exact noBrace_append hblank (noBrace_append (noBrace_display hpath) (noBrace_of_noise hnoise))
  have hinside : tokensIn .tag inside = pieceTokens (pieces inside) none := by
    rw [tokensIn, Segments.ofSource_text (Segments.noDelimiter_of_noBrace hbrace)]
    exact List.append_nil _
  rw [tokenize_eq_tokensIn, hsource, tokensIn_behind_spelling h hlast, tokensIn_opening, hinside,
    pieceTokens_path none hpath hnoise]

end

namespace Progress

theorem step_path_text (room limit : Nat) (path : Path) (frames : List Frame) (nodes : List Node)
    (content : String) :
    step room limit ⟨.path .output path, frames, nodes⟩ (.text content) =
      .error ⟨.unexpected .closeTag (.text content), []⟩ := by
  obtain ⟨head, tail⟩ := path
  cases tail <;> rfl

end Progress

theorem parseTokens_unfinished_tag {template : Template} {limit : Nat}
    (fits : template.nesting ≤ limit) (path : Path) (left : List Char) :
    parseTokens (template.spelling ++ .openTag :: (path.spelling ++ leftover left none)) limit =
      .error (if left = [] then .unexpectedEnd .closeTag
        else .unexpected .closeTag (.text (String.ofList left))) := by
  have hnodes : Progress.steps limit limit {} template.spelling =
      .ok ⟨.content, [], template.reverse ++ []⟩ :=
    Progress.steps_nodes limit template [] [] (by simpa [Template.nesting] using fits)
  have hsteps : Progress.steps limit limit {}
      (template.spelling ++ .openTag :: (path.spelling ++ leftover left none)) =
        Progress.steps limit limit ⟨.path .output path, [], template.reverse ++ []⟩
          (leftover left none) := by
    rw [Progress.steps_append_ok hnodes, Progress.steps_move (.opened rfl), Path.spelling,
      List.cons_append, Progress.steps_move .output, Progress.steps_pathTail, List.nil_append]
  rw [leftover] at hsteps ⊢
  by_cases hleft : left = []
  · rw [if_pos (Or.inl hleft)] at hsteps ⊢
    rw [parseTokens_of_steps_ok hsteps, if_pos hleft]
    rfl
  · rw [if_neg (by simp [hleft])] at hsteps ⊢
    have hrefused := Progress.step_path_text limit limit path [] (template.reverse ++ [])
      (String.ofList left)
    rw [Progress.steps_cons_error hrefused] at hsteps
    rw [parseTokens_of_steps_error hsteps, if_neg hleft]

namespace Settings
variable {settings : Settings} {source blanks : String} {template : Template} {path : Path}

/-- Behind a source that compiles, a tag that is opened and holds a path but no end. If the source
ends right behind the path, its end is reported where the tag's end is asked for. But any white
space at the end of the source becomes a text token, and it is this token that is reported. -/
theorem compile_unfinished_tag (h : (settings.compile source).result = .ok template)
    (hlast : source.toList.getLast? ≠ some '{') (hpath : path.WellFormed)
    (hblanks : ∀ c ∈ blanks.toList, Text.isSpace c) :
    (settings.compile (source ++ "\x7b\x7b " ++ path.display ++ blanks)).result =
      .error (if blanks = "" then .unexpectedEnd .closeTag
        else .unexpected .closeTag (.text blanks)) := by
  obtain ⟨hspelling, fits⟩ := compile_eq_ok_iff.mp h
  have hnoise : ∀ c ∈ blanks.toList, IsNoise c :=
    fun c hc => isNoise_of_isSpace (hblanks c hc)
  have hparse := parseTokens_unfinished_tag fits path blanks.toList
  rw [← tokenize_unfinished_tag hspelling hlast hpath hnoise, parseTokens, ← compile_result,
    String.ofList_toList] at hparse
  simpa only [String.toList_eq_nil_iff] using hparse

/-- A line break at the end of a file is enough. -/
theorem compile_unfinished_tag_newline :
    let source := "a\x7b\x7b if x \x7d\x7db\x7b\x7b endif \x7d\x7d\x7d"
    let path : Path := ⟨"model", ["name"]⟩
    (compile {} source).result = .ok [.text "a", .branch ⟨"x", []⟩ [.text "b"] none, .text "\x7d"] ∧
      source.toList.getLast? ≠ some '{' ∧ path.WellFormed ∧
      (∀ c ∈ "\n".toList, Text.isSpace c) ∧
      (compile {} (source ++ "\x7b\x7b " ++ path.display ++ "\n")).result =
        .error (.unexpected .closeTag (.text "\n")) := by
  intro source path
  have hcompile : (compile {} source).result =
      .ok [.text "a", .branch ⟨"x", []⟩ [.text "b"] none, .text "\x7d"] := by
    cbv
  have hlast : source.toList.getLast? ≠ some '{' := by
    decide
  have hpath : path.WellFormed := by
    unfold Path.WellFormed IsName
    decide
  have hblanks : ∀ c ∈ "\n".toList, Text.isSpace c := by
    show ∀ c ∈ ['\n'], Text.isSpace c
    rw [List.forall_mem_singleton]
    decide
  exact ⟨hcompile, hlast, hpath, hblanks, compile_unfinished_tag hcompile hlast hpath hblanks⟩

/-- Behind the empty source, a path and one blank: what is reported is not the end. -/
theorem compile_unfinished_tag_blank :
    (compile {} "").result = .ok [] ∧ "".toList.getLast? ≠ some '{' ∧
      Path.WellFormed ⟨"a", []⟩ ∧ (∀ c ∈ " ".toList, Text.isSpace c) ∧
      (compile {} ("" ++ "\x7b\x7b " ++ Path.display ⟨"a", []⟩ ++ " ")).result ≠
        .error (.unexpectedEnd .closeTag) := by
  have hsource : "" ++ "\x7b\x7b " ++ Path.display ⟨"a", []⟩ ++ " " = "\x7b\x7b a " := by
    decide
  have hempty : (compile {} "").result = .ok [] := by
    cbv
  have hresult : (compile {} "\x7b\x7b a ").result =
      .error (.unexpected .closeTag (.text " ")) := by
    cbv
  have hpath : Path.WellFormed ⟨"a", []⟩ := by
    unfold Path.WellFormed IsName
    decide
  have hblank : ∀ c ∈ " ".toList, Text.isSpace c := by
    show ∀ c ∈ [' '], Text.isSpace c
    rw [List.forall_mem_singleton]
    decide
  refine ⟨hempty, by decide, hpath, hblank, ?_⟩
  rw [hsource, hresult]
  rintro ⟨⟩

end Settings
end Stencil
