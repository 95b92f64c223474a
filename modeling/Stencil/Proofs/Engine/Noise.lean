import Mathlib
import Stencil.Proofs.Engine.Stray
import Stencil.Proofs.Token.Seams
import Stencil.Proofs.Token.Tags

/-! Noise inside of a tag. Characters that belong to no token are kept aside there until the next
word or the end of the tag throws them away, so a tag that goes on in one of these ways may hold
any more of them, wherever they split no word and no pair of braces. -/

namespace Stencil

/-- The characters that are never part of anything that stands in a tag. -/
def IsNoise (c : Char) : Prop :=
  ¬ Text.isWordChar c ∧ c ∉ ['.', ':', '_', '{', '}']

instance (c : Char) : Decidable (IsNoise c) :=
  inferInstanceAs (Decidable (_ ∧ _))

namespace Text

theorem le_of_isAlphanum {c : Char} (h : c.isAlphanum) : 0x30 ≤ c.toNat := by
  simp only [Char.isAlphanum, Char.isAlpha, Char.isUpper, Char.isLower, Char.isDigit,
    Bool.or_eq_true, Bool.and_eq_true, decide_eq_true_eq, ge_iff_le, UInt32.le_iff_toNat_le,
    Char.reduceVal, UInt32.reduceToNat, Char.toNat_val] at h
  omega

theorem not_isWordChar_of_isSpace {c : Char} (h : isSpace c) : ¬ isWordChar c := by
  intro hword
  unfold isWordChar at hword
  split at hword
  · next hascii =>
    -- in ASCII white space stands below the digits and letters
    have hlow : ∀ range ∈ spaceRanges, range.2 ≤ 0x20 ∨ 0x80 ≤ range.1 := by
      decide
    obtain ⟨range, hrange, hfirst, hlast⟩ := CodeRanges.contains_iff.mp h
    have hside := hlow range hrange
    have halphanum : 0x30 ≤ c.toNat := le_of_isAlphanum hword
    omega
  · have hdisjoint : spaceRanges.disjoint letterRanges := by
      decide +kernel
    exact CodeRanges.not_contains_of_disjoint hdisjoint h hword

end Text

theorem isNoise_of_isSpace {c : Char} (h : Text.isSpace c) : IsNoise c := by
  refine ⟨Text.not_isWordChar_of_isSpace h, fun hmark => ?_⟩
  have hmarks : ['.', ':', '_', '{', '}'].all fun mark => !Text.isSpace mark := by
    decide
  have hspace := List.all_eq_true.mp hmarks c hmark
  rw [h] at hspace
  cases hspace

theorem IsNoise.ofOther {c : Char} (h : IsNoise c) : Piece.ofOther c = .noise c := by
  have hdot : c ≠ '.' := fun hc => h.2 (by simp [hc])
  have hcolon : c ≠ ':' := fun hc => h.2 (by simp [hc])
  rw [Piece.ofOther, if_neg hdot, if_neg hcolon]

/-- No word goes on from the first text into the second one. -/
def WordApart (before after : List Char) : Prop :=
  ∀ c ∈ before.getLast?, Text.isWordPart c → WordEnds after

/-- Behind an open tag the text goes on with a word or with the end of the tag, before another tag
is opened and before the text ends. -/
def Settles (chars : List Char) : Prop :=
  (∃ c ∈ (Segments.ofSource chars).first, Text.isWordChar c) ∨
    Segments.next? (Segments.ofSource chars).others = some .closing

section
variable {before after : List Char}

theorem IsNoise.not_isWordPart {c : Char} (h : IsNoise c) : ¬ Text.isWordPart c := by
  intro hpart
  rcases (Bool.or_eq_true ..).mp hpart with hword | hscore
  · exact h.1 hword
  · exact h.2 (by simp [eq_of_beq hscore])

theorem noBrace_of_noise {noise : List Char} (h : ∀ c ∈ noise, IsNoise c) :
    Segments.NoBrace noise := by
  intro d hd
  have hmarks := (h _ hd).2
  cases d <;> exact hmarks (by decide)

theorem WordApart.mono {before' after' : List Char} (h : WordApart before after)
    (hbefore : before' <:+ before) (hafter : after' <+: after) : WordApart before' after' := by
  obtain ⟨front, rfl⟩ := hbefore
  obtain ⟨rest, rfl⟩ := hafter
  intro c hc hpart d hd
  refine h c ?_ hpart d ?_
  · rw [List.getLast?_append, hc]
    rfl
  · rw [List.head?_append, hd]
    rfl

theorem WordApart.of_append {front : List Char} (h : WordApart (front ++ before) after) :
    WordApart before after :=
  h.mono (List.suffix_append ..) (List.prefix_refl _)

theorem wordApart_of_noise {noise : List Char} (h : ∀ c ∈ noise, IsNoise c) :
    WordApart noise after := by
  intro c hc hpart
  exact absurd hpart (h c (List.mem_of_getLast? hc)).not_isWordPart

theorem WordApart.insert_noise {noise : List Char} (h : WordApart before after)
    (hnoise : ∀ c ∈ noise, IsNoise c) : WordApart before (noise ++ after) := by
  cases noise with
  | nil => exact h
  | cons c noise =>
    rintro _ _ _ _ ⟨⟩
    exact (hnoise c List.mem_cons_self).not_isWordPart

theorem wordEnds_dropWhile {c : Char} {rest : List Char} (hword : Text.isWordChar c)
    (h : WordApart (c :: rest) after) : WordEnds (rest.dropWhile Text.isWordPart ++ after) := by
  cases hrest : rest.dropWhile Text.isWordPart with
  | nil =>
    have hparts : ∀ d ∈ c :: rest, Text.isWordPart d :=
      List.forall_mem_cons.mpr
        ⟨Text.isWordPart_of_isWordChar hword, List.dropWhile_eq_nil_iff.mp hrest⟩
    have hlast := List.getLast?_eq_some_getLast (List.cons_ne_nil c rest)
    exact h _ hlast (hparts _ (List.getLast_mem _))
  | cons d others =>
    have hfirst := List.head?_dropWhile_not Text.isWordPart rest
    rw [hrest] at hfirst
    rintro _ ⟨⟩
    exact Bool.not_eq_true _ ▸ hfirst

theorem pieces_append (h : WordApart before after) :
    pieces (before ++ after) = pieces before ++ pieces after := by
  induction before using pieces_induction with
  | nil => simp [pieces]
  | word c rest hword ih =>
    have hsplit : c :: rest =
        (c :: rest.takeWhile Text.isWordPart) ++ rest.dropWhile Text.isWordPart := by
      rw [List.cons_append, List.takeWhile_append_dropWhile]
    have hisWord : Text.isWord (c :: rest.takeWhile Text.isWordPart) := by
      simp [Text.isWord, hword]
    have hends : WordEnds (rest.dropWhile Text.isWordPart ++ after) :=
      wordEnds_dropWhile hword h
    have hrest : WordApart (rest.dropWhile Text.isWordPart) after := by
      rw [hsplit] at h
      exact h.of_append
    calc pieces (c :: rest ++ after)
      _ = .word (c :: rest.takeWhile Text.isWordPart) ::
            pieces (rest.dropWhile Text.isWordPart ++ after) := by
          rw [hsplit, List.append_assoc, pieces_word hisWord hends]
      _ = pieces (c :: rest) ++ pieces after := by
          rw [ih hrest, pieces, if_pos hword, List.cons_append]
  | other c rest hword ih =>
    have hrest : WordApart ([c] ++ rest) after := h
    rw [List.cons_append, pieces_other hword, ih hrest.of_append, pieces_other hword,
      List.cons_append]

theorem pieces_noise {noise : List Char} (h : ∀ c ∈ noise, IsNoise c) :
    pieces noise = noise.map .noise := by
  induction noise with
  | nil => rw [pieces, List.map_nil]
  | cons c noise ih =>
    obtain ⟨hc, hnoise⟩ := List.forall_mem_cons.mp h
    rw [pieces_other hc.1, hc.ofOther, ih hnoise, List.map_cons]

/-- Noise goes into no word on either side of it. -/
theorem pieces_insert_noise {noise : List Char} (h : WordApart before after)
    (hnoise : ∀ c ∈ noise, IsNoise c) :
    pieces (before ++ (noise ++ after)) = pieces before ++ (noise.map .noise ++ pieces after) := by
  rw [pieces_append (h.insert_noise hnoise), pieces_append (wordApart_of_noise hnoise),
    pieces_noise hnoise]

theorem any_isWord_pieces (chars : List Char) :
    (pieces chars).any Piece.isWord = true ↔ ∃ c ∈ chars, Text.isWordChar c := by
  induction chars using pieces_induction with
  | nil => simp [pieces]
  | word c rest hword ih => simp [pieces, hword, Piece.isWord]
  | other c rest hword ih => simpa [pieces_other hword, Piece.isWord_ofOther, hword] using ih

theorem pieceTokens_insert_noise (first last : List Piece) (noise : List Char)
    {next? : Option Delimiter} (h : last.any Piece.isWord = true ∨ next? = some .closing) :
    pieceTokens (first ++ (noise.map Piece.noise ++ last)) next? =
      pieceTokens (first ++ last) next? := by
  have htokens : (first ++ (noise.map Piece.noise ++ last)).filterMap Piece.token? =
      (first ++ last).filterMap Piece.token? := by
    rw [List.filterMap_append, List.filterMap_append, List.filterMap_append, noise_token?,
      List.nil_append]
  rw [pieceTokens, pieceTokens, htokens]
  rcases h with hword | hclosing
  · have hwords : (noise.map Piece.noise ++ last).any Piece.isWord = true := by
      rw [List.any_append, hword, Bool.or_true]
    rw [Piece.trailing_append, if_pos hwords, Piece.trailing_append, if_pos hword,
      Piece.trailing_append, if_pos hword]
  · rw [leftover, leftover, if_pos (Or.inr hclosing), if_pos (Or.inr hclosing)]

end

namespace Segments

def modeFrom (mode : Mode) : List (Delimiter × List Char) → Mode
  | [] => mode
  | (d, _) :: others => modeFrom d.mode others

theorem modeFrom_of_getLast? {others : List (Delimiter × List Char)} {d : Delimiter}
    (h : (others.map Prod.fst).getLast? = some d) (mode : Mode) :
    modeFrom mode others = d.mode := by
  induction others generalizing mode with
  | nil => cases h
  | cons other others ih =>
    cases others with
    | nil => cases h; rfl
    | cons other others => exact ih (by simpa using h) other.1.mode

/-- Whatever a text goes on with, its tokens up to the last delimiter stay what they are. -/
theorem tokensFrom_append (mode : Mode) (segment : List Char)
    (others : List (Delimiter × List Char)) :
    ∃ front, ∀ t, tokensFrom mode (appendFrom t segment others).first
        (appendFrom t segment others).others =
      front ++ tokensFrom (modeFrom mode others) (lastFrom segment others ++ t.first) t.others := by
  induction others generalizing mode segment with
  | nil => exact ⟨[], fun _ => rfl⟩
  | cons other others ih =>
    obtain ⟨d, next⟩ := other
    obtain ⟨front, hfront⟩ := ih d.mode next
    refine ⟨segmentTokens mode segment (some d) ++ d.token :: front, fun t => ?_⟩
    rw [appendFrom, tokensFrom_cons, hfront, List.append_assoc]
    rfl

theorem last_isSuffix (s : Segments) : s.last <:+ s.source := by
  obtain ⟨first, others⟩ := s
  induction others generalizing first with
  | nil => exact ⟨[], (List.append_nil _).symm⟩
  | cons other others ih =>
    obtain ⟨d, next⟩ := other
    rw [source_cons, ← List.append_assoc]
    exact (ih next).trans (List.suffix_append ..)

theorem first_isPrefix (s : Segments) : s.first <+: s.source :=
  List.prefix_append ..

section
variable {before after noise : List Char}

theorem Apart.insert_noise (h : Apart before after) (hnoise : NoBrace noise) :
    Apart before (noise ++ after) := by
  cases noise with
  | nil => exact h
  | cons c noise =>
    rintro d ⟨_, hfirst⟩
    cases hfirst
    exact hnoise d List.mem_cons_self

theorem ofSource_noise_append (hnoise : NoBrace noise) :
    ofSource (noise ++ after) = ⟨noise ++ (ofSource after).first, (ofSource after).others⟩ := by
  have apart : Apart noise after := by
    rintro d ⟨hlast, _⟩
    exact hnoise d (List.mem_of_getLast? hlast)
  rw [ofSource_append apart, ofSource_text (noDelimiter_of_noBrace hnoise)]
  rfl

end
end Segments

section
variable {before after noise : List Char}

/-- Behind an opened tag that settles, noise leaves the tokens as they are. -/
theorem tokens_insert_noise
    (hopen : (Segments.ofSource before).delimiters.getLast? = some .opening)
    (hwords : WordApart before after) (apart : Segments.Apart before after)
    (hsettles : Settles after) (hnoise : ∀ c ∈ noise, IsNoise c) :
    (Segments.ofSource (before ++ (noise ++ after))).tokens =
      (Segments.ofSource (before ++ after)).tokens := by
  have hbrace := noBrace_of_noise hnoise
  rw [Segments.ofSource_append (apart.insert_noise hbrace), Segments.ofSource_append apart,
    Segments.ofSource_noise_append hbrace]
  have hseam : WordApart (Segments.ofSource before).last (Segments.ofSource after).first := by
    have hlast := Segments.last_isSuffix (Segments.ofSource before)
    have hfirst := Segments.first_isPrefix (Segments.ofSource after)
    rw [Segments.source_ofSource] at hlast hfirst
    exact hwords.mono hlast hfirst
  generalize Segments.ofSource before = s at hopen hseam
  rw [Settles, ← any_isWord_pieces] at hsettles
  generalize Segments.ofSource after = t at hseam hsettles
  obtain ⟨front, hfront⟩ := Segments.tokensFrom_append .text s.first s.others
  -- in a tag the segment at the seam is read piece by piece, wherever the noise is in it
  have htokens (t : Segments) : (s.append t).tokens =
      front ++ (pieceTokens (pieces (s.last ++ t.first)) (Segments.next? t.others) ++
        Segments.tokensOf t.others) := by
    refine (hfront t).trans ?_
    rw [Segments.modeFrom_of_getLast? hopen]
    rfl
  rw [htokens, htokens, pieces_insert_noise hseam hnoise, pieces_append hseam,
    pieceTokens_insert_noise _ _ _ hsettles]

end

namespace Settings

/-- Where a tag is open and goes on with a word or its end, before another tag is opened and
before the source ends, characters that belong to no token may be put in: if they split no word
and no double braces, the tokens stay the same, and so does all that comes of compiling. -/
theorem compile_insert_noise {before after noise : String}
    (hopen : (Segments.ofSource before.toList).delimiters.getLast? = some .opening)
    (hwords : WordApart before.toList after.toList)
    (apart : Segments.Apart before.toList after.toList) (hsettles : Settles after.toList)
    (hnoise : ∀ c ∈ noise.toList, IsNoise c) :
    tokenize (before ++ noise ++ after) = tokenize (before ++ after) ∧
      ∀ settings : Settings,
        settings.compile (before ++ noise ++ after) = settings.compile (before ++ after) := by
  have htokens : tokenize (before ++ noise ++ after) = tokenize (before ++ after) := by
    rw [tokenize_eq_tokens, tokenize_eq_tokens, String.append_assoc, String.toList_append,
      String.toList_append, String.toList_append]
    exact tokens_insert_noise hopen hwords apart hsettles hnoise
  refine ⟨htokens, fun settings => ?_⟩
  rw [compile, compile, htokens]

/-- Blanks, an emoji and a dash of noise behind a dot, where the last characters before the name
are kept aside already. -/
theorem compile_insert_noise_behind_dot :
    let before := "a\x7b\x7b x\x7d.-"
    let noise := " \u00a0🙂\u2028-"
    let after := "_y \x7d\x7d"
    (Segments.ofSource before.toList).delimiters.getLast? = some .opening ∧
      WordApart before.toList after.toList ∧
      Segments.Apart before.toList after.toList ∧
      Settles after.toList ∧
      (∀ c ∈ noise.toList, IsNoise c) ∧
      tokenize (before ++ noise ++ after) =
        [.text "a", .openTag, .identifier "x", .dot, .identifier "y", .closeTag] ∧
      (compile {} (before ++ noise ++ after)).result =
        .ok [.text "a", .output ⟨"x", ["y"]⟩] := by
  intro before noise after
  have hopen : (Segments.ofSource before.toList).delimiters.getLast? = some .opening := by
    decide
  have hlast : before.toList.getLast? = some '-' := by
    decide
  have hwords : WordApart before.toList after.toList := by
    intro c hc hpart
    cases hlast.symm.trans hc
    exact absurd hpart (by decide)
  have apart : Segments.Apart before.toList after.toList := by
    intro d
    cases d <;> decide
  have hsettles : Settles after.toList :=
    Or.inr (by decide)
  have hnoise : ∀ c ∈ noise.toList, IsNoise c := by
    have hchars : noise.toList = [' ', '\u00a0', '🙂', '\u2028', '-'] := by
      decide
    rw [hchars]
    simp only [List.forall_mem_cons]
    exact ⟨by decide, by decide +kernel, by decide +kernel, by decide +kernel, by decide, by simp⟩
  obtain ⟨htokens, hcompile⟩ := compile_insert_noise hopen hwords apart hsettles hnoise
  have hplain : before ++ after = "a\x7b\x7b x\x7d.-_y \x7d\x7d" := by
    decide
  rw [htokens, hcompile, hplain]
  refine ⟨hopen, hwords, apart, hsettles, hnoise, ?_, ?_⟩
  · cbv
  · cbv

end Settings
end Stencil
