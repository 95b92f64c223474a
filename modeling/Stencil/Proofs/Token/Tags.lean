import Mathlib.Data.List.Infix
import Stencil.Text.Word
import Stencil.Proofs.Token.Reading
import Stencil.Proofs.Template.Spelling

/-! The tokens of a source piece by piece: of a text with a tag or the end behind it, of a
whole tag, and inside of a tag of one word or mark after the other. -/

namespace Stencil

namespace Segments

theorem noDelimiter_concat (chars : List Char) (c : Char) :
    NoDelimiter (chars ++ [c]) ↔
      NoDelimiter chars ∧ ∀ d : Delimiter, c = d.brace → chars.getLast? ≠ some d.brace := by
  -- the only new pair of braces is the one at the end
  have hlast (d : Delimiter) :
      d.chars <:+ chars ++ [c] ↔ c = d.brace ∧ chars.getLast? = some d.brace := by
    rw [← List.reverse_prefix, List.reverse_concat, ← List.head?_reverse]
    cases chars.reverse <;> simp [Delimiter.chars, eq_comm]
  simp only [NoDelimiter, List.infix_concat_iff, hlast, not_or, not_and, forall_and]
  exact and_comm

theorem noDelimiter_iff (chars : List Char) : NoDelimiter chars ↔
    ¬ Delimiter.opening.chars <:+: chars ∧ ¬ Delimiter.closing.chars <:+: chars :=
  ⟨fun h => ⟨h .opening, h .closing⟩, fun ⟨hopening, hclosing⟩ d => by cases d <;> assumption⟩

instance (chars : List Char) : Decidable (NoDelimiter chars) :=
  decidable_of_iff _ (noDelimiter_iff chars).symm

def NoBrace (chars : List Char) : Prop :=
  ∀ d : Delimiter, d.brace ∉ chars

theorem noBrace_iff (chars : List Char) : NoBrace chars ↔ '{' ∉ chars ∧ '}' ∉ chars :=
  ⟨fun h => ⟨h .opening, h .closing⟩, fun ⟨hopening, hclosing⟩ d => by cases d <;> assumption⟩

instance (chars : List Char) : Decidable (NoBrace chars) :=
  decidable_of_iff _ (noBrace_iff chars).symm

theorem noDelimiter_of_noBrace {chars : List Char} (h : NoBrace chars) : NoDelimiter chars :=
  fun d hd => h d (hd.subset List.mem_cons_self)

theorem noDelimiter_concat_of_noBrace {chars : List Char} (h : NoBrace chars) (c : Char) :
    NoDelimiter (chars ++ [c]) := by
  refine (noDelimiter_concat ..).mpr ⟨noDelimiter_of_noBrace h, ?_⟩
  intro d _ hlast
  exact h d (List.mem_of_getLast? hlast)

theorem ofSource_text {content : List Char} (h : NoDelimiter content) :
    ofSource content = ⟨content, []⟩ := by
  have hsource : source ⟨content, []⟩ = content := List.append_nil content
  have hleftmost : Leftmost ⟨content, []⟩ := h
  rw [← hsource, ofSource_source hleftmost, hsource]

theorem ofSource_text_delimiter {content : List Char} {d : Delimiter}
    (h : NoDelimiter (content ++ [d.brace])) (rest : List Char) :
    ofSource (content ++ (d.chars ++ rest)) =
      ⟨content, (d, (ofSource rest).first) :: (ofSource rest).others⟩ := by
  have hsource : source ⟨content, (d, (ofSource rest).first) :: (ofSource rest).others⟩ =
      content ++ (d.chars ++ rest) := by
    rw [source_cons]
    exact congrArg (fun chars => content ++ (d.chars ++ chars)) (source_ofSource rest)
  rw [← hsource]
  exact ofSource_source ⟨h, leftmost_ofSource rest⟩

end Segments

open Segments (NoDelimiter NoBrace)

/-- The tokens of a text that starts in this mode. -/
def tokensIn (mode : Mode) (chars : List Char) : List Token :=
  let segments := Segments.ofSource chars
  segmentTokens mode segments.first (Segments.next? segments.others) ++
    Segments.tokensOf segments.others

theorem tokenize_eq_tokensIn (source : String) : tokenize source = tokensIn .text source.toList :=
  tokenize_eq_tokens source

theorem tokensIn_nil : tokensIn .text [] = [] := rfl

section
variable {content : List Char}

theorem tokensIn_of_noDelimiter (h : NoDelimiter content) :
    tokensIn .text content = leftover content none := by
  rw [tokensIn, Segments.ofSource_text h]
  exact List.append_nil _

theorem tokensIn_text_end (hcontent : content ≠ []) (h : NoDelimiter content) :
    tokensIn .text content = [.text (String.ofList content)] := by
  rw [tokensIn_of_noDelimiter h, leftover, if_neg (by simp [hcontent])]

theorem tokensIn_opening (rest : List Char) :
    tokensIn .text (Delimiter.opening.chars ++ rest) = .openTag :: tokensIn .tag rest := by
  rw [tokensIn, Segments.ofSource_delimiter]
  rfl

theorem tokensIn_append_opening (h : NoDelimiter content) (hlast : content.getLast? ≠ some '{')
    (rest : List Char) :
    tokensIn .text (content ++ (Delimiter.opening.chars ++ rest)) =
      leftover content (some .opening) ++ tokensIn .text (Delimiter.opening.chars ++ rest) := by
  have hbrace : NoDelimiter (content ++ [Delimiter.opening.brace]) := by
    refine (Segments.noDelimiter_concat ..).mpr ⟨h, ?_⟩
    rintro (_ | _) hd
    · exact hlast
    · cases hd
  rw [tokensIn_opening, tokensIn, Segments.ofSource_text_delimiter hbrace]
  rfl

theorem tokensIn_text_opening (hcontent : content ≠ []) (h : NoDelimiter content)
    (hlast : content.getLast? ≠ some '{') (rest : List Char) :
    tokensIn .text (content ++ (Delimiter.opening.chars ++ rest)) =
      .text (String.ofList content) :: tokensIn .text (Delimiter.opening.chars ++ rest) := by
  rw [tokensIn_append_opening h hlast, leftover, if_neg (by simp [hcontent]), List.singleton_append]

/-- The tokens inside of a tag that is closed. -/
def innerTokens (chars : List Char) : List Token :=
  (pieces chars).filterMap Piece.token?

/-- A tag that is closed by the first double braces behind its content. -/
theorem tokensIn_closed_tag (h : NoDelimiter (content ++ [Delimiter.closing.brace]))
    (rest : List Char) :
    tokensIn .text (Delimiter.opening.chars ++ (content ++ (Delimiter.closing.chars ++ rest))) =
      tag (innerTokens content) ++ tokensIn .text rest := by
  rw [tokensIn_opening, tokensIn, Segments.ofSource_text_delimiter h]
  simp [segmentTokens, pieceTokens, leftover, Segments.next?, Segments.tokensOf, tokensIn,
    Delimiter.token, Delimiter.mode, innerTokens, tag]

theorem tokensIn_tag (h : NoBrace content) (rest : List Char) :
    tokensIn .text (Delimiter.opening.chars ++ (content ++ (Delimiter.closing.chars ++ rest))) =
      tag (innerTokens content) ++ tokensIn .text rest :=
  tokensIn_closed_tag (Segments.noDelimiter_concat_of_noBrace h _) rest

end

/-- No word goes on here. -/
def WordEnds (rest : List Char) : Prop :=
  ∀ c ∈ rest.head?, ¬ Text.isWordPart c

section
variable {rest : List Char}

theorem pieces_word {word : List Char} (hword : Text.isWord word) (hrest : WordEnds rest) :
    pieces (word ++ rest) = .word word :: pieces rest := by
  cases word with
  | nil => cases hword
  | cons c word =>
    obtain ⟨hfirst, hparts⟩ := (Bool.and_eq_true ..).mp hword
    rw [List.all_eq_true] at hparts
    have htake : rest.takeWhile Text.isWordPart = [] := by
      cases rest with
      | nil => rfl
      | cons d rest => exact List.takeWhile_cons_of_neg (hrest d rfl)
    have hdrop : rest.dropWhile Text.isWordPart = rest := by
      cases rest with
      | nil => rfl
      | cons d rest => exact List.dropWhile_cons_of_neg (hrest d rfl)
    rw [List.cons_append, pieces, if_pos hfirst, List.takeWhile_append_of_pos hparts,
      List.dropWhile_append_of_pos hparts, htake, hdrop, List.append_nil]

theorem innerTokens_word {word : List Char} (hword : Text.isWord word) (hrest : WordEnds rest) :
    innerTokens (word ++ rest) = .ofWord (String.ofList word) :: innerTokens rest := by
  rw [innerTokens, pieces_word hword hrest]
  rfl

theorem innerTokens_noise {c : Char} (hword : ¬ Text.isWordChar c) (hdot : c ≠ '.')
    (hcolon : c ≠ ':') (rest : List Char) : innerTokens (c :: rest) = innerTokens rest := by
  rw [innerTokens, pieces, if_neg hword, if_neg hdot, if_neg hcolon]
  rfl

theorem innerTokens_blank (rest : List Char) : innerTokens (' ' :: rest) = innerTokens rest :=
  innerTokens_noise (by decide) (by decide) (by decide) rest

theorem innerTokens_dot (rest : List Char) :
    innerTokens ('.' :: rest) = .dot :: innerTokens rest := by
  rw [innerTokens, pieces, if_neg (by decide), if_pos rfl]
  rfl

theorem innerTokens_colon (rest : List Char) :
    innerTokens (':' :: rest) = .colon :: innerTokens rest := by
  rw [innerTokens, pieces, if_neg (by decide), if_neg (by decide), if_pos rfl]
  rfl

end

def Piece.ofOther (c : Char) : Piece :=
  if c = '.' then dot else if c = ':' then colon else noise c

theorem pieces_other {c : Char} (hword : ¬ Text.isWordChar c) (rest : List Char) :
    pieces (c :: rest) = Piece.ofOther c :: pieces rest := by
  rw [pieces, if_neg hword, Piece.ofOther]
  split
  · rfl
  · split <;> rfl

theorem Piece.isWord_ofOther (c : Char) : (ofOther c).isWord = false := by
  unfold ofOther
  split
  · rfl
  · split <;> rfl

theorem pieces_induction {motive : List Char → Prop} (nil : motive [])
    (word : ∀ c rest, Text.isWordChar c → motive (rest.dropWhile Text.isWordPart) →
      motive (c :: rest))
    (other : ∀ c rest, ¬ Text.isWordChar c → motive rest → motive (c :: rest)) :
    ∀ chars, motive chars := by
  intro chars
  induction chars using pieces.induct with
  | case1 => exact nil
  | case2 c rest hword ih => exact word c rest hword ih
  | case3 rest hword ih | case4 rest hword _ ih => exact other _ rest hword ih
  | case5 c rest hword _ _ ih => exact other c rest hword ih

/-- Every word that is read in a tag is one. -/
theorem isWord_of_mem_pieces {segment chars : List Char} (h : .word chars ∈ pieces segment) :
    Text.isWord chars := by
  induction segment using pieces_induction with
  | nil => simp [pieces] at h
  | word c rest hword ih =>
    rw [pieces, if_pos hword] at h
    rcases List.mem_cons.mp h with h | h
    · cases h
      simp [Text.isWord, hword]
    · exact ih h
  | other c rest hword ih =>
    rw [pieces_other hword] at h
    rcases List.mem_cons.mp h with h | h
    · have hnone := Piece.isWord_ofOther c
      rw [← h] at hnone
      cases hnone
    · exact ih h

end Stencil
