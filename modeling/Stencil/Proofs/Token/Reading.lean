import Stencil.Proofs.Token.Segments
import Mathlib.Data.List.DropRight

/-! The tokens of a source text, segment by segment. The scanner keeps characters
aside until it knows whether they count; here each segment is read as a whole, and
the scanner is shown to find the same tokens. -/

namespace Stencil

/-- What a segment inside a tag is made of. -/
inductive Piece where
  | word (chars : List Char)
  | dot
  | colon
  | noise (c : Char)
deriving DecidableEq, Repr

namespace Piece

def isWord : Piece → Bool
  | word _ => true
  | _ => false

def token? : Piece → Option Token
  | word chars => some (.ofWord (String.ofList chars))
  | dot => some .dot
  | colon => some .colon
  | noise _ => none

def noise? : Piece → Option Char
  | noise c => some c
  | _ => none

/-- The characters behind the last word that belong to no token. -/
def trailing (pieces : List Piece) : List Char :=
  (pieces.rtakeWhile fun piece => !piece.isWord).filterMap noise?

end Piece

/-- Reads a segment from left to right. A word starts with a word character and is as
long as it can be. -/
def pieces : List Char → List Piece
  | [] => []
  | c :: rest =>
    if Text.isWordChar c then
      .word (c :: rest.takeWhile Text.isWordPart) :: pieces (rest.dropWhile Text.isWordPart)
    else if c = '.' then .dot :: pieces rest
    else if c = ':' then .colon :: pieces rest
    else .noise c :: pieces rest
termination_by chars => chars.length
decreasing_by
  all_goals have := Scanner.length_dropWhile_le Text.isWordPart rest
  all_goals simp only [List.length_cons]
  all_goals omega

/-- Characters that belong to no other token are one text token, unless there are none
or a tag ends behind them. -/
def leftover (chars : List Char) (next? : Option Delimiter) : List Token :=
  if chars = [] ∨ next? = some .closing then [] else [.text (String.ofList chars)]

def pieceTokens (pieces : List Piece) (next? : Option Delimiter) : List Token :=
  pieces.filterMap Piece.token? ++ leftover (Piece.trailing pieces) next?

def segmentTokens (mode : Mode) (segment : List Char) (next? : Option Delimiter) : List Token :=
  match mode with
  | .text => leftover segment next?
  | .tag => pieceTokens (pieces segment) next?

namespace Segments

def tokensOf : List (Delimiter × List Char) → List Token
  | [] => []
  | (d, segment) :: others =>
    d.token :: segmentTokens d.mode segment (next? others) ++ tokensOf others

def tokens (s : Segments) : List Token :=
  segmentTokens .text s.first (next? s.others) ++ tokensOf s.others

end Segments

namespace Piece

theorem trailing_append (before after : List Piece) :
    trailing (before ++ after) =
      if after.any isWord then trailing after else trailing before ++ after.filterMap noise? := by
  induction after using List.reverseRecOn with
  | nil => simp
  | append_singleton after piece ih =>
    rw [← List.append_assoc, trailing, trailing, List.rtakeWhile_concat, List.rtakeWhile_concat]
    by_cases h : piece.isWord
    · simp [h]
    · have hpiece : (!piece.isWord) = true := by simp [h]
      rw [if_pos hpiece, if_pos hpiece, List.filterMap_append, List.filterMap_append,
        ← trailing, ← trailing, ih]
      by_cases hword : after.any isWord
      · simp [hword]
      · simp [hword, h]

theorem trailing_of_no_word {pieces : List Piece} (h : pieces.any isWord = false) :
    trailing pieces = pieces.filterMap noise? := by
  have happend := trailing_append [] pieces
  rwa [List.nil_append, h, if_neg Bool.false_ne_true] at happend

theorem trailing_append_word (before : List Piece) (chars : List Char) (after : List Piece) :
    trailing (before ++ word chars :: after) = trailing after := by
  have hword : trailing (before ++ [word chars]) = [] := by
    rw [trailing, List.rtakeWhile_concat]
    rfl
  rw [List.append_cons, trailing_append, hword, List.nil_append]
  cases h : after.any isWord with
  | true => rfl
  | false => exact (trailing_of_no_word h).symm

theorem trailing_append_mark (before : List Piece) {mark : Piece} (after : List Piece)
    (hword : mark.isWord = false) (hnoise : mark.noise? = none) :
    trailing (before ++ mark :: after) = trailing (before ++ after) := by
  have hmark : trailing (before ++ [mark]) = trailing before := by
    rw [trailing_append]
    simp [hword, hnoise]
  rw [List.append_cons, trailing_append, hmark, ← trailing_append]

theorem trailing_noise (chars : List Char) : trailing (chars.map noise) = chars := by
  rw [trailing_of_no_word]
  · induction chars with
    | nil => rfl
    | cons c chars ih => rw [List.map_cons, List.filterMap_cons, ih]; rfl
  · simp [isWord]

end Piece

section
variable (kept chars : List Char) (after : List Piece) (next? : Option Delimiter)

theorem noise_token? : (kept.map Piece.noise).filterMap Piece.token? = [] := by
  induction kept with
  | nil => rfl
  | cons c kept ih => exact ih

theorem pieceTokens_noise : pieceTokens (kept.map .noise) next? = leftover kept next? := by
  rw [pieceTokens, noise_token?, Piece.trailing_noise, List.nil_append]

theorem pieceTokens_word :
    pieceTokens (kept.map .noise ++ .word chars :: after) next? =
      .ofWord (String.ofList chars) :: pieceTokens after next? := by
  rw [pieceTokens, pieceTokens, Piece.trailing_append_word, List.filterMap_append, noise_token?]
  rfl

theorem pieceTokens_mark {mark : Piece} {token : Token} (htoken : mark.token? = some token)
    (hword : mark.isWord = false) (hnoise : mark.noise? = none) :
    pieceTokens (kept.map .noise ++ mark :: after) next? =
      token :: pieceTokens (kept.map .noise ++ after) next? := by
  rw [pieceTokens, pieceTokens, Piece.trailing_append_mark _ _ hword hnoise, List.filterMap_append,
    List.filterMap_append, noise_token?, List.nil_append, List.nil_append,
    List.filterMap_cons_some htoken, List.cons_append]

end

namespace Segments

theorem not_isWordPart_brace (d : Delimiter) : ¬ Text.isWordPart d.brace := by
  cases d <;> decide

theorem takeWhile_ofSource (chars : List Char) :
    (ofSource chars).first.takeWhile Text.isWordPart = chars.takeWhile Text.isWordPart := by
  induction chars using source_induction with
  | nil => rfl
  | delimiter d rest =>
    rw [ofSource_delimiter, Delimiter.chars, List.cons_append,
      List.takeWhile_cons_of_neg (not_isWordPart_brace d), List.takeWhile_nil]
  | char c rest h ih => rw [ofSource_cons h, List.takeWhile_cons, List.takeWhile_cons, ih]

theorem ofSource_dropWhile (chars : List Char) :
    ofSource (chars.dropWhile Text.isWordPart) =
      ⟨(ofSource chars).first.dropWhile Text.isWordPart, (ofSource chars).others⟩ := by
  induction chars using source_induction with
  | nil => rfl
  | delimiter d rest =>
    rw [Delimiter.chars, List.cons_append, List.dropWhile_cons_of_neg (not_isWordPart_brace d),
      ← List.cons_append, ← Delimiter.chars, ofSource_delimiter, List.dropWhile_nil]
  | char c rest h ih =>
    by_cases hpart : Text.isWordPart c
    · rw [ofSource_cons h, List.dropWhile_cons_of_pos hpart, List.dropWhile_cons_of_pos hpart, ih]
    · rw [List.dropWhile_cons_of_neg hpart, ofSource_cons h, List.dropWhile_cons_of_neg hpart]

end Segments

namespace Scanner

/-- The tokens of a segment at whose start some characters are kept aside already. -/
def keptTokens (mode : Mode) (kept segment : List Char) (next? : Option Delimiter) : List Token :=
  match mode with
  | .text => leftover (kept ++ segment) next?
  | .tag => pieceTokens (kept.map .noise ++ pieces segment) next?

def ahead (s : Scanner) : List Token :=
  let segments := Segments.ofSource s.rest
  keptTokens s.mode s.pending.reverse segments.first (Segments.next? segments.others) ++
    Segments.tokensOf segments.others

theorem keptTokens_nil (mode : Mode) (kept : List Char) (next? : Option Delimiter) :
    keptTokens mode kept [] next? = leftover kept next? := by
  cases mode with
  | text => rw [keptTokens, List.append_nil]
  | tag => rw [keptTokens, pieces, List.append_nil, pieceTokens_noise]

theorem keptTokens_of_none (mode : Mode) (segment : List Char) (next? : Option Delimiter) :
    keptTokens mode [] segment next? = segmentTokens mode segment next? := by
  cases mode <;> rfl

theorem flush_eq_leftover (s : Scanner) {next? : Option Delimiter} (h : next? ≠ some .closing) :
    s.flush = leftover s.pending.reverse next? := by
  rw [flush, leftover]
  cases s.pending <;> simp [h]

theorem step_delimiter (d : Delimiter) (rest : List Char) (offset : Nat) (mode : Mode)
    (pending : List Char) :
    step ⟨d.chars ++ rest, offset, mode, pending⟩ =
      (leftover pending.reverse (some d) ++ [d.token],
        { rest, offset := offset + 2, mode := d.mode }) := by
  cases d with
  | opening =>
    exact congrArg (fun tokens => (tokens ++ [Token.openTag], _)) (flush_eq_leftover _ nofun)
  | closing =>
    rw [leftover, if_pos (Or.inr rfl)]
    rfl

theorem step_char {c : Char} {rest : List Char}
    (h : ∀ d : Delimiter, ¬ d.chars <+: c :: rest) (offset : Nat) (mode : Mode)
    (pending : List Char) :
    step ⟨c :: rest, offset, mode, pending⟩ =
      match mode with
      | .text => ([], keep ⟨c :: rest, offset, .text, pending⟩ c rest)
      | .tag =>
        if Text.isWordChar c then
          ([.ofWord (String.ofList (c :: rest.takeWhile Text.isWordPart))],
            { rest := rest.dropWhile Text.isWordPart
              offset := offset + Text.byteLength (c :: rest.takeWhile Text.isWordPart)
              mode := .tag })
        else if c = '.' then ([.dot], ⟨rest, offset + 1, .tag, pending⟩)
        else if c = ':' then ([.colon], ⟨rest, offset + 1, .tag, pending⟩)
        else ([], keep ⟨c :: rest, offset, .tag, pending⟩ c rest) := by
  unfold step
  split
  · next hrest => cases hrest
  · next r hrest => exact absurd ⟨r, hrest.symm⟩ (h .opening)
  · next r hrest => exact absurd ⟨r, hrest.symm⟩ (h .closing)
  · next hrest =>
    cases hrest
    cases mode <;> rfl

theorem step_ahead (s : Scanner) (h : s.rest ≠ []) : s.ahead = s.step.1 ++ s.step.2.ahead := by
  obtain ⟨rest, offset, mode, pending⟩ := s
  induction rest using Segments.source_induction with
  | nil => contradiction
  | delimiter d rest =>
    rw [step_delimiter, ahead, ahead]
    simp only [Segments.ofSource_delimiter, List.reverse_nil]
    rw [keptTokens_nil, keptTokens_of_none, Segments.tokensOf]
    simp [Segments.next?]
  | char c rest hc =>
    rw [step_char hc, ahead]
    simp only [Segments.ofSource_cons hc]
    cases mode with
    | text =>
      simp [ahead, keptTokens, keep]
    | tag =>
      simp only [keptTokens]
      rw [pieces]
      split
      · rw [pieceTokens_word, Segments.takeWhile_ofSource]
        simp [ahead, keptTokens, Segments.ofSource_dropWhile]
      · split
        · rw [pieceTokens_mark _ _ _ rfl rfl rfl]
          simp [ahead, keptTokens]
        · split
          · rw [pieceTokens_mark _ _ _ rfl rfl rfl]
            simp [ahead, keptTokens]
          · simp [ahead, keptTokens, keep]

theorem run_eq_ahead (s : Scanner) (found : List Token) :
    s.run found = found.reverse ++ s.ahead := by
  induction s, found using run.induct with
  | case1 s found h =>
    have hend : s.ahead = keptTokens s.mode s.pending.reverse [] none ++ [] := by
      rw [ahead, h]
      rfl
    have hflush := flush_eq_leftover s (show none ≠ some Delimiter.closing from nofun)
    rw [run, if_pos h, hend, keptTokens_nil, List.append_nil, hflush]
  | case2 s found h ih =>
    rw [run, if_neg h, ih, step_ahead s h]
    simp

end Scanner

theorem tokenize_eq_tokens (source : String) :
    tokenize source = (Segments.ofSource source.toList).tokens := by
  rw [tokenize, Scanner.run_eq_ahead, Scanner.ahead]
  exact congrArg (· ++ _) (Scanner.keptTokens_of_none ..)

end Stencil
