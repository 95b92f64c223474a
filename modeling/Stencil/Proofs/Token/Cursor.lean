import Stencil.Proofs.Token.Reading

/-! The scanner's place in a source text, counted in bytes. It is never inside of a character: what
is unread is the part of the source behind it, as a text of its own, and so is each word. Every turn
moves on by one byte at least, and the last one ends where the source ends. -/

namespace Stencil

namespace Text

/-- The part of a text between two of its bytes. There is none where one of them is beyond the end
or inside of a character, or where they come in the wrong order. -/
def slice? (text : String) (start stop : Nat) : Option String :=
  if h : start ≤ stop ∧ (⟨start⟩ : String.Pos.Raw).IsValid text ∧
      (⟨stop⟩ : String.Pos.Raw).IsValid text then
    some (text.extract ⟨⟨start⟩, h.2.1⟩ ⟨⟨stop⟩, h.2.2⟩)
  else none

theorem slice?_append (before part after : String) :
    slice? (before ++ part ++ after) before.utf8ByteSize (before ++ part).utf8ByteSize =
      some part := by
  have hle : before.utf8ByteSize ≤ (before ++ part).utf8ByteSize := by
    rw [String.utf8ByteSize_append]
    exact Nat.le_add_right _ _
  have hstart : (⟨before.utf8ByteSize⟩ : String.Pos.Raw).IsValid (before ++ part ++ after) :=
    String.Pos.Raw.isValid_iff_exists_append.mpr
      ⟨before, part ++ after, String.append_assoc, rfl⟩
  have hstop : (⟨(before ++ part).utf8ByteSize⟩ : String.Pos.Raw).IsValid
      (before ++ part ++ after) :=
    String.Pos.Raw.isValid_iff_exists_append.mpr ⟨before ++ part, after, rfl, rfl⟩
  rw [slice?, dif_pos ⟨hle, hstart, hstop⟩, Option.some_inj, ← String.toByteArray_inj,
    String.toByteArray_extract, String.toByteArray_append (t := after)]
  show ((before ++ part).toByteArray ++ after.toByteArray).extract before.toByteArray.size
    (before ++ part).toByteArray.size = part.toByteArray
  rw [ByteArray.extract_append_size_left, String.toByteArray_append]
  exact ByteArray.extract_append_eq_right rfl ByteArray.size_append

theorem slice?_ofList (before part after : List Char) :
    slice? (String.ofList (before ++ part ++ after)) (byteLength before)
      (byteLength (before ++ part)) = some (String.ofList part) := by
  rw [byteLength_eq, byteLength_eq, String.ofList_append, String.ofList_append]
  exact slice?_append ..

theorem byteLength_pos {chars : List Char} (h : chars ≠ []) : 0 < byteLength chars := by
  obtain ⟨c, rest, rfl⟩ := List.exists_cons_of_ne_nil h
  exact Nat.add_pos_left c.utf8Size_pos _

end Text

namespace Scanner

/-- The scanners between the turns of the loop over a source, each with the tokens found so far. -/
inductive Visits (source : String) : List Token → Scanner → Prop where
  | start : Visits source [] { rest := source.toList }
  | turn {found s} (before : Visits source found s) (goesOn : s.rest ≠ []) :
      Visits source (found ++ s.step.1) s.step.2

/-- A scanner whose place fits the source. -/
structure SoundPlace (source : String) (s : Scanner) : Prop where
  /-- the place is within the source, and not inside of a character -/
  within : s.offset ≤ source.utf8ByteSize ∧ (⟨s.offset⟩ : String.Pos.Raw).IsValid source
  unread : Text.slice? source s.offset source.utf8ByteSize = some (String.ofList s.rest)
  atEnd : s.rest = [] ↔ s.offset = source.utf8ByteSize
  advances : s.rest ≠ [] → s.offset < s.step.2.offset
  /-- a word at the front of what is unread is a part of it, and the turn ends behind the word -/
  word : ∀ c rest, s.mode = .tag → s.rest = c :: rest → Text.isWordChar c = true →
    ∃ word, Text.slice? (String.ofList s.rest) 0
        (Text.byteLength (s.rest.takeWhile Text.isWordPart)) = some word ∧
      s.step.1 = [.ofWord word] ∧
      s.step.2.offset = s.offset + Text.byteLength (s.rest.takeWhile Text.isWordPart)

variable {source : String} {found : List Token} {s : Scanner}

theorem step_word {c : Char} {rest : List Char} (hword : Text.isWordChar c = true) (offset : Nat)
    (pending : List Char) :
    step ⟨c :: rest, offset, .tag, pending⟩ =
      ([.ofWord (String.ofList ((c :: rest).takeWhile Text.isWordPart))],
        { rest := rest.dropWhile Text.isWordPart
          offset := offset + Text.byteLength ((c :: rest).takeWhile Text.isWordPart)
          mode := .tag }) := by
  have hpart : Text.isWordPart c = true := Text.isWordPart_of_isWordChar hword
  have hbrace : ∀ d : Delimiter, ¬ d.chars <+: c :: rest := by
    rintro d ⟨after, hafter⟩
    obtain rfl : d.brace = c := (List.cons.inj hafter).1
    exact Segments.not_isWordPart_brace d hpart
  rw [step_char hbrace, List.takeWhile_cons_of_pos hpart]
  exact if_pos hword

theorem step_takes (s : Scanner) (h : s.rest ≠ []) : ∃ taken, taken ≠ [] ∧
    s.rest = taken ++ s.step.2.rest ∧ s.step.2.offset = s.offset + Text.byteLength taken := by
  obtain ⟨rest, offset, mode, pending⟩ := s
  induction rest using Segments.source_induction with
  | nil => contradiction
  | delimiter d rest =>
    rw [step_delimiter]
    refine ⟨d.chars, List.cons_ne_nil _ _, rfl, ?_⟩
    cases d <;> rfl
  | char c rest hc =>
    have hone : c = '.' ∨ c = ':' → Text.byteLength [c] = 1 := by
      rintro (rfl | rfl) <;> rfl
    rw [step_char hc]
    cases mode with
    | text => exact ⟨[c], List.cons_ne_nil _ _, rfl, rfl⟩
    | tag =>
      by_cases hword : Text.isWordChar c = true
      · simp only [if_pos hword]
        refine ⟨c :: rest.takeWhile Text.isWordPart, List.cons_ne_nil _ _, ?_, rfl⟩
        rw [List.cons_append, List.takeWhile_append_dropWhile]
      · simp only [if_neg hword]
        refine ⟨[c], List.cons_ne_nil _ _, ?_⟩
        split
        · next hdot => exact ⟨rfl, by rw [hone (Or.inl hdot)]⟩
        · split
          · next hcolon => exact ⟨rfl, by rw [hone (Or.inr hcolon)]⟩
          · exact ⟨rfl, rfl⟩

/-- The place of a scanner is the number of bytes in front of what is unread. -/
theorem Visits.source_eq (h : Visits source found s) :
    ∃ before, source.toList = before ++ s.rest ∧ s.offset = Text.byteLength before := by
  induction h with
  | start => exact ⟨[], rfl, rfl⟩
  | @turn found s before goesOn ih =>
    obtain ⟨read, hsource, hoffset⟩ := ih
    obtain ⟨taken, -, hrest, hplace⟩ := step_takes s goesOn
    refine ⟨read ++ taken, ?_, ?_⟩
    · rw [hsource, hrest, List.append_assoc]
    · rw [hplace, hoffset, Text.byteLength_append]

theorem Visits.run_eq (h : Visits source found s) : tokenize source = s.run found.reverse := by
  induction h with
  | start => rfl
  | @turn found s before goesOn ih =>
    rw [ih, run, if_neg goesOn, List.reverse_append]

theorem Visits.exists_last (h : Visits source found s) :
    ∃ found last, Visits source found last ∧ last.rest = [] := by
  induction hlength : s.rest.length using Nat.strongRecOn generalizing found s with
  | ind length ih =>
    by_cases hend : s.rest = []
    · exact ⟨found, s, h, hend⟩
    · exact ih _ (hlength ▸ step_rest_lt s hend) (h.turn hend) rfl

theorem Visits.soundPlace (h : Visits source found s) : SoundPlace source s := by
  obtain ⟨before, hsource, hoffset⟩ := h.source_eq
  have hsize : source.utf8ByteSize = Text.byteLength (before ++ s.rest) := by
    rw [← hsource, Text.byteLength_toList]
  have hunread : Text.slice? source s.offset source.utf8ByteSize = some (String.ofList s.rest) := by
    have hslice := Text.slice?_ofList before s.rest []
    rwa [List.append_nil, ← hsize, ← hoffset, ← hsource, String.ofList_toList] at hslice
  refine ⟨?_, hunread, ?_, ?_, ?_⟩
  · rw [Text.slice?] at hunread
    split at hunread
    · next h => exact ⟨h.1, h.2.1⟩
    · cases hunread
  · rw [hsize, hoffset, Text.byteLength_append]
    constructor
    · intro hend
      rw [hend]
      rfl
    · intro hplace
      by_contra hend
      have := Text.byteLength_pos hend
      omega
  · intro goesOn
    obtain ⟨taken, htaken, -, hplace⟩ := step_takes s goesOn
    have := Text.byteLength_pos htaken
    omega
  · intro c rest hmode hrest hword
    obtain ⟨_, offset, _, pending⟩ := s
    obtain rfl : _ = c :: rest := hrest
    obtain rfl : _ = Mode.tag := hmode
    rw [step_word hword]
    refine ⟨_, ?_, rfl, rfl⟩
    have hslice := Text.slice?_ofList [] ((c :: rest).takeWhile Text.isWordPart)
      ((c :: rest).dropWhile Text.isWordPart)
    rwa [List.nil_append, List.takeWhile_append_dropWhile] at hslice

/-- At every turn the place of the scanner is sound, and the last turn ends at the end of the
source, with all of its tokens found. -/
theorem place_sound (source : String) :
    (∀ found s, Visits source found s → SoundPlace source s) ∧
      ∃ found last, Visits source found last ∧ last.offset = source.utf8ByteSize ∧
        tokenize source = found ++ last.flush := by
  refine ⟨fun found s h => h.soundPlace, ?_⟩
  have hstart : Visits source [] { rest := source.toList } := .start
  obtain ⟨found, last, h, hend⟩ := hstart.exists_last
  refine ⟨found, last, h, h.soundPlace.atEnd.mp hend, ?_⟩
  rw [h.run_eq, run, if_pos hend, List.reverse_reverse]

end Scanner
end Stencil
