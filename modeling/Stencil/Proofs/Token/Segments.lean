import Stencil.Token.Scanner

/-! A source text cut at its double braces. The cuts are made from left to right, so
that no segment holds double braces, not even with one brace of the next cut. -/

namespace Stencil

inductive Delimiter where
  | opening
  | closing
deriving DecidableEq, Repr

namespace Delimiter

def brace : Delimiter → Char
  | opening => '{'
  | closing => '}'

def chars (d : Delimiter) : List Char :=
  [d.brace, d.brace]

def token : Delimiter → Token
  | opening => .openTag
  | closing => .closeTag

def mode : Delimiter → Mode
  | opening => .tag
  | closing => .text

end Delimiter

/-- The segment in front of the first delimiter, and each delimiter with the segment
behind it. -/
structure Segments where
  first : List Char
  others : List (Delimiter × List Char) := []
deriving DecidableEq, Repr

namespace Segments

/-- Cuts a text wherever two equal braces stand next to each other. -/
def ofSource : List Char → Segments
  | [] => ⟨[], []⟩
  | '{' :: '{' :: rest => ⟨[], (.opening, (ofSource rest).first) :: (ofSource rest).others⟩
  | '}' :: '}' :: rest => ⟨[], (.closing, (ofSource rest).first) :: (ofSource rest).others⟩
  | c :: rest => ⟨c :: (ofSource rest).first, (ofSource rest).others⟩

def source (s : Segments) : List Char :=
  s.first ++ s.others.flatMap fun (d, segment) => d.chars ++ segment

def next? (others : List (Delimiter × List Char)) : Option Delimiter :=
  others.head?.map Prod.fst

def NoDelimiter (chars : List Char) : Prop :=
  ∀ d : Delimiter, ¬ d.chars <:+: chars

/-- No cut could be made earlier: each segment is free of double braces even with the
first brace of the delimiter behind it. -/
def LeftmostFrom : List Char → List (Delimiter × List Char) → Prop
  | segment, [] => NoDelimiter segment
  | segment, (d, next) :: others => NoDelimiter (segment ++ [d.brace]) ∧ LeftmostFrom next others

def Leftmost (s : Segments) : Prop :=
  LeftmostFrom s.first s.others

theorem ofSource_delimiter (d : Delimiter) (rest : List Char) :
    ofSource (d.chars ++ rest) = ⟨[], (d, (ofSource rest).first) :: (ofSource rest).others⟩ := by
  cases d <;> rfl

theorem ofSource_cons {c : Char} {rest : List Char} (h : ∀ d : Delimiter, ¬ d.chars <+: c :: rest) :
    ofSource (c :: rest) = ⟨c :: (ofSource rest).first, (ofSource rest).others⟩ := by
  rw [ofSource]
  · rintro r rfl rfl
    exact h .opening ⟨r, rfl⟩
  · rintro r rfl rfl
    exact h .closing ⟨r, rfl⟩

theorem source_induction {motive : List Char → Prop} (nil : motive [])
    (delimiter : ∀ (d : Delimiter) (rest : List Char), motive rest → motive (d.chars ++ rest))
    (char : ∀ c rest, (∀ d : Delimiter, ¬ d.chars <+: c :: rest) → motive rest →
      motive (c :: rest)) :
    ∀ chars, motive chars := by
  intro chars
  induction chars using ofSource.induct with
  | case1 => exact nil
  | case2 rest ih => exact delimiter .opening rest ih
  | case3 rest ih => exact delimiter .closing rest ih
  | case4 c rest hopening hclosing ih =>
    refine char c rest ?_ ih
    rintro (_ | _) ⟨r, h⟩
    · cases h
      exact hopening r rfl rfl
    · cases h
      exact hclosing r rfl rfl

/-- Nothing is lost. -/
theorem source_ofSource (chars : List Char) : (ofSource chars).source = chars := by
  induction chars using source_induction with
  | nil => rfl
  | delimiter d rest ih =>
    rw [ofSource_delimiter, source, List.nil_append, List.flatMap_cons, List.append_assoc]
    exact congrArg _ ih
  | char c rest h ih =>
    rw [ofSource_cons h, source, List.cons_append]
    exact congrArg _ ih

theorem noDelimiter_nil : NoDelimiter [] := by
  intro d h
  cases List.infix_nil.mp h

theorem noDelimiter_cons {c : Char} {chars : List Char} :
    NoDelimiter (c :: chars) ↔ (∀ d : Delimiter, ¬ d.chars <+: c :: chars) ∧ NoDelimiter chars := by
  simp only [NoDelimiter, List.infix_cons_iff, not_or, forall_and]

theorem noDelimiter_brace (d : Delimiter) : NoDelimiter [d.brace] := by
  refine noDelimiter_cons.mpr ⟨?_, noDelimiter_nil⟩
  intro other h
  cases h.length_le with
  | step h => cases h

def start (segment : List Char) : List (Delimiter × List Char) → List Char
  | [] => segment
  | (d, _) :: _ => segment ++ [d.brace]

theorem source_cons (segment : List Char) (d : Delimiter) (next : List Char)
    (others : List (Delimiter × List Char)) :
    source ⟨segment, (d, next) :: others⟩ = segment ++ (d.chars ++ source ⟨next, others⟩) := by
  rw [source, source, List.flatMap_cons, List.append_assoc]

theorem delimiter_isPrefix_iff (d : Delimiter) (c : Char) (segment : List Char)
    (others : List (Delimiter × List Char)) :
    d.chars <+: c :: source ⟨segment, others⟩ ↔ d.chars <+: c :: start segment others := by
  cases others with
  | nil => rw [source, start, List.flatMap_nil, List.append_nil]
  | cons other others =>
    obtain ⟨e, next⟩ := other
    have hstart : start segment ((e, next) :: others) <+:
        source ⟨segment, (e, next) :: others⟩ :=
      ⟨e.brace :: source ⟨next, others⟩, by simp [source_cons, start, Delimiter.chars]⟩
    have hprefix := (List.prefix_cons_inj c).mpr hstart
    refine ⟨fun h => List.prefix_of_prefix_length_le h hprefix ?_, fun h => h.trans hprefix⟩
    simp [start, Delimiter.chars]

theorem leftmostFrom_cons {c : Char} {segment : List Char} {others : List (Delimiter × List Char)} :
    LeftmostFrom (c :: segment) others ↔
      (∀ d : Delimiter, ¬ d.chars <+: c :: start segment others) ∧ LeftmostFrom segment others := by
  cases others with
  | nil => exact noDelimiter_cons
  | cons other others =>
    rw [LeftmostFrom, LeftmostFrom, List.cons_append, noDelimiter_cons, and_assoc]
    rfl

theorem leftmost_ofSource (chars : List Char) : (ofSource chars).Leftmost := by
  induction chars using source_induction with
  | nil => exact noDelimiter_nil
  | delimiter d rest ih =>
    rw [ofSource_delimiter]
    exact ⟨noDelimiter_brace d, ih⟩
  | char c rest h ih =>
    rw [ofSource_cons h]
    refine leftmostFrom_cons.mpr ⟨?_, ih⟩
    intro d hd
    rw [← delimiter_isPrefix_iff] at hd
    exact h d (source_ofSource rest ▸ hd)

theorem ofSource_source_cons {c : Char} {segment : List Char}
    {others : List (Delimiter × List Char)} (h : LeftmostFrom (c :: segment) others)
    (ih : ofSource (source ⟨segment, others⟩) = ⟨segment, others⟩) :
    ofSource (source ⟨c :: segment, others⟩) = ⟨c :: segment, others⟩ := by
  have hchar : ∀ d : Delimiter, ¬ d.chars <+: c :: source ⟨segment, others⟩ := by
    intro d hd
    exact (leftmostFrom_cons.mp h).1 d ((delimiter_isPrefix_iff d c segment others).mp hd)
  have hsource : source ⟨c :: segment, others⟩ = c :: source ⟨segment, others⟩ := rfl
  rw [hsource, ofSource_cons hchar, ih]

/-- There is only one way to cut a text from left to right. -/
theorem ofSource_source {s : Segments} (h : s.Leftmost) : ofSource s.source = s := by
  obtain ⟨first, others⟩ := s
  induction others generalizing first with
  | nil =>
    induction first with
    | nil => rfl
    | cons c first ih => exact ofSource_source_cons h (ih (leftmostFrom_cons.mp h).2)
  | cons other others ihothers =>
    obtain ⟨d, next⟩ := other
    induction first with
    | nil => rw [source_cons, List.nil_append, ofSource_delimiter, ihothers next h.2]
    | cons c first ih => exact ofSource_source_cons h (ih (leftmostFrom_cons.mp h).2)

-- of three braces the first two are the cut
example : ofSource ['{', '{', '{', 'b'] = ⟨[], [(.opening, ['{', 'b'])]⟩ := rfl

end Segments
end Stencil
