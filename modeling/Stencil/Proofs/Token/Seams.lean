import Stencil.Proofs.Token.Segments

/-! A text behind another one. If no double braces arise where they meet, both are cut as
each of them is alone, and the segments at the seam become one. -/

namespace Stencil.Segments

/-- The segment behind the last delimiter. -/
def lastFrom (segment : List Char) : List (Delimiter × List Char) → List Char
  | [] => segment
  | (_, next) :: others => lastFrom next others

def last (s : Segments) : List Char :=
  lastFrom s.first s.others

/-- The segments `t` behind a segment and others, with the seam inside of one segment. -/
def appendFrom (t : Segments) (segment : List Char) : List (Delimiter × List Char) → Segments
  | [] => ⟨segment ++ t.first, t.others⟩
  | (d, next) :: others => ⟨segment, (d, (appendFrom t next others).first) ::
      (appendFrom t next others).others⟩

def append (s t : Segments) : Segments :=
  appendFrom t s.first s.others

/-- The first text does not end with the brace with which the second one starts. -/
def Apart (before after : List Char) : Prop :=
  ∀ d : Delimiter, ¬ (before.getLast? = some d.brace ∧ after.head? = some d.brace)

theorem append_cons (c : Char) (s t : Segments) :
    append ⟨c :: s.first, s.others⟩ t = ⟨c :: (append s t).first, (append s t).others⟩ := by
  obtain ⟨first, others⟩ := s
  cases others <;> rfl

theorem Apart.of_append {front before after : List Char} (h : Apart (front ++ before) after) :
    Apart before after := by
  rintro d ⟨hbefore, hafter⟩
  refine h d ⟨?_, hafter⟩
  rw [List.getLast?_append, hbefore]
  rfl

theorem not_delimiter_of_apart {c : Char} {rest after : List Char}
    (h : ∀ d : Delimiter, ¬ d.chars <+: c :: rest) (apart : Apart (c :: rest) after) :
    ∀ d : Delimiter, ¬ d.chars <+: c :: (rest ++ after) := by
  intro d hd
  cases rest with
  | nil =>
    obtain ⟨rest, hrest⟩ := hd
    cases hrest
    exact apart d ⟨rfl, rfl⟩
  | cons next rest =>
    obtain ⟨others, hothers⟩ := hd
    cases hothers
    exact h d ⟨rest, rfl⟩

theorem ofSource_append {before after : List Char} (apart : Apart before after) :
    ofSource (before ++ after) = (ofSource before).append (ofSource after) := by
  induction before using source_induction with
  | nil => rfl
  | delimiter d rest ih =>
    rw [List.append_assoc, ofSource_delimiter, ofSource_delimiter, ih apart.of_append]
    rfl
  | char c rest h ih =>
    have hcons : Apart ([c] ++ rest) after := apart
    rw [List.cons_append, ofSource_cons (not_delimiter_of_apart h apart), ofSource_cons h,
      append_cons, ih hcons.of_append]

end Stencil.Segments
