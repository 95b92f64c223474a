import Mathlib
import Stencil.File.Path

/-! Paths below a directory. A path that is joined to a directory is made of what the directory is
made of and of its own segments behind it, and if none of these leads back, then nothing on the way
along them lies outside of the directory. -/

namespace Stencil

theorem segments_ne_nil (path : List Char) : segments path ≠ [] := by
  cases path with
  | nil => simp [segments]
  | cons c rest =>
    rw [segments]
    split
    · simp
    · split <;> simp

theorem segments_append (path rest : List Char) :
    segments (path ++ '/' :: rest) = segments path ++ segments rest := by
  induction path with
  | nil => simp [segments]
  | cons c path ih =>
    rw [List.cons_append, segments, segments, ih]
    by_cases hslash : c = '/'
    · simp [hslash]
    · obtain ⟨segment, others, hpath⟩ := List.exists_cons_of_ne_nil (segments_ne_nil path)
      simp [hslash, hpath]

theorem segments_dropWhile (path : List Char) : ∃ count,
    segments path = List.replicate count [] ++ segments (path.dropWhile (· == '/')) := by
  induction path with
  | nil => exact ⟨0, rfl⟩
  | cons c path ih =>
    by_cases hslash : c = '/'
    · obtain ⟨count, hcount⟩ := ih
      refine ⟨count + 1, ?_⟩
      simp [segments, hslash, hcount, List.replicate_succ]
    · refine ⟨0, ?_⟩
      simp [hslash]

theorem head?_dropWhile_slash (path : List Char) :
    (path.dropWhile (· == '/')).head? ≠ some '/' := by
  intro h
  have hfalse := List.head?_dropWhile_not (· == '/') path
  rw [h] at hfalse
  simp at hfalse

/-- The segments of a path that are neither empty nor a single dot. -/
def namedSegments (path : List Char) : List (List Char) :=
  (segments path).filter fun segment => segment ≠ [] ∧ segment ≠ ['.']

theorem namedSegments_dropWhile (path : List Char) :
    namedSegments (path.dropWhile (· == '/')) = namedSegments path := by
  obtain ⟨count, hcount⟩ := segments_dropWhile path
  simp [namedSegments, hcount]

theorem mem_segments_dropWhile {segment : List Char} (h : segment ≠ []) (path : List Char) :
    segment ∈ segments (path.dropWhile (· == '/')) ↔ segment ∈ segments path := by
  obtain ⟨count, hcount⟩ := segments_dropWhile path
  simp [hcount, h]

theorem Component.ofSegment?_eq {segment : List Char} (h : segment ≠ ['.', '.']) :
    ofSegment? segment = if segment ≠ [] ∧ segment ≠ ['.'] then some (name segment) else none := by
  unfold ofSegment?
  split
  · rfl
  · rfl
  · exact absurd rfl h
  · next hempty hdot _ => rw [if_pos ⟨hempty, hdot⟩]

/-- Where no segment leads back, the others are the names of what they lead to. -/
theorem filterMap_ofSegment? {parts : List (List Char)} (h : ['.', '.'] ∉ parts) :
    parts.filterMap Component.ofSegment? =
      (parts.filter fun segment => segment ≠ [] ∧ segment ≠ ['.']).map .name := by
  induction parts with
  | nil => rfl
  | cons segment parts ih =>
    have hparts := ih (List.not_mem_of_not_mem_cons h)
    have hsegment : segment ≠ ['.', '.'] := (List.ne_of_not_mem_cons h).symm
    rw [List.filterMap_cons, Component.ofSegment?_eq hsegment, List.filter_cons, hparts]
    by_cases hnamed : segment ≠ [] ∧ segment ≠ ['.']
    · rw [if_pos hnamed, if_pos (decide_eq_true hnamed), List.map_cons]
    · rw [if_neg hnamed, if_neg (by simpa using hnamed)]

theorem any_leadsOut_iff {path : List Char} (h : path.head? ≠ some '/') :
    (components path).any Component.leadsOut = true ↔ ['.', '.'] ∈ segments path := by
  have hfirst : (firstComponent path).any Component.leadsOut = false := by
    rw [firstComponent, if_neg h]
    split <;> rfl
  rw [components, List.any_append, hfirst, Bool.false_or]
  constructor
  · intro hany
    by_contra hback
    rw [filterMap_ofSegment? hback] at hany
    simp [Component.leadsOut] at hany
  · intro hback
    simp only [List.any_eq_true, List.mem_filterMap]
    exact ⟨.parent, ⟨_, hback, rfl⟩, rfl⟩

section
variable {directory other : List Char}

theorem firstComponent_append (h : directory ≠ []) (rest : List Char) :
    firstComponent (directory ++ '/' :: rest) = firstComponent directory := by
  rw [firstComponent, firstComponent, segments_append,
    List.head?_append_of_ne_nil _ h, List.head?_append_of_ne_nil _ (segments_ne_nil directory)]

theorem components_append (directory rest : List Char) :
    components (directory ++ '/' :: rest) =
      components (directory ++ ['/']) ++ (segments rest).filterMap Component.ofSegment? := by
  have hfirst : firstComponent (directory ++ '/' :: rest) =
      firstComponent (directory ++ ['/']) := by
    by_cases h : directory = []
    · simp [h, firstComponent]
    · rw [firstComponent_append h, firstComponent_append h]
  simp [components, hfirst, segments_append, segments, Component.ofSegment?]

theorem components_append_slash (h : directory ≠ []) :
    components (directory ++ ['/']) = components directory := by
  simp [components, firstComponent_append h, segments_append, segments, Component.ofSegment?]

theorem components_join (hdirectory : directory ≠ []) (hother : other.head? ≠ some '/') :
    components (join directory other) =
      components directory ++ (segments other).filterMap Component.ofSegment? := by
  rw [join, if_neg hother]
  split
  · next hslash =>
    obtain ⟨start, hstart⟩ : ∃ start, directory = start ++ ['/'] := by
      simpa [List.getLast?_eq_some_getLast hdirectory, ← List.getLast?_eq_some_iff] using hslash
    rw [hstart, List.append_assoc, List.singleton_append]
    exact components_append start other
  · rw [components_append, components_append_slash hdirectory]

theorem prefix_join (hother : other.head? ≠ some '/') : directory <+: join directory other := by
  rw [join, if_neg hother]
  split <;> exact List.prefix_append _ _

end

/-- A directory, by the names on the way to it from the uppermost one. -/
abbrev Directory := List (List Char)

/-- Where one component leads from a directory, if no link stands there. Nothing lies above the
uppermost directory. -/
def Component.step (directory : Directory) : Component → Directory
  | root => []
  | current => directory
  | parent => directory.dropLast
  | name text => directory ++ [text]

/-- Where the components of a path lead, one after the other. -/
def walk (start : Directory) (steps : List Component) : Directory :=
  steps.foldl Component.step start

theorem walk_append (start : Directory) (steps more : List Component) :
    walk start (steps ++ more) = walk (walk start steps) more :=
  List.foldl_append

theorem walk_names (start : Directory) (names : List (List Char)) :
    walk start (names.map .name) = start ++ names := by
  induction names generalizing start with
  | nil => simp [walk]
  | cons name names ih =>
    have hmore := ih (start ++ [name])
    rw [List.append_assoc] at hmore
    exact hmore

/-- Names lead farther down, wherever the walk along them is stopped. -/
theorem walk_stays_below (start : Directory) {base taken : List Component}
    {names : List (List Char)} (hbase : base <+: taken)
    (htaken : taken <+: base ++ names.map .name) : walk start base <+: walk start taken := by
  obtain ⟨more, rfl⟩ := hbase
  obtain ⟨count, hmore⟩ : ∃ count, more = (names.take count).map .name := by
    have hprefix := (List.prefix_append_right_inj base).mp htaken
    exact ⟨more.length, by rw [List.map_take]; exact List.prefix_iff_eq_take.mp hprefix⟩
  rw [walk_append, hmore, walk_names]
  exact List.prefix_append _ _

end Stencil
