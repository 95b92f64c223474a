import Mathlib
import Stencil.View
import Stencil.File.Tree
import Stencil.Proofs.File.Path

/-! Names of views and the files below the root directory. A name that leads back anywhere has no
file, and the file of any other name lies below the root directory, on all of the way to it.
Slashes in front of a name do not count, unless there is nothing behind them: then the name is that
of the root directory itself. -/

namespace Stencil.FileViews

/-- A name has a file unless it is empty or leads back anywhere. -/
theorem path?_eq (root name : String) :
    path? root name =
      if name = "" ∨ ['.', '.'] ∈ segments name.toList then none
      else some (String.ofList (join root.toList (name.toList.dropWhile (· == '/')))) := by
  have hleadsOut := any_leadsOut_iff (head?_dropWhile_slash name.toList)
  rw [mem_segments_dropWhile (by decide)] at hleadsOut
  rw [path?]
  refine if_congr ?_ rfl rfl
  rw [Bool.or_eq_true, hleadsOut, String.isEmpty_iff, or_comm]

section
variable {root name path : String}

theorem path?_isSome (hname : name ≠ "") (hback : ['.', '.'] ∉ segments name.toList) :
    (path? root name).isSome := by
  rw [path?_eq, if_neg (not_or.mpr ⟨hname, hback⟩)]
  rfl

theorem of_path?_eq_some (h : path? root name = some path) :
    ['.', '.'] ∉ segments (name.toList.dropWhile (· == '/')) ∧
      path = String.ofList (join root.toList (name.toList.dropWhile (· == '/'))) := by
  rw [path?_eq] at h
  split at h
  · cases h
  · next hname =>
    rw [mem_segments_dropWhile (by decide)]
    exact ⟨fun hback => hname (Or.inr hback), (Option.some.inj h).symm⟩

/-- The path of a view is made of the path of the root directory and of the names in the view's
name. -/
theorem components_of_path? (hroot : root ≠ "") (h : path? root name = some path) :
    components path.toList =
      components root.toList ++ (namedSegments name.toList).map .name := by
  obtain ⟨hback, hpath⟩ := of_path?_eq_some h
  have hrelative := head?_dropWhile_slash name.toList
  rw [hpath, String.toList_ofList, components_join (by simpa using hroot) hrelative,
    filterMap_ofSegment? hback, ← namedSegments, namedSegments_dropWhile]

end

/-- A view's file lies below the root directory. No name that is empty or has a segment that leads
back has one, and every other name that has a segment at all does. The path is that of the root
directory with the name behind it, less its leading slashes: it is made of what the root directory's
path is made of and, behind this, of the names in the view's name. So nothing on the way along it
lies outside of the root directory, from the point on where this is reached. -/
theorem path?_below_root (root name : String) (hroot : root ≠ "") :
    (name = "" ∨ ['.', '.'] ∈ segments name.toList → path? root name = none) ∧
      (['.', '.'] ∉ segments name.toList → (∃ segment ∈ segments name.toList, segment ≠ []) →
        (path? root name).isSome) ∧
      ∀ path, path? root name = some path →
        path = String.ofList (join root.toList (name.toList.dropWhile (· == '/'))) ∧
          root.toList <+: path.toList ∧
          components path.toList =
            components root.toList ++ (namedSegments name.toList).map .name ∧
          ∀ (start : Directory) (taken : List Component),
            components root.toList <+: taken → taken <+: components path.toList →
              walk start (components root.toList) <+: walk start taken := by
  refine ⟨fun h => ?_, fun hback hsome => ?_, fun path h => ?_⟩
  · rw [path?_eq, if_pos h]
  · apply path?_isSome _ hback
    intro hempty
    simp [hempty, segments] at hsome
  · have hpath := (of_path?_eq_some h).2
    have hcomponents := components_of_path? hroot h
    refine ⟨hpath, ?_, hcomponents, fun start taken hbase htaken => ?_⟩
    · rw [hpath, String.toList_ofList]
      exact prefix_join (head?_dropWhile_slash name.toList)
    · rw [hcomponents] at htaken
      exact walk_stays_below start hbase htaken

/-- A name with slashes in front, doubled ones inside, a dot and a segment that only looks as if it
led back, below a root directory that leads back itself. -/
theorem path?_below_root_dots :
    let root := "../views/"
    let name := "//a//./..b/"
    let path := "../views/a//./..b/"
    root ≠ "" ∧ path? root name = some path ∧
      namedSegments name.toList = [['a'], ['.', '.', 'b']] ∧
      components path.toList = components root.toList ++ [.name ['a'], .name ['.', '.', 'b']] ∧
      walk [['x'], ['y']] (components root.toList) = [['x'], ['v', 'i', 'e', 'w', 's']] ∧
      walk [['x'], ['y']] (components root.toList) <+:
        walk [['x'], ['y']] (components path.toList) := by
  intro root name path
  have hroot : root ≠ "" := by
    decide
  have hpath : path? root name = some path := by
    decide
  have hnames : namedSegments name.toList = [['a'], ['.', '.', 'b']] := by
    decide
  obtain ⟨-, -, hcomponents, hwalk⟩ := (path?_below_root root name hroot).2.2 path hpath
  refine ⟨hroot, hpath, hnames, ?_, by decide, ?_⟩
  · rw [hcomponents, hnames]
    rfl
  · apply hwalk
    · rw [hcomponents]
      exact List.prefix_append _ _
    · exact List.prefix_refl _

def slashes (count : Nat) : String :=
  String.ofList (List.replicate count '/')

theorem dropWhile_slashes_append (count : Nat) (name : String) :
    (slashes count ++ name).toList.dropWhile (· == '/') = name.toList.dropWhile (· == '/') := by
  rw [slashes, String.toList_append, String.toList_ofList]
  apply List.dropWhile_append_of_pos
  simp

theorem path?_slashes_append (root name : String) (count : Nat) :
    path? root (slashes count ++ name) =
      if name = "" ∧ count ≠ 0 then some (String.ofList (join root.toList []))
      else path? root name := by
  have hempty : slashes count ++ name = "" ↔ count = 0 ∧ name = "" := by
    simp [slashes]
  have hback : ['.', '.'] ∈ segments (slashes count ++ name).toList ↔
      ['.', '.'] ∈ segments name.toList := by
    rw [← mem_segments_dropWhile (by decide), dropWhile_slashes_append,
      mem_segments_dropWhile (by decide)]
  simp only [path?_eq, hempty, hback, dropWhile_slashes_append]
  by_cases hname : name = ""
  · by_cases hcount : count = 0
    · simp [hname, hcount]
    · simp [hname, hcount, segments]
  · simp [hname]

theorem source_of_fault {views : FileViews} {name path : String} {fault : ReadFault}
    (hpath : path? views.root name = some path) (hread : views.read path = .error fault)
    (hfault : fault ≠ .missing) : views.source name = .error (.unreadable name fault) := by
  simp only [source, hpath, hread]

/-- Slashes in front of a name that is not empty do not count. But a name of slashes alone is not
refused as the empty one is: it is the name of the root directory, and what is reported of it is the
fault in reading this directory. -/
theorem path?_leading_slashes (views : FileViews) (name : String) (count : Nat)
    (fault : ReadFault) :
    let top := String.ofList (join views.root.toList [])
    path? views.root (slashes count ++ name) =
        (if name = "" ∧ count ≠ 0 then some top else path? views.root name) ∧
      views.source "" = .error (.notFound "") ∧
      (count ≠ 0 → views.read top = .error fault → fault ≠ .missing →
        views.source (slashes count) = .error (.unreadable (slashes count) fault)) := by
  intro top
  refine ⟨path?_slashes_append views.root name count, rfl, fun hcount hread hfault => ?_⟩
  have htop : path? views.root (slashes count) = some top := by
    simpa [hcount] using path?_slashes_append views.root "" count
  exact source_of_fault htop hread hfault

/-- Two slashes where there are no files: what is reported is that the root is a directory. -/
theorem path?_leading_slashes_empty :
    let views : FileViews := ⟨".", FileTree.read {}⟩
    path? views.root "//a" = path? views.root "a" ∧
      views.source "" = .error (.notFound "") ∧ views.read "./" = .error .isDirectory ∧
      views.source "//" = .error (.unreadable "//" .isDirectory) := by
  intro views
  have hslashes : slashes 2 = "//" := by
    decide
  have hread : views.read "./" = .error .isDirectory := by
    decide
  have hname : slashes 2 ++ "a" = "//a" := by
    decide
  have htop : String.ofList (join views.root.toList []) = "./" := by
    decide
  obtain ⟨hpath, hempty, -⟩ := path?_leading_slashes views "a" 2 .isDirectory
  obtain ⟨-, -, hsource⟩ := path?_leading_slashes views "" 2 .isDirectory
  rw [hname, if_neg (by decide)] at hpath
  rw [hslashes, htop] at hsource
  exact ⟨hpath, hempty, hread, hsource (by decide) hread (by decide)⟩

/-- One slash does count in front of the empty name. -/
theorem path?_slash_ne_empty :
    ¬ ∀ (root name : String) (count : Nat),
      path? root (slashes count ++ name) = path? root name := by
  intro h
  have hslash := h "/views" "" 1
  rw [path?_slashes_append] at hslash
  cases hslash

end Stencil.FileViews
