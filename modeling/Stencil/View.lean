import Stencil.Engine
import Stencil.File.Path

/-!
Named views: where their source comes from, and rendering one by its name.
-/

namespace Stencil

inductive ViewError where
  | notFound (name : String)
  | unreadable (name : String) (fault : ReadFault)
  | malformed (name : String) (error : ParseError)
deriving DecidableEq, Repr

def ViewError.message : ViewError → String
  | .notFound name => "view not found: " ++ name
  | .unreadable name fault => "failed to read view " ++ name ++ ": " ++ fault.message
  | .malformed name error => "view " ++ name ++ " is malformed: " ++ error.message

abbrev ViewSource := String → Except ViewError String

/-- Views held in memory, the ones added last first. -/
abbrev MemoryViews := List (String × String)

namespace MemoryViews

def add (views : MemoryViews) (name source : String) : MemoryViews :=
  (name, source) :: views

def ofList (views : List (String × String)) : MemoryViews :=
  views.foldl (fun known view => known.add view.1 view.2) []

def source (views : MemoryViews) : ViewSource := fun name =>
  match views.lookup name with
  | some source => .ok source
  | none => .error (.notFound name)

end MemoryViews

structure FileViews where
  root : String
  read : String → Except ReadFault String

namespace FileViews

/-- The path of a view's file. Slashes in front of the name do not count, and there is no file for a
name that could lead out of the root directory. -/
def path? (root name : String) : Option String :=
  let relative := name.toList.dropWhile (· == '/')
  if (components relative).any Component.leadsOut || name.isEmpty then none
  else some (String.ofList (join root.toList relative))

def source (views : FileViews) : ViewSource := fun name =>
  match path? views.root name with
  | none => .error (.notFound name)
  | some path =>
    match views.read path with
    | .ok source => .ok source
    | .error .missing => .error (.notFound name)
    | .error fault => .error (.unreadable name fault)

end FileViews

structure ModelAndView where
  view : String
  model : Value

instance : BEq ModelAndView where
  beq a b := a.view == b.view && a.model == b.model

namespace Settings

def renderView (settings : Settings) (host : Host) (views : ViewSource) (name : String)
    (model : Value) : Traced (Except ViewError String) :=
  match views name with
  | .error error => ⟨.error error, []⟩
  | .ok source =>
    let compiled := settings.compile source
    match compiled.result with
    | .error error => ⟨.error (.malformed name error), compiled.events⟩
    | .ok template =>
      let finished := finish (compiled.events ++ [.rendering name]) (template.render host model)
      ⟨.ok finished.result, finished.events⟩

def renderModelAndView (settings : Settings) (host : Host) (views : ViewSource)
    (request : ModelAndView) : Traced (Except ViewError String) :=
  settings.renderView host views request.view request.model

end Settings
end Stencil
