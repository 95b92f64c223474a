import Stencil.Template
import Stencil.Value.Text

/-!
Contexts: the names that are bound while a template is rendered, in scopes that nest.
-/

namespace Stencil

/-- Bindings of names. The first one of a name counts. -/
abbrev Scope := List (String × Value)

def modelName : String := "model"

/-- The scopes that are open, and the host program whose objects may be met. There always is an
outermost scope, which is never left. -/
structure Context where
  host : Host
  innermost : Scope
  /-- the scopes around the innermost one, from the inside out -/
  outer : List Scope := []

namespace Context

def ofModel (host : Host) (model : Value) : Context where
  host
  innermost := [(modelName, model)]

def scopes (context : Context) : List Scope :=
  context.innermost :: context.outer

def depth (context : Context) : Nat :=
  context.scopes.length

def push (context : Context) : Context :=
  { context with innermost := [], outer := context.scopes }

def pop? (context : Context) : Option Context :=
  match context.outer with
  | [] => none
  | scope :: outer => some { context with innermost := scope, outer }

/-- Leaves the innermost scope. Nothing happens in the outermost one. -/
def pop (context : Context) : Context :=
  context.pop?.getD context

def set (context : Context) (name : String) (value : Value) : Context :=
  { context with innermost := (name, value) :: context.innermost }

/-- What a name is bound to in the innermost scope that binds it. -/
def lookup (context : Context) (name : String) : Option Value :=
  context.scopes.findSome? (·.lookup name)

/-- What a path stands for: what its head is bound to, and then field after field. -/
def resolve (context : Context) (path : Path) : Option Value :=
  path.tail.foldlM (Value.field? context.host) =<< context.lookup path.head

def pathText (context : Context) (path : Path) : String :=
  ((context.resolve path).map (Value.text context.host)).getD ""

@[simp] theorem pop_push (context : Context) : context.push.pop = context := rfl

@[simp] theorem pop_set_push (context : Context) (name : String) (value : Value) :
    (context.push.set name value).pop = context := rfl

@[simp] theorem lookup_push (context : Context) (name : String) :
    context.push.lookup name = context.lookup name := rfl

theorem lookup_set (context : Context) (name other : String) (value : Value) :
    (context.set name value).lookup other =
      if other = name then some value else context.lookup other := by
  rw [lookup, lookup, scopes, scopes, List.findSome?_cons, List.findSome?_cons, set,
    List.lookup_cons]
  by_cases h : other = name
  · rw [if_pos h, beq_iff_eq.mpr h]
  · rw [if_neg h, beq_false_of_ne h]

@[simp] theorem depth_push (context : Context) : context.push.depth = context.depth + 1 := rfl

@[simp] theorem depth_set (context : Context) (name : String) (value : Value) :
    (context.set name value).depth = context.depth := rfl

theorem depth_pos (context : Context) : 0 < context.depth :=
  Nat.succ_pos _

end Context
end Stencil
