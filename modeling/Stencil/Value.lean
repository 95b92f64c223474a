import Stencil.Double

/-!
The values that templates are rendered against.
-/

namespace Stencil

inductive Value where
  | null
  | bool (b : Bool)
  | int (n : Int64)
  | float (x : Double)
  | string (s : String)
  | list (items : List Value)
  /-- entries in the order of their keys, each key once -/
  | map (entries : List (String × Value))
  /-- an object of the host program, known by its name -/
  | object (name : String)
deriving Repr

/-- The objects of the host program: what each of them answers for a field, and its text. -/
structure Host where
  field? : (object field : String) → Option Value
  text : String → String

def Host.empty : Host where
  field? _ _ := none
  text _ := "true"

namespace Value

/-- Puts an entry into a list of entries that is in the order of the keys. An entry of the same key
is replaced. -/
def insertEntry (key : String) (value : Value) : List (String × Value) → List (String × Value)
  | [] => [(key, value)]
  | entry :: entries =>
    if key < entry.1 then (key, value) :: entry :: entries
    else if key = entry.1 then (key, value) :: entries
    else entry :: insertEntry key value entries

/-- The map with these entries. Of several entries with one key the last one counts. -/
def ofEntries (entries : List (String × Value)) : Value :=
  .map (entries.foldl (fun sorted entry => insertEntry entry.1 entry.2 sorted) [])

def isNull : Value → Bool
  | null => true
  | _ => false

/-- What a value answers for a field: the entry of a map or the field of an object. Nothing else has
fields. -/
def field? (host : Host) (value : Value) (name : String) : Option Value :=
  match value with
  | map entries => entries.lookup name
  | object self => host.field? self name
  | _ => none

def items? : Value → Option (List Value)
  | list items => some items
  | _ => none

mutual

/-- Equality of values. Numbers of different kinds are never equal, doubles are compared as numbers,
and an object is equal to itself alone. -/
def eq : Value → Value → Bool
  | null, null => true
  | bool a, bool b => a == b
  | int a, int b => a == b
  | float a, float b => a.eq b
  | string a, string b => a == b
  | list a, list b => eqItems a b
  | map a, map b => eqEntries a b
  | object a, object b => a == b
  | _, _ => false

def eqItems : List Value → List Value → Bool
  | [], [] => true
  | a :: as, b :: bs => eq a b && eqItems as bs
  | _, _ => false

def eqEntries : List (String × Value) → List (String × Value) → Bool
  | [], [] => true
  | (key, a) :: as, (key', b) :: bs => key == key' && eq a b && eqEntries as bs
  | _, _ => false

end

instance : BEq Value := ⟨eq⟩

end Value
end Stencil
