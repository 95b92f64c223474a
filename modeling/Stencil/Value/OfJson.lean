import Stencil.Value
import Stencil.Json
import Stencil.Double.Nearest

/-!
JSON documents as values.
-/

namespace Stencil.Value

/-- A whole number is an integer if it has at most sixty-four bits with its sign, and the nearest
double otherwise. -/
def ofNumber : Json.Number → Value
  | .whole n =>
    if Int64.minValue.toInt ≤ n ∧ n ≤ Int64.maxValue.toInt then .int (Int64.ofInt n)
    else .float (Double.ofNat n.toNat)
  | .double x => .float x

mutual

def ofJson : Json → Value
  | .null => .null
  | .bool b => .bool b
  | .number n => ofNumber n
  | .string s => .string s
  | .array items => .list (ofJsonItems items)
  | .object members => ofEntries (ofJsonMembers members)

def ofJsonItems : List Json → List Value
  | [] => []
  | json :: items => ofJson json :: ofJsonItems items

def ofJsonMembers : List (String × Json) → List (String × Value)
  | [] => []
  | (key, json) :: members => (key, ofJson json) :: ofJsonMembers members

end

@[simp] theorem ofJsonItems_eq_map (items : List Json) : ofJsonItems items = items.map ofJson := by
  induction items with
  | nil => rfl
  | cons item items ih => rw [ofJsonItems, List.map_cons, ih]

@[simp] theorem ofJsonMembers_eq_map (members : List (String × Json)) :
    ofJsonMembers members = members.map fun member => (member.1, ofJson member.2) := by
  induction members with
  | nil => rfl
  | cons member members ih => rw [ofJsonMembers, List.map_cons, ih]

theorem ofJson_array (items : List Json) : ofJson (.array items) = .list (items.map ofJson) := by
  rw [ofJson, ofJsonItems_eq_map]

theorem ofJson_object (members : List (String × Json)) :
    ofJson (.object members) =
      ofEntries (members.map fun member => (member.1, ofJson member.2)) := by
  rw [ofJson, ofJsonMembers_eq_map]

end Stencil.Value
