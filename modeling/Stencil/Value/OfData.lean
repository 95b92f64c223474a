import Stencil.Value.OfJson

/-!
Structured data of the host program as values.
-/

namespace Stencil

inductive Data where
  | absent
  | bool (b : Bool)
  | string (s : String)
  | signed (n : Int64)
  | unsigned (n : UInt64)
  | double (x : Double)
  | single (bits : UInt32)
  | sequence (items : List Data)
  | record (fields : List (String × Data))
deriving Repr

namespace Value

/-- A double as a value, if it is finite. -/
def ofDouble (x : Double) : Value :=
  if x.isFinite then .float x else .null

mutual

def ofData : Data → Value
  | .absent => .null
  | .bool b => .bool b
  | .string s => .string s
  | .signed n => .int n
  | .unsigned n => ofNumber (.whole n.toNat)
  | .double x => ofDouble x
  | .single bits => ofDouble (Double.ofSingleBits bits)
  | .sequence items => .list (ofDataItems items)
  | .record fields => ofEntries (ofDataFields fields)

def ofDataItems : List Data → List Value
  | [] => []
  | data :: items => ofData data :: ofDataItems items

def ofDataFields : List (String × Data) → List (String × Value)
  | [] => []
  | (name, data) :: fields => (name, ofData data) :: ofDataFields fields

end

end Value
end Stencil
