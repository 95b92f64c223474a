import Stencil.Double

/-!
JSON documents.
-/

namespace Stencil

/-- A number is whole if it is written without point and exponent, is not `-0`, and lies between
`-2 ^ 63` and `2 ^ 64 - 1`. Any other number is a double. -/
inductive Json.Number where
  | whole (n : Int)
  | double (x : Double)
deriving DecidableEq, Repr

inductive Json where
  | null
  | bool (b : Bool)
  | number (n : Json.Number)
  | string (s : String)
  | array (items : List Json)
  | object (members : List (String × Json))
deriving Repr

/-- The member of an object with this key. Of several the last one counts. -/
def Json.member? (json : Json) (key : String) : Option Json :=
  match json with
  | .object members => members.reverse.lookup key
  | _ => none

end Stencil
