import Stencil.Value
import Stencil.Double.Text

/-!
The text of a value.
-/

namespace Stencil.Value

/-- Doubles are written in positional notation from 0.0001 on and below 10 ^ 16. -/
def doubleStyle : DoubleStyle where
  least := -3
  greatest := 16
  plus := false
  tie := .upper

mutual

/-- Null has no text; lists and maps show what they hold in brackets and braces. -/
def text (host : Host) : Value → String
  | null => ""
  | bool b => if b then "true" else "false"
  | int n => toString n.toInt
  | float x => x.text doubleStyle
  | string s => s
  | list items => "[" ++ ", ".intercalate (itemTexts host items) ++ "]"
  | map entries => "\x7b" ++ ", ".intercalate (entryTexts host entries) ++ "\x7d"
  | object name => host.text name

def itemTexts (host : Host) : List Value → List String
  | [] => []
  | value :: values =>
    (if value.isNull then "null" else text host value) :: itemTexts host values

def entryTexts (host : Host) : List (String × Value) → List String
  | [] => []
  | (key, value) :: entries =>
    (key ++ "=" ++ if value.isNull then "null" else text host value) :: entryTexts host entries

end

def itemText (host : Host) (item : Value) : String :=
  if item.isNull then "null" else item.text host

def entryText (host : Host) (entry : String × Value) : String :=
  entry.1 ++ "=" ++ if entry.2.isNull then "null" else entry.2.text host

@[simp] theorem itemTexts_eq_map (host : Host) (items : List Value) :
    itemTexts host items = items.map (itemText host) := by
  induction items with
  | nil => rfl
  | cons item items ih => rw [itemTexts, List.map_cons, ih, itemText]

@[simp] theorem entryTexts_eq_map (host : Host) (entries : List (String × Value)) :
    entryTexts host entries = entries.map (entryText host) := by
  induction entries with
  | nil => rfl
  | cons entry entries ih => rw [entryTexts, List.map_cons, ih, entryText]

theorem text_list (host : Host) (items : List Value) :
    (list items).text host = "[" ++ ", ".intercalate (items.map (itemText host)) ++ "]" := by
  rw [text, itemTexts_eq_map]

theorem text_map (host : Host) (entries : List (String × Value)) :
    (map entries).text host =
      "\x7b" ++ ", ".intercalate (entries.map (entryText host)) ++ "\x7d" := by
  rw [text, entryTexts_eq_map]

/-- A text counts as true unless it is empty or `false`. -/
def isTruthy (text : String) : Bool :=
  text != "" && text != "false"

end Stencil.Value
