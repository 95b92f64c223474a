import Mathlib
import Stencil.Render

/-! Which values a condition holds for. It is decided by the text of a value, but the text of a
number, of a list or of a map starts with a digit, a sign, a bracket or another mark, and is never
mistaken for one that counts as false. So only null, false itself, two strings and objects with the
text of one of them fail a condition. -/

namespace Stencil

/-- The text is not empty and starts in another way than `false`. -/
def Unfalse (text : List Char) : Prop :=
  ∃ c rest, text = c :: rest ∧ c ≠ 'f'

theorem isDigit_toDigits (n : Nat) : ∀ c ∈ Nat.toDigits 10 n, c.isDigit = true :=
  fun _ => Nat.isDigit_of_mem_toDigits (by decide) (by decide)

theorem head_toDigits (n : Nat) : ∃ c rest, Nat.toDigits 10 n = c :: rest ∧ c.isDigit = true := by
  obtain ⟨c, rest, hdigits⟩ := List.exists_cons_of_ne_nil (Nat.toDigits_ne_nil (n := n) (b := 10))
  exact ⟨c, rest, hdigits, isDigit_toDigits n c (hdigits ▸ List.mem_cons_self)⟩

theorem unfalse_of_isDigit {c : Char} (rest : List Char) (h : c.isDigit = true) :
    Unfalse (c :: rest) := by
  refine ⟨c, rest, rfl, ?_⟩
  rintro rfl
  exact absurd h (by decide)

theorem Decimal.head_text (style : DoubleStyle) (d : Decimal) :
    ∃ c rest, d.text style = c :: rest ∧ c.isDigit = true := by
  obtain ⟨c, rest, hdigits, hc⟩ := head_toDigits d.digits
  rw [text, hdigits]
  split
  · unfold positional
    split
    · exact ⟨'0', _, rfl, rfl⟩
    · next hplace =>
      obtain ⟨k, hk⟩ : ∃ k, (((c :: rest).length : Int) + d.exponent).toNat = k + 1 :=
        ⟨_, (Nat.succ_pred_eq_of_pos (by omega)).symm⟩
      split
      · exact ⟨c, _, by rw [hk]; rfl, hc⟩
      · exact ⟨c, _, rfl, hc⟩
  · exact ⟨c, _, rfl, hc⟩

theorem Double.unfalse_text (style : DoubleStyle) (x : Double) : Unfalse (x.text style).toList := by
  unfold text
  split
  · exact ⟨'N', _, rfl, by decide⟩
  · rw [String.toList_ofList]
    split
    · exact ⟨'-', _, rfl, by decide⟩
    · split
      · exact ⟨'i', _, rfl, by decide⟩
      · split
        · exact ⟨'0', _, rfl, by decide⟩
        · obtain ⟨c, rest, htext, hc⟩ := Decimal.head_text style (x.shortest style.tie)
          rw [htext]
          exact unfalse_of_isDigit rest hc

theorem unfalse_toString (n : Int) : Unfalse (toString n).toList := by
  rw [Int.toString_eq_repr, Int.repr_eq_if]
  split
  · obtain ⟨c, rest, hdigits, hc⟩ := head_toDigits n.toNat
    rw [Nat.toList_repr, hdigits]
    exact unfalse_of_isDigit rest hc
  · exact ⟨'-', _, String.toList_append, by decide⟩

theorem unfalse_enclosed {mark : Char} (h : mark ≠ 'f') (inner close : String) :
    Unfalse (String.ofList [mark] ++ inner ++ close).toList := by
  rw [String.toList_append, String.toList_append, String.toList_ofList]
  exact ⟨mark, _, rfl, h⟩

namespace Value

theorem isTruthy_of_unfalse {text : String} (h : Unfalse text.toList) : isTruthy text = true := by
  obtain ⟨c, rest, htext, hc⟩ := h
  rw [isTruthy, Bool.and_eq_true, bne_iff_ne, bne_iff_ne]
  constructor
  · rintro rfl
    cases htext
  · rintro rfl
    cases htext
    exact hc rfl

theorem isTruthy_eq (text : String) :
    isTruthy text = !decide (text = "" ∨ text = "false") := by
  rw [isTruthy, Bool.decide_or, Bool.not_or]
  rfl

/-- The values for which a condition does not hold. -/
def CountsAsFalse (host : Host) : Value → Prop
  | null => True
  | bool b => b = false
  | string s => s = "" ∨ s = "false"
  | object name => host.text name = "" ∨ host.text name = "false"
  | int _ | float _ | list _ | map _ => False

instance (host : Host) (value : Value) : Decidable (value.CountsAsFalse host) :=
  match value with
  | null => inferInstanceAs (Decidable True)
  | bool b => inferInstanceAs (Decidable (b = false))
  | string s => inferInstanceAs (Decidable (s = "" ∨ s = "false"))
  | object name => inferInstanceAs (Decidable (host.text name = "" ∨ host.text name = "false"))
  | int _ | float _ | list _ | map _ => inferInstanceAs (Decidable False)

/-- The text of a value tells whether it counts as false. -/
theorem isTruthy_text (host : Host) (value : Value) :
    isTruthy (value.text host) = !decide (value.CountsAsFalse host) := by
  cases value with
  | null => rw [text]; rfl
  | bool b => cases b <;> rw [text] <;> rfl
  | int n =>
    rw [text]
    exact isTruthy_of_unfalse (unfalse_toString n.toInt)
  | float x =>
    rw [text]
    exact isTruthy_of_unfalse (Double.unfalse_text doubleStyle x)
  | string s =>
    rw [text]
    exact isTruthy_eq s
  | list items =>
    rw [text]
    exact isTruthy_of_unfalse (unfalse_enclosed (by decide) _ "]")
  | map entries =>
    rw [text]
    exact isTruthy_of_unfalse (unfalse_enclosed (by decide) _ "\x7d")
  | object name =>
    rw [text]
    exact isTruthy_eq (host.text name)

end Value

theorem Context.isTruthy_pathText (context : Context) (condition : Path) :
    Value.isTruthy (context.pathText condition) = true ↔
      ∃ value ∈ context.resolve condition, ¬ value.CountsAsFalse context.host := by
  rw [pathText]
  cases context.resolve condition with
  | none => simp [Value.isTruthy]
  | some value => simp [Value.isTruthy_text]

end Stencil
