import Mathlib.Data.List.Basic
import Stencil.Text.Quoted

/-! Quoted text can be read back: no character's quoted form is the beginning of another one's, so
two texts that are quoted alike are the same. And quoted text has no line end in it. -/

namespace Stencil.Text

/-- The characters that a letter behind a backslash stands for, each with its letter. -/
def escapes : List (Char × Char) :=
  [('"', '"'), ('\\', '\\'), ('\n', 'n'), ('\r', 'r'), ('\t', 't'), ('\x00', '0')]

/-- The three forms that a quoted character may have. -/
inductive QuotedAs (c : Char) : List Char → Prop where
  | letter {letter} (h : (c, letter) ∈ escapes) : QuotedAs c ['\\', letter]
  | number : QuotedAs c (codePoint c)
  | plain (h : c ∉ ['\\', '\n']) : QuotedAs c [c]

theorem quotedAs (c : Char) : QuotedAs c (quotedChar c) := by
  unfold quotedChar
  split
  any_goals exact .letter (by decide)
  next _ hbackslash hline _ _ _ =>
    have hplain : c ∉ ['\\', '\n'] := by simp_all
    split
    · split
      · exact .number
      · exact .plain hplain
    · split
      · exact .number
      · exact .plain hplain

theorem digitChar_inj : ∀ i < 16, ∀ j < 16, Nat.digitChar i = Nat.digitChar j → i = j := by
  decide

theorem toDigits_inj {n m : Nat} (h : Nat.toDigits 16 n = Nat.toDigits 16 m) : n = m := by
  have hdigits (k : Nat) : Nat.toDigits 16 k =
      if k < 16 then [Nat.digitChar k] else Nat.toDigits 16 (k / 16) ++ [Nat.digitChar (k % 16)] :=
    Nat.toDigits_eq_if (by decide)
  have hsome (k : Nat) (d d' : Char) : [d] ≠ Nat.toDigits 16 k ++ [d'] := by
    intro h
    have hfront : [] = Nat.toDigits 16 k := (List.append_inj' ((List.nil_append _).trans h) rfl).1
    exact Nat.toDigits_ne_nil hfront.symm
  induction n using Nat.strongRecOn generalizing m with
  | ind n ih =>
    rw [hdigits n, hdigits m] at h
    by_cases hn : n < 16
    · rw [if_pos hn] at h
      by_cases hm : m < 16
      · rw [if_pos hm] at h
        exact digitChar_inj n hn m hm (List.singleton_inj.mp h)
      · rw [if_neg hm] at h
        exact absurd h (hsome _ _ _)
    · rw [if_neg hn] at h
      by_cases hm : m < 16
      · rw [if_pos hm] at h
        exact absurd h.symm (hsome _ _ _)
      · rw [if_neg hm] at h
        obtain ⟨hfront, hlast⟩ := List.append_inj' h rfl
        have hdiv := ih (n / 16) (by omega) hfront
        have hmod := digitChar_inj _ (Nat.mod_lt n (by decide)) _ (Nat.mod_lt m (by decide))
          (List.singleton_inj.mp hlast)
        omega

theorem mem_toDigits {n : Nat} {c : Char} (h : c ∈ Nat.toDigits 16 n) :
    ∃ d < 16, c = Nat.digitChar d := by
  induction n using Nat.strongRecOn with
  | ind n ih =>
    rw [Nat.toDigits_eq_if (by decide)] at h
    split at h
    · next hn => exact ⟨n, hn, List.mem_singleton.mp h⟩
    · rcases List.mem_append.mp h with h | h
      · exact ih (n / 16) (by omega) h
      · exact ⟨n % 16, Nat.mod_lt n (by decide), List.mem_singleton.mp h⟩

theorem not_mem_toDigits (n : Nat) : '}' ∉ Nat.toDigits 16 n ∧ '\n' ∉ Nat.toDigits 16 n := by
  have hdigit : ∀ d < 16, '}' ≠ Nat.digitChar d ∧ '\n' ≠ Nat.digitChar d := by
    decide
  constructor
  · intro h
    obtain ⟨d, hd, hc⟩ := mem_toDigits h
    exact (hdigit d hd).1 hc
  · intro h
    obtain ⟨d, hd, hc⟩ := mem_toDigits h
    exact (hdigit d hd).2 hc

theorem append_mark_inj {mark : Char} {first second rest rest' : List Char}
    (hfirst : mark ∉ first) (hsecond : mark ∉ second)
    (h : first ++ mark :: rest = second ++ mark :: rest') : first = second ∧ rest = rest' := by
  induction first generalizing second with
  | nil =>
    cases second with
    | nil => exact ⟨rfl, (List.cons.inj h).2⟩
    | cons c second => exact absurd (List.cons.inj h).1 (List.ne_of_not_mem_cons hsecond)
  | cons c first ih =>
    cases second with
    | nil => exact absurd (List.cons.inj h).1.symm (List.ne_of_not_mem_cons hfirst)
    | cons d second =>
      obtain ⟨rfl, htail⟩ := List.cons.inj h
      obtain ⟨rfl, hrest⟩ :=
        ih (List.not_mem_of_not_mem_cons hfirst) (List.not_mem_of_not_mem_cons hsecond) htail
      exact ⟨rfl, hrest⟩

/-- Where the code of each item ends by itself, the codes of a list determine it. -/
theorem flatMap_inj {α : Type} {code : α → List Char} {items items' : List α}
    (hsome : ∀ a, code a ≠ [])
    (hends : ∀ a ∈ items, ∀ b ∈ items', ∀ rest rest',
      code a ++ rest = code b ++ rest' → a = b ∧ rest = rest')
    (h : items.flatMap code = items'.flatMap code) : items = items' := by
  induction items generalizing items' with
  | nil =>
    cases items' with
    | nil => rfl
    | cons b items' => exact absurd (List.append_eq_nil_iff.mp h.symm).1 (hsome b)
  | cons a items ih =>
    cases items' with
    | nil => exact absurd (List.append_eq_nil_iff.mp h).1 (hsome a)
    | cons b items' =>
      rw [List.flatMap_cons, List.flatMap_cons] at h
      obtain ⟨rfl, hrest⟩ := hends a List.mem_cons_self b List.mem_cons_self _ _ h
      have hmore : ∀ c ∈ items, ∀ d ∈ items', ∀ rest rest',
          code c ++ rest = code d ++ rest' → c = d ∧ rest = rest' :=
        fun c hc d hd => hends c (List.mem_cons_of_mem _ hc) d (List.mem_cons_of_mem _ hd)
      rw [ih hmore hrest]

section
variable {c d : Char} {rest rest' : List Char}

theorem codePoint_append_inj (h : codePoint c ++ rest = codePoint d ++ rest') :
    c = d ∧ rest = rest' := by
  simp only [codePoint, List.append_assoc, List.cons_append, List.nil_append,
    List.cons.injEq, true_and] at h
  obtain ⟨hdigits, hrest⟩ :=
    append_mark_inj (not_mem_toDigits c.toNat).1 (not_mem_toDigits d.toNat).1 h
  exact ⟨Char.toNat_inj.mp (toDigits_inj hdigits), hrest⟩

theorem escapes_inj : ∀ first ∈ escapes, ∀ second ∈ escapes,
    first.2 = second.2 → first.1 = second.1 := by
  decide

theorem letter_ne_u : ∀ escape ∈ escapes, escape.2 ≠ 'u' := by
  decide

/-- A quoted character ends where it ends, whatever stands behind it. -/
theorem quotedChar_append_inj (h : quotedChar c ++ rest = quotedChar d ++ rest') :
    c = d ∧ rest = rest' := by
  have hc := quotedAs c
  have hd := quotedAs d
  generalize quotedChar c = first at h hc
  generalize quotedChar d = second at h hd
  cases hc with
  | letter hletter =>
    cases hd with
    | letter hletter' =>
      simp only [List.cons_append, List.nil_append, List.cons.injEq, true_and] at h
      exact ⟨escapes_inj _ hletter _ hletter' h.1, h.2⟩
    | number =>
      simp only [codePoint, List.cons_append, List.cons.injEq, true_and] at h
      exact absurd h.1 (letter_ne_u _ hletter)
    | plain hplain =>
      simp only [List.cons_append, List.cons.injEq] at h
      exact absurd (by simp [← h.1]) hplain
  | number =>
    cases hd with
    | letter hletter =>
      simp only [codePoint, List.cons_append, List.cons.injEq, true_and] at h
      exact absurd h.1.symm (letter_ne_u _ hletter)
    | number => exact codePoint_append_inj h
    | plain hplain =>
      simp only [codePoint, List.cons_append, List.cons.injEq] at h
      exact absurd (by simp [← h.1]) hplain
  | plain hplain =>
    cases hd with
    | plain => exact List.cons.inj h
    | _ =>
      simp only [codePoint, List.cons_append, List.cons.injEq] at h
      exact absurd (by simp [h.1]) hplain

end

theorem quoted_inj {first second : String} (h : quoted first = quoted second) : first = second := by
  rw [quoted, quoted, String.ofList_inj] at h
  have hchars := (List.append_inj' (List.cons.inj h).2 rfl).1
  refine String.toList_inj.mp (flatMap_inj ?_ ?_ hchars)
  · intro c
    have hc := quotedAs c
    generalize quotedChar c = chars at hc
    cases hc <;> simp [codePoint]
  · intro c _ d _ rest rest'
    exact quotedChar_append_inj

theorem newline_not_mem_quoted (text : String) : '\n' ∉ (quoted text).toList := by
  have hchar (c : Char) : '\n' ∉ quotedChar c := by
    have hc := quotedAs c
    generalize quotedChar c = chars at hc
    cases hc with
    | letter hletter =>
      have hline : ∀ escape ∈ escapes, '\n' ∉ ['\\', escape.2] := by
        decide
      exact hline _ hletter
    | number => simp [codePoint, (not_mem_toDigits c.toNat).2]
    | plain hplain =>
      intro hline
      exact hplain (by simp [← List.mem_singleton.mp hline])
  simp [quoted, hchar]

end Stencil.Text
