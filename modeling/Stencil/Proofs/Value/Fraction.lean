import Mathlib
import Stencil.Proofs.Double.Shortest
import Stencil.Proofs.Value.Entries
import Stencil.Proofs.Value.Truth

/-! Which doubles show a fraction. Every text in positional notation has one; with an exponent, a
text has a point only in front of a second digit. So what a finite double shows without a fraction
is one digit and an exponent, which is not the text of a whole number either. -/

namespace Stencil

/-- A point with a digit behind it is somewhere in the text. -/
def HasFraction (text : List Char) : Prop :=
  ∃ before digit after, text = before ++ '.' :: digit :: after ∧ digit.isDigit = true

section
variable {text inner : List Char}

theorem HasFraction.widen (h : HasFraction inner) (within : inner <:+: text) :
    HasFraction text := by
  obtain ⟨before, digit, after, rfl, hdigit⟩ := h
  obtain ⟨left, right, rfl⟩ := within
  exact ⟨left ++ before, digit, after ++ right, by simp, hdigit⟩

theorem hasFraction_cons_iff {c : Char} (hc : c ≠ '.') :
    HasFraction (c :: text) ↔ HasFraction text := by
  constructor
  · rintro ⟨before, digit, after, htext, hdigit⟩
    cases before with
    | nil => exact absurd (List.cons.inj htext).1 hc
    | cons _ before => exact ⟨before, digit, after, (List.cons.inj htext).2, hdigit⟩
  · exact fun h => h.widen (List.suffix_cons c text).isInfix

theorem HasFraction.dot_mem (h : HasFraction text) : '.' ∈ text := by
  obtain ⟨before, digit, after, rfl, -⟩ := h
  simp

theorem hasFraction_of_digits {digits : List Char} (before after : List Char)
    (hne : digits ≠ []) (hdigits : ∀ c ∈ digits, c.isDigit = true) :
    HasFraction (before ++ '.' :: (digits ++ after)) := by
  obtain ⟨c, rest, rfl⟩ := List.exists_cons_of_ne_nil hne
  exact ⟨before, c, rest ++ after, rfl, hdigits c List.mem_cons_self⟩

theorem not_mem_of_digits {c : Char} {digits : List Char}
    (hdigits : ∀ c ∈ digits, c.isDigit = true) (hc : c.isDigit = false) : c ∉ digits :=
  fun hmem => Bool.false_ne_true (hc.symm.trans (hdigits c hmem))

theorem not_mem_toString {c : Char} (n : ℤ) (hc : c.isDigit = false) (hsign : c ≠ '-') :
    c ∉ (toString n).toList := by
  rw [Int.toString_eq_repr, Int.repr_eq_if]
  split
  · rw [Nat.toList_repr]
    exact not_mem_of_digits (isDigit_toDigits _) hc
  · rw [String.toList_append, Nat.toList_repr]
    intro hmem
    rcases List.mem_append.mp hmem with hmem | hmem
    · exact hsign (List.mem_singleton.mp hmem)
    · exact not_mem_of_digits (isDigit_toDigits _) hc hmem

end

namespace Decimal

section
variable {digits : List Char} {place : ℤ}

theorem hasFraction_positional (hne : digits ≠ []) (hdigits : ∀ c ∈ digits, c.isDigit = true) :
    HasFraction (positional digits place) := by
  unfold positional
  split
  · have hzeros : ∀ c ∈ List.replicate (-place).toNat '0' ++ digits, c.isDigit = true := by
      intro c hc
      rcases List.mem_append.mp hc with hzero | hdigit
      · rw [List.eq_of_mem_replicate hzero]
        rfl
      · exact hdigits c hdigit
    simpa using hasFraction_of_digits ['0'] [] (List.append_ne_nil_of_right_ne_nil _ hne) hzeros
  · split
    · next hplace =>
      have hdrop : digits.drop place.toNat ≠ [] := by
        rw [ne_eq, List.drop_eq_nil_iff]
        omega
      simpa using hasFraction_of_digits (digits.take place.toNat) [] hdrop
        fun c hc => hdigits c (List.mem_of_mem_drop hc)
    · exact ⟨_, '0', [], rfl, rfl⟩

theorem hasFraction_scientific (hlong : digits.length ≠ 1) (hne : digits ≠ [])
    (hdigits : ∀ c ∈ digits, c.isDigit = true) (plus : Bool) :
    HasFraction (scientific plus digits place) := by
  have hdrop : digits.drop 1 ≠ [] := by
    have hlength := List.length_pos_iff.mpr hne
    rw [ne_eq, List.drop_eq_nil_iff]
    omega
  rw [scientific, if_neg hlong, List.append_assoc, List.append_assoc]
  exact hasFraction_of_digits _ _ hdrop fun c hc => hdigits c (List.mem_of_mem_drop hc)

end

section
variable {style : DoubleStyle} {d : Decimal} {k : ℤ}

def place (d : Decimal) : ℤ :=
  (Nat.toDigits 10 d.digits).length + d.exponent

theorem text_eq (style : DoubleStyle) (d : Decimal) : d.text style =
    if style.least ≤ d.place ∧ d.place ≤ style.greatest then
      positional (Nat.toDigits 10 d.digits) d.place
    else scientific style.plus (Nat.toDigits 10 d.digits) d.place :=
  rfl

theorem length_toDigits_eq_one_iff (n : ℕ) : (Nat.toDigits 10 n).length = 1 ↔ n < 10 := by
  have hpos : 0 < (Nat.toDigits 10 n).length := List.length_pos_iff.mpr Nat.toDigits_ne_nil
  have hle := Nat.length_toDigits_le_iff (b := 10) (n := n) (k := 1) (by decide) (by decide)
  rw [pow_one] at hle
  omega

theorem ten_zpow_le_value_iff (h : 0 < d.digits) : 10 ^ k ≤ d.value ↔ k < d.place := by
  have hscaled : (10 : ℚ) ^ k ≤ d.value ↔ 10 ^ (k - d.exponent) ≤ (d.digits : ℚ) := by
    rw [zpow_sub₀ (by norm_num), div_le_iff₀ (by positivity), value]
  have hlength : 0 < (Nat.toDigits 10 d.digits).length :=
    List.length_pos_iff.mpr Nat.toDigits_ne_nil
  rw [hscaled, place]
  rcases le_or_gt (k - d.exponent) 0 with hsmall | hlarge
  · refine iff_of_true ?_ (by omega)
    calc (10 : ℚ) ^ (k - d.exponent) ≤ 1 := zpow_le_one_of_nonpos₀ (by norm_num) hsmall
      _ ≤ d.digits := by exact_mod_cast h
  · obtain ⟨n, hn⟩ := Int.eq_ofNat_of_zero_le hlarge.le
    have hpow : (10 : ℚ) ^ n ≤ d.digits ↔ 10 ^ n ≤ d.digits := by exact_mod_cast Iff.rfl
    rw [hn, zpow_natCast, hpow, ← not_lt,
      ← Nat.length_toDigits_le_iff (b := 10) (by decide) (by omega)]
    omega

theorem text_of_digit (hplus : style.plus = false)
    (hplace : ¬ (style.least ≤ d.place ∧ d.place ≤ style.greatest)) (hdigit : d.digits < 10) :
    d.text style = Nat.toDigits 10 d.digits ++ 'e' :: (toString d.exponent).toList := by
  have hlength := (length_toDigits_eq_one_iff d.digits).mpr hdigit
  have hexponent : d.place - 1 = d.exponent := by
    rw [place, hlength]
    omega
  rw [text_eq, if_neg hplace, scientific, if_pos hlength, List.take_of_length_le hlength.le, hplus,
    hexponent]
  simp

/-- Only a single digit with an exponent has no fraction. -/
theorem hasFraction_text_iff (hplus : style.plus = false) : HasFraction (d.text style) ↔
    (style.least ≤ d.place ∧ d.place ≤ style.greatest) ∨ 10 ≤ d.digits := by
  constructor
  · intro h
    by_contra hneither
    obtain ⟨hplace, hdigit⟩ := not_or.mp hneither
    have hdot := h.dot_mem
    rw [text_of_digit hplus hplace (not_le.mp hdigit), List.mem_append, List.mem_cons] at hdot
    rcases hdot with hdigits | hmark | hexponent
    · exact not_mem_of_digits (isDigit_toDigits _) rfl hdigits
    · exact absurd hmark (by decide)
    · exact not_mem_toString d.exponent rfl (by decide) hexponent
  · intro h
    have hne : Nat.toDigits 10 d.digits ≠ [] := Nat.toDigits_ne_nil
    rw [text_eq]
    split
    · exact hasFraction_positional hne (isDigit_toDigits _)
    · next hplace =>
      have hlong : (Nat.toDigits 10 d.digits).length ≠ 1 := by
        rw [ne_eq, length_toDigits_eq_one_iff]
        exact Nat.not_lt.mpr (h.resolve_left hplace)
      exact hasFraction_scientific hlong hne (isDigit_toDigits _) style.plus

end
end Decimal

namespace Double
variable {x : Double}

theorem not_contains_multiple {n : ℕ} (h : x.magnitude < n * 2 ^ x.scale) :
    ¬ x.interval.Contains (n * 2 ^ x.scale) := by
  intro hcontains
  have hunit : (0 : ℚ) < 2 ^ x.scale := by positivity
  have hlt : x.significand < n := by
    rw [magnitude, mul_lt_mul_iff_left₀ hunit] at h
    exact_mod_cast h
  have hhigh : x.interval.high < n * 4 := by
    simp only [interval]
    omega
  have hfour : (2 : ℚ) ^ x.scale = 4 * 2 ^ x.interval.scale := by
    simp only [interval]
    rw [zpow_sub₀ (by norm_num)]
    norm_num
    ring
  refine hcontains.le.2.not_gt ?_
  rw [hfour, ← mul_assoc]
  refine mul_lt_mul_of_pos_right ?_ (by positivity)
  exact_mod_cast hhigh

theorem two_zpow_le_magnitude {q : ℤ} (hq : -1074 < q) (h : q ≤ x.scale) :
    2 ^ (52 + q) ≤ x.magnitude := by
  have hbits : ((2 ^ 52 : ℕ) : ℚ) ≤ x.significand := by
    exact_mod_cast le_significand (hq.trans_le h)
  calc (2 : ℚ) ^ (52 + q) = (2 ^ 52 : ℕ) * 2 ^ q := by
        rw [zpow_add₀ (by norm_num)]
        norm_num
    _ ≤ x.magnitude :=
        mul_le_mul hbits (zpow_le_zpow_right₀ (by norm_num) h) (by positivity) (by positivity)

theorem point_high_lt {q : ℤ} (h : x.scale ≤ q) :
    x.interval.point x.interval.high < 2 ^ (53 + q) := by
  have hbits : x.interval.high < 2 ^ 55 := by
    have hlt := x.significand_lt
    simp only [interval]
    omega
  calc x.interval.point x.interval.high < (2 ^ 55 : ℕ) * 2 ^ (x.scale - 2) :=
        mul_lt_mul_of_pos_right (by exact_mod_cast hbits) (by positivity)
    _ = 2 ^ (53 + x.scale) := by
        rw [zpow_sub₀ (by norm_num), zpow_add₀ (by norm_num)]
        norm_num
        ring
    _ ≤ 2 ^ (53 + q) := zpow_le_zpow_right₀ (by norm_num) (by omega)

theorem not_contains_ten_zpow_sixteen (h : x.magnitude < 10 ^ (16 : ℤ)) :
    ¬ x.interval.Contains (10 ^ (16 : ℤ)) := by
  have hscale : x.scale ≤ 1 := by
    by_contra hlarge
    refine h.not_ge (le_trans ?_ (two_zpow_le_magnitude (q := 2) (by decide) (by omega)))
    norm_num
  -- `10 ^ 16` is a multiple of the unit of every double below it
  have hmultiple : (10 : ℚ) ^ (16 : ℤ) = (5 ^ 16 * 2 ^ (16 - x.scale).toNat : ℕ) * 2 ^ x.scale := by
    have htwo : (2 : ℚ) ^ (16 - x.scale).toNat * 2 ^ x.scale = 2 ^ (16 : ℤ) := by
      rw [← zpow_natCast, ← zpow_add₀ (by norm_num)]
      congr 1
      omega
    push_cast
    rw [mul_assoc, htwo]
    norm_num
  rw [hmultiple] at h ⊢
  exact not_contains_multiple h

theorem not_contains_ten_zpow_neg_four (h : x.magnitude < 10 ^ (-4 : ℤ)) :
    ¬ x.interval.Contains (10 ^ (-4 : ℤ)) := by
  -- the double nearest to `10 ^ -4` is above it
  intro hcontains
  have hhigh := hcontains.le.2
  have hscale : x.scale = -66 := by
    refine le_antisymm ?_ ?_
    · by_contra hlarge
      refine h.not_ge (le_trans ?_ (two_zpow_le_magnitude (q := -65) (by decide) (by omega)))
      norm_num
    · by_contra hsmall
      refine hhigh.not_gt ((point_high_lt (q := -67) (by omega)).trans ?_)
      norm_num
  have hbelow : x.significand * 10 ^ 4 < 2 ^ 66 := by
    rw [magnitude, hscale] at h
    norm_num at h
    have hrat : (x.significand : ℚ) * 10 ^ 4 < 2 ^ 66 := by
      linarith
    exact_mod_cast hrat
  have habove : 2 ^ 68 ≤ (4 * x.significand + 2) * 10 ^ 4 := by
    rw [Interval.point] at hhigh
    simp only [interval, hscale] at hhigh
    norm_num at hhigh
    have hrat : (2 : ℚ) ^ 68 ≤ (4 * x.significand + 2) * 10 ^ 4 := by
      linarith
    exact_mod_cast hrat
  omega

/-- The doubles that are written in positional notation. -/
theorem place_shortest_iff (hfinite : x.isFinite = true) (hzero : x.isZero = false) (tie : Tie) :
    (-3 ≤ (x.shortest tie).place ∧ (x.shortest tie).place ≤ 16) ↔
      (10 : ℚ) ^ (-4 : ℤ) ≤ x.magnitude ∧ x.magnitude < 10 ^ (16 : ℤ) := by
  have around := interval_around hfinite hzero
  have hshortest := shortest_spec hfinite hzero tie
  have hdigits := hshortest.digits_pos around
  have hpower {k : ℤ} (h : x.magnitude < 10 ^ k → ¬ x.interval.Contains (10 ^ k)) :
      k < (x.shortest tie).place ↔ 10 ^ k ≤ x.magnitude := by
    rw [← Decimal.ten_zpow_le_value_iff hdigits, ← x.point_middle] at *
    exact hshortest.ten_zpow_le_value_iff around h
  rw [← not_le (a := (10 : ℚ) ^ (16 : ℤ)), ← hpower not_contains_ten_zpow_neg_four,
    ← hpower not_contains_ten_zpow_sixteen]
  omega

/-- Whether one digit and a power of ten tell the double from every other. -/
def IsOneDigit (x : Double) : Prop :=
  ∃ digit < 10, ∃ k : ℤ, x.interval.Contains ((digit : ℕ) * 10 ^ k)

def sign (x : Double) : List Char :=
  if x.negative then ['-'] else []

theorem not_isNaN (hfinite : x.isFinite = true) : x.isNaN = false := by
  rw [isFinite, bne_iff_ne] at hfinite
  rw [isNaN, beq_false_of_ne hfinite, Bool.false_and]

theorem toList_text (hfinite : x.isFinite = true) (style : DoubleStyle) :
    (x.text style).toList =
      x.sign ++ if x.isZero then ['0', '.', '0'] else (x.shortest style.tie).text style := by
  rw [text, not_isNaN hfinite, if_neg Bool.false_ne_true, String.toList_ofList, hfinite, sign]
  cases x.negative <;> rfl

theorem hasFraction_shortest_iff (hfinite : x.isFinite = true) (hzero : x.isZero = false) :
    HasFraction ((x.shortest .upper).text Value.doubleStyle) ↔
      ((10 : ℚ) ^ (-4 : ℤ) ≤ x.magnitude ∧ x.magnitude < 10 ^ (16 : ℤ)) ∨ ¬ x.IsOneDigit := by
  have hdigits := (shortest_spec hfinite hzero .upper).digits_lt_ten_iff
  rw [← place_shortest_iff hfinite hzero .upper, IsOneDigit, ← hdigits, not_lt]
  exact Decimal.hasFraction_text_iff rfl

theorem hasFraction_text_iff (hfinite : x.isFinite = true) :
    HasFraction (x.text Value.doubleStyle).toList ↔ x.isZero = true ∨
      ((10 : ℚ) ^ (-4 : ℤ) ≤ x.magnitude ∧ x.magnitude < 10 ^ (16 : ℤ)) ∨ ¬ x.IsOneDigit := by
  have hsign (magnitude : List Char) :
      HasFraction (x.sign ++ magnitude) ↔ HasFraction magnitude := by
    unfold sign
    split
    · exact hasFraction_cons_iff (by decide)
    · rfl
  rw [toList_text hfinite, hsign]
  cases hzero : x.isZero with
  | true => exact iff_of_true ⟨['0'], '0', [], rfl, rfl⟩ (Or.inl rfl)
  | false =>
    rw [if_neg Bool.false_ne_true, or_iff_right Bool.false_ne_true]
    exact hasFraction_shortest_iff hfinite hzero

theorem text_of_not_hasFraction (hfinite : x.isFinite = true)
    (h : ¬ HasFraction (x.text Value.doubleStyle).toList) :
    ∃ digit < 10, ∃ k : ℤ, x.interval.Contains ((digit : ℕ) * 10 ^ k) ∧
      x.text Value.doubleStyle =
        (if x.negative then "-" else "") ++ toString digit ++ "e" ++ toString k := by
  have hshown := mt (hasFraction_text_iff hfinite).mpr h
  obtain ⟨hnonzero, hneither⟩ := not_or.mp hshown
  obtain ⟨houtside, hone⟩ := not_or.mp hneither
  have hzero : x.isZero = false := Bool.not_eq_true _ ▸ hnonzero
  have hshortest := shortest_spec hfinite hzero .upper
  have hplace := mt (place_shortest_iff hfinite hzero .upper).mp houtside
  have hdigit := hshortest.digits_lt_ten_iff.mpr (not_not.mp hone)
  have htext : (x.shortest .upper).text Value.doubleStyle = _ :=
    Decimal.text_of_digit rfl hplace hdigit
  refine ⟨_, hdigit, _, hshortest.inside, String.toList_inj.mp ?_⟩
  have hstyle : Value.doubleStyle.tie = .upper := rfl
  rw [toList_text hfinite, hzero, if_neg Bool.false_ne_true, hstyle, htext, sign]
  cases x.negative <;> simp [String.toList_append, Nat.toList_repr]

end Double

namespace Value

theorem infix_intercalate {sep : List Char} {parts : List (List Char)} {part : List Char}
    (h : part ∈ parts) : part <:+: sep.intercalate parts := by
  induction parts with
  | nil => cases h
  | cons first parts ih =>
    rcases eq_or_ne parts [] with rfl | hne
    · rw [List.mem_singleton.mp h, List.intercalate_singleton]
    · rw [List.intercalate_cons_of_ne_nil hne, List.append_assoc]
      rcases List.mem_cons.mp h with rfl | hmem
      · exact (List.prefix_append _ _).isInfix
      · exact (ih hmem).trans ((List.suffix_append _ _).trans (List.suffix_append _ _)).isInfix

theorem infix_enclosed {parts : List String} {part : String} (left right : String)
    (h : part ∈ parts) : part.toList <:+: (left ++ ", ".intercalate parts ++ right).toList := by
  rw [String.toList_append, String.toList_append, String.toList_intercalate]
  exact (infix_intercalate (List.mem_map_of_mem h)).trans (List.infix_append _ _ _)

section
variable {value target : Value}

theorem Reaches.not_null (reaches : value.Reaches target) (h : target.isNull = false) :
    value.isNull = false := by
  cases reaches with
  | self => exact h
  | item | entry => rfl

/-- What a value is made of is within its text, unless it is null. -/
theorem Reaches.text_within (host : Host) (reaches : value.Reaches target)
    (h : target.isNull = false) : (target.text host).toList <:+: (value.text host).toList := by
  induction reaches with
  | self => exact List.infix_rfl
  | @item items item _ mem reaches ih =>
    have htext : item.text host = itemText host item := by
      rw [itemText, reaches.not_null h, if_neg Bool.false_ne_true]
    rw [text_list]
    refine (ih h).trans ?_
    rw [htext]
    exact infix_enclosed _ _ (List.mem_map_of_mem mem)
  | @entry entries entry _ mem reaches ih =>
    have htext : (entry.2.text host).toList <:+: (entryText host entry).toList := by
      rw [entryText, reaches.not_null h, if_neg Bool.false_ne_true, String.toList_append]
      exact (List.suffix_append _ _).isInfix
    rw [text_map]
    exact ((ih h).trans htext).trans (infix_enclosed _ _ (List.mem_map_of_mem mem))

end

/-- What the text of a double shows of its fraction. -/
structure FractionText (host : Host) (x : Double) : Prop where
  /-- zero shows one, as do all from `10 ^ -4` on and below `10 ^ 16`; the others do unless they
  have one digit only -/
  shown : HasFraction ((float x).text host).toList ↔ x.isZero = true ∨
    ((10 : ℚ) ^ (-4 : ℤ) ≤ x.magnitude ∧ x.magnitude < 10 ^ (16 : ℤ)) ∨ ¬ x.IsOneDigit
  /-- without a fraction there is that digit, and the power of ten -/
  otherwise : ¬ HasFraction ((float x).text host).toList →
    ∃ digit < 10, ∃ k : ℤ, x.interval.Contains ((digit : ℕ) * 10 ^ k) ∧
      (float x).text host = (if x.negative then "-" else "") ++ toString digit ++ "e" ++ toString k
  notWhole : ∀ n : ℤ, (float x).text host ≠ toString n
  within : ∀ value : Value, value.Reaches (.float x) →
    ((float x).text host).toList <:+: (value.text host).toList

/-- What a finite double shows of its fraction, by itself and inside of lists and maps. -/
theorem fractionText_of_finite (host : Host) {x : Double} (hfinite : x.isFinite = true) :
    FractionText host x where
  shown := Double.hasFraction_text_iff hfinite
  otherwise := Double.text_of_not_hasFraction hfinite
  notWhole := by
    intro n htext
    by_cases h : HasFraction ((float x).text host).toList
    · have hdot := h.dot_mem
      rw [htext] at hdot
      exact not_mem_toString n rfl (by decide) hdot
    · obtain ⟨digit, _, k, _, hdigit⟩ := Double.text_of_not_hasFraction hfinite h
      have hmark : 'e' ∈ ((float x).text host).toList := by
        rw [text, hdigit]
        simp
      rw [htext] at hmark
      exact not_mem_toString n rfl (by decide) hmark
  within value reaches := reaches.text_within host rfl

/-- A quarter has a fraction, also as an item of a list. -/
theorem fractionText_of_finite_quarter :
    let x : Double := .ofBits 0x3FD0000000000000
    x.isFinite = true ∧ FractionText .empty x ∧
      (list [.null, .float x]).text .empty = "[null, 0.25]" ∧
      HasFraction ((list [.null, .float x]).text .empty).toList := by
  intro x
  have hfraction := fractionText_of_finite .empty (x := x) (by decide)
  have htext : (float (.ofBits 0x3FD0000000000000)).text .empty = "0.25" := by
    decide +kernel
  have hlist : (list [.null, .float x]).text .empty = "[null, 0.25]" := by
    rw [text_list, List.map_cons, List.map_singleton, itemText, itemText, htext]
    rfl
  have hwithin := hfraction.within (list [.null, .float x]) (.item (by simp) (.self _))
  refine ⟨by decide, hfraction, hlist, .widen ?_ hwithin⟩
  rw [htext]
  exact ⟨['0'], '2', ['5'], rfl, rfl⟩

/-- A whole number without a fraction in its text. -/
theorem text_ten_pow_sixteen :
    let x : Double := .ofBits 0x4341C37937E08000
    x.isFinite = true ∧ x.magnitude = 10 ^ 16 ∧ (float x).text .empty = "1e16" ∧
      ¬ HasFraction ((float x).text .empty).toList := by
  intro x
  have htext : (float (.ofBits 0x4341C37937E08000)).text .empty = "1e16" := by
    decide +kernel
  have hmagnitude : x.magnitude = 10 ^ 16 := by
    have hsignificand : x.significand = 5 * 10 ^ 15 := by
      decide
    have hscale : x.scale = 1 := by
      decide
    rw [Double.magnitude, hsignificand, hscale]
    norm_num
  refine ⟨by decide, hmagnitude, htext, fun h => ?_⟩
  rw [htext] at h
  exact absurd h.dot_mem (by decide)

end Value
end Stencil
