import Mathlib
import Stencil.View

/-! Equality of values. Two values are equal if neither holds a NaN and they are the same up to the
signs of their zeros. So equality is symmetric and transitive, and fails to be reflexive just at the
values that hold a NaN. Values without zeros are equal only to themselves, and so nothing that is
made of them differs. -/

namespace Stencil

namespace Double

def unsigned (x : Double) : Double :=
  if x.isZero then zero false else x

@[simp] theorem isZero_unsigned (x : Double) : x.unsigned.isZero = x.isZero := by
  unfold unsigned
  split
  · next h => exact h.symm
  · rfl

@[simp] theorem isNaN_unsigned (x : Double) : x.unsigned.isNaN = x.isNaN := by
  unfold unsigned
  split
  · next h =>
    rw [isZero, Bool.and_eq_true, beq_iff_eq] at h
    have hx : x.isNaN = false := by
      rw [isNaN, h.1]
      rfl
    exact hx.symm
  · rfl

theorem unsigned_of_not_zero {x : Double} (h : x.isZero = false) : x.unsigned = x := by
  rw [unsigned, h]
  rfl

theorem eq_iff {x y : Double} : x.eq y = true ↔ x.isNaN = false ∧ x.unsigned = y.unsigned := by
  have hzero : x.unsigned = y.unsigned → x.isZero = y.isZero := by
    intro h
    rw [← isZero_unsigned, h, isZero_unsigned]
  have hnan : x.unsigned = y.unsigned → x.isNaN = y.isNaN := by
    intro h
    rw [← isNaN_unsigned, h, isNaN_unsigned]
  simp only [eq, Bool.and_eq_true, Bool.not_eq_true', Bool.or_eq_true, beq_iff_eq]
  constructor
  · rintro ⟨⟨hx, -⟩, rfl | ⟨hzx, hzy⟩⟩
    · exact ⟨hx, rfl⟩
    · exact ⟨hx, by rw [unsigned, unsigned, if_pos hzx, if_pos hzy]⟩
  · rintro ⟨hx, h⟩
    refine ⟨⟨hx, hnan h ▸ hx⟩, ?_⟩
    have hzy : y.isZero = x.isZero := (hzero h).symm
    cases hz : x.isZero with
    | false =>
      rw [unsigned_of_not_zero hz, unsigned_of_not_zero (hzy.trans hz)] at h
      exact Or.inl h
    | true => exact Or.inr ⟨rfl, hzy.trans hz⟩

end Double

namespace Value

/-- Induction on a value and on those inside of it. -/
theorem value_induction {motive : Value → Prop}
    (null : motive .null)
    (bool : ∀ b, motive (.bool b))
    (int : ∀ n, motive (.int n))
    (float : ∀ x, motive (.float x))
    (string : ∀ s, motive (.string s))
    (list : ∀ items, (∀ item ∈ items, motive item) → motive (.list items))
    (map : ∀ entries, (∀ entry ∈ entries, motive entry.2) → motive (.map entries))
    (object : ∀ name, motive (.object name)) :
    ∀ value, motive value := by
  intro value
  refine @Value.rec motive (fun items => ∀ item ∈ items, motive item)
    (fun entries => ∀ entry ∈ entries, motive entry.2) (fun entry => motive entry.2)
    null bool int float string list map object ?_ ?_ ?_ ?_ ?_ value
  · exact nofun
  · exact fun item items hitem hitems => List.forall_mem_cons.mpr ⟨hitem, hitems⟩
  · exact nofun
  · exact fun entry entries hentry hentries => List.forall_mem_cons.mpr ⟨hentry, hentries⟩
  · exact fun key value hvalue => hvalue

/-- The values of which a value is made up by lists and maps, itself included. What an object
answers is not a part of it. -/
inductive Reaches : Value → Value → Prop
  | self (value : Value) : Reaches value value
  | item {items : List Value} {item target : Value} (mem : item ∈ items)
      (reaches : Reaches item target) : Reaches (.list items) target
  | entry {entries : List (String × Value)} {entry : String × Value} {target : Value}
      (mem : entry ∈ entries) (reaches : Reaches entry.2 target) : Reaches (.map entries) target

/-- Such a double is reached from the value. -/
def Holds (p : Double → Bool) (value : Value) : Prop :=
  ∃ x, Reaches value (.float x) ∧ p x = true

mutual

def unsigned : Value → Value
  | null => null
  | bool b => bool b
  | int n => int n
  | float x => float x.unsigned
  | string s => string s
  | list items => list (unsignedItems items)
  | map entries => map (unsignedEntries entries)
  | object name => object name

def unsignedItems : List Value → List Value
  | [] => []
  | value :: values => unsigned value :: unsignedItems values

def unsignedEntries : List (String × Value) → List (String × Value)
  | [] => []
  | (key, value) :: entries => (key, unsigned value) :: unsignedEntries entries

end

@[simp] theorem unsignedItems_eq_map (items : List Value) :
    unsignedItems items = items.map unsigned := by
  induction items with
  | nil => rfl
  | cons item items ih => rw [unsignedItems, List.map_cons, ih]

@[simp] theorem unsignedEntries_eq_map (entries : List (String × Value)) :
    unsignedEntries entries = entries.map fun entry => (entry.1, entry.2.unsigned) := by
  induction entries with
  | nil => rfl
  | cons entry entries ih => rw [unsignedEntries, List.map_cons, ih]

theorem unsigned_list (items : List Value) : (list items).unsigned = list (items.map unsigned) := by
  rw [unsigned, unsignedItems_eq_map]

theorem unsigned_map (entries : List (String × Value)) :
    (map entries).unsigned = map (entries.map fun entry => (entry.1, entry.2.unsigned)) := by
  rw [unsigned, unsignedEntries_eq_map]

section
variable {p : Double → Bool} {x : Double} {items : List Value} {entries : List (String × Value)}

theorem holds_float : (float x).Holds p ↔ p x = true := by
  constructor
  · rintro ⟨y, hy, hp⟩
    cases hy
    exact hp
  · exact fun hp => ⟨x, .self _, hp⟩

theorem holds_list : (list items).Holds p ↔ ∃ item ∈ items, item.Holds p := by
  constructor
  · rintro ⟨x, hx, hp⟩
    cases hx with
    | item mem reaches => exact ⟨_, mem, x, reaches, hp⟩
  · rintro ⟨item, mem, x, reaches, hp⟩
    exact ⟨x, .item mem reaches, hp⟩

theorem holds_map : (map entries).Holds p ↔ ∃ entry ∈ entries, entry.2.Holds p := by
  constructor
  · rintro ⟨x, hx, hp⟩
    cases hx with
    | entry mem reaches => exact ⟨_, mem, x, reaches, hp⟩
  · rintro ⟨entry, mem, x, reaches, hp⟩
    exact ⟨x, .entry mem reaches, hp⟩

theorem not_holds {value : Value} (hfloat : ∀ x, value ≠ float x)
    (hlist : ∀ items, value ≠ list items) (hmap : ∀ entries, value ≠ map entries) :
    ¬ value.Holds p := by
  rintro ⟨x, hx, -⟩
  cases hx with
  | self => exact hfloat x rfl
  | item => exact hlist _ rfl
  | entry => exact hmap _ rfl

end

/-- The two values pass as equal. -/
def SameUnsigned (a b : Value) : Prop :=
  ¬ a.Holds Double.isNaN ∧ a.unsigned = b.unsigned

section
variable {items items' : List Value} {entries entries' : List (String × Value)}

theorem eqItems_iff (ih : ∀ item ∈ items, ∀ b, item.eq b = true ↔ item.SameUnsigned b) :
    eqItems items items' = true ↔ (list items).SameUnsigned (list items') := by
  rw [SameUnsigned, holds_list, unsigned_list, unsigned_list, list.injEq]
  induction items generalizing items' with
  | nil => cases items' <;> simp [eqItems]
  | cons item items ihitems =>
    cases items' with
    | nil => simp [eqItems]
    | cons item' items' =>
      rw [List.forall_mem_cons] at ih
      rw [eqItems, Bool.and_eq_true, ih.1, ihitems ih.2, SameUnsigned, List.map_cons, List.map_cons,
        List.cons.injEq, List.exists_mem_cons_iff, not_or]
      exact and_and_and_comm

theorem eqEntries_iff (ih : ∀ entry ∈ entries, ∀ b, entry.2.eq b = true ↔ entry.2.SameUnsigned b) :
    eqEntries entries entries' = true ↔ (map entries).SameUnsigned (map entries') := by
  rw [SameUnsigned, holds_map, unsigned_map, unsigned_map, map.injEq]
  induction entries generalizing entries' with
  | nil => cases entries' <;> simp [eqEntries]
  | cons entry entries ihentries =>
    cases entries' with
    | nil => simp [eqEntries]
    | cons entry' entries' =>
      rw [List.forall_mem_cons] at ih
      rw [eqEntries, Bool.and_eq_true, Bool.and_eq_true, beq_iff_eq, ih.1, ihentries ih.2,
        SameUnsigned, List.map_cons, List.map_cons, List.cons.injEq, Prod.mk.injEq,
        List.exists_mem_cons_iff, not_or]
      tauto

end

/-- Values are equal if they hold no NaN and differ at most in the signs of zeros. -/
theorem eq_iff (a b : Value) : a.eq b = true ↔ a.SameUnsigned b := by
  induction a using value_induction generalizing b with
  | float x =>
    cases b with
    | float y => rw [eq, Double.eq_iff, SameUnsigned, holds_float, unsigned, unsigned, float.injEq,
        Bool.not_eq_true]
    | _ => simp [eq, SameUnsigned, unsigned]
  | list items ih =>
    cases b with
    | list items' => rw [eq, eqItems_iff ih]
    | _ => simp [eq, SameUnsigned, unsigned]
  | map entries ih =>
    cases b with
    | map entries' => rw [eq, eqEntries_iff ih]
    | _ => simp [eq, SameUnsigned, unsigned]
  | _ => cases b <;> simp [eq, SameUnsigned, unsigned, not_holds]

/-- What does not depend on the sign of zero is held with the signs and without. -/
theorem holds_unsigned {p : Double → Bool} (hp : ∀ x, p x.unsigned = p x) (value : Value) :
    value.unsigned.Holds p ↔ value.Holds p := by
  induction value using value_induction with
  | float x => rw [unsigned, holds_float, holds_float, hp]
  | list items ih =>
    simp only [unsigned_list, holds_list, List.mem_map, exists_exists_and_eq_and]
    exact exists_congr fun item => and_congr_right (ih item)
  | map entries ih =>
    simp only [unsigned_map, holds_map, List.mem_map, exists_exists_and_eq_and]
    exact exists_congr fun entry => and_congr_right (ih entry)
  | _ => rfl

theorem unsigned_of_not_holds {value : Value} (h : ¬ value.Holds Double.isZero) :
    value.unsigned = value := by
  induction value using value_induction with
  | float x =>
    rw [holds_float, Bool.not_eq_true] at h
    rw [unsigned, Double.unsigned_of_not_zero h]
  | list items ih =>
    rw [holds_list] at h
    have hitems : ∀ item ∈ items, item.unsigned = item :=
      fun item mem => ih item mem fun holds => h ⟨item, mem, holds⟩
    rw [unsigned_list, List.map_congr_left hitems, List.map_id']
  | map entries ih =>
    rw [holds_map] at h
    have hentries : ∀ entry ∈ entries, (entry.1, entry.2.unsigned) = entry := by
      intro entry mem
      rw [ih entry mem fun holds => h ⟨entry, mem, holds⟩]
    rw [unsigned_map, List.map_congr_left hentries, List.map_id']
  | _ => rfl

theorem beq_iff {a b : Value} : (a == b) = true ↔ a.SameUnsigned b :=
  eq_iff a b

section
variable {a b c : Value}

theorem SameUnsigned.symm (h : a.SameUnsigned b) : b.SameUnsigned a := by
  refine ⟨?_, h.2.symm⟩
  rw [← holds_unsigned Double.isNaN_unsigned, ← h.2, holds_unsigned Double.isNaN_unsigned]
  exact h.1

theorem SameUnsigned.trans (h : a.SameUnsigned b) (h' : b.SameUnsigned c) : a.SameUnsigned c :=
  ⟨h.1, h.2.trans h'.2⟩

theorem sameUnsigned_self : a.SameUnsigned a ↔ ¬ a.Holds Double.isNaN :=
  and_iff_left rfl

theorem SameUnsigned.eq_of_no_zero (h : a.SameUnsigned b) (hzero : ¬ a.Holds Double.isZero) :
    a = b := by
  have hzero' : ¬ b.Holds Double.isZero := by
    rwa [← holds_unsigned Double.isZero_unsigned, ← h.2, holds_unsigned Double.isZero_unsigned]
  rw [← unsigned_of_not_holds hzero, h.2, unsigned_of_not_holds hzero']

theorem sameUnsigned_object {name : String} : (object name).SameUnsigned a ↔ a = object name := by
  rw [SameUnsigned, and_iff_right (by simp [not_holds])]
  cases a <;> simp [unsigned, eq_comm]

end

/-- Equality of values is symmetric and transitive. A value is equal to itself unless it holds a
NaN, and an object is equal to itself alone. Equal values of which one holds no zero render to the
same text in every template, and a view that is rendered against them gives the same text or the
same error. -/
theorem beq_isPartialEquivalence (a b c : Value) :
    (a == b → b == a) ∧ (a == b → b == c → a == c) ∧
      (a == a ↔ ¬ a.Holds Double.isNaN) ∧
      (∀ name, object name == a ↔ a = object name) ∧
      (a == b → ¬ a.Holds Double.isZero →
        (∀ host (template : Template),
          (template.render host a).text = (template.render host b).text) ∧
        ∀ (settings : Settings) host views name,
          (settings.renderView host views name a).result =
            (settings.renderView host views name b).result) ∧
      ∀ request request' : ModelAndView, request == request' →
        ¬ request.model.Holds Double.isZero → ∀ (settings : Settings) host views,
          (settings.renderModelAndView host views request).result =
            (settings.renderModelAndView host views request').result := by
  simp only [beq_iff]
  refine ⟨.symm, .trans, sameUnsigned_self, fun name => sameUnsigned_object, ?_, ?_⟩
  · intro h hzero
    obtain rfl := h.eq_of_no_zero hzero
    exact ⟨fun _ _ => rfl, fun _ _ _ _ => rfl⟩
  · rintro ⟨view, model⟩ ⟨view', model'⟩ h hzero settings host views
    obtain ⟨hview, hmodel⟩ := Bool.and_eq_true_iff.mp h
    obtain rfl := beq_iff_eq.mp hview
    obtain rfl := (beq_iff.mp hmodel).eq_of_no_zero hzero
    rfl

/-- Two zeros with different signs in equal lists, and two maps that are put together in different
ways and hold no zero. -/
theorem beq_isPartialEquivalence_signs :
    let plus : Value := .map [("x", .list [.float (.zero false), .object "o"])]
    let minus : Value := .map [("x", .list [.float (.zero true), .object "o"])]
    let one : Value := .float (.ofBits 0x3FF0000000000000)
    let model := ofEntries [("y", one), ("x", .object "o")]
    let model' := ofEntries [("x", .null), ("x", .object "o"), ("y", one)]
    (plus == minus ∧ minus == plus ∧ plus == plus) ∧
      (model == model' ∧ ¬ model.Holds Double.isZero ∧
        ∀ (settings : Settings) host views,
          (settings.renderModelAndView host views ⟨"view", model⟩).result =
            (settings.renderModelAndView host views ⟨"view", model'⟩).result) := by
  intro plus minus one model model'
  have hsigns : plus == minus := by
    decide
  have hback : minus == plus := (beq_isPartialEquivalence plus minus plus).1 hsigns
  have hself : plus == plus := (beq_isPartialEquivalence plus minus plus).2.1 hsigns hback
  have hmodels : model == model' := by
    decide
  have hzero : ¬ model.Holds Double.isZero := by
    have hmodel : model = .map [("x", .object "o"), ("y", one)] :=
      congrArg map (if_pos (by decide))
    have hone : (Double.ofBits 0x3FF0000000000000).isZero = false := by
      decide
    rw [hmodel, holds_map]
    simp [not_holds, one, holds_float, hone]
  refine ⟨⟨hsigns, hback, hself⟩, hmodels, hzero, ?_⟩
  exact (beq_isPartialEquivalence model model' plus).2.2.2.2.2 ⟨"view", model⟩ ⟨"view", model'⟩
    hmodels hzero

end Value
end Stencil
