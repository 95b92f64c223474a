import Mathlib
import Stencil.Render
import Stencil.Value.OfJson
import Stencil.Proofs.Text.ByteOrder
import Stencil.Proofs.Value.Equality

/-! Maps forget how they were put together. The entries of a map are sorted, each key once, with the
value of the last entry that was given for it. So a list of entries counts only by what is last
given for each key, and two values that are built from such lists, nested in any way, are the
same value. -/

namespace Stencil

/-- What is given last for a key. -/
def lastFor? {α : Type} (entries : List (String × α)) (key : String) : Option α :=
  entries.reverse.lookup key

def Ascending {α : Type} (entries : List (String × α)) : Prop :=
  entries.Pairwise fun a b => a.1 < b.1

section
variable {α β : Type} {entries entries' : List (String × α)}

theorem lookup_cons_eq_if (key : String) (entry : String × α) (entries : List (String × α)) :
    (entry :: entries).lookup key = if key = entry.1 then some entry.2 else entries.lookup key := by
  rw [List.lookup_cons]
  by_cases h : key = entry.1
  · rw [if_pos h, beq_iff_eq.mpr h]
  · rw [if_neg h, beq_false_of_ne h]

theorem lookup_map (f : α → β) (entries : List (String × α)) (key : String) :
    (entries.map fun entry => (entry.1, f entry.2)).lookup key = (entries.lookup key).map f := by
  induction entries with
  | nil => rfl
  | cons entry entries ih =>
    rw [List.map_cons, lookup_cons_eq_if, lookup_cons_eq_if, ih]
    split <;> rfl

theorem lastFor?_map (f : α → β) (entries : List (String × α)) (key : String) :
    lastFor? (entries.map fun entry => (entry.1, f entry.2)) key =
      (lastFor? entries key).map f := by
  rw [lastFor?, ← List.map_reverse, lookup_map, lastFor?]

theorem Ascending.mem_iff (h : Ascending entries) {key : String} {value : α} :
    (key, value) ∈ entries ↔ entries.lookup key = some value := by
  induction entries with
  | nil => simp
  | cons entry entries ih =>
    obtain ⟨hfirst, hrest⟩ := List.pairwise_cons.mp h
    rw [List.mem_cons, lookup_cons_eq_if]
    by_cases hkey : key = entry.1
    · rw [if_pos hkey, Option.some.injEq]
      constructor
      · rintro (heq | hmem)
        · rw [← heq]
        · exact absurd hkey.symm (hfirst _ hmem).ne
      · rintro rfl
        exact Or.inl (Prod.ext hkey rfl)
    · rw [if_neg hkey, ← ih hrest, or_iff_right]
      rintro rfl
      exact hkey rfl

/-- Lists that go up are the same if they give the same for each key. -/
theorem Ascending.eq_of_lookup (h : Ascending entries) (h' : Ascending entries')
    (same : ∀ key, entries.lookup key = entries'.lookup key) : entries = entries' := by
  have : Std.Antisymm fun a b : String × α => a.1 < b.1 := ⟨fun _ _ hab hba => absurd hab hba.asymm⟩
  have : Std.Irrefl fun a b : String × α => a.1 < b.1 := ⟨fun a => lt_irrefl a.1⟩
  refine List.Pairwise.eq_of_mem_iff h h' ?_
  rintro ⟨key, value⟩
  rw [h.mem_iff, h'.mem_iff, same]

end

namespace Value

theorem lookup_insertEntry (key other : String) (value : Value) (entries : List (String × Value)) :
    (insertEntry key value entries).lookup other =
      if other = key then some value else entries.lookup other := by
  induction entries with
  | nil => exact lookup_cons_eq_if other (key, value) []
  | cons entry entries ih =>
    rw [insertEntry]
    split
    · rw [lookup_cons_eq_if]
    · split
      · next hkey =>
        rw [lookup_cons_eq_if, lookup_cons_eq_if, ← hkey]
        split <;> rfl
      · next hkey =>
        rw [lookup_cons_eq_if, lookup_cons_eq_if, ih]
        by_cases hother : other = entry.1
        · rw [if_pos hother, if_neg (hother ▸ Ne.symm hkey), if_pos hother]
        · rw [if_neg hother, if_neg hother]

theorem mem_insertEntry {key : String} {value : Value} {entry : String × Value}
    {entries : List (String × Value)} (h : entry ∈ insertEntry key value entries) :
    entry = (key, value) ∨ entry ∈ entries := by
  induction entries with
  | nil => exact Or.inl (List.mem_singleton.mp h)
  | cons first entries ih =>
    rw [insertEntry] at h
    split_ifs at h with hlt heq <;> simp only [List.mem_cons] at h ⊢
    · exact h
    · tauto
    · tauto

theorem ascending_insertEntry (key : String) (value : Value) {entries : List (String × Value)}
    (h : Ascending entries) : Ascending (insertEntry key value entries) := by
  induction entries with
  | nil => exact List.pairwise_singleton _ _
  | cons entry entries ih =>
    obtain ⟨hfirst, hrest⟩ := List.pairwise_cons.mp h
    rw [insertEntry]
    split
    · next hlt =>
      refine List.pairwise_cons.mpr ⟨fun other hother => ?_, h⟩
      rcases List.mem_cons.mp hother with rfl | hother
      · exact hlt
      · exact hlt.trans (hfirst other hother)
    · next hge =>
      split
      · next hkey =>
        exact List.pairwise_cons.mpr ⟨fun other hother => hkey ▸ hfirst other hother, hrest⟩
      · next hkey =>
        refine List.pairwise_cons.mpr ⟨fun other hother => ?_, ih hrest⟩
        rcases mem_insertEntry hother with rfl | hother
        · exact lt_of_le_of_ne (not_lt.mp hge) (Ne.symm hkey)
        · exact hfirst other hother

theorem ofEntries_eq (entries : List (String × Value)) :
    ∃ sorted, ofEntries entries = .map sorted ∧ Ascending sorted ∧
      ∀ key, sorted.lookup key = lastFor? entries key := by
  refine ⟨_, rfl, ?_, ?_⟩
  · induction entries using List.reverseRecOn with
    | nil => exact List.Pairwise.nil
    | append_singleton entries entry ih =>
      rw [List.foldl_concat]
      exact ascending_insertEntry _ _ ih
  · intro key
    induction entries using List.reverseRecOn with
    | nil => rfl
    | append_singleton entries entry ih =>
      rw [List.foldl_concat, lookup_insertEntry, ih, lastFor?, lastFor?, List.reverse_concat,
        lookup_cons_eq_if]

/-- Entries that give the same last for each key make up one map. -/
theorem ofEntries_congr {entries entries' : List (String × Value)}
    (same : ∀ key, lastFor? entries key = lastFor? entries' key) :
    ofEntries entries = ofEntries entries' := by
  obtain ⟨sorted, hmap, hascending, hlookup⟩ := ofEntries_eq entries
  obtain ⟨sorted', hmap', hascending', hlookup'⟩ := ofEntries_eq entries'
  rw [hmap, hmap', hascending.eq_of_lookup hascending']
  intro key
  rw [hlookup, hlookup', same]

/-- The fields of the value are what was given last for each key. Its text shows them in the order
of their keys, by code points and by bytes alike, each key for which something was given once. -/
def KeepsLast (host : Host) (value : Value) (last : String → Option Value) : Prop :=
  (∀ key, value.field? host key = last key) ∧ ∃ shown : List (String × Value),
    value.text host = "\x7b" ++ ", ".intercalate (shown.map (entryText host)) ++ "\x7d" ∧
      (shown.map Prod.fst).Pairwise (fun a b => a < b ∧ Text.bytes a < Text.bytes b) ∧
      (∀ key, (shown.map Prod.fst).count key = if (last key).isSome then 1 else 0) ∧
      ∀ key value, (key, value) ∈ shown ↔ last key = some value

theorem ofEntries_keepsLast (host : Host) (entries : List (String × Value)) :
    KeepsLast host (ofEntries entries) (lastFor? entries) := by
  obtain ⟨sorted, hmap, hascending, hlookup⟩ := ofEntries_eq entries
  have hkeys : (sorted.map Prod.fst).Pairwise (· < ·) := List.pairwise_map.mpr hascending
  have hmem : ∀ key value, (key, value) ∈ sorted ↔ lastFor? entries key = some value := by
    intro key value
    rw [hascending.mem_iff, hlookup]
  refine ⟨fun key => ?_, sorted, ?_, ?_, ?_, hmem⟩
  · rw [hmap, field?, hlookup]
  · rw [hmap, text_map]
  · exact hkeys.imp fun h => ⟨h, Text.bytes_lt_iff.mpr h⟩
  · intro key
    have hsome : key ∈ sorted.map Prod.fst ↔ (lastFor? entries key).isSome := by
      simp [hmem, Option.isSome_iff_exists]
    rw [List.Nodup.count (hkeys.imp ne_of_lt), if_congr hsome rfl rfl]

end Value

/-- How a value is put together: a list or a map of others, or one that is there already. -/
inductive Construction where
  | value (value : Value)
  | list (items : List Construction)
  | map (entries : List (String × Construction))

namespace Construction

mutual

def build : Construction → Value
  | .value given => given
  | .list items => .list (buildItems items)
  | .map entries => .ofEntries (buildEntries entries)

def buildItems : List Construction → List Value
  | [] => []
  | item :: items => build item :: buildItems items

def buildEntries : List (String × Construction) → List (String × Value)
  | [] => []
  | (key, c) :: entries => (key, build c) :: buildEntries entries

end

@[simp] theorem buildItems_eq_map (items : List Construction) :
    buildItems items = items.map build := by
  induction items with
  | nil => rfl
  | cons item items ih => rw [buildItems, List.map_cons, ih]

@[simp] theorem buildEntries_eq_map (entries : List (String × Construction)) :
    buildEntries entries = entries.map fun entry => (entry.1, entry.2.build) := by
  induction entries with
  | nil => rfl
  | cons entry entries ih => rw [buildEntries, List.map_cons, ih]

theorem build_list (items : List Construction) : (list items).build = .list (items.map build) := by
  rw [build, buildItems_eq_map]

theorem build_map (entries : List (String × Construction)) :
    (map entries).build = .ofEntries (entries.map fun entry => (entry.1, entry.2.build)) := by
  rw [build, buildEntries_eq_map]

mutual

def ofJson : Json → Construction
  | .array items => .list (ofJsonItems items)
  | .object members => .map (ofJsonMembers members)
  | json => .value (Value.ofJson json)

def ofJsonItems : List Json → List Construction
  | [] => []
  | json :: items => ofJson json :: ofJsonItems items

def ofJsonMembers : List (String × Json) → List (String × Construction)
  | [] => []
  | (key, json) :: members => (key, ofJson json) :: ofJsonMembers members

end

/-- The two differ at most in entries that do not count and in the order of entries: for each key
both maps give something or neither does, and what they give last agrees. Lists agree item by
item. -/
inductive Agrees : Construction → Construction → Prop
  | value (given : Value) : Agrees (.value given) (.value given)
  | list {items items' : List Construction} (length : items.length = items'.length)
      (item : ∀ (i : Nat) (h : i < items.length) (h' : i < items'.length),
        Agrees items[i] items'[i]) : Agrees (.list items) (.list items')
  | map {entries entries' : List (String × Construction)}
      (keys : ∀ key, (lastFor? entries key).isSome = (lastFor? entries' key).isSome)
      (last : ∀ key c c', lastFor? entries key = some c → lastFor? entries' key = some c' →
        Agrees c c') : Agrees (.map entries) (.map entries')

-- documents hold one another through items and members, so the three go together
mutual

theorem build_ofJson : (json : Json) → (ofJson json).build = Value.ofJson json
  | .null | .bool _ | .number _ | .string _ => rfl
  | .array items => by rw [ofJson, build, buildItems_ofJson items, Value.ofJson]
  | .object members => by rw [ofJson, build, buildEntries_ofJson members, Value.ofJson]

theorem buildItems_ofJson :
    (items : List Json) → buildItems (ofJsonItems items) = Value.ofJsonItems items
  | [] => rfl
  | json :: items => by
    rw [ofJsonItems, buildItems, build_ofJson json, buildItems_ofJson items, Value.ofJsonItems]

theorem buildEntries_ofJson : (members : List (String × Json)) →
    buildEntries (ofJsonMembers members) = Value.ofJsonMembers members
  | [] => rfl
  | (key, json) :: members => by
    rw [ofJsonMembers, buildEntries, build_ofJson json, buildEntries_ofJson members,
      Value.ofJsonMembers]

end

theorem Agrees.build_eq {c c' : Construction} (h : c.Agrees c') : c.build = c'.build := by
  induction h with
  | value given => rfl
  | list length item ih =>
    rw [build_list, build_list]
    congr 1
    apply List.ext_getElem
    · rw [List.length_map, List.length_map, length]
    · intro i hi hi'
      rw [List.getElem_map, List.getElem_map]
      exact ih i _ _
  | @map entries entries' keys last ih =>
    rw [build_map, build_map]
    refine Value.ofEntries_congr fun key => ?_
    rw [lastFor?_map, lastFor?_map]
    -- the key is given in both or in neither
    have hkeys := keys key
    have hlast := ih key
    generalize lastFor? entries key = given at *
    generalize lastFor? entries' key = given' at *
    cases given <;> cases given'
    · rfl
    · cases hkeys
    · cases hkeys
    · exact congrArg some (hlast _ _ rfl rfl)

end Construction

structure Value.Alike (a b : Value) : Prop where
  field : ∀ host name, a.field? host name = b.field? host name
  text : ∀ host (template : Template),
    (template.render host a).text = (template.render host b).text
  bound : ∀ (context : Context) name (template : Template),
    (template.renderIn (context.set name a)).text = (template.renderIn (context.set name b)).text
  equal : ¬ a.Holds Double.isNaN → a == b

theorem Value.alike_self (value : Value) : value.Alike value where
  field _ _ := rfl
  text _ _ := rfl
  bound _ _ _ := rfl
  equal h := beq_iff.mpr (sameUnsigned_self.mpr h)

/-- Values are the same, and pass for the same, if their maps were given the same last for each key
at every depth, whether one by one or in a document. The text of a map lists each of its keys once,
in the order of code points and of bytes. -/
theorem Construction.build_of_agrees (c c' : Construction) (json json' : Json) (host : Host)
    (entries : List (String × Value)) (members : List (String × Json)) :
    (c.Agrees c' → c.build = c'.build ∧ c.build.Alike c'.build) ∧
      ((ofJson json).Agrees (ofJson json') →
        Value.ofJson json = Value.ofJson json' ∧
          (Value.ofJson json).Alike (Value.ofJson json')) ∧
      Value.KeepsLast host (.ofEntries entries) (lastFor? entries) ∧
      Value.KeepsLast host (Value.ofJson (.object members)) fun key =>
        ((Json.object members).member? key).map Value.ofJson := by
  have hbuild : ∀ {c c' : Construction}, c.Agrees c' →
      c.build = c'.build ∧ c.build.Alike c'.build := by
    intro c c' h
    rw [h.build_eq]
    exact ⟨rfl, Value.alike_self _⟩
  refine ⟨hbuild, ?_, Value.ofEntries_keepsLast host entries, ?_⟩
  · intro h
    have := hbuild h
    rwa [build_ofJson, build_ofJson] at this
  · have hlast : (fun key => ((Json.object members).member? key).map Value.ofJson) =
        lastFor? (members.map fun member => (member.1, Value.ofJson member.2)) :=
      funext fun key => (lastFor?_map Value.ofJson members key).symm
    rw [Value.ofJson_object, hlast]
    exact Value.ofEntries_keepsLast host _

/-- A map in a list in a map, the entries of both in another order and with one too many. -/
theorem Construction.build_of_agrees_reordered :
    let inner : Json := .object [("é", .bool true), ("z", .null)]
    let inner' : Json := .object [("z", .bool true), ("é", .bool true), ("z", .null)]
    let document : Json := .object [("b", .null), ("a", .array [inner])]
    let document' : Json := .object [("a", .null), ("a", .array [inner']), ("b", .null)]
    (ofJson document).Agrees (ofJson document') ∧
      (ofJson document).build.Alike (ofJson document').build ∧
        Value.ofJson document = Value.ofJson document' := by
  intro inner inner' document document'
  have hinner : (ofJson inner).Agrees (ofJson inner') := by
    refine .map (fun key => ?_) fun key c c' => ?_ <;>
      simp only [ofJsonMembers, lastFor?, List.reverse_cons, List.reverse_nil, List.nil_append,
        List.cons_append, lookup_cons_eq_if, List.lookup_nil]
    · split_ifs <;> rfl
    · split_ifs <;> rintro ⟨⟩ ⟨⟩ <;> exact .value _
  have hdocument : (ofJson document).Agrees (ofJson document') := by
    refine .map (fun key => ?_) fun key c c' => ?_ <;>
      simp only [ofJsonMembers, lastFor?, List.reverse_cons, List.reverse_nil, List.nil_append,
        List.cons_append, lookup_cons_eq_if, List.lookup_nil]
    · by_cases ha : key = "a" <;> by_cases hb : key = "b" <;> simp [ha, hb]
    · by_cases ha : key = "a"
      · subst ha
        rintro ⟨⟩ ⟨⟩
        refine .list rfl fun i hi hi' => ?_
        obtain rfl : i = 0 := Nat.lt_one_iff.mp hi
        exact hinner
      · simp only [if_neg ha]
        split_ifs <;> rintro ⟨⟩ ⟨⟩
        exact .value _
  have h := build_of_agrees (ofJson document) (ofJson document') document document' Host.empty [] []
  exact ⟨hdocument, (h.1 hdocument).2, (h.2.1 hdocument).1⟩

end Stencil
