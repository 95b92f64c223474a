import Mathlib
import Stencil.Proofs.Render.Meaning
import Stencil.Proofs.Value.Entries

/-! A document as a model. To go from field to field in the value of a document is to go from member
to member in the document and to turn into a value what is found there. Arrays are lists of the same
items in the same order, and nothing but null becomes null: a whole number of sixty-four bits keeps
its value, and every other number is a double. -/

namespace Stencil

namespace Double

theorem roundHalfEven_le (num den : Nat) : roundHalfEven num den ≤ num / den + 1 := by
  simp only [roundHalfEven]
  split_ifs <;> omega

theorem log2_shiftLeft {n : Nat} (h : n ≠ 0) (k : Nat) : (n <<< k).log2 = n.log2 + k := by
  rw [Nat.log2_eq_iff (by simpa [Nat.shiftLeft_eq] using h), Nat.shiftLeft_eq]
  constructor
  · rw [pow_add]
    exact Nat.mul_le_mul_right _ (Nat.log2_self_le h)
  · rw [Nat.add_right_comm, pow_add]
    exact Nat.mul_lt_mul_of_pos_right Nat.lt_log2_self (Nat.two_pow_pos k)

theorem ofScaled_of_le (negative : Bool) {m : Nat} {q : Int} (hm : m ≤ 2 ^ 53) (hq : q ≤ 11) :
    ∃ x, ofScaled negative m q = some x := by
  have hscale : (q + 1074).toNat ≤ 1085 := by
    omega
  have hposition : (q + 1074).toNat * fractionCount + m < (exponentCount - 1) * fractionCount := by
    have := Nat.mul_le_mul_right fractionCount hscale
    simp only [exponentCount, fractionCount] at this ⊢
    omega
  rw [ofScaled, dif_pos hposition]
  exact ⟨_, rfl⟩

/-- A whole number of at most sixty-four bits is not beyond the greatest double. -/
theorem nearest_of_lt {n : Nat} (h : n < 2 ^ 64) : ∃ x, nearest false n 1 = some x := by
  by_cases hn : n = 0
  · exact ⟨_, by rw [hn]; rfl⟩
  have hlog : n.log2 < 64 := (Nat.log2_lt hn).mpr h
  have hpower : (((n <<< 1138) / 1).log2 : Int) - 1138 = n.log2 := by
    rw [Nat.div_one, log2_shiftLeft hn]
    push_cast
    omega
  have hscale : max ((n.log2 : Int) - 52) (-1074) = n.log2 - 52 := by
    omega
  simp only [nearest, hpower, hscale]
  generalize hq : (n.log2 : Int) - 52 = q
  refine ofScaled_of_le false ((roundHalfEven_le _ _).trans (Nat.succ_le_of_lt ?_)) (by omega)
  -- scaled down or up to fifty-three bits
  rw [Nat.div_lt_iff_lt_mul (by simp [Nat.shiftLeft_eq]), Nat.shiftLeft_eq, Nat.shiftLeft_eq,
    one_mul]
  calc n * 2 ^ (-q).toNat
      < 2 ^ (n.log2 + 1) * 2 ^ (-q).toNat :=
        Nat.mul_lt_mul_of_pos_right Nat.lt_log2_self (Nat.two_pow_pos _)
    _ = 2 ^ 53 * 2 ^ q.toNat := by
        rw [← pow_add, ← pow_add]
        congr 1
        omega

end Double

namespace Json

/-- What a sequence of keys leads to, each of them from an object to its member. -/
def at? (json : Json) : List String → Option Json
  | [] => some json
  | key :: keys => (json.member? key).bind fun member => member.at? keys

def items? : Json → Option (List Json)
  | array items => some items
  | _ => none

/-- The value is this number. A whole number between `-2 ^ 63` and `2 ^ 63 - 1` is an integer, and
one beyond, of which there are those below `2 ^ 64`, is the nearest double. -/
def Number.IsValue : Number → Value → Prop
  | whole n, value =>
    if -2 ^ 63 ≤ n ∧ n < 2 ^ 63 then ∃ i : Int64, value = .int i ∧ i.toInt = n
    else ∃ x, value = .float x ∧ (0 ≤ n → n < 2 ^ 64 → Double.nearest false n.toNat 1 = some x)
  | double x, value => value = .float x

/-- The value says what the document says. What is inside of the document is inside of the value,
turned into values in its turn: items in their order, and members each under its key. -/
def IsValue : Json → Value → Prop
  | null, value => value = .null
  | bool b, value => value = .bool b
  | number n, value => n.IsValue value
  | string s, value => value = .string s
  | array items, value => value = .list (items.map Value.ofJson)
  | object members, value => ∃ entries, value = .map entries ∧ Ascending entries ∧
      ∀ key, entries.lookup key = ((object members).member? key).map Value.ofJson

end Json

namespace Value

theorem ofNumber_isValue (number : Json.Number) : number.IsValue (ofNumber number) := by
  cases number with
  | double x => rfl
  | whole n =>
    have hrange : Int64.minValue.toInt ≤ n ∧ n ≤ Int64.maxValue.toInt ↔
        -2 ^ 63 ≤ n ∧ n < 2 ^ 63 := by
      have hmin : Int64.minValue.toInt = -2 ^ 63 := rfl
      have hmax : Int64.maxValue.toInt = 2 ^ 63 - 1 := rfl
      omega
    rw [Json.Number.IsValue, ofNumber, if_congr hrange rfl rfl]
    split
    · next hfits => exact ⟨_, rfl, Int64.toInt_ofInt_of_le hfits.1 hfits.2⟩
    · refine ⟨_, rfl, fun hsign hsize => ?_⟩
      obtain ⟨x, hx⟩ := Double.nearest_of_lt (n := n.toNat) (by omega)
      rw [Double.ofNat, hx]
      rfl

theorem ofJson_isValue (json : Json) : json.IsValue (ofJson json) := by
  cases json with
  | number n => exact ofNumber_isValue n
  | array items => exact ofJson_array items
  | object members =>
    rw [ofJson_object]
    obtain ⟨entries, hmap, hascending, hlookup⟩ := ofEntries_eq _
    refine ⟨entries, hmap, hascending, fun key => ?_⟩
    rw [hlookup, lastFor?_map]
    rfl
  | _ => rfl

theorem ofNumber_cases (number : Json.Number) :
    (∃ i, ofNumber number = .int i) ∨ ∃ x, ofNumber number = .float x := by
  cases number with
  | whole n =>
    rw [ofNumber]
    split
    · exact Or.inl ⟨_, rfl⟩
    · exact Or.inr ⟨_, rfl⟩
  | double x => exact Or.inr ⟨x, rfl⟩

theorem eq_null_of_ofJson {json : Json} (h : ofJson json = .null) : json = .null := by
  cases json with
  | null => rfl
  | number n => obtain ⟨i, hn⟩ | ⟨x, hn⟩ := ofNumber_cases n <;> simp [ofJson, hn] at h
  | _ => simp [ofJson, ofEntries] at h

theorem field?_ofJson (host : Host) (json : Json) (key : String) :
    (ofJson json).field? host key = (json.member? key).map ofJson := by
  cases json with
  | object members =>
    rw [ofJson_object, (ofEntries_keepsLast host _).1, lastFor?_map]
    rfl
  | number n =>
    rw [ofJson]
    obtain ⟨i, hn⟩ | ⟨x, hn⟩ := ofNumber_cases n <;> rw [hn] <;> rfl
  | _ =>
    rw [ofJson]
    rfl

theorem items?_ofJson (json : Json) :
    (ofJson json).items? = json.items?.map (List.map ofJson) := by
  cases json with
  | array items =>
    rw [ofJson_array]
    rfl
  | number n =>
    rw [ofJson]
    obtain ⟨i, hn⟩ | ⟨x, hn⟩ := ofNumber_cases n <;> rw [hn] <;> rfl
  | _ =>
    rw [ofJson]
    rfl

theorem bind_items?_ofJson (json? : Option Json) :
    (json?.map ofJson).bind items? = (json?.bind Json.items?).map (List.map ofJson) := by
  cases json? with
  | none => rfl
  | some json => exact items?_ofJson json

theorem follow_ofJson (host : Host) (json : Json) (keys : List String) :
    (ofJson json).follow host keys = (json.at? keys).map ofJson := by
  induction keys generalizing json with
  | nil => rfl
  | cons key keys ih =>
    rw [follow, field?_ofJson, Json.at?]
    cases json.member? key with
    | none => rfl
    | some member => exact ih member

end Value

/-- With a document bound as the model, a path stands for what its keys lead to in the document. A
loop over it has one turn for each item of the array that is found there, in their order, and is
passed over if there is no array. Every document keeps all that it says as a value, and null alone
becomes null. -/
theorem Context.resolve_ofJson (run : Run) (json : Json) (keys : List String) (name : String)
    (body : List Node) (h : run.context.lookup modelName = some (Value.ofJson json)) :
    run.context.resolve ⟨modelName, keys⟩ = (json.at? keys).map Value.ofJson ∧
      (Node.loop name ⟨modelName, keys⟩ body).render run =
        (match (json.at? keys).bind Json.items? with
        | none => run.skip ⟨modelName, keys⟩
        | some items => items.foldl
            (fun run item => (renderNodes (run.enter name (Value.ofJson item)) body).leave) run) ∧
      ∀ document : Json, document.IsValue (Value.ofJson document) ∧
        (Value.ofJson document = .null ↔ document = .null) := by
  have hresolve : run.context.resolve ⟨modelName, keys⟩ = (json.at? keys).map Value.ofJson := by
    rw [resolve_eq_meaning, Path.meaning, h]
    exact Value.follow_ofJson run.context.host json keys
  refine ⟨hresolve, ?_, fun document => ⟨Value.ofJson_isValue document, fun hnull => ?_, ?_⟩⟩
  · rw [Node.render, hresolve, Value.bind_items?_ofJson]
    cases (json.at? keys).bind Json.items? with
    | none => rfl
    | some items => exact List.foldl_map
  · exact Value.eq_null_of_ofJson hnull
  · intro hnull
    rw [hnull, Value.ofJson]

/-- The largest integer and the number behind it, at the end of a path through a document in which
a key comes again. One key more leads nowhere. -/
theorem Context.resolve_ofJson_items :
    let items : List Json := [.number (.whole 9223372036854775807), .null,
      .number (.whole 9223372036854775808)]
    let document : Json := .object
      [("a", .null), ("b", .bool true), ("a", .object [("é", .array items)])]
    let run : Run := ⟨.ofModel .empty (Value.ofJson document), "", []⟩
    run.context.lookup modelName = some (Value.ofJson document) ∧
      run.context.resolve ⟨modelName, ["a", "é"]⟩ =
        some (.list [.int 9223372036854775807, .null, .float (.ofNat 9223372036854775808)]) ∧
      run.context.resolve ⟨modelName, ["a", "é", "0"]⟩ = none ∧
      (Node.loop "x" ⟨modelName, ["a", "é"]⟩ []).render run =
        items.foldl (fun run item => (run.enter "x" (Value.ofJson item)).leave) run := by
  intro items document run
  have hlookup : run.context.lookup modelName = some (Value.ofJson document) := rfl
  have hat : document.at? ["a", "é"] = some (.array items) := rfl
  have hbelow : document.at? ["a", "é", "0"] = none := rfl
  have hfound := resolve_ofJson run document ["a", "é"] "x" [] hlookup
  have hlost := resolve_ofJson run document ["a", "é", "0"] "x" [] hlookup
  rw [hat] at hfound
  rw [hbelow] at hlost
  exact ⟨hlookup, hfound.1, hlost.1, hfound.2.1⟩

end Stencil
