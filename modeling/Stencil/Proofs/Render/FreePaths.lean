import Mathlib
import Stencil.Proofs.Render.Meaning

/-! What a template can see of the names that are bound around it: only what its free
paths stand for, and of that not even whether it is null or absent. Two environments
that agree so far give the same text, because a loop binds its name to the same item
in both. -/

namespace Stencil

mutual

/-- The paths that do not start with the name of a loop around them. The items of a loop are
named outside of it. -/
def Node.freePaths : Node → List Path
  | .text _ => []
  | .output path => [path]
  | .branch condition yes none => condition :: nodesFreePaths yes
  | .branch condition yes (some no) => condition :: nodesFreePaths yes ++ nodesFreePaths no
  | .loop name items body => items :: (nodesFreePaths body).filter fun path => path.head ≠ name

def nodesFreePaths : List Node → List Path
  | [] => []
  | node :: nodes => node.freePaths ++ nodesFreePaths nodes

end

def Template.freePaths (template : Template) : List Path :=
  nodesFreePaths template

/-- Nothing is found, or null. -/
def Absent : Option Value → Prop
  | none | some .null => True
  | some _ => False

/-- What a template cannot tell apart: the same value twice, or twice none. -/
def Alike (found found' : Option Value) : Prop :=
  found = found' ∨ Absent found ∧ Absent found'

theorem absent_iff {found : Option Value} : Absent found ↔ found = none ∨ found = some .null := by
  rcases found with _ | value
  · simp [Absent]
  · cases value <;> simp [Absent]

/-- Two environments in which the paths stand for what a template cannot tell apart. -/
def AlikeOn (host : Host) (paths : List Path) (env env' : Environment) : Prop :=
  ∀ path ∈ paths, Alike (path.meaning host env) (path.meaning host env')

section
variable {host : Host} {env env' : Environment} {path : Path}

theorem textMeaning_of_absent (h : Absent (path.meaning host env)) :
    path.textMeaning host env = "" := by
  rcases absent_iff.mp h with h | h
  · rw [Path.textMeaning, h]
  · rw [Path.textMeaning, h]
    exact Value.text.eq_1 host

theorem Alike.textMeaning_eq (h : Alike (path.meaning host env) (path.meaning host env')) :
    path.textMeaning host env = path.textMeaning host env' := by
  rcases h with h | ⟨h, h'⟩
  · rw [Path.textMeaning, Path.textMeaning, h]
  · rw [textMeaning_of_absent h, textMeaning_of_absent h']

theorem AlikeOn.append_left {paths others : List Path}
    (h : AlikeOn host (paths ++ others) env env') : AlikeOn host paths env env' :=
  fun path hpath => h path (List.mem_append_left _ hpath)

theorem AlikeOn.append_right {paths others : List Path}
    (h : AlikeOn host (paths ++ others) env env') : AlikeOn host others env env' :=
  fun path hpath => h path (List.mem_append_right _ hpath)

theorem AlikeOn.head {paths : List Path} (h : AlikeOn host (path :: paths) env env') :
    Alike (path.meaning host env) (path.meaning host env') :=
  h path List.mem_cons_self

theorem AlikeOn.tail {paths : List Path} (h : AlikeOn host (path :: paths) env env') :
    AlikeOn host paths env env' :=
  fun other hother => h other (List.mem_cons_of_mem _ hother)

theorem AlikeOn.update {paths : List Path} {name : String}
    (h : AlikeOn host (paths.filter fun path => path.head ≠ name) env env') (value : Value) :
    AlikeOn host paths (Function.update env name (some value))
      (Function.update env' name (some value)) := by
  intro path hpath
  by_cases hname : path.head = name
  · refine Or.inl ?_
    rw [Path.meaning, Path.meaning, hname, Function.update_self, Function.update_self]
  · have hfree := h path (List.mem_filter.mpr ⟨hpath, decide_eq_true hname⟩)
    rw [Path.meaning, Path.meaning] at hfree ⊢
    rwa [Function.update_of_ne hname, Function.update_of_ne hname]

theorem loop_meaning_of_absent (name : String) (body : List Node)
    (h : Absent (path.meaning host env)) : (Node.loop name path body).meaning host env = "" := by
  rw [Node.meaning]
  rcases absent_iff.mp h with h | h <;> rw [h]

end

/-- The meaning of the nodes depends on their free paths alone. -/
def NodesSeeFreePaths (host : Host) (nodes : List Node) : Prop :=
  ∀ env env', AlikeOn host (nodesFreePaths nodes) env env' →
    nodesMeaning host nodes env = nodesMeaning host nodes env'

section
variable {host : Host}

theorem loop_sees_freePaths {name : String} {items : Path} {body : List Node}
    (hbody : NodesSeeFreePaths host body) {env env' : Environment}
    (alike : AlikeOn host (Node.loop name items body).freePaths env env') :
    (Node.loop name items body).meaning host env =
      (Node.loop name items body).meaning host env' := by
  rw [Node.freePaths] at alike
  have hturn (value : Value) := hbody _ _ (alike.tail.update value)
  rcases alike.head with hsame | ⟨habsent, habsent'⟩
  · rw [Node.meaning, Node.meaning, hsame]
    simp only [hturn]
  · rw [loop_meaning_of_absent name body habsent, loop_meaning_of_absent name body habsent']

theorem nodes_see_freePaths (nodes : List Node) : NodesSeeFreePaths host nodes := by
  induction nodes using nodes_induction with
  | nil => intro env env' _; rfl
  | text content nodes ih =>
    intro env env' alike
    rw [nodesMeaning, nodesMeaning, Node.meaning, Node.meaning, ih env env' alike.append_right]
  | output path nodes ih =>
    intro env env' alike
    rw [nodesFreePaths, Node.freePaths] at alike
    rw [nodesMeaning, nodesMeaning, Node.meaning, Node.meaning, alike.head.textMeaning_eq,
      ih env env' alike.append_right]
  | branch condition yes nodes ihyes ih =>
    intro env env' alike
    rw [nodesFreePaths, Node.freePaths] at alike
    have hyes := ihyes env env' alike.append_left.tail
    rw [nodesMeaning, nodesMeaning, Node.meaning, Node.meaning, alike.head.textMeaning_eq, hyes,
      ih env env' alike.append_right]
  | branchElse condition yes no nodes ihyes ihno ih =>
    intro env env' alike
    rw [nodesFreePaths, Node.freePaths] at alike
    have hyes := ihyes env env' alike.append_left.append_left.tail
    have hno := ihno env env' alike.append_left.append_right
    rw [nodesMeaning, nodesMeaning, Node.meaning, Node.meaning, alike.head.textMeaning_eq, hyes,
      hno, ih env env' alike.append_right]
  | loop name items body nodes ihbody ih =>
    intro env env' alike
    rw [nodesMeaning, nodesMeaning, loop_sees_freePaths ihbody alike.append_left,
      ih env env' alike.append_right]

end

theorem renderIn_text (context : Context) (template : Template) :
    (template.renderIn context).text = nodesMeaning context.host template context.lookup :=
  (nodes_addMeaning template { context }).1.trans String.empty_append

/-- If the free paths of a template stand for the same values in two contexts, or for nothing
or null in both, its text is the same in both, whatever else the contexts bind and in
whatever scopes. The values may hold objects, so the contexts belong to one host program. -/
theorem text_of_freePaths (template : Template) (context other : Context)
    (hhost : other.host = context.host)
    (alike : ∀ path ∈ template.freePaths, Alike (context.resolve path) (other.resolve path)) :
    (template.renderIn context).text = (template.renderIn other).text := by
  rw [renderIn_text, renderIn_text, hhost]
  refine nodes_see_freePaths template _ _ ?_
  intro path hpath
  have hpaths := alike path hpath
  rwa [Context.resolve_eq_meaning, Context.resolve_eq_meaning, hhost] at hpaths

/-- The loop takes the name of the model away from what its body shows. Of the two contexts
one has a scope more, other fields, and a null where the other has nothing. -/
theorem text_of_freePaths_shadowed :
    let rows : Value := .list [.map [("name", .string "a")], .map [("name", .string "b")]]
    let template : Template :=
      [.loop "model" ⟨"model", ["rows"]⟩ [.output ⟨"model", ["name"]⟩], .output ⟨"last", []⟩]
    let context : Context := .ofModel .empty (.map [("rows", rows), ("title", .bool true)])
    let other : Context :=
      ((Context.ofModel .empty .null).set "last" .null).push.set "model" (.map [("rows", rows)])
    other.host = context.host ∧
      (∀ path ∈ template.freePaths, Alike (context.resolve path) (other.resolve path)) ∧
      (template.renderIn context).text = (template.renderIn other).text := by
  intro rows template context other
  have alike : ∀ path ∈ template.freePaths,
      Alike (context.resolve path) (other.resolve path) := by
    have hfree : template.freePaths = [⟨"model", ["rows"]⟩, ⟨"last", []⟩] := by
      cbv
    rw [hfree, List.forall_mem_cons, List.forall_mem_singleton]
    exact ⟨Or.inl (by cbv), Or.inr ⟨by cbv, by cbv⟩⟩
  exact ⟨rfl, alike, text_of_freePaths template context other rfl alike⟩

end Stencil
