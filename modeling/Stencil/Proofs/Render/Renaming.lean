import Mathlib
import Stencil.Proofs.Render.FreePaths
import Stencil.Proofs.Template.Join

/-! The name of a loop does not matter. If a loop and the paths that its name binds take
another name, the template says the same as before, unless the other name was in use inside
of the loop. -/

namespace Stencil

mutual

def Node.names : Node → List String
  | .text _ => []
  | .output path => [path.head]
  | .branch condition yes none => condition.head :: nodesNames yes
  | .branch condition yes (some no) => condition.head :: nodesNames yes ++ nodesNames no
  | .loop name items body => name :: items.head :: nodesNames body

def nodesNames : List Node → List String
  | [] => []
  | node :: nodes => node.names ++ nodesNames nodes

end

def Path.rename (name other : String) (path : Path) : Path :=
  if path.head = name then { path with head := other } else path

mutual

/-- The node with another name in place of one that is bound around it. A loop that binds the
name again keeps its body; its items are named outside of it. -/
def Node.rename (name other : String) : Node → Node
  | .text content => .text content
  | .output path => .output (path.rename name other)
  | .branch condition yes none =>
    .branch (condition.rename name other) (nodesRename name other yes) none
  | .branch condition yes (some no) =>
    .branch (condition.rename name other) (nodesRename name other yes)
      (some (nodesRename name other no))
  | .loop inner items body =>
    .loop inner (items.rename name other)
      (if inner = name then body else nodesRename name other body)

def nodesRename (name other : String) : List Node → List Node
  | [] => []
  | node :: nodes => node.rename name other :: nodesRename name other nodes

end

/-- A place for a node in a template: between other nodes, or in a list of a directive that
stands between other nodes. -/
inductive Place where
  | here (before after : List Node)
  | inYes (before : List Node) (condition : Path) (inner : Place) (no : Option (List Node))
      (after : List Node)
  | inNo (before : List Node) (condition : Path) (yes : List Node) (inner : Place)
      (after : List Node)
  | inBody (before : List Node) (name : String) (items : Path) (inner : Place) (after : List Node)

def Place.fill (node : Node) : Place → Template
  | here before after => before ++ node :: after
  | inYes before condition inner no after =>
    before ++ .branch condition (inner.fill node) no :: after
  | inNo before condition yes inner after =>
    before ++ .branch condition yes (some (inner.fill node)) :: after
  | inBody before name items inner after =>
    before ++ .loop name items (inner.fill node) :: after

section
variable {host : Host} {node node' : Node}

theorem nodesMeaning_between {env : Environment}
    (h : node.meaning host env = node'.meaning host env) (before after : List Node) :
    nodesMeaning host (before ++ node :: after) env =
      nodesMeaning host (before ++ node' :: after) env := by
  rw [nodesMeaning_append, nodesMeaning_append, nodesMeaning, nodesMeaning, h]

/-- At every place a node may stand for another one that means the same. -/
theorem nodesMeaning_fill (h : ∀ env, node.meaning host env = node'.meaning host env)
    (place : Place) (env : Environment) :
    nodesMeaning host (place.fill node) env = nodesMeaning host (place.fill node') env := by
  induction place generalizing env with
  | here before after => exact nodesMeaning_between (h env) before after
  | inYes before condition inner no after ih =>
    refine nodesMeaning_between ?_ before after
    cases no <;> rw [Node.meaning, Node.meaning, ih]
  | inNo before condition yes inner after ih =>
    refine nodesMeaning_between ?_ before after
    rw [Node.meaning, Node.meaning]
    simp only [ih]
  | inBody before name items inner after ih =>
    refine nodesMeaning_between ?_ before after
    rw [Node.meaning, Node.meaning]
    simp only [ih]

end

/-- The second environment has under the other name what the first one has under the name, and
for the rest they agree. What the first one has under the other name does not matter. -/
def Renamed (name other : String) (env env' : Environment) : Prop :=
  env' other = env name ∧ ∀ x, x ≠ name → x ≠ other → env' x = env x

section
variable {name other : String} {env env' : Environment}

theorem renamed_update (env : Environment) (value : Value) :
    Renamed name other (Function.update env name (some value))
      (Function.update env other (some value)) := by
  constructor
  · rw [Function.update_self, Function.update_self]
  · intro x hname hother
    rw [Function.update_of_ne hname, Function.update_of_ne hother]

theorem Renamed.update (h : Renamed name other env env') {inner : String} (hname : inner ≠ name)
    (hother : inner ≠ other) (value : Value) :
    Renamed name other (Function.update env inner (some value))
      (Function.update env' inner (some value)) := by
  constructor
  · rw [Function.update_of_ne hother.symm, Function.update_of_ne hname.symm, h.1]
  · intro x hx hx'
    rw [Function.update_apply, Function.update_apply, h.2 x hx hx']

theorem Renamed.update_self (h : Renamed name other env env') (value : Value) {x : String}
    (hx : x ≠ other) :
    Function.update env name (some value) x = Function.update env' name (some value) x := by
  by_cases hname : x = name
  · rw [hname, Function.update_self, Function.update_self]
  · rw [Function.update_of_ne hname, Function.update_of_ne hname, h.2 x hname hx]

theorem Renamed.meaning_eq (h : Renamed name other env env') (host : Host) {path : Path}
    (fresh : path.head ≠ other) :
    (path.rename name other).meaning host env' = path.meaning host env := by
  unfold Path.rename
  split
  · next hname => rw [Path.meaning, Path.meaning, h.1, hname]
  · next hname => rw [Path.meaning, Path.meaning, h.2 path.head hname fresh]

theorem Renamed.textMeaning_eq (h : Renamed name other env env') (host : Host) {path : Path}
    (fresh : path.head ≠ other) :
    (path.rename name other).textMeaning host env' = path.textMeaning host env := by
  rw [Path.textMeaning, Path.textMeaning, h.meaning_eq host fresh]

end

theorem head_mem_names (nodes : List Node) :
    ∀ path ∈ nodesFreePaths nodes, path.head ∈ nodesNames nodes := by
  induction nodes using nodes_induction with
  | nil => simp [nodesFreePaths]
  | _ =>
    simp only [nodesFreePaths, nodesNames, Node.freePaths, Node.names]
    grind

/-- Under the other name the nodes mean in the second environment what they mean under the name
in the first one. -/
def NodesRename (name other : String) (host : Host) (nodes : List Node) : Prop :=
  other ∉ nodesNames nodes → ∀ env env', Renamed name other env env' →
    nodesMeaning host (nodesRename name other nodes) env' = nodesMeaning host nodes env

section
variable {name other : String} {host : Host} {env env' : Environment}

theorem body_rename {inner : String} {body : List Node} (hbody : NodesRename name other host body)
    (hinner : inner ≠ other) (fresh : other ∉ nodesNames body)
    (h : Renamed name other env env') (value : Value) :
    nodesMeaning host (if inner = name then body else nodesRename name other body)
        (Function.update env' inner (some value)) =
      nodesMeaning host body (Function.update env inner (some value)) := by
  split
  · next hname =>
    rw [hname]
    refine nodes_see_freePaths body _ _ fun path hpath => Or.inl ?_
    have hhead : path.head ≠ other := fun hsame => fresh (hsame ▸ head_mem_names body path hpath)
    rw [Path.meaning, Path.meaning, h.update_self value hhead]
  · next hname => exact hbody fresh _ _ (h.update hname hinner value)

theorem nodes_rename (nodes : List Node) : NodesRename name other host nodes := by
  induction nodes using nodes_induction with
  | nil => intro _ env env' _; rfl
  | text content nodes ih =>
    intro fresh env env' h
    rw [nodesNames, Node.names, List.nil_append] at fresh
    rw [nodesRename, Node.rename, nodesMeaning, nodesMeaning, Node.meaning, Node.meaning,
      ih fresh env env' h]
  | output path nodes ih =>
    intro fresh env env' h
    rw [nodesNames, Node.names, List.mem_append, List.mem_singleton, not_or] at fresh
    obtain ⟨hpath, hnodes⟩ := fresh
    rw [nodesRename, Node.rename, nodesMeaning, nodesMeaning, Node.meaning, Node.meaning,
      h.textMeaning_eq host (Ne.symm hpath), ih hnodes env env' h]
  | branch condition yes nodes ihyes ih =>
    intro fresh env env' h
    rw [nodesNames, Node.names, List.mem_append, List.mem_cons, not_or, not_or] at fresh
    obtain ⟨⟨hcondition, hyes⟩, hnodes⟩ := fresh
    rw [nodesRename, Node.rename, nodesMeaning, nodesMeaning, Node.meaning, Node.meaning,
      h.textMeaning_eq host (Ne.symm hcondition), ihyes hyes env env' h, ih hnodes env env' h]
  | branchElse condition yes no nodes ihyes ihno ih =>
    intro fresh env env' h
    rw [nodesNames, Node.names, List.mem_append, List.mem_append, List.mem_cons, not_or, not_or,
      not_or] at fresh
    obtain ⟨⟨⟨hcondition, hyes⟩, hno⟩, hnodes⟩ := fresh
    rw [nodesRename, Node.rename, nodesMeaning, nodesMeaning, Node.meaning, Node.meaning,
      h.textMeaning_eq host (Ne.symm hcondition), ihyes hyes env env' h, ihno hno env env' h,
      ih hnodes env env' h]
  | loop inner items body nodes ihbody ih =>
    intro fresh env env' h
    rw [nodesNames, Node.names, List.mem_append, List.mem_cons, List.mem_cons, not_or, not_or,
      not_or] at fresh
    obtain ⟨⟨hinner, hitems, hbody⟩, hnodes⟩ := fresh
    rw [nodesRename, Node.rename, nodesMeaning, nodesMeaning, Node.meaning, Node.meaning,
      h.meaning_eq host (Ne.symm hitems), ih hnodes env env' h]
    simp only [body_rename ihbody (Ne.symm hinner) hbody h]

theorem loop_rename (items : Path) {body : List Node} (fresh : other ∉ nodesNames body)
    (env : Environment) :
    (Node.loop other items (nodesRename name other body)).meaning host env =
      (Node.loop name items body).meaning host env := by
  have hturn (value : Value) :
      nodesMeaning host (nodesRename name other body) (Function.update env other (some value)) =
        nodesMeaning host body (Function.update env name (some value)) :=
    nodes_rename body fresh _ _ (renamed_update env value)
  rw [Node.meaning, Node.meaning]
  simp only [hturn]

end

/-- A loop in a template may have any other name that its body does not mention, if the paths
that its name binds take the other name too. The text is the same in every context. -/
theorem text_renameLoop (place : Place) (name other : String) (items : Path) (body : List Node)
    (fresh : other ∉ nodesNames body) (context : Context) :
    ((place.fill (.loop other items (nodesRename name other body))).renderIn context).text =
      ((place.fill (.loop name items body)).renderIn context).text := by
  rw [renderIn_text, renderIn_text]
  exact nodesMeaning_fill (loop_rename items fresh) place context.lookup

/-- The outer loop is renamed to a name that is bound around it. The inner one binds the old name
again, so what it shows is left alone, but not its items. -/
theorem text_renameLoop_shadowed :
    let rows : Value := .list [.map [("cells", .list [.string "a", .string "b"])]]
    let context : Context := .ofModel .empty rows
    let body : List Node :=
      [.loop "row" ⟨"row", ["cells"]⟩ [.output ⟨"row", []⟩], .output ⟨"row", ["cells"]⟩]
    let place : Place := .inYes [.text "-"] ⟨modelName, []⟩ (.here [] [.text "-"]) none []
    modelName ∉ nodesNames body ∧
      nodesRename "row" modelName body =
        [.loop "row" ⟨modelName, ["cells"]⟩ [.output ⟨"row", []⟩],
          .output ⟨modelName, ["cells"]⟩] ∧
      ((place.fill (.loop "row" ⟨modelName, []⟩ body)).renderIn context).text = "-ab[a, b]-" ∧
      ((place.fill (.loop modelName ⟨modelName, []⟩
        (nodesRename "row" modelName body))).renderIn context).text = "-ab[a, b]-" := by
  intro rows context body place
  have fresh : modelName ∉ nodesNames body := by
    decide
  have htext :
      ((place.fill (.loop "row" ⟨modelName, []⟩ body)).renderIn context).text = "-ab[a, b]-" := by
    cbv
  refine ⟨fresh, by cbv, htext, ?_⟩
  rw [text_renameLoop place "row" modelName ⟨modelName, []⟩ body fresh context, htext]

end Stencil
