import Stencil.Render
import Stencil.Proofs.Template.Spelling
import Mathlib.Logic.Function.Basic

/-! What a template means. Rendering opens and leaves scopes on one context, but its
text is a function of the names that are bound around the template, and the scopes
are the same afterwards. -/

namespace Stencil

/-- What names stand for. -/
abbrev Environment := String → Option Value

def Value.follow (host : Host) (value : Value) : List String → Option Value
  | [] => some value
  | name :: names => (value.field? host name).bind fun field => follow host field names

def Path.meaning (host : Host) (env : Environment) (path : Path) : Option Value :=
  (env path.head).bind fun value => value.follow host path.tail

/-- The text of what a path means; what is absent has none. -/
def Path.textMeaning (host : Host) (env : Environment) (path : Path) : String :=
  match path.meaning host env with
  | some value => value.text host
  | none => ""

mutual

def Node.meaning (host : Host) : Node → Environment → String
  | .text content, _ => content
  | .output path, env => path.textMeaning host env
  | .branch condition yes no, env =>
    if Value.isTruthy (condition.textMeaning host env) then nodesMeaning host yes env
    else
      match no with
      | some nodes => nodesMeaning host nodes env
      | none => ""
  | .loop name items body, env =>
    match items.meaning host env with
    | some (.list values) =>
      String.join (values.map fun value =>
        nodesMeaning host body (Function.update env name (some value)))
    | _ => ""

def nodesMeaning (host : Host) : List Node → Environment → String
  | [], _ => ""
  | node :: nodes, env => node.meaning host env ++ nodesMeaning host nodes env

end

/-- The text that a template stands for where names stand for these values. -/
def Template.meaning (host : Host) (env : Environment) (template : Template) : String :=
  nodesMeaning host template env

namespace Context

theorem lookup_enter (context : Context) (name : String) (value : Value) :
    (context.push.set name value).lookup = Function.update context.lookup name (some value) := by
  funext other
  rw [lookup_set, Function.update_apply, lookup_push]

theorem follow_eq_foldlM (host : Host) (names : List String) (value : Value) :
    names.foldlM (Value.field? host) value = value.follow host names := by
  induction names generalizing value with
  | nil => rfl
  | cons name names ih =>
    rw [List.foldlM_cons, Value.follow]
    exact congrArg _ (funext ih)

theorem resolve_eq_meaning (context : Context) (path : Path) :
    context.resolve path = path.meaning context.host context.lookup := by
  rw [resolve, Path.meaning]
  exact congrArg _ (funext (follow_eq_foldlM context.host path.tail))

theorem pathText_eq_meaning (context : Context) (path : Path) :
    context.pathText path = path.textMeaning context.host context.lookup := by
  rw [pathText, Path.textMeaning, resolve_eq_meaning]
  cases path.meaning context.host context.lookup <;> rfl

end Context

/-- The run has gone on by some text, and its context is as it was. -/
def Run.Adds (run : Run) (text : String) (next : Run) : Prop :=
  next.text = run.text ++ text ∧ next.context = run.context

namespace Run.Adds

theorem refl (run : Run) : run.Adds "" run :=
  ⟨String.append_empty.symm, rfl⟩

theorem trans {run middle next : Run} {first second : String} (h : run.Adds first middle)
    (h' : middle.Adds second next) : run.Adds (first ++ second) next :=
  ⟨by rw [h'.1, h.1, String.append_assoc], h'.2.trans h.2⟩

theorem turn {run next : Run} {name text : String} {item : Value}
    (h : (run.enter name item).Adds text next) : run.Adds text next.leave := by
  refine ⟨h.1, ?_⟩
  rw [Run.leave, h.2]
  exact Context.pop_set_push run.context name item

end Run.Adds

/-- Rendering the node adds its meaning to every run. -/
def Node.AddsMeaning (node : Node) : Prop :=
  ∀ run : Run, run.Adds (node.meaning run.context.host run.context.lookup) (node.render run)

def NodesAddMeaning (nodes : List Node) : Prop :=
  ∀ run : Run, run.Adds (nodesMeaning run.context.host nodes run.context.lookup)
    (renderNodes run nodes)

theorem NodesAddMeaning.cons {node : Node} {nodes : List Node} (hnode : node.AddsMeaning)
    (hnodes : NodesAddMeaning nodes) : NodesAddMeaning (node :: nodes) := by
  intro run
  have others := hnodes (node.render run)
  -- the node leaves the context as it was, so the others mean what they did before it
  rw [(hnode run).2] at others
  rw [nodesMeaning, renderNodes]
  exact (hnode run).trans others

theorem text_addsMeaning (content : String) : (Node.text content).AddsMeaning := by
  intro run
  rw [Node.meaning, Node.render]
  exact ⟨rfl, rfl⟩

theorem output_addsMeaning (path : Path) : (Node.output path).AddsMeaning := by
  intro run
  rw [Node.meaning, Node.render, ← Context.pathText_eq_meaning]
  exact ⟨rfl, rfl⟩

theorem branch_addsMeaning (condition : Path) {yes : List Node} (hyes : NodesAddMeaning yes) :
    (Node.branch condition yes none).AddsMeaning := by
  intro run
  rw [Node.meaning, Node.render, ← Context.pathText_eq_meaning]
  by_cases truthy : Value.isTruthy (run.context.pathText condition)
  · rw [if_pos truthy, if_pos truthy]
    exact hyes run
  · rw [if_neg truthy, if_neg truthy]
    exact .refl run

theorem branchElse_addsMeaning (condition : Path) {yes no : List Node}
    (hyes : NodesAddMeaning yes) (hno : NodesAddMeaning no) :
    (Node.branch condition yes (some no)).AddsMeaning := by
  intro run
  rw [Node.meaning, Node.render, ← Context.pathText_eq_meaning]
  by_cases truthy : Value.isTruthy (run.context.pathText condition)
  · rw [if_pos truthy, if_pos truthy]
    exact hyes run
  · rw [if_neg truthy, if_neg truthy]
    exact hno run

theorem turns_add {body : List Node} (hbody : NodesAddMeaning body) (name : String)
    (values : List Value) (run : Run) :
    run.Adds
      (String.join (values.map fun value => nodesMeaning run.context.host body
        (Function.update run.context.lookup name (some value))))
      (values.foldl (fun run item => (renderNodes (run.enter name item) body).leave) run) := by
  induction values generalizing run with
  | nil => exact .refl run
  | cons value values ih =>
    have first := (hbody (run.enter name value)).turn
    have others := ih (renderNodes (run.enter name value) body).leave
    rw [first.2] at others
    rw [Run.enter, Context.lookup_enter] at first
    rw [List.map_cons, String.join_cons, List.foldl_cons]
    exact first.trans others

theorem loop_addsMeaning (name : String) (items : Path) {body : List Node}
    (hbody : NodesAddMeaning body) : (Node.loop name items body).AddsMeaning := by
  intro run
  rw [Node.meaning, Node.render, Context.resolve_eq_meaning]
  cases items.meaning run.context.host run.context.lookup with
  | none => exact .refl run
  | some value =>
    cases value with
    | list values => exact turns_add hbody name values run
    | _ => exact .refl run

theorem nodes_addMeaning (nodes : List Node) : NodesAddMeaning nodes := by
  induction nodes using nodes_induction with
  | nil => exact Run.Adds.refl
  | text content nodes ih => exact .cons (text_addsMeaning content) ih
  | output path nodes ih => exact .cons (output_addsMeaning path) ih
  | branch condition yes nodes ihyes ih =>
    exact .cons (branch_addsMeaning condition ihyes) ih
  | branchElse condition yes no nodes ihyes ihno ih =>
    exact .cons (branchElse_addsMeaning condition ihyes ihno) ih
  | loop name items body nodes ihbody ih => exact .cons (loop_addsMeaning name items ihbody) ih

/-- Rendering a template in a context gives the template's meaning in the environment
that the context's names make up, and gives the context back unchanged. -/
theorem renderIn_eq_meaning (context : Context) (template : Template) :
    (template.renderIn context).text = template.meaning context.host context.lookup ∧
      (template.renderIn context).context = context := by
  have adds := nodes_addMeaning template { context }
  exact ⟨adds.1.trans String.empty_append, adds.2⟩

end Stencil
