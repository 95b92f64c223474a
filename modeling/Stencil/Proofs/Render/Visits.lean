import Stencil.Proofs.Render.Meaning

/-! The loops that a rendering comes to, one after the other, and which of them it passes over. A
loop is visited once for each turn of the loops around it, if the branches around it are taken.
Like the meaning of a template, the visits are a function of the names that are bound around it. -/

namespace Stencil

/-- One evaluation of a loop: the path of its items, and what the path stands for there. -/
structure Visit where
  items : Path
  found : Option Value

def Visit.passedOver? (visit : Visit) : Option Path :=
  match visit.found with
  | some (.list _) => none
  | _ => some visit.items

mutual

/-- The visits of a node's loops in their order. A loop is visited before the loops of its body. -/
def Node.visits (host : Host) : Node → Environment → List Visit
  | .text _, _ | .output _, _ => []
  | .branch condition yes no, env =>
    if Value.isTruthy (condition.textMeaning host env) then nodesVisits host yes env
    else
      match no with
      | some nodes => nodesVisits host nodes env
      | none => []
  | .loop name items body, env =>
    ⟨items, items.meaning host env⟩ ::
      match items.meaning host env with
      | some (.list values) =>
        values.flatMap fun value => nodesVisits host body (Function.update env name (some value))
      | _ => []

def nodesVisits (host : Host) : List Node → Environment → List Visit
  | [], _ => []
  | node :: nodes, env => node.visits host env ++ nodesVisits host nodes env

end

def Template.visits (host : Host) (env : Environment) (template : Template) : List Visit :=
  nodesVisits host template env

/-- The run has gone on and passed over the loops that find no list on these visits. -/
def Run.Tells (run : Run) (visits : List Visit) (next : Run) : Prop :=
  next.skipped.reverse = run.skipped.reverse ++ visits.filterMap Visit.passedOver?

namespace Run.Tells

theorem refl (run : Run) : run.Tells [] run :=
  (List.append_nil _).symm

theorem trans {run middle next : Run} {first second : List Visit} (h : run.Tells first middle)
    (h' : middle.Tells second next) : run.Tells (first ++ second) next := by
  rw [Tells] at h h' ⊢
  rw [h', h, List.filterMap_append, List.append_assoc]

end Run.Tells

theorem context_render (node : Node) (run : Run) : (node.render run).context = run.context :=
  (nodes_addMeaning [node] run).2

theorem context_turn (body : List Node) (name : String) (value : Value) (run : Run) :
    (renderNodes (run.enter name value) body).leave.context = run.context :=
  (nodes_addMeaning body (run.enter name value)).turn.2

def Node.TellsVisits (node : Node) : Prop :=
  ∀ run : Run, run.Tells (node.visits run.context.host run.context.lookup) (node.render run)

def NodesTellVisits (nodes : List Node) : Prop :=
  ∀ run : Run, run.Tells (nodesVisits run.context.host nodes run.context.lookup)
    (renderNodes run nodes)

theorem NodesTellVisits.cons {node : Node} {nodes : List Node} (hnode : node.TellsVisits)
    (hnodes : NodesTellVisits nodes) : NodesTellVisits (node :: nodes) := by
  intro run
  have others := hnodes (node.render run)
  rw [context_render] at others
  rw [nodesVisits, renderNodes]
  exact (hnode run).trans others

theorem text_tellsVisits (content : String) : (Node.text content).TellsVisits := by
  intro run
  rw [Node.visits, Node.render]
  exact .refl run

theorem output_tellsVisits (path : Path) : (Node.output path).TellsVisits := by
  intro run
  rw [Node.visits, Node.render]
  exact .refl run

theorem branch_tellsVisits (condition : Path) {yes : List Node} (hyes : NodesTellVisits yes) :
    (Node.branch condition yes none).TellsVisits := by
  intro run
  rw [Node.visits, Node.render, ← Context.pathText_eq_meaning]
  by_cases truthy : Value.isTruthy (run.context.pathText condition)
  · rw [if_pos truthy, if_pos truthy]
    exact hyes run
  · rw [if_neg truthy, if_neg truthy]
    exact .refl run

theorem branchElse_tellsVisits (condition : Path) {yes no : List Node}
    (hyes : NodesTellVisits yes) (hno : NodesTellVisits no) :
    (Node.branch condition yes (some no)).TellsVisits := by
  intro run
  rw [Node.visits, Node.render, ← Context.pathText_eq_meaning]
  by_cases truthy : Value.isTruthy (run.context.pathText condition)
  · rw [if_pos truthy, if_pos truthy]
    exact hyes run
  · rw [if_neg truthy, if_neg truthy]
    exact hno run

theorem turns_tell {body : List Node} (hbody : NodesTellVisits body) (name : String)
    (values : List Value) (run : Run) :
    run.Tells
      (values.flatMap fun value => nodesVisits run.context.host body
        (Function.update run.context.lookup name (some value)))
      (values.foldl (fun run item => (renderNodes (run.enter name item) body).leave) run) := by
  induction values generalizing run with
  | nil => exact .refl run
  | cons value values ih =>
    have first := hbody (run.enter name value)
    have others := ih (renderNodes (run.enter name value) body).leave
    rw [context_turn] at others
    rw [Run.enter, Context.lookup_enter] at first
    rw [List.flatMap_cons, List.foldl_cons]
    exact first.trans others

theorem loop_tellsVisits (name : String) (items : Path) {body : List Node}
    (hbody : NodesTellVisits body) : (Node.loop name items body).TellsVisits := by
  intro run
  rw [Node.visits, Node.render, Context.resolve_eq_meaning]
  have skip : ∀ found, Visit.passedOver? ⟨items, found⟩ = some items →
      run.Tells [⟨items, found⟩] (run.skip items) := by
    intro found hfound
    rw [Run.Tells, List.filterMap_cons_some hfound, Run.skip, List.reverse_cons]
    rfl
  cases items.meaning run.context.host run.context.lookup with
  | none => exact skip none rfl
  | some value =>
    cases value with
    | list values =>
      have first : run.Tells [⟨items, some (.list values)⟩] run := .refl run
      exact first.trans (turns_tell hbody name values run)
    | _ => exact skip _ rfl

theorem nodes_tellVisits (nodes : List Node) : NodesTellVisits nodes := by
  induction nodes using nodes_induction with
  | nil => exact Run.Tells.refl
  | text content nodes ih => exact .cons (text_tellsVisits content) ih
  | output path nodes ih => exact .cons (output_tellsVisits path) ih
  | branch condition yes nodes ihyes ih =>
    exact .cons (branch_tellsVisits condition ihyes) ih
  | branchElse condition yes no nodes ihyes ihno ih =>
    exact .cons (branchElse_tellsVisits condition ihyes ihno) ih
  | loop name items body nodes ihbody ih => exact .cons (loop_tellsVisits name items ihbody) ih

theorem skipped_renderIn (context : Context) (template : Template) :
    (template.renderIn context).skipped.reverse =
      (template.visits context.host context.lookup).filterMap Visit.passedOver? :=
  nodes_tellVisits template { context }

-- the second loop is visited for both items, of which the first one is no list
example :
    (Template.visits .empty (Context.ofModel .empty (.list [.null, .list []])).lookup
      [.loop "x" ⟨modelName, []⟩ [.loop "y" ⟨"x", []⟩ [.loop "z" ⟨"w", []⟩ []]]]).filterMap
        Visit.passedOver? = [⟨"x", []⟩] := by
  decide

end Stencil
