import Mathlib
import Stencil.Proofs.Engine.Literals
import Stencil.Proofs.Render.Meaning

/-! Rendering while each node is noted when its turn comes: where it stands in the template, and
which context it finds. Watched or not, a template is rendered in the same way. A node finds one
scope for each loop around it besides those that were open before, so the limit of the parser bounds
the scopes that are open at any moment. -/

namespace Stencil

inductive Slot where
  | yes
  | no
  | body
deriving DecidableEq

/-- The nodes that a directive holds in a slot. Any other node has no slots. -/
def Node.slot? : Node → Slot → Option (List Node)
  | .branch _ yes _, .yes => some yes
  | .branch _ _ no, .no => no
  | .loop _ _ body, .body => some body
  | _, _ => none

/-- The directives around some nodes, from the outside in: which node of its list each of them is,
and the slot that leads on from there. -/
abbrev Around := List (Nat × Slot)

/-- How many loops there are around some nodes. -/
def Around.loops (around : Around) : Nat :=
  around.countP fun step => step.2 = .body

structure Address where
  around : Around
  index : Nat

/-- What is around the nodes in a slot of the node that stands here. -/
def Address.inside (address : Address) (slot : Slot) : Around :=
  address.around ++ [(address.index, slot)]

/-- The nodes that have these directives around them. -/
def Template.nodesAt? (template : Template) (around : Around) : Option (List Node) :=
  around.foldlM (fun nodes step => nodes[step.1]?.bind (·.slot? step.2)) template

def Template.nodeAt? (template : Template) (address : Address) : Option Node :=
  (template.nodesAt? address.around).bind (·[address.index]?)

structure Moment where
  address : Address
  node : Node
  context : Context

/-- What the node writes itself. A directive writes nothing but what the nodes inside of it do. -/
def Moment.text (moment : Moment) : String :=
  match moment.node with
  | .text content => content
  | .output path => moment.context.pathText path
  | .branch .. | .loop .. => ""

structure Watch where
  run : Run
  moments : List Moment := []

namespace Watch

def note (watch : Watch) (address : Address) (node : Node) : Watch :=
  { watch with moments := watch.moments ++ [⟨address, node, watch.run.context⟩] }

def enter (watch : Watch) (name : String) (item : Value) : Watch :=
  { watch with run := watch.run.enter name item }

def leave (watch : Watch) : Watch :=
  { watch with run := watch.run.leave }

end Watch

mutual

/-- Carries out a node that was noted, and notes the nodes inside of it. -/
def Node.watch (address : Address) (watch : Watch) : Node → Watch
  | .text content => { watch with run := watch.run.write content }
  | .output path => { watch with run := watch.run.write (watch.run.context.pathText path) }
  | .branch condition yes no =>
    if Value.isTruthy (watch.run.context.pathText condition) then
      watchNodes (address.inside .yes) 0 watch yes
    else
      match no with
      | none => watch
      | some nodes => watchNodes (address.inside .no) 0 watch nodes
  | .loop name items body =>
    match (watch.run.context.resolve items).bind Value.items? with
    | none => { watch with run := watch.run.skip items }
    | some values =>
      values.foldl
        (fun watch item => (watchNodes (address.inside .body) 0 (watch.enter name item) body).leave)
        watch

def watchNodes (around : Around) (index : Nat) (watch : Watch) : List Node → Watch
  | [] => watch
  | node :: nodes =>
    watchNodes around (index + 1)
      (node.watch ⟨around, index⟩ (watch.note ⟨around, index⟩ node)) nodes

end

def Template.watchIn (context : Context) (template : Template) : Watch :=
  watchNodes [] 0 { run := { context } } template

def Node.RunsWatched (node : Node) : Prop :=
  ∀ address watch, (node.watch address watch).run = node.render watch.run

def NodesRunWatched (nodes : List Node) : Prop :=
  ∀ around index watch, (watchNodes around index watch nodes).run = renderNodes watch.run nodes

theorem NodesRunWatched.cons {node : Node} {nodes : List Node} (hnode : node.RunsWatched)
    (hnodes : NodesRunWatched nodes) : NodesRunWatched (node :: nodes) := by
  intro around index watch
  rw [watchNodes, hnodes, hnode, renderNodes]
  rfl

theorem branch_runsWatched (condition : Path) {yes : List Node} (hyes : NodesRunWatched yes) :
    (Node.branch condition yes none).RunsWatched := by
  intro address watch
  rw [Node.watch, Node.render]
  split
  · exact hyes _ _ watch
  · rfl

theorem branchElse_runsWatched (condition : Path) {yes no : List Node}
    (hyes : NodesRunWatched yes) (hno : NodesRunWatched no) :
    (Node.branch condition yes (some no)).RunsWatched := by
  intro address watch
  rw [Node.watch, Node.render]
  split
  · exact hyes _ _ watch
  · exact hno _ _ watch

theorem turns_runWatched {body : List Node} (hbody : NodesRunWatched body) (around : Around)
    (name : String) (values : List Value) (watch : Watch) :
    (values.foldl (fun watch item => (watchNodes around 0 (watch.enter name item) body).leave)
        watch).run =
      values.foldl (fun run item => (renderNodes (run.enter name item) body).leave) watch.run := by
  induction values generalizing watch with
  | nil => rfl
  | cons value values ih =>
    rw [List.foldl_cons, List.foldl_cons, ih, Watch.leave, hbody]
    rfl

theorem loop_runsWatched (name : String) (items : Path) {body : List Node}
    (hbody : NodesRunWatched body) : (Node.loop name items body).RunsWatched := by
  intro address watch
  rw [Node.watch, Node.render]
  cases (watch.run.context.resolve items).bind Value.items? with
  | none => rfl
  | some values => exact turns_runWatched hbody _ name values watch

theorem nodes_runWatched (nodes : List Node) : NodesRunWatched nodes := by
  induction nodes using nodes_induction with
  | nil => exact fun _ _ _ => rfl
  | text content nodes ih => exact .cons (fun _ _ => rfl) ih
  | output path nodes ih => exact .cons (fun _ _ => rfl) ih
  | branch condition yes nodes ihyes ih => exact .cons (branch_runsWatched condition ihyes) ih
  | branchElse condition yes no nodes ihyes ihno ih =>
    exact .cons (branchElse_runsWatched condition ihyes ihno) ih
  | loop name items body nodes ihbody ih => exact .cons (loop_runsWatched name items ihbody) ih

theorem run_watch (node : Node) (address : Address) (watch : Watch) :
    (node.watch address (watch.note address node)).run = node.render watch.run :=
  nodes_runWatched [node] address.around address.index watch

/-- Behind a node that is watched the scopes are those in front of it. -/
theorem context_watch (node : Node) (address : Address) (watch : Watch) :
    (node.watch address (watch.note address node)).run.context = watch.run.context := by
  rw [run_watch]
  exact (nodes_addMeaning [node] watch.run).2

theorem context_watchTurn (around : Around) (body : List Node) (name : String) (item : Value)
    (watch : Watch) :
    (watchNodes around 0 (watch.enter name item) body).leave.run.context = watch.run.context := by
  rw [Watch.leave, nodes_runWatched]
  exact (nodes_addMeaning body (watch.run.enter name item)).turn.2

section
variable {template : Template} {address : Address} {node : Node}

theorem nodesAt?_inside (h : template.nodeAt? address = some node) (slot : Slot) :
    template.nodesAt? (address.inside slot) = node.slot? slot := by
  rw [Template.nodesAt?, Address.inside, List.foldlM_append, ← Template.nodesAt?]
  rw [Template.nodeAt?] at h
  cases hnodes : template.nodesAt? address.around with
  | none =>
    rw [hnodes] at h
    cases h
  | some nodes =>
    rw [hnodes, Option.bind_some] at h
    simp [h]

theorem loops_inside (address : Address) (slot : Slot) :
    (address.inside slot).loops = address.around.loops + if slot = .body then 1 else 0 := by
  simp [Around.loops, Address.inside, List.countP_singleton]

end

/-- The node stands where it is said to stand in the template, and one scope is open for each loop
around it besides so many others. -/
structure Moment.Fits (template : Template) (depth : Nat) (moment : Moment) : Prop where
  node : template.nodeAt? moment.address = some moment.node
  depth : moment.context.depth = depth + moment.address.around.loops

/-- The watch has gone on by moments that fit, and by the text that they write. -/
def Watch.Adds (template : Template) (depth : Nat) (watch next : Watch) : Prop :=
  ∃ moments, next.moments = watch.moments ++ moments ∧
    next.run.text = watch.run.text ++ String.join (moments.map Moment.text) ∧
      ∀ moment ∈ moments, moment.Fits template depth

namespace Watch.Adds
variable {template : Template} {depth : Nat} {watch middle next : Watch}

theorem refl (watch : Watch) : watch.Adds template depth watch :=
  ⟨[], (List.append_nil _).symm, String.append_empty.symm, nofun⟩

theorem trans (h : watch.Adds template depth middle) (h' : middle.Adds template depth next) :
    watch.Adds template depth next := by
  obtain ⟨first, hmoments, htext, hfits⟩ := h
  obtain ⟨second, hmoments', htext', hfits'⟩ := h'
  refine ⟨first ++ second, ?_, ?_, ?_⟩
  · rw [hmoments', hmoments, List.append_assoc]
  · rw [htext', htext, String.append_assoc, List.map_append, String.join_append]
  · intro moment hmoment
    exact (List.mem_append.mp hmoment).elim (hfits moment) (hfits' moment)

theorem note {address : Address} {node : Node} {run : Run}
    (hnode : template.nodeAt? address = some node)
    (hdepth : watch.run.context.depth = depth + address.around.loops)
    (htext : run.text = watch.run.text ++ (Moment.text ⟨address, node, watch.run.context⟩)) :
    watch.Adds template depth { watch.note address node with run } := by
  refine ⟨[⟨address, node, watch.run.context⟩], rfl, ?_, ?_⟩
  · rw [htext, List.map_singleton, String.join_cons, String.join_nil, String.append_empty]
  · rw [List.forall_mem_singleton]
    exact ⟨hnode, hdepth⟩

end Watch.Adds

section
variable {template : Template} {depth : Nat}

def Node.MomentsFit (template : Template) (depth : Nat) (node : Node) : Prop :=
  ∀ (address : Address) (watch : Watch), template.nodeAt? address = some node →
    watch.run.context.depth = depth + address.around.loops →
      watch.Adds template depth (node.watch address (watch.note address node))

def NodesMomentsFit (template : Template) (depth : Nat) (nodes : List Node) : Prop :=
  ∀ around before (watch : Watch), template.nodesAt? around = some (before ++ nodes) →
    watch.run.context.depth = depth + around.loops →
      watch.Adds template depth (watchNodes around before.length watch nodes)

theorem NodesMomentsFit.cons {node : Node} {nodes : List Node}
    (hnode : node.MomentsFit template depth) (hnodes : NodesMomentsFit template depth nodes) :
    NodesMomentsFit template depth (node :: nodes) := by
  intro around before watch hat hdepth
  have hhere : template.nodeAt? ⟨around, before.length⟩ = some node := by
    simp [Template.nodeAt?, hat]
  have first := hnode ⟨around, before.length⟩ watch hhere hdepth
  have others := hnodes around (before ++ [node])
    (node.watch ⟨around, before.length⟩ (watch.note ⟨around, before.length⟩ node))
  rw [List.length_append, List.length_singleton, List.append_assoc, List.singleton_append,
    context_watch] at others
  rw [watchNodes]
  exact first.trans (others hat hdepth)

theorem NodesMomentsFit.inside {node : Node} {nodes : List Node} {address : Address} {slot : Slot}
    {watch : Watch} (hnodes : NodesMomentsFit template depth nodes)
    (hnode : template.nodeAt? address = some node) (hslot : node.slot? slot = some nodes)
    (hdepth : watch.run.context.depth = depth + (address.inside slot).loops) :
    watch.Adds template depth (watchNodes (address.inside slot) 0 watch nodes) :=
  hnodes (address.inside slot) [] watch ((nodesAt?_inside hnode slot).trans hslot) hdepth

theorem text_momentsFit (content : String) : (Node.text content).MomentsFit template depth := by
  intro address watch hnode hdepth
  rw [Node.watch]
  exact .note hnode hdepth rfl

theorem output_momentsFit (path : Path) : (Node.output path).MomentsFit template depth := by
  intro address watch hnode hdepth
  rw [Node.watch]
  exact .note hnode hdepth rfl

theorem Watch.Adds.directive {address : Address} {node : Node} {watch : Watch}
    (hnode : template.nodeAt? address = some node)
    (hdepth : watch.run.context.depth = depth + address.around.loops)
    (htext : Moment.text ⟨address, node, watch.run.context⟩ = "") :
    watch.Adds template depth (watch.note address node) :=
  .note hnode hdepth (by rw [htext, String.append_empty])

theorem branch_momentsFit (condition : Path) {yes : List Node}
    (hyes : NodesMomentsFit template depth yes) :
    (Node.branch condition yes none).MomentsFit template depth := by
  intro address watch hnode hdepth
  have first := Watch.Adds.directive hnode hdepth rfl
  rw [Node.watch]
  split
  · refine first.trans (hyes.inside hnode rfl ?_)
    rw [loops_inside]
    exact hdepth
  · exact first

theorem branchElse_momentsFit (condition : Path) {yes no : List Node}
    (hyes : NodesMomentsFit template depth yes) (hno : NodesMomentsFit template depth no) :
    (Node.branch condition yes (some no)).MomentsFit template depth := by
  intro address watch hnode hdepth
  have first := Watch.Adds.directive hnode hdepth rfl
  rw [Node.watch]
  split
  · refine first.trans (hyes.inside hnode rfl ?_)
    rw [loops_inside]
    exact hdepth
  · refine first.trans (hno.inside hnode rfl ?_)
    rw [loops_inside]
    exact hdepth

theorem turns_fit {address : Address} {name : String} {items : Path} {body : List Node}
    (hbody : NodesMomentsFit template depth body)
    (hnode : template.nodeAt? address = some (.loop name items body)) (values : List Value)
    (watch : Watch) (hdepth : watch.run.context.depth = depth + address.around.loops) :
    watch.Adds template depth
      (values.foldl
        (fun watch item => (watchNodes (address.inside .body) 0 (watch.enter name item) body).leave)
        watch) := by
  induction values generalizing watch with
  | nil => exact .refl watch
  | cons value values ih =>
    have inner : (watch.enter name value).run.context.depth =
        depth + (address.inside .body).loops := by
      rw [loops_inside, Watch.enter, Run.enter, Context.depth_set, Context.depth_push, hdepth]
      rfl
    have first : watch.Adds template depth
        (watchNodes (address.inside .body) 0 (watch.enter name value) body).leave :=
      hbody.inside hnode rfl inner
    rw [List.foldl_cons]
    refine first.trans (ih _ ?_)
    rw [context_watchTurn, hdepth]

theorem loop_momentsFit (name : String) (items : Path) {body : List Node}
    (hbody : NodesMomentsFit template depth body) :
    (Node.loop name items body).MomentsFit template depth := by
  intro address watch hnode hdepth
  have first := Watch.Adds.directive hnode hdepth rfl
  rw [Node.watch]
  split
  · exact first
  · next values _ => exact first.trans (turns_fit hbody hnode values _ hdepth)

theorem nodes_momentsFit (nodes : List Node) : NodesMomentsFit template depth nodes := by
  induction nodes using nodes_induction with
  | nil => exact fun _ _ watch _ _ => .refl watch
  | text content nodes ih => exact .cons (text_momentsFit content) ih
  | output path nodes ih => exact .cons (output_momentsFit path) ih
  | branch condition yes nodes ihyes ih => exact .cons (branch_momentsFit condition ihyes) ih
  | branchElse condition yes no nodes ihyes ihno ih =>
    exact .cons (branchElse_momentsFit condition ihyes ihno) ih
  | loop name items body nodes ihbody ih => exact .cons (loop_momentsFit name items ihbody) ih

end

theorem nesting_le_of_mem {node : Node} {nodes : List Node} (h : node ∈ nodes) :
    node.nesting ≤ nodesNesting nodes := by
  induction nodes with
  | nil => cases h
  | cons other nodes ih =>
    rw [nodesNesting]
    rcases List.mem_cons.mp h with rfl | h
    · exact Nat.le_max_left _ _
    · exact (ih h).trans (Nat.le_max_right _ _)

theorem nesting_lt_of_slot {node : Node} {slot : Slot} {nodes : List Node}
    (h : node.slot? slot = some nodes) : nodesNesting nodes < node.nesting := by
  unfold Node.slot? at h
  split at h
  · next yes no =>
    cases h
    cases no <;> rw [Node.nesting] <;> omega
  · cases h
    rw [Node.nesting]
    omega
  · cases h
    rw [Node.nesting]
    omega
  · cases h

/-- No node has more directives around it than the template has levels. -/
theorem length_around_le {template : Template} {around : Around} {nodes : List Node}
    (h : template.nodesAt? around = some nodes) :
    around.length + nodesNesting nodes ≤ template.nesting := by
  induction around generalizing template with
  | nil =>
    cases h
    exact (Nat.zero_add _).le
  | cons step around ih =>
    rw [Template.nodesAt?, List.foldlM_cons] at h
    obtain ⟨inner, hinner, hrest⟩ := Option.bind_eq_some_iff.mp h
    obtain ⟨node, hnode, hslot⟩ := Option.bind_eq_some_iff.mp hinner
    have hlevels : around.length + nodesNesting nodes ≤ nodesNesting inner := ih hrest
    have hmem := nesting_le_of_mem (List.mem_of_getElem? hnode)
    have hlt := nesting_lt_of_slot hslot
    rw [List.length_cons, Template.nesting]
    omega

theorem Moment.Fits.loops_le {template : Template} {depth : Nat} {moment : Moment}
    (h : moment.Fits template depth) : moment.address.around.loops ≤ template.nesting := by
  obtain ⟨nodes, hnodes, -⟩ := Option.bind_eq_some_iff.mp h.node
  have hlength := length_around_le hnodes
  have hloops : moment.address.around.loops ≤ moment.address.around.length :=
    List.countP_le_length
  omega

theorem watchIn_adds (context : Context) (template : Template) :
    Watch.Adds template context.depth { run := { context } } (template.watchIn context) :=
  nodes_momentsFit template [] [] _ rfl rfl

namespace Settings

/-- A template that was accepted is rendered in any context. Watched, it is rendered in the same
way, and its text is what the nodes write at their moments. At each moment so many more scopes are
open than at the beginning as there are loops around the node, so never fewer, and never more than
the limit adds. -/
theorem depth_of_moments {settings : Settings} {source : String} {template : Template}
    (h : (settings.compile source).result = .ok template) (context : Context) :
    (template.watchIn context).run = template.renderIn context ∧
      (template.renderIn context).text =
        String.join ((template.watchIn context).moments.map Moment.text) ∧
      ∀ moment ∈ (template.watchIn context).moments,
        template.nodeAt? moment.address = some moment.node ∧
          moment.context.depth = context.depth + moment.address.around.loops ∧
          context.depth ≤ moment.context.depth ∧
          moment.context.depth ≤ context.depth + settings.maxNestingDepth := by
  obtain ⟨moments, hmoments, htext, hfits⟩ := watchIn_adds context template
  rw [List.nil_append] at hmoments
  have hrun : (template.watchIn context).run = template.renderIn context :=
    nodes_runWatched template [] 0 { run := { context } }
  refine ⟨hrun, ?_, ?_⟩
  · rw [← hrun, htext, hmoments]
    exact String.empty_append
  · rw [hmoments]
    intro moment hmoment
    have fits := hfits moment hmoment
    have hlevels : template.nesting ≤ settings.maxNestingDepth := (compile_eq_ok_iff.mp h).2
    have hloops := fits.loops_le
    have hdepth := fits.depth
    exact ⟨fits.node, hdepth, by omega, by omega⟩

set_option maxRecDepth 2000 in
/-- The loop inside is noted for both rows, and its body for the two cells of the first one. -/
theorem depth_of_moments_rows :
    let source := "\x7b\x7bforeach x:model\x7d\x7d\x7b\x7bforeach y:x\x7d\x7d" ++
      "\x7b\x7by\x7d\x7d\x7b\x7bendforeach\x7d\x7d\x7b\x7bendforeach\x7d\x7d"
    let template : Template := [.loop "x" ⟨"model", []⟩ [.loop "y" ⟨"x", []⟩ [.output ⟨"y", []⟩]]]
    let rows : Value := .list [.list [.string "a", .null], .list []]
    let context := (Context.ofModel .empty rows).push.set "x" .null
    (compile { maxNestingDepth := 2 } source).result = .ok template ∧
      (template.watchIn context).moments.map (·.context.depth) = [2, 3, 4, 4, 3] ∧
      ∀ moment ∈ (template.watchIn context).moments, moment.context.depth ≤ 2 + 2 := by
  intro source template rows context
  have hcompile : (compile { maxNestingDepth := 2 } source).result = .ok template := by
    cbv
  refine ⟨hcompile, by cbv, fun moment hmoment => ?_⟩
  exact ((depth_of_moments hcompile context).2.2 moment hmoment).2.2.2

end Settings
end Stencil
