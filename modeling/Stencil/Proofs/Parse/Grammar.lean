import Stencil.Parse.Parser
import Stencil.Proofs.Parse.Progress

/-! The language of the parser. A list of tokens is accepted exactly if it spells
a template that is not nested too deep, and the result is that template. -/

namespace Stencil

namespace Progress

def steps (room limit : Nat) (s : Progress) (tokens : List Token) : Except Refusal Progress :=
  tokens.foldlM (step room limit) s

def finish (s : Progress) : Except ParseError Template :=
  match s.missing with
  | none => .ok s.nodes.reverse
  | some expected => .error (.unexpectedEnd expected)

section
variable {room limit : Nat} {s next : Progress} {token : Token} {tokens before after : List Token}

theorem steps_cons_ok (h : s.step room limit token = .ok next) :
    s.steps room limit (token :: tokens) = next.steps room limit tokens := by
  rw [steps, List.foldlM_cons, h]
  rfl

theorem steps_cons_error {refusal : Refusal} (h : s.step room limit token = .error refusal) :
    s.steps room limit (token :: tokens) = .error refusal := by
  rw [steps, List.foldlM_cons, h]
  rfl

theorem steps_append_ok (h : s.steps room limit before = .ok next) :
    s.steps room limit (before ++ after) = next.steps room limit after := by
  rw [steps, List.foldlM_append, ← steps, h]
  rfl

theorem steps_append_error {refusal : Refusal} (h : s.steps room limit before = .error refusal) :
    s.steps room limit (before ++ after) = .error refusal := by
  rw [steps, List.foldlM_append, ← steps, h]
  rfl

theorem steps_move (h : Move room s token next) :
    s.steps room limit (token :: tokens) = next.steps room limit tokens :=
  steps_cons_ok (step_of_move h)

theorem steps_cons_eq_ok_iff : s.steps room limit (token :: tokens) = .ok next ↔
    ∃ middle, Move room s token middle ∧ middle.steps room limit tokens = .ok next := by
  constructor
  · intro h
    cases hstep : s.step room limit token with
    | error refusal => rw [steps_cons_error hstep] at h; cases h
    | ok middle => exact ⟨middle, move_of_step hstep, steps_cons_ok hstep ▸ h⟩
  · rintro ⟨middle, move, rest⟩
    rw [steps_move move, rest]

theorem steps_read (h : s.steps room limit tokens = .ok next) (hs : s.Legal) :
    next.Legal ∧ next.read = s.read ++ tokens.map Token.normal := by
  induction tokens generalizing s with
  | nil => cases h; exact ⟨hs, (List.append_nil _).symm⟩
  | cons token tokens ih =>
    obtain ⟨middle, move, rest⟩ := steps_cons_eq_ok_iff.mp h
    obtain ⟨legal, read⟩ := ih rest (move.legal hs)
    refine ⟨legal, ?_⟩
    rw [read, move.read hs, List.map_cons, List.append_assoc, List.singleton_append]

theorem steps_normal_iff :
    s.steps room limit (tokens.map Token.normal) = .ok next ↔
      s.steps room limit tokens = .ok next := by
  induction tokens generalizing s with
  | nil => exact Iff.rfl
  | cons token tokens ih =>
    rw [List.map_cons]
    simp only [steps_cons_eq_ok_iff, move_normal_iff, ih]

end

section
variable {room limit : Nat} {frames : List Frame} {nodes : List Node}

theorem steps_pathTail (purpose : Purpose) (head : String) (tail before : List String)
    (after : List Token) :
    steps room limit ⟨.path purpose ⟨head, before⟩, frames, nodes⟩
        (tail.flatMap (fun part => [.dot, .identifier part]) ++ after) =
      steps room limit ⟨.path purpose ⟨head, before ++ tail⟩, frames, nodes⟩ after := by
  induction tail generalizing before with
  | nil => rw [List.append_nil]; rfl
  | cons part tail ih =>
    rw [List.flatMap_cons, List.append_assoc, List.cons_append, steps_move (.dot rfl),
      List.cons_append, steps_move .part, List.nil_append]
    rw [Path.extend, ih, List.append_assoc, List.singleton_append]

theorem steps_path (purpose : Purpose) (path : Path) :
    steps room limit ⟨.part purpose none, frames, nodes⟩ (path.spelling ++ [.closeTag]) =
      .ok (complete ⟨.path purpose path, frames, nodes⟩ purpose path) := by
  rw [Path.spelling, List.cons_append, steps_move .head, steps_pathTail, List.nil_append,
    steps_move (.complete rfl)]
  rfl

theorem steps_output (path : Path) :
    steps room limit ⟨.content, frames, nodes⟩ (tag path.spelling) =
      .ok ⟨.content, frames, .output path :: nodes⟩ := by
  rw [tag, List.cons_append, steps_move (.opened rfl), Path.spelling, List.cons_append,
    steps_move .output, steps_pathTail, List.nil_append, steps_move (.complete rfl)]
  rfl

theorem steps_if (condition : Path) (fits : frames.length < room) :
    steps room limit ⟨.content, frames, nodes⟩ (tag (.keyword "if" :: condition.spelling)) =
      .ok ⟨.content, .yes condition nodes :: frames, []⟩ := by
  rw [tag, List.cons_append, steps_move (.opened rfl), List.cons_append, steps_move (.enterIf fits),
    steps_path]
  rfl

theorem steps_foreach (name : String) (items : Path) (fits : frames.length < room) :
    steps room limit ⟨.content, frames, nodes⟩
        (tag (.keyword "foreach" :: .identifier name :: .colon :: items.spelling)) =
      .ok ⟨.content, .body name items nodes :: frames, []⟩ := by
  rw [tag, List.cons_append, steps_move (.opened rfl), List.cons_append,
    steps_move (.enterForeach fits), List.cons_append, steps_move .loopName, List.cons_append,
    steps_move (.loopColon rfl), steps_path]
  rfl

theorem steps_else (condition : Path) (before : List Node) :
    steps room limit ⟨.content, .yes condition before :: frames, nodes⟩ (tag [.keyword "else"]) =
      .ok ⟨.content, .no condition nodes.reverse before :: frames, []⟩ := by
  rw [tag, List.cons_append, steps_move (.opened rfl), List.cons_append, steps_move .turn,
    List.nil_append, steps_move (.turned rfl)]
  rfl

theorem steps_ender (frame : Frame) (word : String) (h : word = frame.ender) :
    steps room limit ⟨.content, frame :: frames, nodes⟩ (tag [.keyword word]) =
      .ok ⟨.content, frames, frame.close nodes⟩ := by
  rw [h, tag, List.cons_append, steps_move (.opened rfl), List.cons_append, steps_move .ender,
    List.nil_append, steps_move (.close rfl)]
  rfl

theorem steps_if_tooDeep (content : List Token) (full : ¬ frames.length < room) :
    steps room limit ⟨.content, frames, nodes⟩ (tag (.keyword "if" :: content)) =
      .error ⟨.tooDeep limit, []⟩ := by
  rw [tag, List.cons_append, steps_move (.opened rfl), List.cons_append]
  exact steps_cons_error ((keyword_if ..).trans (if_neg full))

theorem steps_foreach_tooDeep (content : List Token) (full : ¬ frames.length < room) :
    steps room limit ⟨.content, frames, nodes⟩ (tag (.keyword "foreach" :: content)) =
      .error ⟨.tooDeep limit, []⟩ := by
  rw [tag, List.cons_append, steps_move (.opened rfl), List.cons_append]
  exact steps_cons_error ((keyword_foreach ..).trans (if_neg full))

/-- The tokens of nodes add these nodes, if there is room for their directives. -/
theorem steps_nodes (limit : Nat) (nodes : List Node) :
    ∀ frames before, frames.length + nodesNesting nodes ≤ room →
      steps room limit ⟨.content, frames, before⟩ (nodesSpelling nodes) =
        .ok ⟨.content, frames, nodes.reverse ++ before⟩ := by
  induction nodes using nodes_induction with
  | nil => intro frames before _; rfl
  | text content nodes ih =>
    intro frames before fits
    rw [nodesNesting, Node.nesting] at fits
    rw [nodesSpelling, Node.spelling, List.cons_append, steps_move .text, List.nil_append,
      ih _ _ (by omega)]
    simp
  | output path nodes ih =>
    intro frames before fits
    rw [nodesNesting, Node.nesting] at fits
    rw [nodesSpelling, Node.spelling, steps_append_ok (steps_output path), ih _ _ (by omega)]
    simp
  | branch condition yes nodes ihyes ih =>
    intro frames before fits
    rw [nodesNesting, Node.nesting] at fits
    have hyes := ihyes (.yes condition before :: frames) [] (by rw [List.length_cons]; omega)
    rw [nodesSpelling, Node.spelling, List.append_assoc, List.append_assoc,
      steps_append_ok (steps_if condition (by omega)), steps_append_ok hyes,
      steps_append_ok (steps_ender (.yes condition before) "endif" rfl), ih _ _ (by omega)]
    simp [Frame.close]
  | branchElse condition yes no nodes ihyes ihno ih =>
    intro frames before fits
    rw [nodesNesting, Node.nesting] at fits
    have hyes := ihyes (.yes condition before :: frames) [] (by rw [List.length_cons]; omega)
    have hno := ihno (.no condition yes before :: frames) [] (by rw [List.length_cons]; omega)
    rw [nodesSpelling, Node.spelling, List.append_assoc, List.append_assoc, List.append_assoc,
      List.append_assoc, steps_append_ok (steps_if condition (by omega)), steps_append_ok hyes,
      steps_append_ok (steps_else ..), List.append_nil, List.reverse_reverse, steps_append_ok hno,
      steps_append_ok (steps_ender (.no condition yes before) "endif" rfl), ih _ _ (by omega)]
    simp [Frame.close]
  | loop name items body nodes ihbody ih =>
    intro frames before fits
    rw [nodesNesting, Node.nesting] at fits
    have hbody := ihbody (.body name items before :: frames) [] (by rw [List.length_cons]; omega)
    rw [nodesSpelling, Node.spelling, List.append_assoc, List.append_assoc,
      steps_append_ok (steps_foreach name items (by omega)), steps_append_ok hbody,
      steps_append_ok (steps_ender (.body name items before) "endforeach" rfl), ih _ _ (by omega)]
    simp [Frame.close]

theorem steps_node (node : Node) (before : List Node) (fits : frames.length + node.nesting ≤ room) :
    steps room limit ⟨.content, frames, before⟩ node.spelling =
      .ok ⟨.content, frames, node :: before⟩ := by
  have fits' : frames.length + nodesNesting [node] ≤ room := by
    rw [nodesNesting, nodesNesting]
    omega
  have h := steps_nodes limit [node] frames before fits'
  rwa [nodesSpelling, nodesSpelling, List.append_nil] at h

theorem steps_cons_tooDeep {refusal : Refusal} {node : Node} {before : List Node}
    (deep : room < frames.length + nodesNesting (node :: nodes))
    (hnode : ¬ frames.length + node.nesting ≤ room →
      steps room limit ⟨.content, frames, before⟩ node.spelling = .error refusal)
    (hnodes : room < frames.length + nodesNesting nodes →
      steps room limit ⟨.content, frames, node :: before⟩ (nodesSpelling nodes) = .error refusal) :
    steps room limit ⟨.content, frames, before⟩ (nodesSpelling (node :: nodes)) =
      .error refusal := by
  -- the first node is refused, or it fits and one of the others is
  rw [nodesNesting] at deep
  rw [nodesSpelling]
  by_cases fits : frames.length + node.nesting ≤ room
  · rw [steps_append_ok (steps_node node before fits)]
    exact hnodes (by omega)
  · exact steps_append_error (hnode fits)

theorem steps_nodes_tooDeep (limit : Nat) (nodes : List Node) :
    ∀ frames before, frames.length ≤ room → room < frames.length + nodesNesting nodes →
      steps room limit ⟨.content, frames, before⟩ (nodesSpelling nodes) =
        .error ⟨.tooDeep limit, []⟩ := by
  induction nodes using nodes_induction with
  | nil =>
    intro frames before hroom deep
    rw [nodesNesting] at deep
    omega
  | text content nodes ih =>
    intro frames before hroom deep
    exact steps_cons_tooDeep deep (fun full => absurd hroom full) (ih _ _ hroom)
  | output path nodes ih =>
    intro frames before hroom deep
    exact steps_cons_tooDeep deep (fun full => absurd hroom full) (ih _ _ hroom)
  | branch condition yes nodes ihyes ih =>
    intro frames before hroom deep
    refine steps_cons_tooDeep deep ?_ (ih _ _ hroom)
    intro full
    rw [Node.nesting] at full
    rw [Node.spelling, List.append_assoc]
    by_cases free : frames.length < room
    · have hyes := ihyes (.yes condition before :: frames) [] free (by rw [List.length_cons]; omega)
      rw [steps_append_ok (steps_if condition free), steps_append_error hyes]
    · rw [steps_append_error (steps_if_tooDeep _ free)]
  | branchElse condition yes no nodes ihyes ihno ih =>
    intro frames before hroom deep
    refine steps_cons_tooDeep deep ?_ (ih _ _ hroom)
    intro full
    rw [Node.nesting] at full
    rw [Node.spelling, List.append_assoc, List.append_assoc, List.append_assoc]
    by_cases free : frames.length < room
    · rw [steps_append_ok (steps_if condition free)]
      by_cases fitsYes : frames.length + 1 + nodesNesting yes ≤ room
      · have hyes := steps_nodes limit yes (.yes condition before :: frames) [] fitsYes
        have hno := ihno (.no condition (yes.reverse ++ []).reverse before :: frames) [] free
          (by rw [List.length_cons]; omega)
        rw [steps_append_ok hyes, steps_append_ok (steps_else ..), steps_append_error hno]
      · have hyes := ihyes (.yes condition before :: frames) [] free
          (by rw [List.length_cons]; omega)
        rw [steps_append_error hyes]
    · rw [steps_append_error (steps_if_tooDeep _ free)]
  | loop name items body nodes ihbody ih =>
    intro frames before hroom deep
    refine steps_cons_tooDeep deep ?_ (ih _ _ hroom)
    intro full
    rw [Node.nesting] at full
    rw [Node.spelling, List.append_assoc]
    by_cases free : frames.length < room
    · have hbody := ihbody (.body name items before :: frames) [] free
        (by rw [List.length_cons]; omega)
      rw [steps_append_ok (steps_foreach name items free), steps_append_error hbody]
    · rw [steps_append_error (steps_foreach_tooDeep _ free)]

end

theorem finish_eq_ok {s : Progress} {template : Template} (h : s.finish = .ok template) :
    s.read = template.spelling := by
  obtain ⟨phase, frames, nodes⟩ := s
  unfold finish missing at h
  cases phase with
  | content =>
    cases frames with
    | nil =>
      cases h
      simp [read, framesRead, tagRead, Template.spelling]
    | cons => cases h
  | _ => cases h

end Progress

namespace Parser

theorem stopsAt_nil (s : Progress) (token : Token) (rest : List Token) :
    stopsAt [] s token rest = false := by
  unfold stopsAt
  split <;> simp

/-- Without stop words a parser takes all tokens, or refuses one. -/
theorem go_result (p : Parser) (tokens : List Token) (s : Progress) :
    (p.go [] s tokens).1 =
      match s.steps (p.limit - p.depth) p.limit tokens with
      | .ok next => next.finish
      | .error refusal => .error refusal.error := by
  induction tokens generalizing s with
  | nil =>
    show _ = s.finish
    unfold go Progress.finish
    split <;> simp_all
  | cons token tokens ih =>
    rw [go, stopsAt_nil, if_neg Bool.false_ne_true]
    cases hstep : s.step (p.limit - p.depth) p.limit token with
    | ok next => rw [Progress.steps_cons_ok hstep]; exact ih next
    | error refusal => rw [Progress.steps_cons_error hstep]

theorem parse_result (tokens : List Token) (limit : Nat) :
    (parse { stream := ⟨tokens⟩, limit }).1 =
      match Progress.steps limit limit {} tokens with
      | .ok next => next.finish
      | .error refusal => .error refusal.error :=
  go_result { stream := ⟨tokens⟩, limit } tokens {}

theorem parse_eq_ok {tokens : List Token} {limit : Nat} {template : Template} :
    (parse { stream := ⟨tokens⟩, limit }).1 = .ok template ↔
      ∃ s, Progress.steps limit limit {} tokens = .ok s ∧ s.finish = .ok template := by
  rw [parse_result]
  cases Progress.steps limit limit {} tokens with
  | ok s => simp
  | error refusal => simp

/-- What is accepted spells the template that comes out. -/
theorem spelling_of_parse {tokens : List Token} {limit : Nat} {template : Template}
    (h : (parse { stream := ⟨tokens⟩, limit }).1 = .ok template) :
    tokens.map Token.normal = template.spelling := by
  obtain ⟨s, hsteps, hfinish⟩ := parse_eq_ok.mp h
  rw [← Progress.finish_eq_ok hfinish, (Progress.steps_read hsteps trivial).2]
  rfl

theorem nesting_of_parse {tokens : List Token} {limit : Nat} {template : Template}
    (h : (parse { stream := ⟨tokens⟩, limit }).1 = .ok template) :
    template.nesting ≤ limit := by
  obtain ⟨s, hsteps, hfinish⟩ := parse_eq_ok.mp h
  have hspelled := Progress.steps_normal_iff.mpr hsteps
  rw [spelling_of_parse h] at hspelled
  apply Nat.le_of_not_lt
  intro deep
  have hdeep := Progress.steps_nodes_tooDeep limit template [] [] (Nat.zero_le limit)
    ((Nat.zero_add template.nesting).symm ▸ deep)
  cases hspelled.symm.trans hdeep

theorem parse_of_spelling {tokens : List Token} {limit : Nat} {template : Template}
    (h : tokens.map Token.normal = template.spelling) (fits : template.nesting ≤ limit) :
    (parse { stream := ⟨tokens⟩, limit }).1 = .ok template := by
  have hnodes := Progress.steps_nodes limit template [] []
    ((Nat.zero_add template.nesting).symm ▸ fits)
  rw [← Template.spelling, ← h, Progress.steps_normal_iff] at hnodes
  refine parse_eq_ok.mpr ⟨_, hnodes, ?_⟩
  simp [Progress.finish, Progress.missing]

/-- A fresh parser accepts exactly the tokens that spell a template of no more
than `limit` levels, whatever their marks look like, and gives this template. -/
theorem parse_eq_ok_iff (tokens : List Token) (limit : Nat) (template : Template) :
    (parse { stream := ⟨tokens⟩, limit }).1 = .ok template ↔
      tokens.map Token.normal = template.spelling ∧ template.nesting ≤ limit :=
  ⟨fun h => ⟨spelling_of_parse h, nesting_of_parse h⟩, fun h => parse_of_spelling h.1 h.2⟩

end Parser
end Stencil
