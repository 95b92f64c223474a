import Stencil.Parse.Progress
import Stencil.Proofs.Template.Spelling

/-! What a state of the parser stands for. `Move` lists every step that can be
taken, and `read` gives the tokens that lead to a state: a move adds its token to
them, and keeps the state in the form that `Legal` describes. -/

namespace Stencil

def Purpose.read : Purpose → List Token
  | .output => []
  | .condition => [.keyword "if"]
  | .items name => [.keyword "foreach", .identifier name, .colon]

namespace Frame

def ender : Frame → String
  | .yes .. | .no .. => "endif"
  | .body .. => "endforeach"

/-- The nodes in front of the directive, and its tokens up to the end of the
last tag, which is left out. -/
def read : Frame → List Token
  | .yes condition before =>
    nodesSpelling before.reverse ++ .openTag :: .keyword "if" :: condition.spelling
  | .no condition first before =>
    nodesSpelling before.reverse ++ tag (.keyword "if" :: condition.spelling) ++
      nodesSpelling first ++ [.openTag, .keyword "else"]
  | .body name items before =>
    nodesSpelling before.reverse ++
      .openTag :: .keyword "foreach" :: .identifier name :: .colon :: items.spelling

end Frame

def framesRead : List Frame → List Token
  | [] => []
  | frame :: frames => framesRead frames ++ frame.read ++ [.closeTag]

namespace Progress

def tagRead (s : Progress) : List Token :=
  match s.phase with
  | .content | .turned => []
  | .opened => [.openTag]
  | .loopName => [.openTag, .keyword "foreach"]
  | .loopColon name => [.openTag, .keyword "foreach", .identifier name]
  | .part purpose none => .openTag :: purpose.read
  | .part purpose (some path) => .openTag :: purpose.read ++ path.spelling ++ [.dot]
  | .path purpose path => .openTag :: purpose.read ++ path.spelling
  | .ended => .openTag :: (s.frames.head?.map fun frame => Token.keyword frame.ender).toList

def read (s : Progress) : List Token :=
  match s.phase, s.frames with
  | .turned, frame :: frames => framesRead frames ++ frame.read
  | _, frames => framesRead frames ++ nodesSpelling s.nodes.reverse ++ s.tagRead

/-- The states that a parser can be in. Behind `else` the second branch is
empty, and a directive can only end if there is one. -/
def Legal (s : Progress) : Prop :=
  match s.phase, s.frames with
  | .turned, .no .. :: _ => s.nodes = []
  | .turned, _ | .ended, [] | .part .output none, _ => False
  | _, _ => True

/-- Every step that goes on. What a mark looks like does not matter. -/
inductive Move (room : Nat) : Progress → Token → Progress → Prop where
  | text {frames nodes content} :
      Move room ⟨.content, frames, nodes⟩ (.text content) ⟨.content, frames, .text content :: nodes⟩
  | opened {frames nodes token} (mark : token.kind = .openTag) :
      Move room ⟨.content, frames, nodes⟩ token ⟨.opened, frames, nodes⟩
  | output {frames nodes word} :
      Move room ⟨.opened, frames, nodes⟩ (.identifier word)
        ⟨.path .output ⟨word, []⟩, frames, nodes⟩
  | enterIf {frames nodes} (fits : frames.length < room) :
      Move room ⟨.opened, frames, nodes⟩ (.keyword "if") ⟨.part .condition none, frames, nodes⟩
  | enterForeach {frames nodes} (fits : frames.length < room) :
      Move room ⟨.opened, frames, nodes⟩ (.keyword "foreach") ⟨.loopName, frames, nodes⟩
  | turn {condition before frames nodes} :
      Move room ⟨.opened, .yes condition before :: frames, nodes⟩ (.keyword "else")
        ⟨.turned, .no condition nodes.reverse before :: frames, []⟩
  | ender {frame frames nodes} :
      Move room ⟨.opened, frame :: frames, nodes⟩ (.keyword frame.ender)
        ⟨.ended, frame :: frames, nodes⟩
  | loopName {frames nodes word} :
      Move room ⟨.loopName, frames, nodes⟩ (.identifier word) ⟨.loopColon word, frames, nodes⟩
  | loopColon {name frames nodes token} (mark : token.kind = .colon) :
      Move room ⟨.loopColon name, frames, nodes⟩ token ⟨.part (.items name) none, frames, nodes⟩
  | head {purpose frames nodes word} :
      Move room ⟨.part purpose none, frames, nodes⟩ (.identifier word)
        ⟨.path purpose ⟨word, []⟩, frames, nodes⟩
  | part {purpose path frames nodes word} :
      Move room ⟨.part purpose (some path), frames, nodes⟩ (.identifier word)
        ⟨.path purpose (path.extend word), frames, nodes⟩
  | dot {purpose path frames nodes token} (mark : token.kind = .dot) :
      Move room ⟨.path purpose path, frames, nodes⟩ token ⟨.part purpose (some path), frames, nodes⟩
  | complete {purpose path frames nodes token} (mark : token.kind = .closeTag) :
      Move room ⟨.path purpose path, frames, nodes⟩ token
        (complete ⟨.path purpose path, frames, nodes⟩ purpose path)
  | turned {frames nodes token} (mark : token.kind = .closeTag) :
      Move room ⟨.turned, frames, nodes⟩ token ⟨.content, frames, nodes⟩
  | close {frames nodes token} (mark : token.kind = .closeTag) :
      Move room ⟨.ended, frames, nodes⟩ token (close ⟨.ended, frames, nodes⟩)

theorem mem_closers {frame : Frame} {word : String} (h : word ∈ frame.closers) :
    word = frame.ender ∨ word = "else" ∧ ∃ condition before, frame = .yes condition before := by
  cases frame with
  | yes condition before =>
    simp only [Frame.closers, List.mem_cons, List.not_mem_nil, or_false] at h
    rcases h with rfl | rfl
    · exact Or.inr ⟨rfl, condition, before, rfl⟩
    · exact Or.inl rfl
  | no => exact Or.inl (List.mem_singleton.mp h)
  | body => exact Or.inl (List.mem_singleton.mp h)

theorem enter_eq_ok {s next : Progress} {room limit : Nat} {phase : Phase}
    (h : s.enter room limit phase = .ok next) :
    s.frames.length < room ∧ next = { s with phase } := by
  unfold enter at h
  split at h
  · next fits => exact ⟨fits, by cases h; rfl⟩
  · cases h

theorem keyword_move {frames : List Frame} {nodes : List Node} {next : Progress}
    {room limit : Nat} {word : String}
    (h : keyword ⟨.opened, frames, nodes⟩ room limit (.keyword word) = .ok next) :
    Move room ⟨.opened, frames, nodes⟩ (.keyword word) next := by
  unfold keyword at h
  split at h
  · next hmem =>
    cases frames with
    | nil => simp [closers] at hmem
    | cons frame frames =>
      have hword : word ∈ frame.closers := hmem
      rcases mem_closers hword with rfl | ⟨rfl, condition, before, rfl⟩
      · cases frame <;> (cases h; exact .ender)
      · cases h
        exact .turn
  · split at h
    · next hword =>
      obtain ⟨fits, rfl⟩ := enter_eq_ok h
      obtain rfl : word = "if" := hword
      exact .enterIf fits
    · split at h
      · next hword =>
        obtain ⟨fits, rfl⟩ := enter_eq_ok h
        obtain rfl : word = "foreach" := hword
        exact .enterForeach fits
      · cases h

/-- A step that does not refuse its token is one of the moves. -/
theorem move_of_step {s next : Progress} {room limit : Nat} {token : Token}
    (h : s.step room limit token = .ok next) : Move room s token next := by
  obtain ⟨phase, frames, nodes⟩ := s
  obtain ⟨kind, lexeme⟩ := token
  cases phase with
  | content =>
    cases kind with
    | text => cases h; exact .text
    | openTag => cases h; exact .opened rfl
    | _ => cases h
  | opened =>
    cases kind with
    | keyword => exact keyword_move h
    | identifier => cases h; exact .output
    | _ => cases h
  | loopName =>
    cases kind with
    | identifier => cases h; exact .loopName
    | _ => cases h
  | loopColon name =>
    cases kind with
    | colon => cases h; exact .loopColon rfl
    | _ => cases h
  | part purpose before =>
    cases before with
    | none =>
      cases kind with
      | identifier => cases h; exact .head
      | _ => cases h
    | some path =>
      cases kind with
      | identifier => cases h; exact .part
      | _ => cases h
  | path purpose path =>
    cases kind with
    | dot => cases h; exact .dot rfl
    | closeTag => cases h; exact .complete rfl
    | _ => unfold step at h; split at h <;> simp_all
  | turned =>
    cases kind with
    | closeTag => cases h; exact .turned rfl
    | _ => cases h
  | ended =>
    cases kind with
    | closeTag => cases h; exact .close rfl
    | _ => cases h

theorem starters_not_mem_closers (s : Progress) : "if" ∉ s.closers ∧ "foreach" ∉ s.closers := by
  obtain ⟨phase, frames, nodes⟩ := s
  cases frames with
  | nil => simp [closers]
  | cons frame frames => cases frame <;> simp [closers, Frame.closers]

theorem keyword_if (s : Progress) (room limit : Nat) :
    s.keyword room limit (.keyword "if") = s.enter room limit (.part .condition none) :=
  (if_neg (starters_not_mem_closers s).1).trans (if_pos rfl)

theorem keyword_foreach (s : Progress) (room limit : Nat) :
    s.keyword room limit (.keyword "foreach") = s.enter room limit .loopName :=
  (if_neg (starters_not_mem_closers s).2).trans ((if_neg (by decide)).trans (if_pos rfl))

theorem step_of_move {s next : Progress} {room limit : Nat} {token : Token}
    (h : Move room s token next) : s.step room limit token = .ok next := by
  cases h with
  | enterIf fits => exact (keyword_if ..).trans (if_pos fits)
  | enterForeach fits => exact (keyword_foreach ..).trans (if_pos fits)
  | @ender frame => cases frame <;> rfl
  | @part purpose => cases purpose <;> rfl
  | opened mark | loopColon mark | dot mark | complete mark | turned mark | close mark =>
    simp only [step, mark]
  | _ => rfl

/-- A mark may stand for every other one of its kind. -/
theorem Move.of_mark {s next : Progress} {room : Nat} {token other : Token}
    (h : Move room s token next) (hkind : other.kind = token.kind)
    (mark : token.kind ∈ [Kind.openTag, .closeTag, .dot, .colon]) : Move room s other next := by
  cases h with
  | opened mark => exact .opened (hkind.trans mark)
  | loopColon mark => exact .loopColon (hkind.trans mark)
  | dot mark => exact .dot (hkind.trans mark)
  | complete mark => exact .complete (hkind.trans mark)
  | turned mark => exact .turned (hkind.trans mark)
  | close mark => exact .close (hkind.trans mark)
  | _ => simp [Token.text, Token.identifier, Token.keyword] at mark

theorem move_normal_iff {s next : Progress} {room : Nat} {token : Token} :
    Move room s token.normal next ↔ Move room s token next := by
  by_cases mark : token.kind ∈ [Kind.openTag, .closeTag, .dot, .colon]
  · have mark' : token.normal.kind ∈ [Kind.openTag, .closeTag, .dot, .colon] := by
      rwa [Token.normal_kind]
    exact ⟨fun h => h.of_mark (Token.normal_kind token).symm mark',
      fun h => h.of_mark (Token.normal_kind token) mark⟩
  · rw [Token.normal_of_not_mark mark]

theorem Move.legal {s next : Progress} {room : Nat} {token : Token} (h : Move room s token next)
    (hs : s.Legal) : next.Legal := by
  cases h with
  | turn => rfl
  | @dot purpose => cases purpose <;> trivial
  | @complete purpose => cases purpose <;> trivial
  | @close frames => cases frames <;> trivial
  | _ => trivial

/-- A move adds its token to those that were read. -/
theorem Move.read {s next : Progress} {room : Nat} {token : Token} (h : Move room s token next)
    (hs : s.Legal) : next.read = s.read ++ [token.normal] := by
  cases h with
  | text => simp [Progress.read, tagRead, nodesSpelling_append, nodesSpelling, Node.spelling]
  | opened mark => simp [Progress.read, tagRead, Token.normal_openTag mark]
  | output | enterIf | head => simp [Progress.read, tagRead, Purpose.read, Path.spelling]
  | enterForeach | loopName | ender => simp [Progress.read, tagRead]
  | turn => simp [Progress.read, tagRead, framesRead, Frame.read, tag]
  | loopColon mark => simp [Progress.read, tagRead, Purpose.read, Token.normal_colon mark]
  | part => simp [Progress.read, tagRead, Path.spelling_extend]
  | dot mark => simp [Progress.read, tagRead, Token.normal_dot mark]
  | @complete purpose path frames nodes token mark =>
    cases purpose <;>
      simp [Progress.read, Progress.complete, tagRead, framesRead, Frame.read, Purpose.read,
        nodesSpelling_append, nodesSpelling, Node.spelling, tag, Token.normal_closeTag mark]
  | @turned frames nodes token mark =>
    cases frames with
    | nil => cases hs
    | cons frame frames =>
      cases frame <;> cases hs
      simp [Progress.read, tagRead, framesRead, nodesSpelling, Token.normal_closeTag mark]
  | @close frames nodes token mark =>
    cases frames with
    | nil => cases hs
    | cons frame frames =>
      cases frame <;>
        simp [Progress.read, Progress.close, tagRead, framesRead, Frame.read, Frame.close,
          Frame.ender, nodesSpelling_append, nodesSpelling, Node.spelling, tag,
          Token.normal_closeTag mark]

end Progress
end Stencil
