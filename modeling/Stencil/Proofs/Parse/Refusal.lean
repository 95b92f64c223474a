import Stencil.Proofs.Parse.Grammar

/-! Where and why a parser refuses a token. `Refused` lists every refusal, as `Move` lists
every step that goes on. Which refusal it is depends on the phase alone, and the phase
shows in the last one or two of the tokens that led to it. -/

namespace Stencil

def starters : List String :=
  ["if", "foreach"]

def enders : List String :=
  ["endif", "endforeach"]

namespace Progress

/-- Every refusal: of which token, with which error, and with what left to be read again. -/
inductive Refused (room limit : Nat) : Progress → Token → Refusal → Prop where
  | stray {frames nodes token} (outside : token.kind ∉ [Kind.text, .openTag]) :
      Refused room limit ⟨.content, frames, nodes⟩ token ⟨.strayToken token, [token]⟩
  | tooDeep {frames nodes word} (starter : word ∈ starters) (full : ¬ frames.length < room) :
      Refused room limit ⟨.opened, frames, nodes⟩ (.keyword word) ⟨.tooDeep limit, []⟩
  | unknown {frames nodes word} (other : word ∉ starters) :
      Refused room limit ⟨.opened, frames, nodes⟩ (.keyword word)
        ⟨.unknownDirective word, [.keyword word]⟩
  | empty {frames nodes token} (mark : token.kind = .closeTag) :
      Refused room limit ⟨.opened, frames, nodes⟩ token ⟨.emptyPath, [token]⟩
  | doubled {frames nodes word other} :
      Refused room limit ⟨.path .output ⟨word, []⟩, frames, nodes⟩ (.identifier other)
        ⟨.unknownDirective word, [.identifier word, .identifier other]⟩
  | unexpected {phase frames nodes token expected} (inside : phase ≠ .content)
      (first : phase = .opened → token.kind ∉ [Kind.keyword, .closeTag, .identifier])
      (second : ∀ word, phase = .path .output ⟨word, []⟩ → token.kind ≠ .identifier) :
      Refused room limit ⟨phase, frames, nodes⟩ token ⟨.unexpected expected token, []⟩

theorem enter_eq_error {s : Progress} {room limit : Nat} {phase : Phase} {refusal : Refusal}
    (h : s.enter room limit phase = .error refusal) :
    ¬ s.frames.length < room ∧ refusal = ⟨.tooDeep limit, []⟩ := by
  unfold enter at h
  split at h
  · cases h
  · next full => exact ⟨full, by cases h; rfl⟩

theorem keyword_refused {frames : List Frame} {nodes : List Node} {refusal : Refusal}
    {room limit : Nat} {word : String}
    (h : keyword ⟨.opened, frames, nodes⟩ room limit (.keyword word) = .error refusal) :
    Refused room limit ⟨.opened, frames, nodes⟩ (.keyword word) refusal := by
  unfold keyword at h
  split at h
  · split at h <;> cases h
  · split at h
    · next hword =>
      obtain ⟨full, rfl⟩ := enter_eq_error h
      obtain rfl : word = "if" := hword
      exact .tooDeep (by decide) full
    · split at h
      · next hword =>
        obtain ⟨full, rfl⟩ := enter_eq_error h
        obtain rfl : word = "foreach" := hword
        exact .tooDeep (by decide) full
      · next hif hforeach =>
        cases h
        exact .unknown (by simpa [starters] using ⟨hif, hforeach⟩)

theorem refused_of_step {s : Progress} {room limit : Nat} {token : Token} {refusal : Refusal}
    (h : s.step room limit token = .error refusal) : Refused room limit s token refusal := by
  obtain ⟨phase, frames, nodes⟩ := s
  obtain ⟨kind, lexeme⟩ := token
  cases phase with
  | content => cases kind <;> cases h <;> exact .stray (by simp)
  | opened =>
    cases kind with
    | keyword => exact keyword_refused h
    | closeTag => cases h; exact .empty rfl
    | identifier => cases h
    | _ => cases h; exact .unexpected nofun (by simp) nofun
  | path purpose path =>
    obtain ⟨head, tail⟩ := path
    cases kind with
    | dot | closeTag => cases h
    | identifier =>
      cases purpose with
      | output =>
        cases tail with
        | nil => cases h; exact .doubled
        | cons => cases h; exact .unexpected nofun nofun nofun
      | _ => cases h; exact .unexpected nofun nofun nofun
    | _ => cases purpose <;> cases tail <;> cases h <;> exact .unexpected nofun nofun (by simp)
  | part purpose before =>
    cases before <;> cases kind <;> cases h <;> exact .unexpected nofun nofun nofun
  | _ => cases kind <;> cases h <;> exact .unexpected nofun nofun nofun

section
variable {room : Nat} {s next : Progress} {token : Token}

theorem complete_phase (s : Progress) (purpose : Purpose) (path : Path) :
    (s.complete purpose path).phase = .content := by
  cases purpose <;> rfl

theorem close_phase (s : Progress) : s.close.phase = .content := by
  unfold close
  split <;> rfl

/-- Braces lead into tags and out of them, and nothing else does. -/
theorem Move.content_iff (h : Move room s token next) :
    next.phase = .content ↔
      token.kind = .closeTag ∨ token.kind ≠ .openTag ∧ s.phase = .content := by
  cases h with
  | opened mark | loopColon mark | dot mark => simp [mark]
  | complete mark => simp [mark, complete_phase]
  | turned mark => simp [mark]
  | close mark => simp [mark, close_phase]
  | _ => simp [Token.text, Token.identifier, Token.keyword]

theorem Move.opened_iff (h : Move room s token next) :
    next.phase = .opened ↔ token.kind = .openTag := by
  cases h with
  | opened mark | loopColon mark | dot mark => simp [mark]
  | complete mark => simp [mark, complete_phase]
  | turned mark => simp [mark]
  | close mark => simp [mark, close_phase]
  | _ => simp [Token.text, Token.identifier, Token.keyword]

theorem Move.firstWord_iff (h : Move room s token next) (legal : s.Legal) (word : String) :
    next.phase = .path .output ⟨word, []⟩ ↔ s.phase = .opened ∧ token = .identifier word := by
  cases h with
  | output => simp [Token.identifier]
  | @head purpose => cases purpose <;> simp_all [Legal]
  | complete => simp [complete_phase]
  | close => simp [close_phase]
  | _ => simp [Path.extend, Token.keyword, Token.identifier]

theorem ender_mem_enders (frame : Frame) : frame.ender ∈ enders := by
  cases frame <;> simp [Frame.ender, enders]

theorem Move.ended_iff (h : Move room s token next) :
    next.phase = .ended ↔ s.phase = .opened ∧ ∃ word ∈ enders, token = .keyword word := by
  cases h with
  | @ender frame => simpa [Token.keyword] using ender_mem_enders frame
  | complete => simp [complete_phase]
  | close => simp [close_phase]
  | _ => simp [Token.keyword, Token.identifier, enders]

end

/-- The states that a parser comes to from the start, and the tokens that lead there. -/
inductive Reached (room : Nat) : List Token → Progress → Prop where
  | start : Reached room [] {}
  | move {seen s token next} (before : Reached room seen s) (move : Move room s token next) :
      Reached room (seen ++ [token]) next

namespace Reached
variable {room limit : Nat} {s next : Progress} {seen tokens : List Token}

theorem steps_eq (h : Reached room seen s) (limit : Nat) : steps room limit {} seen = .ok s := by
  induction h with
  | start => rfl
  | move _ move ih => rw [steps_append_ok ih, steps_move move]; rfl

theorem append (h : Reached room seen s) (hsteps : s.steps room limit tokens = .ok next) :
    Reached room (seen ++ tokens) next := by
  induction tokens generalizing seen s with
  | nil => cases hsteps; rwa [List.append_nil]
  | cons token tokens ih =>
    obtain ⟨middle, move, rest⟩ := steps_cons_eq_ok_iff.mp hsteps
    rw [List.append_cons]
    exact ih (h.move move) rest

theorem legal (h : Reached room seen s) : s.Legal := by
  induction h with
  | start => trivial
  | move _ move ih => exact move.legal ih

theorem opened_iff (h : Reached room seen s) :
    s.phase = .opened ↔ ∃ lexeme older, seen.reverse = ⟨.openTag, lexeme⟩ :: older := by
  cases h with
  | start => simp
  | @move _ _ token _ _ move =>
    rw [move.opened_iff, List.reverse_append]
    obtain ⟨kind, lexeme⟩ := token
    simp

theorem firstWord_iff (h : Reached room seen s) (word : String) :
    s.phase = .path .output ⟨word, []⟩ ↔
      ∃ lexeme older, seen.reverse = .identifier word :: ⟨.openTag, lexeme⟩ :: older := by
  cases h with
  | start => simp
  | move before move =>
    rw [move.firstWord_iff before.legal, before.opened_iff, List.reverse_append]
    simp [and_comm]

end Reached
end Progress
end Stencil
