import Stencil.Proofs.Parse.Mirrors
import Stencil.Proofs.Parse.Viable

/-! Which checks of the reader can fail. It is never in doubt that a keyword is the one that an
earlier part has seen, that braces behind a body are there unless the tokens end, that a path has
parts, and that nothing is left behind a whole template. -/

namespace Stencil

/-- How the checks of one call may fail. -/
structure SoundChecks (p : Parser) (call : Call) : Prop where
  /-- with all of its checks, the reader is the parser -/
  same : p.descend call = ((p.call call).1.mapError Fault.ofError, (p.call call).2)
  /-- a whole template has nothing behind it, and a path has parts -/
  never : ∀ fault, (p.descend call).1 = .error fault →
    fault ∉ [Fault.tokensLeft, .noParts, .turnsSpent]
  unexpected : ∀ asked found, (p.descend call).1 = .error (.unexpected asked found) →
    asked ∈ [Asked.kind .identifier, .kind .colon, .kind .closeTag]
  unexpectedEnd : ∀ asked, (p.descend call).1 = .error (.unexpectedEnd asked) →
    asked ∈ [Asked.kind .identifier, .kind .colon, .kind .closeTag, .kind .openTag, .tagContent]
  /-- they are missing if a directive is open that was entered in this call -/
  unclosed : (p.descend call).1 = .error (.unexpectedEnd (.kind .openTag)) →
    ∃ count, 0 < count ∧ LeavesOpen p.stream.unread count
  emptyTag : (p.descend call).1 = .error .emptyTag →
    ∃ before mark token rest, p.stream.unread = before ++ mark :: token :: rest ∧
      mark.kind = .openTag ∧ token.kind = .closeTag ∧
      (p.descend call).2.stream.unread = token :: rest

section
variable {error : ParseError} {asked : Asked}

theorem ofError_not_mem (error : ParseError) :
    Fault.ofError error ∉ [Fault.tokensLeft, .noParts, .turnsSpent] := by
  cases error <;> simp [Fault.ofError]

theorem ofError_eq_unexpected {found : Token} (h : Fault.ofError error = .unexpected asked found) :
    ∃ expected, error = .unexpected expected found ∧ asked = .ofExpected expected := by
  cases error with
  | unexpected expected other => cases h; exact ⟨expected, rfl, rfl⟩
  | _ => cases h

theorem ofError_eq_unexpectedEnd (h : Fault.ofError error = .unexpectedEnd asked) :
    ∃ expected, error = .unexpectedEnd expected ∧ asked = .ofExpected expected := by
  cases error with
  | unexpectedEnd expected => cases h; exact ⟨expected, rfl, rfl⟩
  | _ => cases h

theorem ofError_eq_emptyTag (h : Fault.ofError error = .emptyTag) : error = .emptyPath := by
  cases error with
  | emptyPath => rfl
  | _ => cases h

end

namespace Progress
variable {s : Progress}

theorem expected_of_step {room limit : Nat} {token found : Token} {refusal : Refusal}
    {expected : Expected} (h : s.step room limit token = .error refusal)
    (herror : refusal.error = .unexpected expected found) :
    expected ∈ [Expected.identifier, .colon, .closeTag] := by
  cases refused_of_step h with
  | unexpected inside first =>
    cases herror
    unfold step at h
    split at h
    any_goals cases h
    any_goals decide
    -- a keyword at the start of a tag is refused for another reason
    next hopened hkeyword => exact absurd (by simp [hkeyword]) (first hopened)
  | _ => cases herror

theorem depth_pos_of_missing (h : s.missing = some .openTag) : 0 < s.depth := by
  obtain ⟨phase, frames, nodes⟩ := s
  cases phase with
  | content =>
    cases frames with
    | nil => cases h
    | cons frame frames => exact Nat.succ_pos _
  | _ => cases h

end Progress

namespace Parser
variable {p : Parser} {call : Call} {fault : Fault}

/-- A fault is found where the tokens end, or where the parser refuses one. -/
theorem fault_cases (h : (p.descend call).1 = .error fault) :
    (∃ s expected, Progress.Reached (p.limit - p.depth) p.stream.unread s ∧
        s.missing = some expected ∧ fault = .unexpectedEnd (.ofExpected expected)) ∨
      ∃ seen s token rest refusal, p.stream.unread = seen ++ token :: rest ∧
        Progress.Reached (p.limit - p.depth) seen s ∧
        s.step (p.limit - p.depth) p.limit token = .error refusal ∧
        fault = .ofError refusal.error ∧
        (p.descend call).2.stream.unread = refusal.unread ++ rest := by
  obtain ⟨seen, unread, s, hunread, reached, hends⟩ := p.call_ends call
  rw [p.descend_eq call] at h ⊢
  generalize p.call call = outcome at h hends ⊢
  cases hends with
  | finished | stopped => cases h
  | @cutOff expected hmissing =>
    rw [hunread, List.append_nil]
    exact Or.inl ⟨s, expected, reached, hmissing, (Except.error.inj h).symm⟩
  | @refused token rest refusal hstep =>
    exact Or.inr
      ⟨seen, s, token, rest, refusal, hunread, reached, hstep, (Except.error.inj h).symm, rfl⟩

theorem missing_of_unexpectedEnd {asked : Asked}
    (h : (p.descend call).1 = .error (.unexpectedEnd asked)) :
    ∃ s expected, Progress.Reached (p.limit - p.depth) p.stream.unread s ∧
      s.missing = some expected ∧ asked = .ofExpected expected := by
  rcases fault_cases h with
    ⟨s, expected, reached, hmissing, hfault⟩ | ⟨_, _, _, _, _, _, _, hstep, hfault, _⟩
  · exact ⟨s, expected, reached, hmissing, Fault.unexpectedEnd.inj hfault⟩
  · obtain ⟨expected, herror, _⟩ := ofError_eq_unexpectedEnd hfault.symm
    exact absurd herror ((Progress.refused_of_step hstep).error_ne_unexpectedEnd expected)

/-- Whatever calls a parser had before, the checks of the next one are sound. -/
theorem checks_sound (p : Parser) (call : Call) : SoundChecks p call where
  same := p.descend_eq call
  never := by
    intro fault h
    rcases fault_cases h with ⟨_, expected, _, _, rfl⟩ | ⟨_, _, _, _, refusal, _, _, _, rfl, _⟩
    · exact ofError_not_mem (.unexpectedEnd expected)
    · exact ofError_not_mem refusal.error
  unexpected := by
    intro asked found h
    rcases fault_cases h with ⟨_, _, _, _, hfault⟩ | ⟨_, _, _, _, _, _, _, hstep, hfault, _⟩
    · cases hfault
    · obtain ⟨expected, herror, rfl⟩ := ofError_eq_unexpected hfault.symm
      exact List.mem_map_of_mem (Progress.expected_of_step hstep herror)
  unexpectedEnd := by
    intro asked h
    obtain ⟨_, expected, _, _, rfl⟩ := missing_of_unexpectedEnd h
    cases expected <;> decide
  unclosed := by
    intro h
    obtain ⟨s, expected, reached, hmissing, hasked⟩ := missing_of_unexpectedEnd h
    obtain rfl : expected = .openTag := by
      cases expected <;> first | rfl | cases hasked
    exact ⟨s.depth, Progress.depth_pos_of_missing hmissing, reached.leavesOpen⟩
  emptyTag := by
    intro h
    rcases fault_cases h with
      ⟨_, _, _, _, hfault⟩ | ⟨seen, _, token, rest, _, hunread, reached, hstep, hfault, hleft⟩
    · cases hfault
    · have herror := ofError_eq_emptyTag hfault.symm
      cases Progress.refused_of_step hstep with
      | empty mark =>
        obtain ⟨lexeme, older, hseen⟩ := reached.opened_iff.mp rfl
        obtain rfl : seen = older.reverse ++ [⟨.openTag, lexeme⟩] := by
          simpa using congrArg List.reverse hseen
        exact ⟨older.reverse, ⟨.openTag, lexeme⟩, token, rest, by simp [hunread], rfl, mark, hleft⟩
      | _ => cases herror

example : ((Parser.fresh (tag [.keyword "if", .identifier "x"]) 1).descend .whole).1 =
    .error (.unexpectedEnd (.kind .openTag)) :=
  rfl

end Parser
end Stencil
