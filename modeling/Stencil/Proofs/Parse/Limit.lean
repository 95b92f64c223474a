import Mathlib
import Stencil.Proofs.Parse.Viable

/-! What the limit of a parser decides. Two parsers with different limits go through the
same states up to the first directive that one of them has no room for. So a lower limit
turns results into refusals of a directive, and changes nothing else. -/

namespace Stencil

namespace Progress

section
variable {room room' limit limit' : Nat} {s : Progress} {token : Token} {tokens : List Token}

theorem enter_of_le (hroom : room ≤ room') (phase : Phase) :
    s.enter room limit phase = s.enter room' limit' phase ∨
      s.enter room limit phase = .error ⟨.tooDeep limit, []⟩ := by
  by_cases fits : s.frames.length < room
  · refine Or.inl ?_
    rw [enter, enter, if_pos fits, if_pos (Nat.lt_of_lt_of_le fits hroom)]
  · exact Or.inr (if_neg fits)

theorem keyword_of_le (hroom : room ≤ room') :
    s.keyword room limit token = s.keyword room' limit' token ∨
      s.keyword room limit token = .error ⟨.tooDeep limit, []⟩ := by
  unfold keyword
  by_cases hcloser : token.lexeme ∈ s.closers
  · rw [if_pos hcloser, if_pos hcloser]
    exact Or.inl rfl
  · rw [if_neg hcloser, if_neg hcloser]
    split
    · exact enter_of_le hroom _
    · split
      · exact enter_of_le hroom _
      · exact Or.inl rfl

theorem step_of_le (hroom : room ≤ room') :
    s.step room limit token = s.step room' limit' token ∨
      s.step room limit token = .error ⟨.tooDeep limit, []⟩ := by
  by_cases hkeyword : s.phase = .opened ∧ token.kind = .keyword
  · obtain ⟨hphase, hkind⟩ := hkeyword
    have hstep (room limit : Nat) : s.step room limit token = s.keyword room limit token := by
      rw [step, hphase, hkind]
    rw [hstep, hstep]
    exact keyword_of_le hroom
  · refine Or.inl ?_
    unfold step
    split <;> simp_all

/-- As long as the lower limit refuses no directive, both parsers are in the same state. -/
theorem steps_of_le (hroom : room ≤ room') :
    s.steps room limit tokens = s.steps room' limit' tokens ∨
      s.steps room limit tokens = .error ⟨.tooDeep limit, []⟩ := by
  induction tokens generalizing s with
  | nil => exact Or.inl rfl
  | cons token tokens ih =>
    have hstep : s.step room limit token = s.step room' limit' token ∨
        s.step room limit token = .error ⟨.tooDeep limit, []⟩ := step_of_le hroom
    rcases hstep with same | deep
    · cases hstep : s.step room limit token with
      | ok next =>
        rw [steps_cons_ok hstep, steps_cons_ok (same.symm.trans hstep)]
        exact ih
      | error refusal =>
        rw [steps_cons_error hstep, steps_cons_error (same.symm.trans hstep)]
        exact Or.inl rfl
    · exact Or.inr (steps_cons_error deep)

theorem Refused.limit_eq {refusal : Refusal} {k : Nat} (h : Refused room limit s token refusal)
    (deep : refusal.error = .tooDeep k) : k = limit := by
  cases h with
  | tooDeep => cases deep; rfl
  | _ => cases deep

theorem limit_of_steps {refusal : Refusal} {k : Nat}
    (h : s.steps room limit tokens = .error refusal) (deep : refusal.error = .tooDeep k) :
    k = limit := by
  obtain ⟨_, _, _, _, _, _, hstep⟩ := steps_eq_error h
  exact (refused_of_step hstep).limit_eq deep

end
end Progress

section
variable {tokens : List Token} {limit limit' : Nat}

theorem limit_of_parseTokens {k : Nat} (h : parseTokens tokens limit = .error (.tooDeep k)) :
    k = limit := by
  cases hsteps : Progress.steps limit limit {} tokens with
  | ok s =>
    rw [parseTokens_of_steps_ok hsteps] at h
    unfold Progress.finish at h
    split at h <;> cases h
  | error refusal =>
    rw [parseTokens_of_steps_error hsteps, Except.error.injEq] at h
    exact Progress.limit_of_steps hsteps h

theorem parseTokens_of_le (tokens : List Token) (lower : limit ≤ limit') :
    parseTokens tokens limit = parseTokens tokens limit' ∨
      parseTokens tokens limit = .error (.tooDeep limit) := by
  have hsteps : Progress.steps limit limit {} tokens = Progress.steps limit' limit' {} tokens ∨
      Progress.steps limit limit {} tokens = .error ⟨.tooDeep limit, []⟩ :=
    Progress.steps_of_le lower
  rcases hsteps with same | deep
  · refine Or.inl ?_
    rw [parseTokens, parseTokens, Parser.parse_result, Parser.parse_result, same]
  · exact Or.inr (parseTokens_of_steps_error deep)

/-- Under a lower limit the result is the same, or a directive is refused. A template that
was accepted is refused exactly if it has more levels than the lower limit allows, and what
was too deep already stays so. -/
theorem parseTokens_lower_limit (tokens : List Token) (limit limit' : Nat)
    (lower : limit ≤ limit') :
    (parseTokens tokens limit = parseTokens tokens limit' ∨
        parseTokens tokens limit = .error (.tooDeep limit)) ∧
      (∀ template, parseTokens tokens limit' = .ok template →
        parseTokens tokens limit =
          if template.nesting ≤ limit then .ok template else .error (.tooDeep limit)) ∧
      (parseTokens tokens limit' = .error (.tooDeep limit') →
        parseTokens tokens limit = .error (.tooDeep limit)) := by
  have hresult := parseTokens_of_le tokens lower
  refine ⟨hresult, ?_, ?_⟩
  · intro template h
    by_cases fits : template.nesting ≤ limit
    · rw [if_pos fits]
      exact Parser.parse_of_spelling (Parser.spelling_of_parse h) fits
    · rw [if_neg fits]
      refine hresult.resolve_left fun same => fits ?_
      exact Parser.nesting_of_parse (same.trans h)
  · intro deep
    rcases hresult with same | hresult
    · have hlimit := limit_of_parseTokens (same.trans deep)
      rw [same, deep, hlimit]
    · exact hresult

/-- Two levels: the second one is refused under the limit one, and the first one under zero. -/
theorem parseTokens_lower_limit_nested :
    let tokens := tag [.keyword "if", .identifier "a"] ++
      tag [.keyword "foreach", .identifier "b", .colon, .identifier "c"] ++
      tag [.keyword "endforeach"] ++ tag [.keyword "endif"]
    let template : Template := [.branch ⟨"a", []⟩ [.loop "b" ⟨"c", []⟩ []] none]
    1 ≤ 2 ∧ parseTokens tokens 2 = .ok template ∧ parseTokens tokens 1 = .error (.tooDeep 1) ∧
      parseTokens tokens 0 = .error (.tooDeep 0) := by
  intro tokens template
  have hparse : parseTokens tokens 2 = .ok template := by
    cbv
  have hone : parseTokens tokens 1 = .error (.tooDeep 1) :=
    (parseTokens_lower_limit tokens 1 2 (by decide)).2.1 template hparse
  have hzero := (parseTokens_lower_limit tokens 0 1 (by decide)).2.2 hone
  exact ⟨by decide, hparse, hone, hzero⟩

end
end Stencil
