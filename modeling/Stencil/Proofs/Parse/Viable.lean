import Mathlib
import Stencil.Proofs.Parse.Refusal

/-! Where a template goes wrong. Tokens are viable if they can be continued to something
that is accepted. Every state of a parser can be completed, and what it refuses cannot be
made good by what follows; so it fails at the first token that makes the tokens unviable,
and this token and the ones in front of it determine the error. -/

namespace Stencil

/-- The tokens are accepted, or some continuation of them is. -/
def Viable (limit : Nat) (tokens : List Token) : Prop :=
  ∃ more template, parseTokens (tokens ++ more) limit = .ok template

/-- Each tag that is opened is closed further on. -/
def TagsClosed : List Token → Prop
  | [] => True
  | token :: rest =>
    (token.kind = .openTag → ∃ closing ∈ rest, closing.kind = .closeTag) ∧ TagsClosed rest

/-- The error for a token that cannot stand behind these ones. -/
def Blamed (limit : Nat) (before : List Token) (token : Token) (error : ParseError) : Prop :=
  match before.reverse, token.kind with
  | ⟨.openTag, _⟩ :: _, .keyword =>
    error = if token.lexeme ∈ starters then .tooDeep limit else .unknownDirective token.lexeme
  | ⟨.openTag, _⟩ :: _, .closeTag => error = .emptyPath
  | ⟨.identifier, word⟩ :: ⟨.openTag, _⟩ :: _, .identifier => error = .unknownDirective word
  | _, _ =>
    (TagsClosed before → error = .strayToken token) ∧
      (¬ TagsClosed before → ∃ expected, error = .unexpected expected token)

theorem tagsClosed_concat (tokens : List Token) (token : Token) :
    TagsClosed (tokens ++ [token]) ↔
      token.kind = .closeTag ∨ token.kind ≠ .openTag ∧ TagsClosed tokens := by
  induction tokens with
  | nil =>
    simp only [List.nil_append, TagsClosed, List.not_mem_nil, false_and, exists_false, and_true]
    constructor
    · exact Or.inr
    · rintro (hclose | hopen)
      · simp [hclose]
      · exact hopen
  | cons first tokens ih =>
    rw [List.cons_append, TagsClosed, TagsClosed, ih]
    simp only [List.mem_append, List.mem_singleton, or_and_right, exists_or, exists_eq_left]
    by_cases hclose : token.kind = .closeTag
    · simp [hclose]
    · simp only [hclose, or_false, false_or]
      exact and_left_comm

namespace Progress

section
variable {room limit : Nat} {s next : Progress}

/-- There are tokens that lead to a state in which a template may end. -/
def Completable (room limit : Nat) (s : Progress) : Prop :=
  ∃ more next, s.steps room limit more = .ok next ∧ next.missing = none

theorem Completable.of_steps {tokens : List Token} (hsteps : s.steps room limit tokens = .ok next)
    (h : Completable room limit next) : Completable room limit s := by
  obtain ⟨more, last, hmore, hlast⟩ := h
  exact ⟨tokens ++ more, last, by rw [steps_append_ok hsteps, hmore], hlast⟩

theorem Completable.of_move {token : Token} (move : Move room s token next)
    (h : Completable room limit next) : Completable room limit s := by
  have hsteps : s.steps room limit [token] = .ok next := steps_move move
  exact h.of_steps hsteps

theorem content_completable (frames : List Frame) (nodes : List Node) :
    Completable room limit ⟨.content, frames, nodes⟩ := by
  -- the open directives are closed from the inside out
  induction frames generalizing nodes with
  | nil => exact ⟨[], _, rfl, rfl⟩
  | cons frame frames ih => exact (ih _).of_steps (steps_ender frame frame.ender rfl)

theorem completable_of_content (h : s.phase = .content) : Completable room limit s := by
  obtain ⟨phase, frames, nodes⟩ := s
  obtain rfl : phase = .content := h
  exact content_completable frames nodes

theorem path_completable (purpose : Purpose) (path : Path) (frames : List Frame)
    (nodes : List Node) : Completable room limit ⟨.path purpose path, frames, nodes⟩ := by
  have move : Move room ⟨.path purpose path, frames, nodes⟩ .closeTag _ := .complete rfl
  exact .of_move move (completable_of_content (complete_phase ..))

theorem part_completable (purpose : Purpose) (before : Option Path) (frames : List Frame)
    (nodes : List Node) : Completable room limit ⟨.part purpose before, frames, nodes⟩ := by
  cases before with
  | none =>
    have move : Move room ⟨.part purpose none, frames, nodes⟩ (.identifier "a") _ := .head
    exact .of_move move (path_completable ..)
  | some path =>
    have move : Move room ⟨.part purpose (some path), frames, nodes⟩ (.identifier "a") _ := .part
    exact .of_move move (path_completable ..)

theorem loopColon_completable (name : String) (frames : List Frame) (nodes : List Node) :
    Completable room limit ⟨.loopColon name, frames, nodes⟩ := by
  have move : Move room ⟨.loopColon name, frames, nodes⟩ .colon _ := .loopColon rfl
  exact .of_move move (part_completable ..)

theorem completable (room limit : Nat) (s : Progress) : Completable room limit s := by
  obtain ⟨phase, frames, nodes⟩ := s
  cases phase with
  | content => exact content_completable frames nodes
  | opened =>
    -- the tag need not become a directive, so the limit does not matter
    have move : Move room ⟨.opened, frames, nodes⟩ (.identifier "a") _ := .output
    exact .of_move move (path_completable ..)
  | loopName =>
    have move : Move room ⟨.loopName, frames, nodes⟩ (.identifier "a") _ := .loopName
    exact .of_move move (loopColon_completable ..)
  | loopColon name => exact loopColon_completable name frames nodes
  | part purpose before => exact part_completable purpose before frames nodes
  | path purpose path => exact path_completable purpose path frames nodes
  | turned =>
    have move : Move room ⟨.turned, frames, nodes⟩ .closeTag _ := .turned rfl
    exact .of_move move (content_completable ..)
  | ended =>
    have move : Move room ⟨.ended, frames, nodes⟩ .closeTag _ := .close rfl
    exact .of_move move (completable_of_content (close_phase _))

theorem steps_eq_error {tokens : List Token} {refusal : Refusal}
    (h : s.steps room limit tokens = .error refusal) :
    ∃ before token after middle, tokens = before ++ token :: after ∧
      s.steps room limit before = .ok middle ∧ middle.step room limit token = .error refusal := by
  induction tokens generalizing s with
  | nil => cases h
  | cons token tokens ih =>
    cases hstep : s.step room limit token with
    | error first =>
      rw [steps_cons_error hstep] at h
      cases h
      exact ⟨[], token, tokens, s, rfl, rfl, hstep⟩
    | ok next =>
      rw [steps_cons_ok hstep] at h
      obtain ⟨before, other, after, middle, htokens, hbefore, hother⟩ := ih h
      exact ⟨token :: before, other, after, middle, by rw [htokens, List.cons_append],
        by rw [steps_cons_ok hstep, hbefore], hother⟩

end

theorem Reached.content_iff {room : Nat} {seen : List Token} {s : Progress}
    (h : Reached room seen s) : s.phase = .content ↔ TagsClosed seen := by
  induction h with
  | start => simp [TagsClosed]
  | move _ move ih => rw [move.content_iff, tagsClosed_concat, ih]

theorem Refused.blamed {room limit : Nat} {seen : List Token} {s : Progress} {token : Token}
    {refusal : Refusal} (h : Refused room limit s token refusal) (reached : Reached room seen s) :
    Blamed limit seen token refusal.error := by
  have hcontent := reached.content_iff
  have hopened := reached.opened_iff
  have hfirst := reached.firstWord_iff
  unfold Blamed
  cases h with
  | stray outside =>
    split
    · next hseen _ => cases hopened.mpr ⟨_, _, hseen⟩
    · next hseen _ => cases hopened.mpr ⟨_, _, hseen⟩
    · next hseen _ => cases (hfirst _).mpr ⟨_, _, hseen⟩
    · exact ⟨fun _ => rfl, fun hclosed => absurd (hcontent.mp rfl) hclosed⟩
  | tooDeep starter full =>
    obtain ⟨lexeme, older, hseen⟩ := hopened.mp rfl
    rw [hseen]
    exact (if_pos starter).symm
  | unknown other =>
    obtain ⟨lexeme, older, hseen⟩ := hopened.mp rfl
    rw [hseen]
    exact (if_neg other).symm
  | empty mark =>
    obtain ⟨lexeme, older, hseen⟩ := hopened.mp rfl
    rw [hseen, mark]
  | @doubled _ _ word =>
    obtain ⟨lexeme, older, hseen⟩ := (hfirst word).mp rfl
    rw [hseen]
    rfl
  | unexpected inside first second =>
    split
    · next hseen hkind =>
      have hother := first (hopened.mpr ⟨_, _, hseen⟩)
      simp [hkind] at hother
    · next hseen hkind =>
      have hother := first (hopened.mpr ⟨_, _, hseen⟩)
      simp [hkind] at hother
    · next hseen hkind => exact absurd hkind (second _ ((hfirst _).mpr ⟨_, _, hseen⟩))
    · exact ⟨fun hclosed => absurd (hcontent.mpr hclosed) inside, fun _ => ⟨_, rfl⟩⟩

theorem Refused.error_ne_unexpectedEnd {room limit : Nat} {s : Progress} {token : Token}
    {refusal : Refusal} (h : Refused room limit s token refusal) (expected : Expected) :
    refusal.error ≠ .unexpectedEnd expected := by
  cases h <;> nofun

end Progress

section
variable {limit : Nat} {tokens : List Token}

theorem parseTokens_of_steps_ok {s : Progress}
    (h : Progress.steps limit limit {} tokens = .ok s) : parseTokens tokens limit = s.finish := by
  rw [parseTokens, Parser.parse_result, h]

theorem parseTokens_of_steps_error {refusal : Refusal}
    (h : Progress.steps limit limit {} tokens = .error refusal) :
    parseTokens tokens limit = .error refusal.error := by
  rw [parseTokens, Parser.parse_result, h]

theorem viable_of_steps_ok {s : Progress} (h : Progress.steps limit limit {} tokens = .ok s) :
    Viable limit tokens := by
  obtain ⟨more, next, hmore, hnext⟩ := s.completable limit limit
  refine ⟨more, next.nodes.reverse, ?_⟩
  rw [parseTokens_of_steps_ok ((Progress.steps_append_ok h).trans hmore), Progress.finish, hnext]

theorem not_viable_of_steps_error {refusal : Refusal}
    (h : Progress.steps limit limit {} tokens = .error refusal) : ¬ Viable limit tokens := by
  rintro ⟨more, template, hmore⟩
  rw [parseTokens_of_steps_error (Progress.steps_append_error h)] at hmore
  cases hmore

end

/-- The tokens in front of the first refused one are the longest viable ones. -/
theorem isGreatest_viable {limit : Nat} {before after : List Token} {token : Token}
    {s : Progress} {refusal : Refusal} (hbefore : Progress.steps limit limit {} before = .ok s)
    (hstep : s.step limit limit token = .error refusal) :
    IsGreatest {k | k ≤ (before ++ token :: after).length ∧
      Viable limit ((before ++ token :: after).take k)} before.length := by
  constructor
  · refine ⟨by simp, ?_⟩
    rw [List.take_left]
    exact viable_of_steps_ok hbefore
  · rintro k ⟨_, hviable⟩
    apply Nat.le_of_not_lt
    intro hlonger
    obtain ⟨rest, hrest⟩ : before ++ [token] <+: (before ++ token :: after).take k := by
      rw [List.prefix_take_iff, List.length_append, List.length_singleton]
      exact ⟨⟨after, by simp⟩, hlonger⟩
    have hrefused : Progress.steps limit limit {} (before ++ [token] ++ rest) = .error refusal := by
      rw [List.append_assoc, Progress.steps_append_ok hbefore]
      exact Progress.steps_cons_error hstep
    rw [← hrest] at hviable
    exact not_viable_of_steps_error hrefused hviable

/-- If tokens are not accepted, the parser asks for more of them exactly if they are viable.
Otherwise it stops at the first token that makes them unviable, with the error for this
token behind those in front of it, and then any further tokens change nothing. -/
theorem error_of_unaccepted (limit : Nat) (tokens : List Token)
    (unaccepted : ∀ template, parseTokens tokens limit ≠ .ok template) :
    ((∃ expected, parseTokens tokens limit = .error (.unexpectedEnd expected)) ↔
        Viable limit tokens) ∧
      (¬ Viable limit tokens → ∃ k token error,
        IsGreatest {k | k ≤ tokens.length ∧ Viable limit (tokens.take k)} k ∧
          tokens[k]? = some token ∧ parseTokens tokens limit = .error error ∧
          Blamed limit (tokens.take k) token error) ∧
      ∀ error, parseTokens tokens limit = .error error →
        (∀ expected, error ≠ .unexpectedEnd expected) →
          ∀ more, parseTokens (tokens ++ more) limit = .error error := by
  cases hsteps : Progress.steps limit limit {} tokens with
  | ok s =>
    have hviable := viable_of_steps_ok hsteps
    obtain ⟨expected, hend⟩ :
        ∃ expected, parseTokens tokens limit = .error (.unexpectedEnd expected) := by
      rw [parseTokens_of_steps_ok hsteps] at unaccepted ⊢
      unfold Progress.finish at unaccepted ⊢
      split
      · next hmissing => exact absurd (by rw [hmissing]) (unaccepted s.nodes.reverse)
      · next expected _ => exact ⟨expected, rfl⟩
    refine ⟨iff_of_true ⟨expected, hend⟩ hviable, fun h => absurd hviable h, ?_⟩
    intro error herror hother
    rw [hend] at herror
    cases herror
    exact absurd rfl (hother expected)
  | error refusal =>
    obtain ⟨before, token, after, middle, rfl, hbefore, hstep⟩ := Progress.steps_eq_error hsteps
    have hparse := parseTokens_of_steps_error hsteps
    have hrefused := Progress.refused_of_step hstep
    have hviable := not_viable_of_steps_error hsteps
    refine ⟨iff_of_false ?_ hviable, fun _ => ?_, ?_⟩
    · rintro ⟨expected, hend⟩
      rw [hparse, Except.error.injEq] at hend
      exact hrefused.error_ne_unexpectedEnd expected hend
    · refine ⟨before.length, token, refusal.error, isGreatest_viable hbefore hstep, ?_, hparse, ?_⟩
      · simp
      · rw [List.take_left]
        have hreached := Progress.Reached.start.append hbefore
        exact hrefused.blamed hreached
    · intro error herror _ more
      rw [hparse] at herror
      rw [parseTokens_of_steps_error (Progress.steps_append_error hsteps), herror]

/-- A second `else` is refused, and no continuation could change that. -/
theorem error_of_unaccepted_second_else :
    let tokens := tag [.keyword "if", .identifier "x"] ++ tag [.keyword "else"] ++
      tag [.keyword "else"]
    (∀ template, parseTokens tokens 1 ≠ .ok template) ∧ ¬ Viable 1 tokens ∧
      (∃ k token error, IsGreatest {k | k ≤ tokens.length ∧ Viable 1 (tokens.take k)} k ∧
        tokens[k]? = some token ∧ parseTokens tokens 1 = .error error ∧
        Blamed 1 (tokens.take k) token error) ∧
      ∀ more, parseTokens (tokens ++ more) 1 = .error (.unknownDirective "else") := by
  intro tokens
  have hparse : parseTokens tokens 1 = .error (.unknownDirective "else") := by
    cbv
  have unaccepted : ∀ template, parseTokens tokens 1 ≠ .ok template := by
    intro template haccepted
    rw [hparse] at haccepted
    cases haccepted
  obtain ⟨hend, hplace, hmore⟩ := error_of_unaccepted 1 tokens unaccepted
  have hviable : ¬ Viable 1 tokens := by
    rw [← hend, hparse]
    rintro ⟨_, hother⟩
    cases hother
  have hknown (expected : Expected) :
      ParseError.unknownDirective "else" ≠ .unexpectedEnd expected := by
    rintro ⟨⟩
  exact ⟨unaccepted, hviable, hplace hviable, hmore _ hparse hknown⟩

end Stencil
