import Stencil.Proofs.Parse.Refusal
import Mathlib.Data.List.Infix

/-! A parser over a whole sequence of calls, also behind calls that failed. What a call has
consumed is told from the tokens alone: a directive is entered where a tag starts with `if`
or `foreach`, and closed where a tag with its last keyword ends. A parser's depth is the
number of directives that were entered and not closed. -/

namespace Stencil

inductive Call where
  | whole
  | upTo (stops : List String)

def Call.stops : Call → List String
  | whole => []
  | upTo stops => stops

def entersDirective (tokens : List Token) : Bool :=
  match tokens.reverse with
  | ⟨.keyword, word⟩ :: ⟨.openTag, _⟩ :: _ => word ∈ starters
  | _ => false

def closesDirective (tokens : List Token) : Bool :=
  match tokens.reverse with
  | ⟨.closeTag, _⟩ :: ⟨.keyword, word⟩ :: ⟨.openTag, _⟩ :: _ => word ∈ enders
  | _ => false

def entered (tokens : List Token) : Nat :=
  tokens.inits.countP entersDirective

def closed (tokens : List Token) : Nat :=
  tokens.inits.countP closesDirective

/-- So many directives are entered in these tokens and not closed. Nothing is closed that was
not entered before. -/
structure LeavesOpen (tokens : List Token) (count : Nat) : Prop where
  balanced : ∀ part, part <+: tokens → closed part ≤ entered part
  entered_eq : entered tokens = count + closed tokens

/-- What a failed call has taken of the tokens that it consumed. A keyword that finds no room
is consumed, but it enters nothing. -/
def taken (error : ParseError) (consumed : List Token) : List Token :=
  match error with
  | .tooDeep _ => consumed.dropLast
  | _ => consumed

theorem entered_concat (tokens : List Token) (token : Token) :
    entered (tokens ++ [token]) =
      entered tokens + if entersDirective (tokens ++ [token]) then 1 else 0 := by
  simp [entered, List.inits_append, List.countP_append, List.countP_singleton]

theorem closed_concat (tokens : List Token) (token : Token) :
    closed (tokens ++ [token]) =
      closed tokens + if closesDirective (tokens ++ [token]) then 1 else 0 := by
  simp [closed, List.inits_append, List.countP_append, List.countP_singleton]

theorem LeavesOpen.concat_iff {tokens : List Token} {token : Token} {count : Nat}
    (henters : ¬ entersDirective (tokens ++ [token]))
    (hcloses : ¬ closesDirective (tokens ++ [token])) :
    LeavesOpen (tokens ++ [token]) count ↔ LeavesOpen tokens count := by
  have hentered : entered (tokens ++ [token]) = entered tokens := by
    rw [entered_concat, if_neg henters, Nat.add_zero]
  have hclosed : closed (tokens ++ [token]) = closed tokens := by
    rw [closed_concat, if_neg hcloses, Nat.add_zero]
  constructor
  · rintro ⟨balanced, heq⟩
    rw [hentered, hclosed] at heq
    exact ⟨fun part hpart => balanced part (hpart.trans (List.prefix_append ..)), heq⟩
  · rintro ⟨balanced, heq⟩
    rw [← hentered, ← hclosed] at heq
    refine ⟨fun part hpart => ?_, heq⟩
    rcases List.prefix_concat_iff.mp hpart with rfl | hpart
    · rw [heq]
      exact Nat.le_add_left ..
    · exact balanced part hpart

theorem not_entersDirective {token : Token} (h : token.kind ≠ .keyword) (tokens : List Token) :
    ¬ entersDirective (tokens ++ [token]) := by
  rw [entersDirective, List.reverse_concat]
  split
  · next hseen => exact absurd (by rw [(List.cons.inj hseen).1]) h
  · exact Bool.false_ne_true

theorem not_closesDirective {token : Token} (h : token.kind ≠ .closeTag) (tokens : List Token) :
    ¬ closesDirective (tokens ++ [token]) := by
  rw [closesDirective, List.reverse_concat]
  split
  · next hseen => exact absurd (by rw [(List.cons.inj hseen).1]) h
  · exact Bool.false_ne_true

namespace Progress

section
variable {room : Nat} {s next : Progress} {token : Token}

theorem depth_complete (purpose : Purpose) (path : Path) (frames : List Frame)
    (nodes : List Node) :
    (complete ⟨.path purpose path, frames, nodes⟩ purpose path).depth =
      depth ⟨.path purpose path, frames, nodes⟩ := by
  cases purpose <;> rfl

theorem depth_close (s : Progress) (hphase : s.phase = .ended) (legal : s.Legal) :
    s.close.depth + 1 = s.depth := by
  obtain ⟨phase, frames, nodes⟩ := s
  obtain rfl : phase = .ended := hphase
  cases frames with
  | nil => cases legal
  | cons => rfl

theorem Move.depth_eq (h : Move room s token next) (legal : s.Legal) :
    next.depth + (if s.phase = .ended ∧ token.kind = .closeTag then 1 else 0) =
      s.depth +
        if s.phase = .opened ∧ token.kind = .keyword ∧ token.lexeme ∈ starters then 1 else 0 := by
  cases h with
  | enterIf | enterForeach => simp [depth, starters, Token.keyword]
  | complete => simp [depth_complete]
  | close mark => simp [mark, depth_close _ rfl legal]
  | @head purpose => cases purpose <;> simp [depth]
  | @part purpose => cases purpose <;> simp [depth]
  | @dot purpose => cases purpose <;> simp [depth]
  | @ender frame => cases frame <;> simp [depth, starters, Frame.ender, Token.keyword]
  | turn => simp [depth, starters, Token.keyword]
  | _ => simp [depth, Token.identifier]

theorem Move.depth_le (h : Move room s token next) (legal : s.Legal) (fits : s.depth ≤ room) :
    next.depth ≤ room := by
  cases h with
  | enterIf hroom | enterForeach hroom => exact hroom
  | complete => rwa [depth_complete]
  | close => exact (Nat.le_of_lt (depth_close _ rfl legal).le).trans fits
  | @head purpose => cases purpose <;> simpa [depth] using fits
  | @part purpose => cases purpose <;> simpa [depth] using fits
  | @dot purpose => cases purpose <;> simpa [depth] using fits
  | _ => simpa [depth] using fits

namespace Reached
variable {seen : List Token}

theorem depth_le (h : Reached room seen s) : s.depth ≤ room := by
  induction h with
  | start => exact Nat.zero_le room
  | move before move ih => exact move.depth_le before.legal ih

theorem ended_iff (h : Reached room seen s) :
    s.phase = .ended ↔ ∃ word ∈ enders, ∃ lexeme older,
      seen.reverse = .keyword word :: ⟨.openTag, lexeme⟩ :: older := by
  cases h with
  | start => simp
  | move before move =>
    rw [move.ended_iff, before.opened_iff, List.reverse_concat]
    constructor
    · rintro ⟨⟨lexeme, older, hseen⟩, word, hword, rfl⟩
      exact ⟨word, hword, lexeme, older, by rw [hseen]⟩
    · rintro ⟨word, hword, lexeme, older, hseen⟩
      obtain ⟨htoken, hbefore⟩ := List.cons.inj hseen
      exact ⟨⟨lexeme, older, hbefore⟩, word, hword, htoken⟩

theorem entersDirective_iff (h : Reached room seen s) (token : Token) :
    entersDirective (seen ++ [token]) ↔
      s.phase = .opened ∧ token.kind = .keyword ∧ token.lexeme ∈ starters := by
  rw [h.opened_iff, entersDirective, List.reverse_concat]
  constructor
  · intro henters
    split at henters
    · next word lexeme older hseen =>
      obtain ⟨rfl, hbefore⟩ := List.cons.inj hseen
      exact ⟨⟨lexeme, older, hbefore⟩, rfl, of_decide_eq_true henters⟩
    · cases henters
  · rintro ⟨⟨_, _, hseen⟩, hkind, hword⟩
    obtain ⟨kind, lexeme⟩ := token
    obtain rfl : kind = .keyword := hkind
    rw [hseen]
    exact decide_eq_true hword

theorem closesDirective_iff (h : Reached room seen s) (token : Token) :
    closesDirective (seen ++ [token]) ↔ s.phase = .ended ∧ token.kind = .closeTag := by
  rw [h.ended_iff, closesDirective, List.reverse_concat]
  constructor
  · intro hcloses
    split at hcloses
    · next lexeme word mark older hseen =>
      obtain ⟨rfl, hbefore⟩ := List.cons.inj hseen
      exact ⟨⟨word, of_decide_eq_true hcloses, mark, older, hbefore⟩, rfl⟩
    · cases hcloses
  · rintro ⟨⟨word, hword, _, _, hseen⟩, hkind⟩
    obtain ⟨kind, lexeme⟩ := token
    obtain rfl : kind = .closeTag := hkind
    rw [hseen]
    exact decide_eq_true hword

theorem entered_eq (h : Reached room seen s) : entered seen = s.depth + closed seen := by
  induction h with
  | start => rfl
  | @move seen s token next before move ih =>
    have hdepth := move.depth_eq before.legal
    rw [entered_concat, closed_concat]
    simp only [before.entersDirective_iff, before.closesDirective_iff]
    omega

theorem of_prefix {part : List Token} (h : Reached room seen s) (hpart : part <+: seen) :
    ∃ middle, Reached room part middle := by
  obtain ⟨rest, rfl⟩ := hpart
  have hsteps := h.steps_eq 0
  cases hpart : steps room 0 {} part with
  | error refusal => rw [steps_append_error hpart] at hsteps; cases hsteps
  | ok middle => exact ⟨middle, start.append hpart⟩

theorem leavesOpen (h : Reached room seen s) : LeavesOpen seen s.depth := by
  refine ⟨?_, h.entered_eq⟩
  intro part hpart
  obtain ⟨middle, hmiddle⟩ := h.of_prefix hpart
  rw [hmiddle.entered_eq]
  exact Nat.le_add_left ..

theorem read_eq (h : Reached room seen s) : s.read = seen.map Token.normal :=
  (steps_read (h.steps_eq 0) trivial).2

end Reached

theorem consumed_of_refused {limit : Nat} {seen : List Token} {refusal : Refusal}
    (reached : Reached room seen s) (hstep : s.step room limit token = .error refusal) :
    ∃ consumed, seen ++ [token] = consumed ++ refusal.unread ∧
      LeavesOpen (taken refusal.error consumed) s.depth := by
  have hopen := reached.leavesOpen
  cases refused_of_step hstep with
  | stray => exact ⟨seen, rfl, hopen⟩
  | unknown => exact ⟨seen, rfl, hopen⟩
  | empty => exact ⟨seen, rfl, hopen⟩
  | @tooDeep _ _ word =>
    refine ⟨seen ++ [.keyword word], (List.append_nil _).symm, ?_⟩
    rwa [taken, List.dropLast_concat]
  | @doubled _ _ word other =>
    obtain ⟨lexeme, older, hseen⟩ := (reached.firstWord_iff word).mp rfl
    obtain rfl : seen = (older.reverse ++ [⟨.openTag, lexeme⟩]) ++ [.identifier word] := by
      simpa using congrArg List.reverse hseen
    refine ⟨older.reverse ++ [⟨.openTag, lexeme⟩], by simp, ?_⟩
    have henters := not_entersDirective (show (Token.identifier word).kind ≠ .keyword from nofun)
    have hcloses := not_closesDirective (show (Token.identifier word).kind ≠ .closeTag from nofun)
    exact (LeavesOpen.concat_iff (henters _) (hcloses _)).mp hopen
  | unexpected inside first second =>
    refine ⟨seen ++ [token], (List.append_nil _).symm, (LeavesOpen.concat_iff ?_ ?_).mpr hopen⟩
    · intro henters
      obtain ⟨hopened, hkind, _⟩ := (reached.entersDirective_iff token).mp henters
      simpa [hkind] using first hopened
    · intro hcloses
      obtain ⟨rfl, hkind⟩ := (reached.closesDirective_iff token).mp hcloses
      simp [step, hkind] at hstep

theorem depth_of_missing (h : s.missing = none) : s.depth = 0 := by
  obtain ⟨phase, frames, nodes⟩ := s
  cases phase with
  | content =>
    cases frames with
    | nil => rfl
    | cons => cases h
  | _ => cases h

end
end Progress

namespace Parser

def fresh (tokens : List Token) (limit : Nat) : Parser where
  stream := ⟨tokens⟩
  limit

def call (p : Parser) : Call → Except ParseError Template × Parser
  | .whole => p.parse
  | .upTo stops => p.parseUntil stops

def after (p : Parser) (calls : List Call) : Parser :=
  calls.foldl (fun p call => (p.call call).2) p

/-- The states between two tokens that a call comes through, and the tokens behind them. -/
inductive Passes (p : Parser) (stops : List String) : Progress → List Token → Prop where
  | start : Passes p stops {} p.stream.unread
  | step {s token rest next} (before : Passes p stops s (token :: rest))
      (goesOn : stopsAt stops s token rest = false)
      (taken : s.step (p.limit - p.depth) p.limit token = .ok next) : Passes p stops next rest

/-- How a call ends in a state, with these tokens behind it. -/
inductive Ends (p : Parser) (stops : List String) (s : Progress) :
    List Token → Except ParseError Template × Parser → Prop where
  | finished (h : s.missing = none) : Ends p stops s [] (.ok s.nodes.reverse, p.leave s [])
  | stopped {token rest} (h : stopsAt stops s token rest = true) :
      Ends p stops s (token :: rest) (.ok s.nodes.reverse, p.leave s (token :: rest))
  | cutOff {expected} (h : s.missing = some expected) :
      Ends p stops s [] (.error (.unexpectedEnd expected), p.leave s [])
  | refused {token rest refusal}
      (h : s.step (p.limit - p.depth) p.limit token = .error refusal) :
      Ends p stops s (token :: rest) (.error refusal.error, p.leave s (refusal.unread ++ rest))

theorem go_ends (p : Parser) (stops : List String) (tokens : List Token) (s : Progress) :
    ∃ seen unread last, tokens = seen ++ unread ∧
      s.steps (p.limit - p.depth) p.limit seen = .ok last ∧
      Ends p stops last unread (p.go stops s tokens) := by
  induction tokens generalizing s with
  | nil =>
    refine ⟨[], [], s, rfl, rfl, ?_⟩
    unfold go
    split
    · next h => exact .finished h
    · next h => exact .cutOff h
  | cons token tokens ih =>
    unfold go
    split
    · next h => exact ⟨[], token :: tokens, s, rfl, rfl, .stopped h⟩
    · split
      · next next hstep =>
        obtain ⟨seen, unread, last, htokens, hseen, hlast⟩ := ih next
        exact ⟨token :: seen, unread, last, by rw [htokens, List.cons_append],
          by rw [Progress.steps_cons_ok hstep, hseen], hlast⟩
      · next refusal hstep => exact ⟨[], token :: tokens, s, rfl, rfl, .refused hstep⟩

theorem call_ends (p : Parser) (call : Call) :
    ∃ seen unread last, p.stream.unread = seen ++ unread ∧
      Progress.Reached (p.limit - p.depth) seen last ∧
      Ends p call.stops last unread (p.call call) := by
  obtain ⟨seen, unread, last, htokens, hseen, hlast⟩ :=
    go_ends p call.stops p.stream.unread {}
  have hcall : p.call call = p.go call.stops {} p.stream.unread := by
    cases call <;> rfl
  rw [hcall]
  exact ⟨seen, unread, last, htokens, Progress.Reached.start.append hseen, hlast⟩

theorem Passes.unread_eq {p : Parser} {stops : List String} {s : Progress} {unread : List Token}
    (h : p.Passes stops s unread) :
    ∃ seen, p.stream.unread = seen ++ unread ∧ Progress.Reached (p.limit - p.depth) seen s := by
  induction h with
  | start => exact ⟨[], rfl, .start⟩
  | @step _ token _ _ _ _ taken ih =>
    obtain ⟨seen, hunread, reached⟩ := ih
    exact ⟨seen ++ [token], by rw [hunread, List.append_cons],
      reached.move (Progress.move_of_step taken)⟩

/-- Where a call may leave a parser: at the end of the tokens, or in front of a tag that starts
with one of the stop words. -/
def AtStop (stops : List String) (unread : List Token) : Prop :=
  unread = [] ∨ ∃ mark word rest, unread = mark :: .keyword word :: rest ∧
    mark.kind = .openTag ∧ word ∈ stops

/-- What one call does to a parser for these tokens. -/
structure SoundCall (tokens : List Token) (p : Parser) (call : Call) : Prop where
  /-- the position only moves on, and not beyond the last token -/
  position : ∃ i j, i ≤ j ∧ j ≤ tokens.length ∧ p.stream.unread = tokens.drop i ∧
    (p.call call).2.stream.unread = tokens.drop j
  depth_le : (p.call call).2.depth ≤ p.limit ∧
    ∀ s unread, p.Passes call.stops s unread → (p.leave s unread).depth ≤ p.limit
  /-- at the end of a directive there is a level to take away -/
  depth_close : ∀ s token rest, p.Passes call.stops s (token :: rest) → s.phase = .ended →
    token.kind = .closeTag → (p.leave s.close rest).depth + 1 = (p.leave s (token :: rest)).depth
  /-- a template that is returned is what the consumed tokens spell -/
  ok : ∀ template, (p.call call).1 = .ok template →
    (p.call call).2.depth = p.depth ∧ AtStop call.stops (p.call call).2.stream.unread ∧
      (call = .whole → (p.call call).2.stream.unread = []) ∧
      ∃ consumed, p.stream.unread = consumed ++ (p.call call).2.stream.unread ∧
        consumed.map Token.normal = template.spelling
  /-- a call that fails adds the directives that it leaves open to the depth -/
  error : ∀ error, (p.call call).1 = .error error →
    ∃ consumed count, p.stream.unread = consumed ++ (p.call call).2.stream.unread ∧
      LeavesOpen (taken error consumed) count ∧ (p.call call).2.depth = p.depth + count

theorem missing_of_stopsAt {stops : List String} {s : Progress} {token : Token}
    {rest : List Token} (h : stopsAt stops s token rest = true) :
    s.missing = none ∧ AtStop stops (token :: rest) := by
  obtain ⟨phase, frames, nodes⟩ := s
  unfold stopsAt at h
  split at h
  · next next _ hphase hframes hkind =>
    obtain rfl : phase = .content := hphase
    obtain rfl : frames = [] := hframes
    obtain ⟨kind, word⟩ := next
    simp only [Bool.and_eq_true, decide_eq_true_eq, List.contains_iff_mem] at h
    obtain ⟨rfl, hword⟩ := h
    exact ⟨rfl, Or.inr ⟨token, word, _, rfl, hkind, hword⟩⟩
  · cases h

theorem atStop_nil {unread : List Token} : AtStop [] unread ↔ unread = [] := by
  simp [AtStop]

theorem spelling_of_missing {room : Nat} {seen : List Token} {s : Progress}
    (reached : Progress.Reached room seen s) (h : s.missing = none) :
    seen.map Token.normal = Template.spelling s.nodes.reverse := by
  have hfinish : s.finish = .ok s.nodes.reverse := by
    rw [Progress.finish, h]
  rw [← reached.read_eq, Progress.finish_eq_ok hfinish]

section
variable {p : Parser} {call : Call}

/-- A call consumes tokens from the front. If it returns a template, they spell it, and if it
fails, the directives among them that are left open are the levels it adds. -/
theorem consumed_of_call (p : Parser) (call : Call) :
    ∃ consumed, p.stream.unread = consumed ++ (p.call call).2.stream.unread ∧
      match (p.call call).1 with
      | .ok template => (p.call call).2.depth = p.depth ∧
          AtStop call.stops (p.call call).2.stream.unread ∧
          consumed.map Token.normal = template.spelling
      | .error error => ∃ count, LeavesOpen (taken error consumed) count ∧
          (p.call call).2.depth = p.depth + count := by
  obtain ⟨seen, unread, last, htokens, reached, hends⟩ := p.call_ends call
  rw [htokens]
  generalize p.call call = outcome at hends
  cases hends with
  | finished h =>
    refine ⟨seen, rfl, ?_, Or.inl rfl, spelling_of_missing reached h⟩
    rw [leave, Progress.depth_of_missing h, Nat.add_zero]
  | stopped h =>
    obtain ⟨hmissing, hstop⟩ := missing_of_stopsAt h
    refine ⟨seen, rfl, ?_, hstop, spelling_of_missing reached hmissing⟩
    rw [leave, Progress.depth_of_missing hmissing, Nat.add_zero]
  | cutOff => exact ⟨seen, rfl, last.depth, reached.leavesOpen, rfl⟩
  | @refused token rest refusal hstep =>
    obtain ⟨consumed, hconsumed, hopen⟩ := Progress.consumed_of_refused reached hstep
    refine ⟨consumed, ?_, last.depth, hopen, rfl⟩
    rw [leave, List.append_cons, hconsumed, List.append_assoc]

theorem limit_of_call (p : Parser) (call : Call) : (p.call call).2.limit = p.limit := by
  obtain ⟨_, _, _, _, _, hends⟩ := p.call_ends call
  generalize p.call call = outcome at hends
  cases hends <;> rfl

theorem depth_leave_le {seen : List Token} {s : Progress} (hdepth : p.depth ≤ p.limit)
    (reached : Progress.Reached (p.limit - p.depth) seen s) (unread : List Token) :
    (p.leave s unread).depth ≤ p.limit := by
  have hroom := reached.depth_le
  show p.depth + s.depth ≤ p.limit
  omega

theorem depth_of_call (hdepth : p.depth ≤ p.limit) (call : Call) :
    (p.call call).2.depth ≤ p.limit := by
  obtain ⟨_, _, _, _, reached, hends⟩ := p.call_ends call
  generalize p.call call = outcome at hends
  cases hends <;> exact depth_leave_le hdepth reached _

theorem call_sound {tokens : List Token} (hunread : p.stream.unread <:+ tokens)
    (hdepth : p.depth ≤ p.limit) (call : Call) : SoundCall tokens p call where
  position := by
    obtain ⟨consumed, hconsumed, _⟩ := p.consumed_of_call call
    obtain ⟨front, rfl⟩ := hunread
    refine ⟨front.length, (front ++ consumed).length, by simp, ?_, by simp, ?_⟩
    · simp [hconsumed]
    · rw [hconsumed, ← List.append_assoc, List.drop_left]
  depth_le := by
    refine ⟨depth_of_call hdepth call, ?_⟩
    intro s unread passes
    obtain ⟨seen, _, reached⟩ := passes.unread_eq
    exact depth_leave_le hdepth reached unread
  depth_close := by
    intro s token rest passes hphase _
    obtain ⟨seen, _, reached⟩ := passes.unread_eq
    have hclose := Progress.depth_close s hphase reached.legal
    show p.depth + s.close.depth + 1 = p.depth + s.depth
    omega
  ok := by
    intro template htemplate
    obtain ⟨consumed, hconsumed, hresult⟩ := p.consumed_of_call call
    rw [htemplate] at hresult
    obtain ⟨hdepth, hstop, hspelling⟩ := hresult
    refine ⟨hdepth, hstop, ?_, consumed, hconsumed, hspelling⟩
    rintro rfl
    exact atStop_nil.mp hstop
  error := by
    intro error herror
    obtain ⟨consumed, hconsumed, hresult⟩ := p.consumed_of_call call
    rw [herror] at hresult
    obtain ⟨count, hopen, hcount⟩ := hresult
    exact ⟨consumed, count, hconsumed, hopen, hcount⟩

theorem after_within (tokens : List Token) (calls : List Call)
    (hunread : p.stream.unread <:+ tokens) (hdepth : p.depth ≤ p.limit) :
    (p.after calls).stream.unread <:+ tokens ∧ (p.after calls).depth ≤ (p.after calls).limit ∧
      (p.after calls).limit = p.limit := by
  induction calls generalizing p with
  | nil => exact ⟨hunread, hdepth, rfl⟩
  | cons call calls ih =>
    have hlimit := p.limit_of_call call
    obtain ⟨consumed, hconsumed, _⟩ := p.consumed_of_call call
    have hnext : (p.call call).2.stream.unread <:+ tokens :=
      List.IsSuffix.trans ⟨consumed, hconsumed.symm⟩ hunread
    obtain ⟨hsuffix, hbound, hsame⟩ := ih hnext (hlimit.symm ▸ depth_of_call hdepth call)
    exact ⟨hsuffix, hbound, hsame.trans hlimit⟩

end

/-- Every call of a parser is sound, whatever calls it had before, also ones that failed, and
the limit stays what it was. -/
theorem calls_sound (tokens : List Token) (limit : Nat) (calls : List Call) (call : Call) :
    ((fresh tokens limit).after calls).limit = limit ∧
      SoundCall tokens ((fresh tokens limit).after calls) call := by
  obtain ⟨hunread, hdepth, hlimit⟩ :=
    after_within tokens calls (p := fresh tokens limit) List.suffix_rfl (Nat.zero_le limit)
  exact ⟨hlimit, call_sound hunread hdepth call⟩

end Parser
end Stencil
