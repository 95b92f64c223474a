import Stencil.Proofs.Parse.Descent

/-! Reading by descent is parsing. Wherever a part of the reader starts, it goes on with the parser
to one place, or ends as the parser does; a part that reads a body relies on the place where the
body ends, and its own checks of that place cannot fail. -/

namespace Stencil

namespace Descent
variable {α β : Type}

theorem bind_ok {reader : Descent α} {more : α → Descent β} {q q' : Parser} {a : α}
    (h : reader q = .ok a q') : (reader >>= more) q = more a q' := by
  show EStateM.bind reader more q = _
  rw [EStateM.bind, h]

theorem bind_error {reader : Descent α} {more : α → Descent β} {q q' : Parser} {fault : Fault}
    (h : reader q = .error fault q') : (reader >>= more) q = .error fault q' := by
  show EStateM.bind reader more q = _
  rw [EStateM.bind, h]

section
variable {p : Parser} {s : Progress} {token : Token} {rest : List Token} {asked : Asked}
  {fits : Token → Bool} {kind : Kind}

theorem take_of_fits (h : fits token = true) :
    take asked fits (p.leave s (token :: rest)) = .ok token (p.leave s rest) := by
  show (if fits token then return token else throw (.unexpected asked token) : Descent Token)
    (p.leave s rest) = _
  rw [if_pos h]
  rfl

theorem take_of_not_fits (h : ¬ fits token = true) :
    take asked fits (p.leave s (token :: rest)) =
      .error (.unexpected asked token) (p.leave s rest) := by
  show (if fits token then return token else throw (.unexpected asked token) : Descent Token)
    (p.leave s rest) = _
  rw [if_neg h]
  rfl

theorem expect_nil :
    expect kind (p.leave s []) = .error (.unexpectedEnd (.kind kind)) (p.leave s []) :=
  rfl

theorem expect_of_kind (h : token.kind = kind) :
    expect kind (p.leave s (token :: rest)) = .ok token (p.leave s rest) :=
  take_of_fits (decide_eq_true h)

theorem expect_of_other (h : token.kind ≠ kind) : expect kind (p.leave s (token :: rest)) =
    .error (.unexpected (.kind kind) token) (p.leave s rest) :=
  take_of_not_fits fun hfits => h (of_decide_eq_true hfits)

theorem expectKeyword_self (word : String) :
    expectKeyword word (p.leave s (.keyword word :: rest)) =
      .ok (.keyword word) (p.leave s rest) :=
  take_of_fits (by simp [Token.isKeyword, Token.keyword])

theorem enter_of_room {next : Progress} (h : p.depth + s.depth < p.limit)
    (hdepth : next.depth = s.depth + 1) :
    enter (p.leave s rest) = .ok () (p.leave next rest) := by
  show (if p.depth + s.depth < p.limit then
      set { p.leave s rest with depth := p.depth + s.depth + 1 }
    else throw (.tooDeep p.limit) : Descent Unit) (p.leave s rest) = _
  rw [if_pos h, Parser.leave, Parser.leave, hdepth]
  rfl

theorem enter_of_full (h : ¬ p.depth + s.depth < p.limit) :
    enter (p.leave s rest) = .error (.tooDeep p.limit) (p.leave s rest) := by
  show (if p.depth + s.depth < p.limit then
      set { p.leave s rest with depth := p.depth + s.depth + 1 }
    else throw (.tooDeep p.limit) : Descent Unit) (p.leave s rest) = _
  rw [if_neg h]
  rfl

theorem leave_eq {next : Progress} (hdepth : next.depth + 1 = s.depth) :
    leave (p.leave s rest) = .ok () (p.leave next rest) := by
  have hlevels : p.depth + s.depth - 1 = p.depth + next.depth := by
    omega
  show EStateM.Result.ok () { p.leave s rest with depth := p.depth + s.depth - 1 } = _
  rw [hlevels]
  rfl

end

/-- Whether a reader, run where the parser has come to, is what the parser does next: both go on
to one place, with what the reader returns there, or they end alike. -/
inductive Mirrors (p : Parser) (stops : List String) (s : Progress) (tokens : List Token)
    (reader : Descent α) (post : α → Progress → List Token → Prop) : Prop where
  | goesOn {a next rest} (returns : reader (p.leave s tokens) = .ok a (p.leave next rest))
      (alike : p.go stops s tokens = p.go stops next rest) (holds : post a next rest)
  | fails {error q} (throws : reader (p.leave s tokens) = .error (.ofError error) q)
      (alike : p.go stops s tokens = (.error error, q))

namespace Mirrors
variable {p : Parser} {stops : List String} {s next : Progress} {tokens rest : List Token}
  {reader : Descent α} {post : α → Progress → List Token → Prop}

theorem returns (a : α) (h : post a s tokens) : Mirrors p stops s tokens (return a) post :=
  .goesOn rfl rfl h

theorem bind {more : α → Descent β} {post' : β → Progress → List Token → Prop}
    (h : Mirrors p stops s tokens reader post)
    (hmore : ∀ a next rest, post a next rest → Mirrors p stops next rest (more a) post') :
    Mirrors p stops s tokens (reader >>= more) post' := by
  cases h with
  | fails throws alike => exact .fails (bind_error throws) alike
  | @goesOn a next rest returns alike holds =>
    cases hmore a next rest holds with
    | fails throws alike' => exact .fails ((bind_ok returns).trans throws) (alike.trans alike')
    | goesOn returns' alike' holds' =>
      exact .goesOn ((bind_ok returns).trans returns') (alike.trans alike') holds'

theorem mono {post' : α → Progress → List Token → Prop}
    (h : Mirrors p stops s tokens reader post)
    (hpost : ∀ a next rest, post a next rest → post' a next rest) :
    Mirrors p stops s tokens reader post' := by
  cases h with
  | goesOn returns alike holds => exact .goesOn returns alike (hpost _ _ _ holds)
  | fails throws alike => exact .fails throws alike

theorem peek {more : Option Token → Descent α}
    (h : Mirrors p stops s tokens (more tokens.head?) post) :
    Mirrors p stops s tokens (Descent.peek >>= more) post := by
  cases h with
  | goesOn returns alike holds => exact .goesOn returns alike holds
  | fails throws alike => exact .fails throws alike

theorem peekNext {more : Option Token → Descent α}
    (h : Mirrors p stops s tokens (more tokens.tail.head?) post) :
    Mirrors p stops s tokens (Descent.peekNext >>= more) post := by
  cases h with
  | goesOn returns alike holds => exact .goesOn returns alike holds
  | fails throws alike => exact .fails throws alike

end Mirrors

/-- Whether a template cannot end here, whatever the stop words are. -/
def Inside (s : Progress) : Prop :=
  s.phase ≠ .content ∨ s.frames ≠ []

section
variable {p : Parser} {s : Progress} {tokens : List Token} {stops : List String}

theorem stopsAt_of_inside (h : Inside s) (stops : List String) (token : Token)
    (rest : List Token) :
    Parser.stopsAt stops s token rest = false := by
  unfold Parser.stopsAt
  split
  · next hphase hframes _ => exact absurd hframes (h.resolve_left fun hne => hne hphase)
  · rfl

theorem go_nil {expected : Expected} (h : s.missing = some expected) :
    p.go stops s [] = (.error (.unexpectedEnd expected), p.leave s []) := by
  rw [Parser.go, h]

theorem go_ok {token : Token} {rest : List Token} {next : Progress}
    (hgoes : Parser.stopsAt stops s token rest = false)
    (h : s.step (p.limit - p.depth) p.limit token = .ok next) :
    p.go stops s (token :: rest) = p.go stops next rest := by
  rw [Parser.go, hgoes, if_neg Bool.false_ne_true, h]

theorem go_error {token : Token} {rest : List Token} {refusal : Refusal}
    (hgoes : Parser.stopsAt stops s token rest = false)
    (h : s.step (p.limit - p.depth) p.limit token = .error refusal) :
    p.go stops s (token :: rest) = (.error refusal.error, p.leave s (refusal.unread ++ rest)) := by
  rw [Parser.go, hgoes, if_neg Bool.false_ne_true, h]

theorem leave_congr {next : Progress} (h : next.depth = s.depth) (rest : List Token) :
    p.leave next rest = p.leave s rest := by
  rw [Parser.leave, Parser.leave, h]

/-- A reader that takes one token, where the parser takes it and has as many directives open as
before. -/
theorem step_mirrors {reader : Descent α} {post : α → Progress → List Token → Prop} {a : α}
    {token : Token} {rest : List Token} {next : Progress}
    (returns : reader (p.leave s (token :: rest)) = .ok a (p.leave s rest))
    (hgoes : Parser.stopsAt stops s token rest = false)
    (hstep : s.step (p.limit - p.depth) p.limit token = .ok next) (hdepth : next.depth = s.depth)
    (holds : post a next rest) : Mirrors p stops s (token :: rest) reader post :=
  .goesOn (returns.trans (congrArg _ (leave_congr hdepth rest).symm)) (go_ok hgoes hstep) holds

theorem expect_mirrors {kind : Kind} {expected : Expected}
    {post : Token → Progress → List Token → Prop} (hasked : .ofExpected expected = Asked.kind kind)
    (hinside : Inside s) (hend : tokens = [] → s.missing = some expected)
    (hkind : ∀ token rest, tokens = token :: rest → token.kind = kind →
      ∃ next, s.step (p.limit - p.depth) p.limit token = .ok next ∧ next.depth = s.depth ∧
        post token next rest)
    (hother : ∀ token rest, tokens = token :: rest → token.kind ≠ kind →
      s.step (p.limit - p.depth) p.limit token = .error ⟨.unexpected expected token, []⟩) :
    Mirrors p stops s tokens (expect kind) post := by
  cases tokens with
  | nil => exact .fails (by rw [expect_nil, ← hasked]; rfl) (go_nil (hend rfl))
  | cons token rest =>
    have hgoes : Parser.stopsAt stops s token rest = false :=
      stopsAt_of_inside hinside stops token rest
    by_cases h : token.kind = kind
    · obtain ⟨next, hstep, hdepth, holds⟩ := hkind token rest rfl h
      exact step_mirrors (expect_of_kind h) hgoes hstep hdepth holds
    · exact .fails (by rw [expect_of_other h, ← hasked]; rfl)
        (go_error hgoes (hother token rest rfl h))

theorem expectKeyword_mirrors {next : Progress} {word : String} {rest : List Token}
    (hinside : Inside s)
    (hstep : s.step (p.limit - p.depth) p.limit (.keyword word) = .ok next)
    (hdepth : next.depth = s.depth) :
    Mirrors p stops s (.keyword word :: rest) (expectKeyword word) fun _ s' rest' =>
      s' = next ∧ rest' = rest :=
  step_mirrors (expectKeyword_self word) (stopsAt_of_inside hinside stops _ _) hstep hdepth
    ⟨rfl, rfl⟩

theorem next_mirrors {next : Progress} {token : Token} {rest : List Token}
    (hgoes : Parser.stopsAt stops s token rest = false)
    (hstep : s.step (p.limit - p.depth) p.limit token = .ok next) (hdepth : next.depth = s.depth) :
    Mirrors p stops s (token :: rest) Descent.next fun _ s' rest' => s' = next ∧ rest' = rest :=
  step_mirrors rfl hgoes hstep hdepth ⟨rfl, rfl⟩

theorem identifier_mirrors {post : String → Progress → List Token → Prop}
    (h : Mirrors p stops s tokens (expect .identifier) fun token => post token.lexeme) :
    Mirrors p stops s tokens identifier post :=
  h.bind fun token _ _ holds => .returns token.lexeme holds

end

def asks : Phase → Option Expected
  | .loopName | .part .. => some .identifier
  | .loopColon _ => some .colon
  | .turned | .ended => some .closeTag
  | .content | .opened | .path .. => none

section
variable {p : Parser} {stops : List String} {purpose : Purpose} {frames : List Frame}
  {nodes : List Node} {tokens : List Token} {phase : Phase} {expected : Expected} {kind : Kind}

theorem inside_opened : Inside ⟨.opened, frames, nodes⟩ :=
  Or.inl (by simp)

theorem inside_path (path : Path) : Inside ⟨.path purpose path, frames, nodes⟩ :=
  Or.inl (by simp)

theorem inside_of_asks (h : asks phase = some expected) : Inside ⟨phase, frames, nodes⟩ := by
  refine Or.inl ?_
  rintro rfl
  cases h

theorem missing_of_asks (h : asks phase = some expected) :
    Progress.missing ⟨phase, frames, nodes⟩ = some expected := by
  cases phase <;> cases h <;> rfl

theorem step_of_asks {token : Token} (h : asks phase = some expected)
    (hasked : .ofExpected expected = Asked.kind kind) (hkind : token.kind ≠ kind)
    (room limit : Nat) : Progress.step room limit ⟨phase, frames, nodes⟩ token =
      .error ⟨.unexpected expected token, []⟩ := by
  obtain ⟨other, lexeme⟩ := token
  cases phase with
  | part purpose before =>
    cases h
    cases hasked
    cases before <;> cases other <;> first | rfl | exact absurd rfl hkind
  | loopName | loopColon | turned | ended =>
    cases h
    cases hasked
    cases other <;> first | rfl | exact absurd rfl hkind
  | _ => cases h

theorem asked_mirrors {post : Token → Progress → List Token → Prop}
    (h : asks phase = some expected) (hasked : .ofExpected expected = Asked.kind kind)
    (hkind : ∀ token rest, tokens = token :: rest → token.kind = kind →
      ∃ next, Progress.step (p.limit - p.depth) p.limit ⟨phase, frames, nodes⟩ token = .ok next ∧
        next.depth = Progress.depth ⟨phase, frames, nodes⟩ ∧ post token next rest) :
    Mirrors p stops ⟨phase, frames, nodes⟩ tokens (expect kind) post :=
  expect_mirrors hasked (inside_of_asks h) (fun _ => missing_of_asks h) hkind
    fun _ _ _ hother => step_of_asks h hasked hother _ _

theorem word_mirrors {named : String → Phase} (h : asks phase = some .identifier)
    (hname : ∀ word, Progress.Move (p.limit - p.depth) ⟨phase, frames, nodes⟩ (.identifier word)
      ⟨named word, frames, nodes⟩)
    (hdepth : ∀ word, Progress.depth ⟨named word, frames, nodes⟩ =
      Progress.depth ⟨phase, frames, nodes⟩) :
    Mirrors p stops ⟨phase, frames, nodes⟩ tokens identifier fun word next rest =>
      next = ⟨named word, frames, nodes⟩ ∧ tokens = .identifier word :: rest := by
  refine identifier_mirrors (asked_mirrors h rfl ?_)
  rintro ⟨kind, word⟩ rest rfl rfl
  exact ⟨_, Progress.step_of_move (hname word), hdepth word, rfl, rfl⟩

/-- Whether the first token is of no such kind. -/
def NotAhead (kind : Kind) (tokens : List Token) : Prop :=
  ∀ token ∈ tokens.head?, token.kind ≠ kind

theorem notAhead_nil : NotAhead kind [] := by
  simp [NotAhead]

/-- A word that is all of a tag so far has no other word behind it. -/
def NotDoubled (purpose : Purpose) (path : Path) (tokens : List Token) : Prop :=
  purpose = .output → path.tail = [] → NotAhead .identifier tokens

theorem part_mirrors (path : Path) :
    Mirrors p stops ⟨.part purpose (some path), frames, nodes⟩ tokens identifier
      fun word next rest => next = ⟨.path purpose (path.extend word), frames, nodes⟩ ∧
        tokens = .identifier word :: rest := by
  refine word_mirrors rfl (fun _ => .part) fun _ => ?_
  cases purpose <;> rfl

theorem head_mirrors : Mirrors p stops ⟨.part purpose none, frames, nodes⟩ tokens identifier
    fun word next rest => next = ⟨.path purpose ⟨word, []⟩, frames, nodes⟩ ∧
      tokens = .identifier word :: rest := by
  refine word_mirrors rfl (fun _ => .head) fun _ => ?_
  cases purpose <;> rfl

theorem moreParts_mirrors (turns : Nat) : ∀ (path : Path) (tokens : List Token),
    tokens.length < turns → NotDoubled purpose path tokens →
    Mirrors p stops ⟨.path purpose path, frames, nodes⟩ tokens (moreParts turns path.parts)
      fun parts next rest => ∃ path', parts = path'.parts ∧
        next = ⟨.path purpose path', frames, nodes⟩ ∧ NotAhead .dot rest ∧
        NotDoubled purpose path' rest ∧ rest.length ≤ tokens.length := by
  induction turns with
  | zero => exact fun _ _ hturns => absurd hturns (Nat.not_lt_zero _)
  | succ turns ih =>
    intro path tokens hturns hdoubled
    rw [moreParts]
    refine .peek ?_
    cases tokens with
    | nil => exact .returns _ ⟨path, rfl, rfl, notAhead_nil, hdoubled, Nat.le_refl _⟩
    | cons token rest =>
      rw [List.head?_cons, Option.any_some]
      by_cases hdot : token.kind = .dot
      · rw [if_pos (decide_eq_true hdot)]
        refine .bind (next_mirrors (stopsAt_of_inside (inside_path path) stops _ _)
          (Progress.step_of_move (.dot hdot)) ?_) ?_
        · cases purpose <;> rfl
        rintro _ _ _ ⟨rfl, rfl⟩
        refine .bind (part_mirrors path) ?_
        rintro word _ rest ⟨rfl, rfl⟩
        refine .mono (ih (path.extend word) rest ?_ ?_) ?_
        · exact Nat.lt_of_succ_lt (Nat.lt_of_succ_lt_succ hturns)
        · exact fun _ htail => absurd htail (by simp [Path.extend])
        · rintro parts next rest' ⟨path', rfl, rfl, hdot', hdoubled', hlength⟩
          exact ⟨path', rfl, rfl, hdot', hdoubled', hlength.trans (by simp; omega)⟩
      · rw [if_neg fun h => hdot (of_decide_eq_true h)]
        refine .returns _ ⟨path, rfl, rfl, ?_, hdoubled, Nat.le_refl _⟩
        rintro _ ⟨⟩
        exact hdot

theorem closePath_mirrors (path : Path) (hdot : NotAhead .dot tokens)
    (hdoubled : NotDoubled purpose path tokens) :
    Mirrors p stops ⟨.path purpose path, frames, nodes⟩ tokens (closePath path.parts)
      fun path' next rest => path' = path ∧
        next = Progress.complete ⟨.path purpose path, frames, nodes⟩ purpose path ∧
        rest.length < tokens.length := by
  have hclose : Mirrors p stops ⟨.path purpose path, frames, nodes⟩ tokens (expect .closeTag)
      fun _ next rest =>
        next = Progress.complete ⟨.path purpose path, frames, nodes⟩ purpose path ∧
        rest.length < tokens.length := by
    refine expect_mirrors rfl (inside_path path) (fun _ => rfl) ?_ ?_
    · rintro token rest rfl mark
      exact ⟨_, Progress.step_of_move (.complete mark), Progress.depth_complete .., rfl,
        Nat.lt_succ_self _⟩
    · rintro ⟨kind, lexeme⟩ rest rfl hkind
      obtain ⟨head, tail⟩ := path
      cases kind with
      | closeTag => exact absurd rfl hkind
      | dot => exact absurd rfl (hdot _ rfl)
      | identifier =>
        cases purpose with
        | output =>
          cases tail with
          | nil => exact absurd rfl (hdoubled rfl rfl _ rfl)
          | cons => rfl
        | _ => rfl
      | _ => cases purpose <;> cases tail <;> rfl
  exact hclose.bind fun _ next rest h => .returns path ⟨rfl, h⟩

/-- A whole path, wherever its first part may stand. -/
theorem path_mirrors {s : Progress} {turns : Nat} (hturns : tokens.length ≤ turns)
    (hfirst : Mirrors p stops s tokens identifier fun word next rest =>
      next = ⟨.path purpose ⟨word, []⟩, frames, nodes⟩ ∧ tokens = .identifier word :: rest)
    (hdoubled : ∀ word rest, tokens = .identifier word :: rest →
      NotDoubled purpose ⟨word, []⟩ rest) :
    Mirrors p stops s tokens (path turns) fun path next rest =>
      next = Progress.complete ⟨.path purpose path, frames, nodes⟩ purpose path ∧
        rest.length < tokens.length := by
  refine .bind hfirst ?_
  rintro word _ rest ⟨rfl, rfl⟩
  refine .bind (moreParts_mirrors turns ⟨word, []⟩ rest hturns (hdoubled word rest rfl)) ?_
  rintro _ _ rest' ⟨path, rfl, rfl, hdot, hdoubled', hlength⟩
  refine .mono (closePath_mirrors path hdot hdoubled') ?_
  rintro _ _ rest'' ⟨rfl, rfl, hrest⟩
  exact ⟨rfl, by simp; omega⟩

theorem start_mirrors {word : String} {phase : Phase} {rest : List Token}
    (hkeyword : Progress.step (p.limit - p.depth) p.limit ⟨.opened, frames, nodes⟩ (.keyword word) =
      Progress.enter ⟨.opened, frames, nodes⟩ (p.limit - p.depth) p.limit phase)
    (hdepth : Progress.depth ⟨phase, frames, nodes⟩ = frames.length + 1) :
    Mirrors p stops ⟨.opened, frames, nodes⟩ (.keyword word :: rest) (start word)
      fun _ next rest' => next = ⟨phase, frames, nodes⟩ ∧ rest' = rest := by
  have hgoes : Parser.stopsAt stops ⟨.opened, frames, nodes⟩ (.keyword word) rest = false :=
    stopsAt_of_inside inside_opened stops _ _
  have hstart : start word (p.leave ⟨.opened, frames, nodes⟩ (.keyword word :: rest)) =
      enter (p.leave ⟨.opened, frames, nodes⟩ rest) :=
    bind_ok (expectKeyword_self word)
  by_cases fits : frames.length < p.limit - p.depth
  · have henter : enter (p.leave ⟨.opened, frames, nodes⟩ rest) =
        .ok () (p.leave ⟨phase, frames, nodes⟩ rest) :=
      enter_of_room (show p.depth + frames.length < p.limit by omega) hdepth
    exact .goesOn (hstart.trans henter) (go_ok hgoes (hkeyword.trans (if_pos fits))) ⟨rfl, rfl⟩
  · have henter : enter (p.leave ⟨.opened, frames, nodes⟩ rest) =
        .error (.tooDeep p.limit) (p.leave ⟨.opened, frames, nodes⟩ rest) :=
      enter_of_full (show ¬ p.depth + frames.length < p.limit by omega)
    refine .fails ?_ (go_error hgoes (hkeyword.trans (if_neg fits)))
    exact hstart.trans henter

theorem finish_mirrors {frame : Frame} {rest : List Token} :
    Mirrors p stops ⟨.opened, frame :: frames, nodes⟩ (.keyword frame.ender :: rest)
      (finish frame.ender) fun _ next rest' =>
        next = ⟨.content, frames, frame.close nodes⟩ ∧ rest'.length < rest.length := by
  refine .bind (expectKeyword_mirrors inside_opened (Progress.step_of_move .ender) rfl) ?_
  rintro _ _ rest ⟨rfl, rfl⟩
  cases rest with
  | nil => exact .fails (bind_error expect_nil) (go_nil rfl)
  | cons token rest =>
    have hgoes : Parser.stopsAt stops ⟨.ended, frame :: frames, nodes⟩ token rest = false :=
      stopsAt_of_inside (inside_of_asks rfl) stops _ _
    by_cases mark : token.kind = .closeTag
    · exact .goesOn ((bind_ok (expect_of_kind mark)).trans (leave_eq rfl))
        (go_ok hgoes (Progress.step_of_move (.close mark))) ⟨rfl, Nat.lt_succ_self _⟩
    · have hrefused : Progress.step (p.limit - p.depth) p.limit
          ⟨.ended, frame :: frames, nodes⟩ token = .error ⟨.unexpected .closeTag token, []⟩ :=
        step_of_asks rfl rfl mark _ _
      refine .fails ?_ (go_error hgoes hrefused)
      exact bind_error (expect_of_other mark)

end

/-- How a list of nodes ends: in the state behind its last node, and in front of a tag that starts
with one of the stop words, or at the end. -/
def Stopped (stops : List String) (frames : List Frame) (tokens : List Token)
    (nodes : List Node) (next : Progress) (rest : List Token) : Prop :=
  next = ⟨.content, frames, nodes.reverse⟩ ∧ Parser.AtStop stops rest ∧ rest.length ≤ tokens.length

/-- Whether a reader of bodies mirrors the parser wherever there are not too many tokens left. -/
def BodyMirrors (p : Parser) (stops : List String) (turns : Nat)
    (body : List String → Descent (List Node)) : Prop :=
  ∀ frame frames tokens, tokens.length < turns →
    Mirrors p stops ⟨.content, frame :: frames, []⟩ tokens (body frame.closers)
      (Stopped frame.closers (frame :: frames) tokens)

section
variable {p : Parser} {stops : List String} {frame : Frame} {frames : List Frame}
  {nodes : List Node} {tokens : List Token} {turns : Nat}
  {body : List String → Descent (List Node)}

theorem openTag_mirrors (hstop : Parser.AtStop frame.closers tokens) :
    Mirrors p stops ⟨.content, frame :: frames, nodes⟩ tokens (expect .openTag)
      fun _ next rest => next = ⟨.opened, frame :: frames, nodes⟩ ∧
        rest.length < tokens.length ∧
        ∃ word ∈ frame.closers, ∃ more, rest = .keyword word :: more := by
  have hmark : ∀ token rest, tokens = token :: rest → token.kind = .openTag ∧
      ∃ word ∈ frame.closers, ∃ more, rest = .keyword word :: more := by
    rintro token rest rfl
    rcases hstop with hnil | ⟨mark, word, more, htokens, mark', hword⟩
    · cases hnil
    · obtain ⟨rfl, rfl⟩ := List.cons.inj htokens
      exact ⟨mark', word, hword, more, rfl⟩
  refine expect_mirrors rfl (Or.inr (List.cons_ne_nil _ _)) (fun _ => rfl) ?_ ?_
  · rintro token rest rfl mark
    exact ⟨_, Progress.step_of_move (.opened mark), rfl, rfl, Nat.lt_succ_self _,
      (hmark token rest rfl).2⟩
  · intro token rest htokens mark
    exact absurd (hmark token rest htokens).1 mark

def BehindBodies (frames : List Frame) (ender : String) (tokens : List Token) (node : Node)
    (before : List Node) (next : Progress) (rest : List Token) : Prop :=
  ∃ frame nodes more, next = ⟨.opened, frame :: frames, nodes⟩ ∧
    frame.close nodes = node :: before ∧ frame.ender = ender ∧ rest = .keyword ender :: more ∧
    rest.length < tokens.length

theorem turned_mirrors : Mirrors p stops ⟨.turned, frames, nodes⟩ tokens (expect .closeTag)
    fun _ next rest => next = ⟨.content, frames, nodes⟩ ∧ rest.length < tokens.length := by
  refine asked_mirrors rfl rfl ?_
  rintro token rest rfl mark
  exact ⟨_, Progress.step_of_move (.turned mark), rfl, rfl, Nat.lt_succ_self _⟩

theorem second_mirrors (hbody : BodyMirrors p stops turns body) {condition : Path}
    {before yes : List Node} (hturns : tokens.length < turns)
    (hstop : Parser.AtStop ["else", "endif"] tokens) :
    Mirrors p stops ⟨.content, .yes condition before :: frames, yes.reverse⟩ tokens (second body)
      fun no => BehindBodies frames "endif" tokens (.branch condition yes no) before := by
  refine .bind (openTag_mirrors hstop) ?_
  rintro _ _ _ ⟨rfl, hlength, word, hword, more, rfl⟩
  refine .peek ?_
  rcases Progress.mem_closers hword with rfl | ⟨rfl, _⟩
  · refine .returns none ⟨_, _, more, rfl, ?_, rfl, rfl, hlength⟩
    rw [Frame.close, List.reverse_reverse]
  · refine .bind (expectKeyword_mirrors inside_opened (Progress.step_of_move .turn) rfl) ?_
    rintro _ _ rest ⟨rfl, rfl⟩
    rw [List.reverse_reverse]
    refine .bind turned_mirrors ?_
    rintro _ _ rest₁ ⟨rfl, hlength₁⟩
    rw [List.length_cons] at hlength
    refine .bind (hbody (.no condition yes before) frames rest₁ (by omega)) ?_
    rintro no _ rest₂ ⟨rfl, hstop, hlength₂⟩
    refine .bind (openTag_mirrors hstop) ?_
    rintro _ _ _ ⟨rfl, hlength₃, word, hword, more', rfl⟩
    obtain rfl : word = "endif" := List.mem_singleton.mp hword
    refine .returns (some no) ⟨_, _, more', rfl, ?_, rfl, rfl, by omega⟩
    rw [Frame.close, List.reverse_reverse]

def Completed (frames : List Frame) (before : List Node) (tokens : List Token) (node : Node)
    (next : Progress) (rest : List Token) : Prop :=
  next = ⟨.content, frames, node :: before⟩ ∧ rest.length < tokens.length

theorem branch_mirrors (hbody : BodyMirrors p stops turns body) {before : List Node}
    (hturns : tokens.length < turns) :
    Mirrors p stops ⟨.opened, frames, before⟩ (.keyword "if" :: tokens) (branch turns body)
      (Completed frames before tokens) := by
  refine .bind (start_mirrors (Progress.keyword_if ..) rfl) ?_
  rintro _ _ rest ⟨rfl, rfl⟩
  refine .bind (path_mirrors (by omega) head_mirrors (fun _ _ _ => nofun)) ?_
  rintro condition _ rest₁ ⟨rfl, hlength₁⟩
  refine .bind (hbody (.yes condition before) frames rest₁ (by omega)) ?_
  rintro yes _ rest₂ ⟨rfl, hstop, hlength₂⟩
  refine .bind (second_mirrors hbody (by omega) hstop) ?_
  rintro no _ _ ⟨frame, nodes, more, rfl, hclose, hender, rfl, hlength₃⟩
  rw [← hender]
  refine .bind finish_mirrors ?_
  rintro _ _ rest₄ ⟨rfl, hlength₄⟩
  rw [hclose]
  refine .returns _ ⟨rfl, ?_⟩
  rw [List.length_cons] at hlength₃
  omega

theorem loopName_mirrors : Mirrors p stops ⟨.loopName, frames, nodes⟩ tokens identifier
    fun word next rest => next = ⟨.loopColon word, frames, nodes⟩ ∧
      tokens = .identifier word :: rest :=
  word_mirrors rfl (fun _ => .loopName) fun _ => rfl

theorem loopColon_mirrors {name : String} :
    Mirrors p stops ⟨.loopColon name, frames, nodes⟩ tokens (expect .colon)
      fun _ next rest => next = ⟨.part (.items name) none, frames, nodes⟩ ∧
        rest.length < tokens.length := by
  refine asked_mirrors rfl rfl ?_
  rintro token rest rfl mark
  exact ⟨_, Progress.step_of_move (.loopColon mark), rfl, rfl, Nat.lt_succ_self _⟩

theorem loop_mirrors (hbody : BodyMirrors p stops turns body) {before : List Node}
    (hturns : tokens.length < turns) :
    Mirrors p stops ⟨.opened, frames, before⟩ (.keyword "foreach" :: tokens) (loop turns body)
      (Completed frames before tokens) := by
  refine .bind (start_mirrors (Progress.keyword_foreach ..) rfl) ?_
  rintro _ _ rest ⟨rfl, rfl⟩
  refine .bind loopName_mirrors ?_
  rintro name _ rest₁ ⟨rfl, rfl⟩
  rw [List.length_cons] at hturns
  refine .bind loopColon_mirrors ?_
  rintro _ _ rest₂ ⟨rfl, hlength₂⟩
  refine .bind (path_mirrors (by omega) head_mirrors (fun _ _ _ => nofun)) ?_
  rintro items _ rest₃ ⟨rfl, hlength₃⟩
  refine .bind (hbody (.body name items before) frames rest₃ (by omega)) ?_
  rintro body _ rest₄ ⟨rfl, hstop, hlength₄⟩
  refine .bind (openTag_mirrors hstop) ?_
  rintro _ _ _ ⟨rfl, hlength₅, word, hword, more, rfl⟩
  obtain rfl : word = "endforeach" := List.mem_singleton.mp hword
  refine .bind finish_mirrors ?_
  rintro _ _ rest₆ ⟨rfl, hlength₆⟩
  rw [Frame.close, List.reverse_reverse]
  refine .returns _ ⟨rfl, ?_⟩
  rw [List.length_cons] at hlength₅ ⊢
  omega

theorem keyword_unknown {word : String} (room limit : Nat)
    (hopen : word ∉ Progress.closers ⟨.opened, frames, nodes⟩) (hif : word ≠ "if")
    (hforeach : word ≠ "foreach") :
    Progress.step room limit ⟨.opened, frames, nodes⟩ (.keyword word) =
      .error ⟨.unknownDirective word, [.keyword word]⟩ :=
  (if_neg hopen).trans ((if_neg hif).trans (if_neg hforeach))

theorem directive_mirrors (hbody : BodyMirrors p stops turns body) {word : String}
    {before : List Node} (hturns : tokens.length < turns)
    (hopen : word ∉ Progress.closers ⟨.opened, frames, before⟩) :
    Mirrors p stops ⟨.opened, frames, before⟩ (.keyword word :: tokens)
      (directive turns body word) (Completed frames before tokens) := by
  unfold directive
  by_cases hif : word = "if"
  · subst hif
    exact branch_mirrors hbody hturns
  · rw [if_neg hif]
    by_cases hforeach : word = "foreach"
    · subst hforeach
      exact loop_mirrors hbody hturns
    · rw [if_neg hforeach]
      have hunknown := keyword_unknown (p.limit - p.depth) p.limit hopen hif hforeach
      exact .fails rfl (go_error (stopsAt_of_inside inside_opened stops _ _) hunknown)

theorem outputPath_mirrors {token : Token} {before : List Node}
    (hfirst : token.kind ∉ [Kind.keyword, .closeTag])
    (hdoubled : token.kind = .identifier → NotAhead .identifier tokens)
    (hturns : tokens.length < turns) :
    Mirrors p stops ⟨.opened, frames, before⟩ (token :: tokens)
      (do return .output (← path turns)) (Completed frames before (token :: tokens)) := by
  have hword : Mirrors p stops ⟨.opened, frames, before⟩ (token :: tokens) identifier
      fun word next rest => next = ⟨.path .output ⟨word, []⟩, frames, before⟩ ∧
        token :: tokens = .identifier word :: rest := by
    have hasked : Asked.ofExpected .identifier = .kind .identifier := rfl
    refine identifier_mirrors (expect_mirrors hasked inside_opened (by simp) ?_ ?_)
    · rintro ⟨kind, word⟩ rest ⟨⟩ rfl
      exact ⟨_, Progress.step_of_move .output, rfl, rfl, rfl⟩
    · rintro ⟨kind, lexeme⟩ rest ⟨⟩ hkind
      cases kind <;> first | rfl | simp_all
  refine .bind (path_mirrors hturns hword ?_) ?_
  · rintro word rest' ⟨⟩ _ _
    exact hdoubled rfl
  · rintro path _ rest' ⟨rfl, hlength⟩
    exact .returns _ ⟨rfl, hlength⟩

theorem output_mirrors {word : String} {before : List Node} (hturns : tokens.length < turns) :
    Mirrors p stops ⟨.opened, frames, before⟩ (.identifier word :: tokens) (output turns word)
      (Completed frames before (.identifier word :: tokens)) := by
  refine .peekNext ?_
  cases tokens with
  | nil => exact outputPath_mirrors (by simp [Token.identifier]) (fun _ => notAhead_nil) hturns
  | cons other rest =>
    rw [List.tail_cons, List.head?_cons, Option.any_some]
    by_cases hother : other.kind = .identifier
    · rw [if_pos (decide_eq_true hother)]
      obtain ⟨_, second⟩ := other
      obtain rfl := hother
      refine .fails ?_ ((go_ok (stopsAt_of_inside inside_opened stops _ _)
        (Progress.step_of_move .output)).trans
        (go_error (stopsAt_of_inside (inside_path ⟨word, []⟩) stops _ _) rfl))
      rfl
    · rw [if_neg fun h => hother (of_decide_eq_true h)]
      refine outputPath_mirrors (by simp [Token.identifier]) (fun _ => ?_) hturns
      rintro _ ⟨⟩
      exact hother

theorem tagged_mirrors (hbody : BodyMirrors p stops turns body) {before : List Node}
    {mark : Token} (hmark : mark.kind = .openTag) (hturns : tokens.length < turns)
    (hgoes : Parser.stopsAt stops ⟨.content, frames, before⟩ mark tokens = false)
    (hopen : ∀ word rest, tokens = .keyword word :: rest →
      word ∉ Progress.closers ⟨.opened, frames, before⟩) :
    Mirrors p stops ⟨.content, frames, before⟩ (mark :: tokens) (tagged turns body)
      (Completed frames before tokens) := by
  have htag : Mirrors p stops ⟨.content, frames, before⟩ (mark :: tokens) (expect .openTag)
      fun _ next rest => next = ⟨.opened, frames, before⟩ ∧ rest = tokens :=
    step_mirrors (expect_of_kind hmark) hgoes (Progress.step_of_move (.opened hmark)) rfl
      ⟨rfl, rfl⟩
  refine .bind htag ?_
  rintro _ _ tokens ⟨rfl, rfl⟩
  refine .peek ?_
  rcases tokens with _ | ⟨⟨kind, lexeme⟩, rest⟩
  · exact .fails rfl (go_nil rfl)
  · have hrest : rest.length < turns := Nat.lt_of_succ_lt hturns
    cases kind with
    | keyword =>
      refine .mono (directive_mirrors hbody hrest (hopen lexeme rest rfl)) ?_
      exact fun _ _ _ h => ⟨h.1, Nat.lt_succ_of_lt h.2⟩
    | closeTag =>
      exact .fails rfl (go_error (stopsAt_of_inside inside_opened stops _ _) rfl)
    | identifier => exact output_mirrors hrest
    | _ => exact outputPath_mirrors (by simp) nofun hrest

def innerStops (stops : List String) : List Frame → List String
  | [] => stops
  | frame :: _ => frame.closers

theorem endsList_iff {words : List String} : endsList words tokens.head? = true ↔
    ∃ word ∈ words, ∃ rest, tokens = .keyword word :: rest := by
  rcases tokens with _ | ⟨⟨kind, word⟩, rest⟩
  · simp [endsList]
  · simp [endsList, Token.keyword, and_comm]

theorem stopsAt_content (before : List Node) {mark : Token} (hmark : mark.kind = .openTag) :
    Parser.stopsAt stops ⟨.content, [], before⟩ mark tokens = endsList stops tokens.head? := by
  obtain ⟨_, lexeme⟩ := mark
  obtain rfl := hmark
  cases tokens <;> rfl

theorem stopsAt_of_other {s : Progress} {token : Token} (h : token.kind ≠ .openTag) :
    Parser.stopsAt stops s token tokens = false := by
  unfold Parser.stopsAt
  split
  · next hmark => exact absurd hmark h
  · rfl

theorem goesOn_of_not_endsList (before : List Node) {mark : Token} (hmark : mark.kind = .openTag)
    (hends : ¬ endsList (innerStops stops frames) tokens.head? = true) :
    Parser.stopsAt stops ⟨.content, frames, before⟩ mark tokens = false ∧
      ∀ word rest, tokens = .keyword word :: rest →
        word ∉ Progress.closers ⟨.opened, frames, before⟩ := by
  cases frames with
  | nil =>
    rw [stopsAt_content before hmark]
    exact ⟨Bool.eq_false_iff.mpr hends, fun _ _ _ => nofun⟩
  | cons frame frames =>
    -- inside of a directive its closers alone end the list
    refine ⟨stopsAt_of_inside (Or.inr (List.cons_ne_nil frame frames)) stops _ _, ?_⟩
    intro word rest hkeyword hword
    exact hends (endsList_iff.mpr ⟨word, hword, rest, hkeyword⟩)

theorem nodes_mirrors (p : Parser) (stops : List String) (turns : Nat) :
    ∀ (frames : List Frame) (before : List Node) (tokens : List Token), tokens.length < turns →
      Mirrors p stops ⟨.content, frames, before⟩ tokens
        (Descent.nodes turns (innerStops stops frames) before)
        (Stopped (innerStops stops frames) frames tokens) := by
  -- by induction on the turns: a tag takes one, and the bodies inside of it and the nodes
  -- behind it have the others
  induction turns with
  | zero => exact fun _ _ _ hturns => absurd hturns (Nat.not_lt_zero _)
  | succ turns ih =>
    intro frames before tokens hturns
    rw [Descent.nodes]
    refine .peek ?_
    have hreturn (hstop : Parser.AtStop (innerStops stops frames) tokens) :
        Mirrors p stops ⟨.content, frames, before⟩ tokens (return before.reverse)
          (Stopped (innerStops stops frames) frames tokens) :=
      .returns _ ⟨by rw [List.reverse_reverse], hstop, Nat.le_refl _⟩
    rcases tokens with _ | ⟨⟨kind, lexeme⟩, rest⟩
    · exact hreturn (Or.inl rfl)
    · have hrest : rest.length < turns := Nat.lt_of_succ_lt_succ hturns
      cases kind with
      | openTag =>
        refine .peekNext ?_
        rw [List.tail_cons]
        by_cases hends : endsList (innerStops stops frames) rest.head? = true
        · rw [if_pos hends]
          obtain ⟨word, hword, more, rfl⟩ := endsList_iff.mp hends
          exact hreturn (Or.inr ⟨_, word, more, rfl, rfl, hword⟩)
        · rw [if_neg hends]
          have hmark : (Token.mk .openTag lexeme).kind = .openTag := rfl
          obtain ⟨hgoes, hopen⟩ := goesOn_of_not_endsList before hmark hends
          have hbody : BodyMirrors p stops turns fun stops => Descent.nodes turns stops [] :=
            fun frame frames => ih (frame :: frames) []
          refine .bind (tagged_mirrors hbody hmark hrest hgoes hopen) ?_
          rintro node _ rest₁ ⟨rfl, hlength₁⟩
          refine .mono (ih frames (node :: before) rest₁ (by omega)) ?_
          rintro nodes next rest₂ ⟨hnext, hstop, hlength₂⟩
          exact ⟨hnext, hstop, by rw [List.length_cons]; omega⟩
      | text =>
        refine .bind (next_mirrors (stopsAt_of_other nofun) rfl rfl) ?_
        rintro _ _ rest ⟨rfl, rfl⟩
        refine .mono (ih frames (.text lexeme :: before) rest hrest) ?_
        rintro nodes next rest' ⟨hnext, hstop, hlength⟩
        exact ⟨hnext, hstop, Nat.le_succ_of_le hlength⟩
      | _ => exact .fails rfl (go_error (stopsAt_of_other nofun) rfl)

theorem call_mirrors (p : Parser) (call : Call) (hturns : tokens.length < turns) :
    Mirrors p call.stops {} tokens (Descent.call turns call) (Stopped call.stops [] tokens) := by
  cases call with
  | upTo stops => exact nodes_mirrors p stops turns [] [] tokens hturns
  | whole =>
    refine .bind (nodes_mirrors p [] turns [] [] tokens hturns) ?_
    rintro template _ rest ⟨rfl, hstop, hlength⟩
    -- without stop words there is nothing left behind the last node
    obtain rfl : rest = [] := Parser.atStop_nil.mp hstop
    exact .goesOn rfl rfl ⟨rfl, hstop, hlength⟩

theorem go_of_atStop {before : List Node} (h : Parser.AtStop stops tokens) :
    p.go stops ⟨.content, [], before⟩ tokens =
      (.ok before.reverse, p.leave ⟨.content, [], before⟩ tokens) := by
  rcases h with rfl | ⟨mark, word, rest, rfl, hmark, hword⟩
  · rfl
  · have hstop : Parser.stopsAt stops ⟨.content, [], before⟩ mark (.keyword word :: rest) = true :=
      (stopsAt_content before hmark).trans (endsList_iff.mpr ⟨word, hword, rest, rfl⟩)
    rw [Parser.go, if_pos hstop]

end
end Descent

namespace Parser

/-- Reading by descent is parsing: with the same result, and the same tokens and levels behind
it. -/
theorem descend_eq (p : Parser) (call : Call) :
    p.descend call = ((p.call call).1.mapError Fault.ofError, (p.call call).2) := by
  have hcall : p.call call = p.go call.stops {} p.stream.unread := by
    cases call <;> rfl
  have hmirrors := Descent.call_mirrors p call (Nat.lt_succ_self p.stream.unread.length)
  rw [descend, hcall]
  cases hmirrors with
  | @fails error q throws alike =>
    have hreader : Descent.call (p.stream.unread.length + 1) call p = .error (.ofError error) q :=
      throws
    rw [hreader, alike]
    rfl
  | @goesOn template next rest returns alike holds =>
    obtain ⟨rfl, hstop, _⟩ := holds
    have hreader : Descent.call (p.stream.unread.length + 1) call p =
        .ok template (p.leave ⟨.content, [], template.reverse⟩ rest) := returns
    rw [hreader, alike, Descent.go_of_atStop hstop, List.reverse_reverse]
    rfl

end Parser
end Stencil
