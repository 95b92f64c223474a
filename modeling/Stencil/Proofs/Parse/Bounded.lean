import Stencil.Proofs.Parse.Checks

/-! Reading is a recursion on the tokens that are left, and the bodies inside of each other are no
more than there is room for. `Descent.read` is that recursion. It has a guard wherever a body is
entered and wherever a turn of the loop follows another one; the proof is that no guard is ever
met, so that the parser is the same reader without them. -/

namespace Stencil

namespace Parser

structure Further (p : Parser) (count : Nat) (q : Parser) : Prop where
  taken : ∃ seen, p.stream.unread = seen ++ q.stream.unread ∧ count ≤ seen.length
  depth : q.depth = p.depth
  limit : q.limit = p.limit

namespace Further
variable {p q r : Parser} {count count' : Nat}

theorem refl (p : Parser) : p.Further 0 p :=
  ⟨⟨[], rfl, Nat.le_refl _⟩, rfl, rfl⟩

theorem trans (h : p.Further count q) (h' : q.Further count' r) : p.Further (count + count') r := by
  obtain ⟨seen, hunread, hcount⟩ := h.taken
  obtain ⟨seen', hunread', hcount'⟩ := h'.taken
  refine ⟨⟨seen ++ seen', by rw [hunread, hunread', List.append_assoc], ?_⟩,
    h'.depth.trans h.depth, h'.limit.trans h.limit⟩
  rw [List.length_append]
  omega

theorem mono (h : p.Further count q) (hcount : count' ≤ count) : p.Further count' q :=
  ⟨h.taken.imp fun _ taken => ⟨taken.1, hcount.trans taken.2⟩, h.depth, h.limit⟩

theorem length_le (h : p.Further count q) :
    q.stream.unread.length + count ≤ p.stream.unread.length := by
  obtain ⟨seen, hunread, hcount⟩ := h.taken
  rw [hunread, List.length_append]
  omega

theorem onLevel (h : p.Further count q) (depth : Nat) :
    { p with depth }.Further count { q with depth } :=
  ⟨h.taken, rfl, h.limit⟩

end Further
end Parser

inductive Turn where
  | ends (nodes : List Node)
  | goesOn (before : List Node)

def Turn.least : Turn → Nat
  | .ends _ => 0
  | .goesOn _ => 1

namespace Descent

def turn (turns : Nat) (body : List String → Descent (List Node)) (stops : List String)
    (before : List Node) : Descent Turn := do
  match ← peek with
  | none => return .ends before.reverse
  | some token =>
    match token.kind with
    | .openTag =>
      if endsList stops (← peekNext) then return .ends before.reverse
      else
        let node ← tagged turns body
        return .goesOn (node :: before)
    | .text =>
      let _ ← next
      return .goesOn (.text token.lexeme :: before)
    | _ => throw (.strayToken token)

def beyond (p : Parser) (body : List String → Descent (List Node)) (stops : List String) :
    Descent (List Node) := fun q =>
  if q.stream.unread.length + 3 ≤ p.stream.unread.length then body stops q
  else .error .turnsSpent q

/-- Nodes up to the end, or up to a tag that starts with one of the stop words. The recursion is on
the tokens that are left: it gives up where a body does not start three tokens further on, where a
directive finds no room, and where a turn that goes on has taken nothing. -/
def read (room : Nat) (stops : List String) (before : List Node) (p : Parser) :
    EStateM.Result Fault Parser (List Node) :=
  let body (stops : List String) : Descent (List Node) := fun q =>
    if _inner : q.stream.unread.length + 3 ≤ p.stream.unread.length then
      match room with
      | 0 => .error .turnsSpent q
      | room + 1 => read room stops [] q
    else .error .turnsSpent q
  match turn p.stream.unread.length body stops before p with
  | .ok (.ends nodes) q => .ok nodes q
  | .ok (.goesOn before) q =>
    if _less : q.stream.unread.length < p.stream.unread.length then read room stops before q
    else .error .turnsSpent q
  | .error fault q => .error fault q
termination_by p.stream.unread.length

/-- The bodies of directives, with one level less of room. -/
def inner : Nat → List String → Descent (List Node)
  | 0, _ => fun q => .error .turnsSpent q
  | room + 1, stops => read room stops []

def onward (p : Parser) (room : Nat) (stops : List String) : Turn → Descent (List Node)
  | .ends nodes => return nodes
  | .goesOn before => fun q =>
    if q.stream.unread.length < p.stream.unread.length then read room stops before q
    else .error .turnsSpent q

theorem read_eq (room : Nat) (stops : List String) (before : List Node) (p : Parser) :
    read room stops before p =
      (turn p.stream.unread.length (beyond p (inner room)) stops before >>= onward p room stops)
        p := by
  have hbody : (fun (stops : List String) (q : Parser) =>
      if q.stream.unread.length + 3 ≤ p.stream.unread.length then
        match room with
        | 0 => .error .turnsSpent q
        | room + 1 => read room stops [] q
      else .error .turnsSpent q) = beyond p (inner room) := by
    funext stops q
    cases room <;> rfl
  rw [read]
  simp only [dite_eq_ite]
  rw [hbody]
  show _ = EStateM.bind _ _ p
  unfold EStateM.bind
  cases turn p.stream.unread.length (beyond p (inner room)) stops before p with
  | error fault q => rfl
  | ok outcome q => cases outcome <;> rfl

theorem nodes_succ (turns : Nat) (stops : List String) (before : List Node) :
    nodes (turns + 1) stops before =
      turn turns (fun stops => nodes turns stops []) stops before >>= fun outcome =>
        match outcome with
        | .ends nodes => return nodes
        | .goesOn before => nodes turns stops before := by
  rw [nodes, turn, bind_assoc]
  refine congrArg _ (funext fun token => ?_)
  rcases token with _ | ⟨kind, lexeme⟩
  · rfl
  · cases kind with
    | openTag =>
      simp only [bind_assoc]
      refine congrArg _ (funext fun first => ?_)
      split
      · rfl
      · simp only [bind_assoc, pure_bind]
    | _ => rfl

/-- Whether two readers do the same where they start at this parser, and leave it in such a
place. -/
inductive Alike {α : Type} (reader reader' : Descent α) (post : α → Parser → Prop)
    (p : Parser) : Prop where
  | goesOn {a q} (returns : reader p = .ok a q) (returns' : reader' p = .ok a q) (holds : post a q)
  | fails {fault q} (throws : reader p = .error fault q) (throws' : reader' p = .error fault q)

namespace Alike
variable {α β : Type} {reader reader' : Descent α} {post : α → Parser → Prop} {p q : Parser}

theorem eq (h : Alike reader reader' post p) : reader p = reader' p := by
  cases h with
  | goesOn returns returns' => exact returns.trans returns'.symm
  | fails throws throws' => exact throws.trans throws'.symm

theorem holds_of_ok {a : α} (h : Alike reader reader' post p) (hok : reader p = .ok a q) :
    post a q := by
  cases h with
  | goesOn returns _ holds =>
    rw [hok] at returns
    cases returns
    exact holds
  | fails throws =>
    rw [hok] at throws
    cases throws

theorem refl (h : ∀ a q, reader p = .ok a q → post a q) : Alike reader reader post p := by
  cases hread : reader p with
  | ok a q => exact .goesOn hread hread (h a q hread)
  | error fault q => exact .fails hread hread

theorem congr_left {other : Descent α} (h : Alike reader reader' post p)
    (hother : other p = reader p) : Alike other reader' post p := by
  cases h with
  | goesOn returns returns' holds => exact .goesOn (hother.trans returns) returns' holds
  | fails throws throws' => exact .fails (hother.trans throws) throws'

theorem congr_right {other : Descent α} (h : Alike reader reader' post p)
    (hother : other p = reader' p) : Alike reader other post p := by
  cases h with
  | goesOn returns returns' holds => exact .goesOn returns (hother.trans returns') holds
  | fails throws throws' => exact .fails throws (hother.trans throws')

theorem mono {post' : α → Parser → Prop} (h : Alike reader reader' post p)
    (hpost : ∀ a q, post a q → post' a q) : Alike reader reader' post' p := by
  cases h with
  | goesOn returns returns' holds => exact .goesOn returns returns' (hpost _ _ holds)
  | fails throws throws' => exact .fails throws throws'

theorem bind {more more' : α → Descent β} {post' : β → Parser → Prop}
    (h : Alike reader reader' post p)
    (hmore : ∀ a q, post a q → Alike (more a) (more' a) post' q) :
    Alike (reader >>= more) (reader' >>= more') post' p := by
  cases h with
  | fails throws throws' => exact .fails (bind_error throws) (bind_error throws')
  | @goesOn a q returns returns' holds =>
    cases hmore a q holds with
    | fails throws throws' =>
      exact .fails ((bind_ok returns).trans throws) ((bind_ok returns').trans throws')
    | goesOn onward onward' holds' =>
      exact .goesOn ((bind_ok returns).trans onward) ((bind_ok returns').trans onward') holds'

theorem returns (a : α) (h : post a p) : Alike (return a) (return a) post p :=
  .goesOn rfl rfl h

theorem throws (fault : Fault) : Alike (throw fault) (throw fault) post p :=
  .fails rfl rfl

theorem peek {more more' : Option Token → Descent α}
    (h : Alike (more p.stream.peek) (more' p.stream.peek) post p) :
    Alike (Descent.peek >>= more) (Descent.peek >>= more') post p := by
  cases h with
  | goesOn returns returns' holds => exact .goesOn returns returns' holds
  | fails throws throws' => exact .fails throws throws'

theorem peekNext {more more' : Option Token → Descent α}
    (h : Alike (more p.stream.peekNext) (more' p.stream.peekNext) post p) :
    Alike (Descent.peekNext >>= more) (Descent.peekNext >>= more') post p := by
  cases h with
  | goesOn returns returns' holds => exact .goesOn returns returns' holds
  | fails throws throws' => exact .fails throws throws'

end Alike

section
variable {p : Parser} {turns turns' : Nat} {body body' : List String → Descent (List Node)}

theorem take_alike (asked : Asked) (fits : Token → Bool) :
    Alike (take asked fits) (take asked fits) (fun _ => p.Further 1) p := by
  obtain ⟨⟨unread⟩, depth, limit⟩ := p
  cases unread with
  | nil => exact .fails rfl rfl
  | cons token rest =>
    let p : Parser := ⟨⟨token :: rest⟩, depth, limit⟩
    by_cases h : fits token = true
    · have htake : take asked fits p = .ok token ⟨⟨rest⟩, depth, limit⟩ :=
        take_of_fits (p := p) (s := {}) h
      exact .goesOn htake htake ⟨⟨[token], rfl, Nat.le_refl _⟩, rfl, rfl⟩
    · have htake : take asked fits p = .error (.unexpected asked token) ⟨⟨rest⟩, depth, limit⟩ :=
        take_of_not_fits (p := p) (s := {}) h
      exact .fails htake htake

theorem identifier_alike : Alike identifier identifier (fun _ => p.Further 1) p :=
  (take_alike _ _).bind fun token _ taken => .returns token.lexeme taken

theorem start_alike (word : String) :
    Alike (start word) (start word)
      (fun _ q => p.depth < p.limit ∧ { p with depth := p.depth + 1 }.Further 1 q) p := by
  refine (take_alike _ _).bind fun _ q taken => ?_
  by_cases hroom : q.depth < q.limit
  · let next : Progress := { phase := .loopName }
    have hdepth : next.depth = Progress.depth {} + 1 := rfl
    have henter : enter q = .ok () { q with depth := q.depth + 1 } :=
      enter_of_room (p := q) (s := {}) hroom hdepth
    rw [taken.depth] at henter
    refine .goesOn henter henter ⟨?_, taken.onLevel _⟩
    rwa [taken.depth, taken.limit] at hroom
  · have henter : enter q = .error (.tooDeep q.limit) q :=
      enter_of_full (p := q) (s := {}) hroom
    exact .fails henter henter

theorem finish_alike {q : Parser} {count : Nat} (word : String)
    (h : { p with depth := p.depth + 1 }.Further count q) :
    Alike (finish word) (finish word) (fun _ => p.Further (count + 2)) q := by
  refine (take_alike _ _).bind fun _ q₁ taken₁ => (take_alike _ _).bind fun _ q₂ taken₂ => ?_
  have hleave : leave q₂ = .ok () { q₂ with depth := q₂.depth - 1 } := rfl
  have hbehind := (h.trans taken₁).trans taken₂
  refine .goesOn hleave hleave ⟨hbehind.taken, ?_, hbehind.limit⟩
  show q₂.depth - 1 = p.depth
  rw [hbehind.depth, Nat.add_sub_cancel]

theorem next_alike {token : Token} (h : p.stream.peek = some token) :
    Alike next next (fun _ => p.Further 1) p := by
  obtain ⟨⟨unread⟩, depth, limit⟩ := p
  obtain ⟨rest, rfl⟩ := List.head?_eq_some_iff.mp h
  exact .goesOn rfl rfl ⟨⟨[token], rfl, Nat.le_refl _⟩, rfl, rfl⟩

theorem moreParts_alike (parts : List String) (hturns : p.stream.unread.length < turns)
    (hturns' : p.stream.unread.length < turns') :
    Alike (moreParts turns parts) (moreParts turns' parts) (fun _ => p.Further 0) p := by
  induction turns generalizing turns' parts p with
  | zero => exact absurd hturns (Nat.not_lt_zero _)
  | succ turns ih =>
    cases turns' with
    | zero => exact absurd hturns' (Nat.not_lt_zero _)
    | succ turns' =>
      rw [moreParts, moreParts]
      refine .peek ?_
      by_cases hdot : (p.stream.peek.any (·.kind = .dot)) = true
      · rw [if_pos hdot, if_pos hdot]
        obtain ⟨token, htoken⟩ : ∃ token, p.stream.peek = some token :=
          Option.isSome_iff_exists.mp (Option.isSome_of_any hdot)
        refine (next_alike htoken).bind fun _ q taken => ?_
        refine identifier_alike.bind fun part r taken' => ?_
        have hboth : p.Further 2 r := taken.trans taken'
        have hless := hboth.length_le
        refine (ih (parts ++ [part]) (by omega) (by omega)).mono fun _ _ taken'' => ?_
        exact (hboth.trans taken'').mono (Nat.zero_le _)
      · rw [if_neg hdot, if_neg hdot]
        exact .returns parts (.refl p)

theorem closePath_alike (parts : List String) :
    Alike (closePath parts) (closePath parts) (fun _ => p.Further 1) p := by
  refine (take_alike _ _).bind fun _ q taken => ?_
  cases Path.ofParts parts with
  | ok path => exact .returns path taken
  | error => exact .throws _

theorem path_alike (hturns : p.stream.unread.length ≤ turns)
    (hturns' : p.stream.unread.length ≤ turns') :
    Alike (path turns) (path turns') (fun _ => p.Further 2) p := by
  refine identifier_alike.bind fun first q taken => ?_
  have hless := taken.length_le
  refine (moreParts_alike [first] (by omega) (by omega)).bind fun parts r taken' => ?_
  exact (closePath_alike parts).mono fun _ _ taken'' => (taken.trans taken').trans taken''

def AlikeBeyond (p : Parser) (body body' : List String → Descent (List Node)) : Prop :=
  ∀ stops q, p.Further 3 q → Alike (body stops) (body' stops) (fun _ => q.Further 0) q

theorem AlikeBeyond.further {q : Parser} {count : Nat} (h : AlikeBeyond p body body')
    (taken : p.Further count q) : AlikeBeyond q body body' :=
  fun stops r taken' => h stops r ((taken.trans taken').mono (Nat.le_add_left _ _))

theorem second_alike (hbody : AlikeBeyond p body body') :
    Alike (second body) (second body') (fun _ => p.Further 1) p := by
  refine (take_alike _ _).bind fun _ q taken => .peek ?_
  by_cases helse : (q.stream.peek.any (·.isKeyword "else")) = true
  · rw [if_pos helse, if_pos helse]
    refine (take_alike _ _).bind fun _ q₁ taken₁ => ?_
    refine (take_alike _ _).bind fun _ q₂ taken₂ => ?_
    have helse := (taken.trans taken₁).trans taken₂
    refine (hbody _ q₂ helse).bind fun no q₃ taken₃ => ?_
    refine (take_alike _ _).bind fun _ q₄ taken₄ => ?_
    exact .returns _ (((helse.trans taken₃).trans taken₄).mono (by decide))
  · rw [if_neg helse, if_neg helse]
    exact .returns _ taken

def AlikeInside (p : Parser) (body body' : List String → Descent (List Node)) : Prop :=
  p.depth < p.limit → AlikeBeyond { p with depth := p.depth + 1 } body body'

theorem AlikeInside.further {q : Parser} {count : Nat} (h : AlikeInside p body body')
    (taken : p.Further count q) : AlikeInside q body body' := by
  intro hroom
  rw [taken.depth, taken.limit] at hroom
  rw [taken.depth]
  exact (h hroom).further (taken.onLevel _)

theorem branch_alike (hturns : p.stream.unread.length ≤ turns)
    (hturns' : p.stream.unread.length ≤ turns') (hbody : AlikeInside p body body') :
    Alike (branch turns body) (branch turns' body') (fun _ => p.Further 3) p := by
  refine (start_alike "if").bind fun _ q ⟨hroom, taken⟩ => ?_
  have hless : q.stream.unread.length + 1 ≤ p.stream.unread.length := taken.length_le
  refine (path_alike (by omega) (by omega)).bind fun condition q₁ taken₁ => ?_
  have hif := taken.trans taken₁
  refine (hbody hroom _ q₁ hif).bind fun yes q₂ taken₂ => ?_
  have hyes := hif.trans taken₂
  refine (second_alike ((hbody hroom).further hyes)).bind fun no q₃ taken₃ => ?_
  refine (finish_alike "endif" (hyes.trans taken₃)).bind fun _ q₄ taken₄ => ?_
  exact .returns _ (taken₄.mono (by decide))

theorem loop_alike (hturns : p.stream.unread.length ≤ turns)
    (hturns' : p.stream.unread.length ≤ turns') (hbody : AlikeInside p body body') :
    Alike (loop turns body) (loop turns' body') (fun _ => p.Further 3) p := by
  refine (start_alike "foreach").bind fun _ q ⟨hroom, taken⟩ => ?_
  refine identifier_alike.bind fun name q₁ taken₁ => ?_
  refine (take_alike _ _).bind fun _ q₂ taken₂ => ?_
  have hcolon := (taken.trans taken₁).trans taken₂
  have hless : q₂.stream.unread.length + 3 ≤ p.stream.unread.length := hcolon.length_le
  refine (path_alike (by omega) (by omega)).bind fun items q₃ taken₃ => ?_
  have hforeach := hcolon.trans taken₃
  refine (hbody hroom _ q₃ (hforeach.mono (by decide))).bind fun nodes q₄ taken₄ => ?_
  refine (take_alike _ _).bind fun _ q₅ taken₅ => ?_
  have hend := (hforeach.trans taken₄).trans taken₅
  refine (finish_alike "endforeach" hend).bind fun _ q₆ taken₆ => ?_
  exact .returns _ (taken₆.mono (by decide))

theorem directive_alike (word : String) (hturns : p.stream.unread.length ≤ turns)
    (hturns' : p.stream.unread.length ≤ turns') (hbody : AlikeInside p body body') :
    Alike (directive turns body word) (directive turns' body' word) (fun _ => p.Further 3) p := by
  unfold directive
  split
  · exact branch_alike hturns hturns' hbody
  · split
    · exact loop_alike hturns hturns' hbody
    · exact .throws _

theorem output_alike (word : String) (hturns : p.stream.unread.length ≤ turns)
    (hturns' : p.stream.unread.length ≤ turns') :
    Alike (output turns word) (output turns' word) (fun _ => p.Further 2) p := by
  refine .peekNext ?_
  split
  · exact .throws _
  · exact (path_alike hturns hturns').bind fun path _ taken => .returns _ taken

theorem tagged_alike (hturns : p.stream.unread.length ≤ turns)
    (hturns' : p.stream.unread.length ≤ turns') (hbody : AlikeInside p body body') :
    Alike (tagged turns body) (tagged turns' body') (fun _ => p.Further 1) p := by
  refine (take_alike _ _).bind fun _ q taken => .peek ?_
  have hless := taken.length_le
  rcases q.stream.peek with _ | ⟨kind, lexeme⟩
  · exact .throws _
  · cases kind with
    | keyword =>
      refine (directive_alike lexeme (by omega) (by omega) (hbody.further taken)).mono ?_
      intro _ _ taken'
      exact (taken.trans taken').mono (by decide)
    | closeTag => exact .throws _
    | identifier =>
      refine (output_alike lexeme (by omega) (by omega)).mono fun _ _ taken' => ?_
      exact (taken.trans taken').mono (by decide)
    | _ =>
      refine (path_alike (by omega) (by omega)).bind fun path _ taken' => ?_
      exact .returns _ ((taken.trans taken').mono (by decide))

theorem turn_alike (stops : List String) (before : List Node)
    (hturns : p.stream.unread.length ≤ turns) (hturns' : p.stream.unread.length ≤ turns')
    (hbody : AlikeInside p body body') :
    Alike (turn turns body stops before) (turn turns' body' stops before)
      (fun outcome => p.Further outcome.least) p := by
  refine .peek ?_
  rcases hpeek : p.stream.peek with _ | ⟨kind, lexeme⟩
  · exact .returns _ (.refl p)
  · cases kind with
    | openTag =>
      refine .peekNext ?_
      split
      · exact .returns _ (.refl p)
      · exact (tagged_alike hturns hturns' hbody).bind fun _ _ taken => .returns _ taken
    | text => exact (next_alike hpeek).bind fun _ _ taken => .returns _ taken
    | _ => exact .throws _

end

theorem read_alike (count : Nat) : ∀ (p : Parser) (turns : Nat) (stops : List String)
    (before : List Node), p.stream.unread.length = count → count < turns →
      Alike (read (p.limit - p.depth) stops before) (nodes turns stops before)
        (fun _ => p.Further 0) p := by
  -- by induction on the tokens that are left: the bodies of the directives in a turn start
  -- further on, and so does the next turn
  induction count using Nat.strong_induction_on with
  | _ count ih =>
  intro p turns stops before hcount hturns
  obtain ⟨turns, rfl⟩ := Nat.exists_eq_succ_of_ne_zero (Nat.ne_zero_of_lt hturns)
  have hbody : AlikeInside p (beyond p (inner (p.limit - p.depth)))
      fun stops => nodes turns stops [] := by
    intro hroom stops q taken
    have hless : q.stream.unread.length + 3 ≤ p.stream.unread.length := taken.length_le
    have hinner : p.limit - p.depth = q.limit - q.depth + 1 := by
      rw [taken.depth, taken.limit]
      show p.limit - p.depth = p.limit - (p.depth + 1) + 1
      omega
    rw [hinner]
    refine (ih _ (by omega) q turns stops [] rfl (by omega)).congr_left ?_
    exact if_pos hless
  rw [Nat.succ_eq_add_one, nodes_succ]
  refine Alike.congr_left ?_ (read_eq _ _ _ p)
  refine (turn_alike stops before (Nat.le_refl _) (by omega) hbody).bind fun outcome q taken => ?_
  cases outcome with
  | ends nodes => exact .returns nodes taken
  | goesOn before =>
    have hless : q.stream.unread.length + 1 ≤ p.stream.unread.length := taken.length_le
    have honward : onward p (p.limit - p.depth) stops (.goesOn before) q =
        read (q.limit - q.depth) stops before q := by
      rw [taken.limit, taken.depth]
      exact if_pos hless
    have hnext := (ih _ (by omega) q turns stops before rfl (by omega)).congr_left honward
    exact hnext.mono fun _ _ taken' => (taken.trans taken').mono (Nat.zero_le _)

def template (stops : List String) : Descent Template :=
  fun p => read (p.limit - p.depth) stops [] p

theorem template_alike (p : Parser) (stops : List String) :
    Alike (template stops) (nodes (p.stream.unread.length + 1) stops [])
      (fun _ => p.Further 0) p :=
  (read_alike _ p _ stops [] rfl (Nat.lt_succ_self _)).congr_left rfl

/-- A reader of bodies that puts no token back and comes back to its own level. -/
def KeepsPlace (body : List String → Descent (List Node)) : Prop :=
  ∀ stops q nodes r, body stops q = .ok nodes r → q.Further 0 r

theorem KeepsPlace.alike {body : List String → Descent (List Node)} (h : KeepsPlace body)
    (p : Parser) (depth : Nat) : AlikeBeyond { p with depth } body (beyond p body) := by
  intro stops q taken
  have hbeyond : body stops q = beyond p body stops q := (if_pos taken.length_le).symm
  exact (Alike.refl (h stops q)).congr_right hbeyond.symm

end Descent

namespace Parser

/-- One template, read by recursion on the tokens that are left. -/
def recursive (p : Parser) (stops : List String) : Except Fault Template × Parser :=
  match Descent.template stops p with
  | .ok template q => (.ok template, q)
  | .error fault q => (.error fault, q)

/-- How a parser comes to an end, and how many directives it goes into. -/
structure Bounded (p : Parser) (stops : List String) : Prop where
  /-- the recursion on the tokens that are left is the parser -/
  same : p.recursive stops =
    ((p.parseUntil stops).1.mapError Fault.ofError, (p.parseUntil stops).2)
  unguarded : (p.recursive stops).1 ≠ .error .turnsSpent
  /-- a turn that goes on takes a token -/
  turn : ∀ turns body before before' q, p.stream.unread.length ≤ turns → Descent.KeepsPlace body →
    Descent.turn turns body stops before p = .ok (.goesOn before') q → p.Further 1 q
  /-- a directive enters no body before three of its tokens are taken -/
  directive : ∀ turns body word, p.stream.unread.length ≤ turns → Descent.KeepsPlace body →
    Descent.directive turns body word p = Descent.directive turns (Descent.beyond p body) word p
  second : ∀ body, Descent.KeepsPlace body →
    Descent.second body p = Descent.second (Descent.beyond p body) p
  keepsPlace : Descent.KeepsPlace Descent.template
  /-- wherever it stands, there is room for the directives that are open -/
  nesting : ∀ s unread, p.Passes stops s unread →
    ∃ seen, p.stream.unread = seen ++ unread ∧ LeavesOpen seen s.depth ∧
      s.depth ≤ p.limit - p.depth

theorem recursive_eq (p : Parser) (stops : List String) :
    p.recursive stops =
      ((p.parseUntil stops).1.mapError Fault.ofError, (p.parseUntil stops).2) := by
  refine Eq.trans ?_ (p.descend_eq (.upTo stops))
  rw [recursive, (Descent.template_alike p stops).eq]
  rfl

/-- However a parser starts, and whatever the tokens are, reading is a recursion on the tokens that
are left, with no more directives open than there is room for. -/
theorem parse_bounded (p : Parser) (stops : List String) : p.Bounded stops where
  same := p.recursive_eq stops
  unguarded := by
    intro h
    rw [p.recursive_eq stops] at h
    cases hparse : (p.parseUntil stops).1 with
    | ok template =>
      rw [hparse] at h
      cases h
    | error error =>
      rw [hparse] at h
      have hfault : Fault.ofError error = .turnsSpent := Except.error.inj h
      exact ofError_not_mem error (by rw [hfault]; decide)
  turn := by
    intro turns body before before' q hturns hkeeps hturn
    have hbody : Descent.AlikeInside p body body := fun _ stops r _ => .refl (hkeeps stops r)
    exact (Descent.turn_alike stops before hturns hturns hbody).holds_of_ok hturn
  directive := by
    intro turns body word hturns hkeeps
    exact (Descent.directive_alike word hturns hturns fun _ => hkeeps.alike p _).eq
  second := by
    intro body hkeeps
    exact (Descent.second_alike (hkeeps.alike p p.depth)).eq
  keepsPlace stops q _ _ := (Descent.template_alike q stops).holds_of_ok
  nesting := by
    intro s unread passes
    obtain ⟨seen, hunread, reached⟩ := passes.unread_eq
    exact ⟨seen, hunread, reached.leavesOpen, reached.depth_le⟩

end Parser
end Stencil
