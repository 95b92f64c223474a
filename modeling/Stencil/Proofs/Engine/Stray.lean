import Stencil.Proofs.Engine.Literals
import Stencil.Proofs.Parse.Calls

/-! The scanner and the parser agree on where tags begin and end. Braces lead into tags and out of
them for both, so between tags the parser meets text and braces alone, and what it refuses there is
a closing delimiter that no opening one stands in front of. -/

namespace Stencil

def Mode.after (mode : Mode) (token : Token) : Mode :=
  match token.kind with
  | .openTag => .tag
  | .closeTag => .text
  | _ => mode

/-- What may only stand inside of tags stands there. -/
def KeepsInside : Mode → List Token → Prop
  | _, [] => True
  | mode, token :: tokens => (mode = .text → ¬ token.Inner) ∧ KeepsInside (mode.after token) tokens

def Token.delimiter? (token : Token) : Option Delimiter :=
  match token.kind with
  | .openTag => some .opening
  | .closeTag => some .closing
  | _ => none

section
variable {mode : Mode} {tokens : List Token}

theorem keepsInside_append (mode : Mode) (before after : List Token) :
    KeepsInside mode (before ++ after) ↔
      KeepsInside mode before ∧ KeepsInside (before.foldl Mode.after mode) after := by
  induction before generalizing mode with
  | nil => exact (iff_of_eq (true_and _)).symm
  | cons token before ih =>
    rw [List.cons_append, KeepsInside, KeepsInside, ih, and_assoc, List.foldl_cons]

theorem after_of_no_delimiter {token : Token} (h : token.delimiter? = none) :
    mode.after token = mode := by
  obtain ⟨kind, lexeme⟩ := token
  cases kind <;> first | rfl | cases h

theorem after_delimiter (d : Delimiter) (mode : Mode) : mode.after d.token = d.mode := by
  cases d <;> rfl

theorem keepsInside_of_no_delimiter (h : ∀ token ∈ tokens, token.delimiter? = none)
    (outside : mode = .text → ∀ token ∈ tokens, ¬ token.Inner) :
    KeepsInside mode tokens ∧ tokens.foldl Mode.after mode = mode := by
  induction tokens with
  | nil => exact ⟨trivial, rfl⟩
  | cons token tokens ih =>
    obtain ⟨hkeeps, hmode⟩ := ih (fun other hother => h other (List.mem_cons_of_mem _ hother))
      fun hmode other hother => outside hmode other (List.mem_cons_of_mem _ hother)
    rw [KeepsInside, List.foldl_cons, after_of_no_delimiter (h token List.mem_cons_self)]
    exact ⟨⟨fun hmode => outside hmode token List.mem_cons_self, hkeeps⟩, hmode⟩

theorem foldl_after_eq_text_iff (tokens : List Token) :
    tokens.foldl Mode.after .text = .text ↔
      (tokens.filterMap Token.delimiter?).getLast? ≠ some .opening := by
  induction tokens using List.reverseRecOn with
  | nil => simp
  | append_singleton tokens token ih =>
    rw [List.foldl_concat, List.filterMap_append]
    obtain ⟨kind, lexeme⟩ := token
    cases kind <;> simp_all [Mode.after, Token.delimiter?]

end

theorem leftover_kind (chars : List Char) (next? : Option Delimiter) :
    ∀ token ∈ leftover chars next?, token.kind = .text := by
  unfold leftover
  split
  · nofun
  · intro token htoken
    rw [List.mem_singleton.mp htoken]
    rfl

theorem segmentTokens_sides (mode : Mode) (segment : List Char) (next? : Option Delimiter) :
    (∀ token ∈ segmentTokens mode segment next?, token.delimiter? = none) ∧
      (mode = .text → ∀ token ∈ segmentTokens mode segment next?, ¬ token.Inner) := by
  have text : ∀ chars, ∀ token ∈ leftover chars next?, token.delimiter? = none := by
    intro chars token htoken
    rw [Token.delimiter?, leftover_kind chars next? token htoken]
  cases mode with
  | text =>
    refine ⟨text segment, fun _ token htoken => ?_⟩
    rw [Token.Inner, leftover_kind segment next? token htoken]
    decide
  | tag =>
    refine ⟨fun token htoken => ?_, fun hmode => absurd hmode (by decide)⟩
    rcases List.mem_append.mp htoken with htoken | htoken
    · have inner := filterMap_token?_inner (pieces segment) token htoken
      obtain ⟨kind, lexeme⟩ := token
      cases kind <;> simp_all [Token.Inner, Token.delimiter?]
    · exact text _ token htoken

namespace Segments

def delimiters (s : Segments) : List Delimiter :=
  s.others.map Prod.fst

/-- Some closing delimiter has no opening one right in front of it: it is the first delimiter, or
stands behind another closing one. -/
def HasStray (s : Segments) : Prop :=
  ∃ before after, s.delimiters = before ++ .closing :: after ∧ before.getLast? ≠ some .opening

theorem keepsInside_tokensFrom (mode : Mode) (segment : List Char)
    (others : List (Delimiter × List Char)) :
    KeepsInside mode (tokensFrom mode segment others) := by
  induction others generalizing mode segment with
  | nil =>
    obtain ⟨hdelimiter, houtside⟩ := segmentTokens_sides mode segment none
    rw [tokensFrom, tokensOf, List.append_nil]
    exact (keepsInside_of_no_delimiter hdelimiter houtside).1
  | cons other others ih =>
    obtain ⟨d, next⟩ := other
    obtain ⟨hdelimiter, houtside⟩ := segmentTokens_sides mode segment (some d)
    obtain ⟨hsegment, hmode⟩ := keepsInside_of_no_delimiter hdelimiter houtside
    rw [tokensFrom_cons, keepsInside_append, hmode, KeepsInside, after_delimiter]
    refine ⟨hsegment, fun _ => ?_, ih d.mode next⟩
    cases d <;> simp [Delimiter.token, Token.openTag, Token.closeTag, Token.Inner]

theorem delimiters_tokensFrom (mode : Mode) (segment : List Char)
    (others : List (Delimiter × List Char)) :
    (tokensFrom mode segment others).filterMap Token.delimiter? = others.map Prod.fst := by
  have silent (mode : Mode) (segment : List Char) (next? : Option Delimiter) :
      (segmentTokens mode segment next?).filterMap Token.delimiter? = [] :=
    List.filterMap_eq_nil_iff.mpr (segmentTokens_sides mode segment next?).1
  induction others generalizing mode segment with
  | nil => rw [tokensFrom, List.filterMap_append, silent]; rfl
  | cons other others ih =>
    obtain ⟨d, next⟩ := other
    have hd : d.token.delimiter? = some d := by
      cases d <;> rfl
    rw [tokensFrom_cons, List.filterMap_append, silent, List.filterMap_cons_some hd, ih]
    rfl

end Segments

theorem keepsInside_tokenize (source : String) : KeepsInside .text (tokenize source) := by
  rw [tokenize_eq_tokens]
  exact Segments.keepsInside_tokensFrom .text _ _

theorem delimiters_tokenize (source : String) :
    (tokenize source).filterMap Token.delimiter? =
      (Segments.ofSource source.toList).delimiters := by
  rw [tokenize_eq_tokens]
  exact Segments.delimiters_tokensFrom .text _ _

/-- A stray delimiter shows in the tokens: it closes a tag where none is open. -/
theorem hasStray_iff (source : String) :
    (Segments.ofSource source.toList).HasStray ↔
      ∃ seen token rest, tokenize source = seen ++ token :: rest ∧ token.kind = .closeTag ∧
        seen.foldl Mode.after .text = .text := by
  rw [Segments.HasStray, ← delimiters_tokenize]
  constructor
  · rintro ⟨before, after, hdelimiters, hlast⟩
    obtain ⟨seen, others, htokens, rfl, hothers⟩ := List.filterMap_eq_append_iff.mp hdelimiters
    obtain ⟨silent, token, rest, rfl, hsilent, htoken, _⟩ :=
      List.filterMap_eq_cons_iff.mp hothers
    refine ⟨seen ++ silent, token, rest, by rw [htokens, List.append_assoc], ?_, ?_⟩
    · obtain ⟨kind, lexeme⟩ := token
      cases kind <;> simp_all [Token.delimiter?]
    · have hnone : silent.filterMap Token.delimiter? = [] :=
        List.filterMap_eq_nil_iff.mpr hsilent
      rw [foldl_after_eq_text_iff, List.filterMap_append, hnone, List.append_nil]
      exact hlast
  · rintro ⟨seen, token, rest, htokens, hkind, hmode⟩
    have htoken : token.delimiter? = some .closing := by
      rw [Token.delimiter?, hkind]
    refine ⟨seen.filterMap Token.delimiter?, rest.filterMap Token.delimiter?, ?_,
      (foldl_after_eq_text_iff seen).mp hmode⟩
    rw [htokens, List.filterMap_append, List.filterMap_cons_some htoken]

/-- The parser is between tags where the scanner is. -/
theorem Progress.Reached.content_iff_mode {room : Nat} {seen : List Token} {s : Progress}
    (h : Reached room seen s) : s.phase = .content ↔ seen.foldl Mode.after .text = .text := by
  induction h with
  | start => exact iff_of_true rfl rfl
  | @move _ _ token _ _ move ih =>
    rw [move.content_iff, ih, List.foldl_concat]
    obtain ⟨kind, lexeme⟩ := token
    cases kind <;> simp [Mode.after]

theorem not_move_of_closeTag {room : Nat} {s next : Progress} {token : Token}
    (hcontent : s.phase = .content) (hkind : token.kind = .closeTag) :
    ¬ Progress.Move room s token next := by
  intro move
  cases move with
  | text => cases hkind
  | opened mark => cases mark.symm.trans hkind
  | _ => cases hcontent

theorem not_inner_of_content {room : Nat} {source : String} {seen rest : List Token} {s : Progress}
    {token : Token} (htokens : tokenize source = seen ++ token :: rest)
    (reached : Progress.Reached room seen s) (hcontent : s.phase = .content) : ¬ token.Inner := by
  have hkeeps := keepsInside_tokenize source
  rw [htokens, keepsInside_append, reached.content_iff_mode.mp hcontent] at hkeeps
  exact hkeeps.2.1 rfl

theorem normal_of_mem_tokenize {source : String} {token : Token} (h : token ∈ tokenize source) :
    token.normal = token := by
  have hnormal : (tokenize source).map Token.normal = (tokenize source).map id := by
    rw [tokenize_normal, List.map_id]
  exact List.map_inj_left.mp hnormal token h

namespace Settings
variable {settings : Settings} {source : String}

theorem strayToken_of_compile {found : Token}
    (h : (settings.compile source).result = .error (.strayToken found)) :
    found = .closeTag ∧ (Segments.ofSource source.toList).HasStray := by
  let p := Parser.fresh (tokenize source) settings.maxNestingDepth
  have hresult : (p.call .whole).1 = .error (.strayToken found) :=
    (compile_result settings source).symm.trans h
  obtain ⟨seen, unread, last, htokens, reached, hends⟩ := p.call_ends .whole
  generalize p.call .whole = outcome at hresult hends
  cases hends with
  | finished | stopped | cutOff => cases hresult
  | @refused token rest refusal hstep =>
    have htokens : tokenize source = seen ++ token :: rest := htokens
    have hrefused := Progress.refused_of_step hstep
    cases hrefused with
    | stray outside =>
      cases hresult
      have hinner := not_inner_of_content htokens reached rfl
      have hkind : found.kind = .closeTag := by
        simp_all [Token.Inner]
      have hmem : found ∈ tokenize source := by
        simp [htokens]
      refine ⟨?_, (hasStray_iff source).mpr ⟨seen, found, rest, htokens, hkind, ?_⟩⟩
      · rw [← normal_of_mem_tokenize hmem, Token.normal_closeTag hkind]
      · exact reached.content_iff_mode.mp rfl
    | _ => cases hresult

theorem compile_ne_ok_of_hasStray (h : (Segments.ofSource source.toList).HasStray)
    (other : Settings) (template : Template) : (other.compile source).result ≠ .ok template := by
  intro hcompile
  obtain ⟨seen, token, rest, htokens, hkind, hmode⟩ := (hasStray_iff source).mp h
  rw [compile_result, Parser.parse_eq_ok, htokens] at hcompile
  obtain ⟨last, hsteps, _⟩ := hcompile
  cases hseen : Progress.steps other.maxNestingDepth other.maxNestingDepth {} seen with
  | error refusal =>
    rw [Progress.steps_append_error hseen] at hsteps
    cases hsteps
  | ok middle =>
    rw [Progress.steps_append_ok hseen, Progress.steps_cons_eq_ok_iff] at hsteps
    obtain ⟨_, move, _⟩ := hsteps
    have hcontent := (Progress.Reached.start.append hseen).content_iff_mode.mpr hmode
    exact not_move_of_closeTag hcontent hkind move

/-- Whatever the source, the parser meets no token between tags that belongs into one. So it
refuses nothing there but a closing delimiter, only if the source has a stray one, and a source
with a stray one does not compile under any limit. -/
theorem compile_strayToken (settings : Settings) (source : String) :
    (∀ stops s token rest,
      (Parser.fresh (tokenize source) settings.maxNestingDepth).Passes stops s (token :: rest) →
        s.phase = .content → token.kind ∈ [Kind.text, .openTag, .closeTag]) ∧
      (∀ found, (settings.compile source).result = .error (.strayToken found) →
        found = .closeTag ∧ (Segments.ofSource source.toList).HasStray) ∧
      ((Segments.ofSource source.toList).HasStray → ∀ (other : Settings) template,
        (other.compile source).result ≠ .ok template) := by
  refine ⟨?_, fun found => strayToken_of_compile, compile_ne_ok_of_hasStray⟩
  intro stops s token rest passes hcontent
  obtain ⟨seen, htokens, reached⟩ := passes.unread_eq
  exact not_not.mp (not_inner_of_content htokens reached hcontent)

end Settings
end Stencil
