import Mathlib
import Stencil.Proofs.Engine.Concat

/-! Text around a tag is copied as it stands, single braces included. There is one exception: if
the text in front of the tag ends with an opening brace, this brace is the first of the two that
open the tag, and the third one, now inside of the tag, counts for nothing. -/

namespace Stencil

open Segments (NoDelimiter NoBrace)

section
variable {content : String} {before : List Char} (rest : List Char)

theorem tokensIn_brace_tagSource (h : NoBrace content.toList) :
    tokensIn .text ('{' :: ((tagSource content).toList ++ rest)) =
      tokensIn .text ((tagSource content).toList ++ rest) := by
  have hblank : NoBrace [' '] := by decide
  have hinside := noBrace_append (noBrace_append hblank h) hblank
  have hbraced : NoDelimiter ('{' :: ([' '] ++ content.toList ++ [' ']) ++ ['}']) := by
    refine Segments.noDelimiter_cons.mpr ⟨?_, Segments.noDelimiter_concat_of_noBrace hinside _⟩
    rintro (_ | _) ⟨_, hprefix⟩ <;> cases hprefix
  have htag := tokensIn_closed_tag hbraced rest
  rw [innerTokens_noise (by decide) (by decide) (by decide), ← tokensIn_tag hinside] at htag
  simpa [tagSource_toList, Delimiter.chars, Delimiter.brace] using htag

theorem tokensIn_append_tagSource (h : NoDelimiter before) (hlast : before.getLast? ≠ some '{') :
    tokensIn .text (before ++ ((tagSource content).toList ++ rest)) =
      nodesSpelling (textNodes before) ++ tokensIn .text ((tagSource content).toList ++ rest) := by
  rw [tagSource_toList, List.append_assoc, tokensIn_append_opening h hlast,
    leftover_eq_spelling before (show some Delimiter.opening ≠ some .closing by decide)]

theorem tokensIn_append_brace_tagSource (h : NoDelimiter (before ++ ['{']))
    (hcontent : NoBrace content.toList) :
    tokensIn .text (before ++ '{' :: ((tagSource content).toList ++ rest)) =
      nodesSpelling (textNodes before) ++ tokensIn .text ((tagSource content).toList ++ rest) := by
  obtain ⟨hbefore, hlast⟩ := (Segments.noDelimiter_concat ..).mp h
  rw [← tokensIn_brace_tagSource rest hcontent, tagSource_toList]
  refine (tokensIn_append_opening hbefore (hlast .opening rfl) _).trans ?_
  rw [leftover_eq_spelling before (show some Delimiter.opening ≠ some .closing by decide)]
  rfl

end

def Template.around (before after : List Char) (path : Path) : Template :=
  textNodes before ++ .output path :: textNodes after

section
variable (before after : List Char) (path : Path)

theorem tokensIn_output_text (hpath : path.WellFormed) (h : NoDelimiter after) :
    tokensIn .text ((tagSource path.display).toList ++ after) =
      nodesSpelling (.output path :: textNodes after) := by
  rw [tokensIn_output_tag after hpath, tokensIn_of_noDelimiter h, nodesSpelling, Node.spelling,
    leftover_eq_spelling after (show none ≠ some Delimiter.closing by decide)]

theorem nesting_around : (Template.around before after path).nesting = 0 := by
  rw [Template.nesting, Template.around, nodesNesting_append, nodesNesting, nesting_textNodes,
    nesting_textNodes]
  rfl

theorem meaning_around (host : Host) (env : Environment) :
    (Template.around before after path).meaning host env =
      String.ofList before ++ path.textMeaning host env ++ String.ofList after := by
  rw [Template.meaning, Template.around, nodesMeaning_append, nodesMeaning, Node.meaning,
    meaning_textNodes, meaning_textNodes, String.append_assoc]

end

namespace Settings

section
variable (settings : Settings) (host : Host) {before after : String} {path : Path}

theorem render_of_tokens {source : String} (hpath : path.WellFormed)
    (hafter : NoDelimiter after.toList)
    (h : tokenize source = nodesSpelling (textNodes before.toList) ++
      tokensIn .text ((tagSource path.display).toList ++ after.toList)) (model : Value) :
    (settings.render host source model).result =
      .ok (before ++ path.textMeaning host (Context.ofModel host model).lookup ++ after) := by
  have hspelling : tokenize source =
      (Template.around before.toList after.toList path).spelling := by
    rw [h, tokensIn_output_text _ _ hpath hafter, ← nodesSpelling_append]
    rfl
  have fits : (Template.around before.toList after.toList path).nesting ≤
      settings.maxNestingDepth := by
    rw [nesting_around]
    exact Nat.zero_le _
  rw [render_of_compile (compile_eq_ok_iff.mpr ⟨hspelling, fits⟩), meaning_around,
    String.ofList_toList, String.ofList_toList]

theorem render_path_between (hpath : path.WellFormed) (hbefore : NoDelimiter before.toList)
    (hafter : NoDelimiter after.toList) (hlast : before.toList.getLast? ≠ some '{')
    (model : Value) :
    (settings.render host (before ++ tagSource path.display ++ after) model).result =
      .ok (before ++ path.textMeaning host (Context.ofModel host model).lookup ++ after) := by
  apply render_of_tokens settings host hpath hafter
  rw [tokenize_eq_tokensIn, String.toList_append, String.toList_append, List.append_assoc]
  exact tokensIn_append_tagSource _ hbefore hlast

theorem render_path_behind_brace (hpath : path.WellFormed)
    (hbefore : NoDelimiter (before ++ "\x7b").toList) (hafter : NoDelimiter after.toList)
    (model : Value) :
    (settings.render host (before ++ "\x7b" ++ tagSource path.display ++ after) model).result =
      .ok (before ++ path.textMeaning host (Context.ofModel host model).lookup ++ after) := by
  apply render_of_tokens settings host hpath hafter
  rw [String.toList_append] at hbefore
  rw [tokenize_eq_tokensIn, String.toList_append, String.toList_append, String.toList_append,
    List.append_assoc, List.append_assoc]
  exact tokensIn_append_brace_tagSource _ hbefore (noBrace_display hpath)

end

theorem textMeaning_entry (host : Host) (name v : String) :
    Path.textMeaning host (Context.ofModel host (.ofEntries [(name, .string v)])).lookup
      ⟨modelName, [name]⟩ = v := by
  simp [Path.textMeaning, Path.meaning, Value.follow, Value.field?, Context.lookup,
    Context.scopes, Context.ofModel, Value.ofEntries, Value.insertEntry, Value.text]

/-- Text without double braces is copied around an expression, but for a brace right in front
of it: the tag opens with this brace, and its own second brace counts for nothing. -/
theorem render_between_texts (settings : Settings) (host : Host) (before after v : String)
    (hbefore : NoDelimiter before.toList) (hafter : NoDelimiter after.toList) :
    let result := (settings.render host (before ++ "\x7b\x7b model.v \x7d\x7d" ++ after)
      (.ofEntries [("v", .string v)])).result
    (before.toList.getLast? ≠ some '{' → result = .ok (before ++ v ++ after)) ∧
      ∀ text, before = text ++ "\x7b" → result = .ok (text ++ v ++ after) := by
  have hpath : Path.WellFormed ⟨modelName, ["v"]⟩ := by
    unfold Path.WellFormed IsName
    decide
  have htag : "\x7b\x7b model.v \x7d\x7d" = tagSource (Path.display ⟨modelName, ["v"]⟩) := by
    decide
  rw [htag]
  constructor
  · intro hlast
    rw [render_path_between settings host hpath hbefore hafter hlast, textMeaning_entry]
  · rintro text rfl
    rw [render_path_behind_brace settings host hpath hbefore hafter, textMeaning_entry]

/-- Single braces around the tag, and one right in front of it. -/
theorem render_between_texts_braces :
    (render {} .empty "\x7da\x7b \x7b\x7b model.v \x7d\x7d\x7db\x7b"
      (.ofEntries [("v", .string "x")])).result = .ok "\x7da\x7b x\x7db\x7b" ∧
    (render {} .empty "a\x7b\x7b\x7b model.v \x7d\x7d\x7d"
      (.ofEntries [("v", .string "x")])).result = .ok "ax\x7d" := by
  constructor
  · have hcopied :=
      render_between_texts {} .empty "\x7da\x7b " "\x7db\x7b" "x" (by decide) (by decide)
    exact hcopied.1 (by decide)
  · have hcopied := render_between_texts {} .empty "a\x7b" "\x7d" "x" (by decide) (by decide)
    exact hcopied.2 "a" (by decide)

/-- A brace right in front of a tag is not copied. -/
theorem render_brace_before_tag :
    ¬ ∀ before after v : String, NoDelimiter before.toList → NoDelimiter after.toList →
      (render {} .empty (before ++ "\x7b\x7b model.v \x7d\x7d" ++ after)
        (.ofEntries [("v", .string v)])).result = .ok (before ++ v ++ after) := by
  intro h
  have hcopied := h "\x7b" "" "x" (by decide) (by decide)
  have hresult : (render {} .empty ("\x7b" ++ "\x7b\x7b model.v \x7d\x7d" ++ "")
      (.ofEntries [("v", .string "x")])).result = .ok "x" := by
    cbv
  rw [hresult] at hcopied
  exact absurd (Except.ok.inj hcopied) (by decide)

end Settings
end Stencil
