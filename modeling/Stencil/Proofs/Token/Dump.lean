import Mathlib
import Stencil.Token

/-! A dump of tokens can be read back line by line. The lexeme is not escaped, but it stands between
a kind whose name holds no mark and two marks that every line ends with, and nothing in it can end
the line. So each line gives back the kind of its token, and the lexeme but for spaces and line
ends, and dumps differ as soon as one of these does. -/

namespace Stencil

/-- What is left of a text without its spaces and line ends. -/
def solid (text : String) : List Char :=
  text.toList.filter fun c => c != ' ' && c != '\n'

def Kind.ofLabel? (label : List Char) : Option Kind :=
  [text, openTag, closeTag, dot, colon, identifier, keyword].find? (·.label.toList == label)

theorem Kind.ofLabel?_label (kind : Kind) : ofLabel? kind.label.toList = some kind := by
  cases kind <;> simp [ofLabel?, label]

theorem Kind.label_plain (kind : Kind) :
    ∀ c ∈ kind.label.toList, c ≠ ' ' ∧ c ≠ '\n' ∧ c ≠ '(' := by
  cases kind <;> simp [label]

/-- The kind and the lexeme that a line shows. The lexeme stands behind the first bracket and the
quote next to it, and in front of the last two characters. -/
def readLine (line : List Char) : Option (Kind × List Char) :=
  (Kind.ofLabel? (line.takeWhile (· != '('))).map fun kind =>
    (kind, ((line.dropWhile (· != '(')).drop 2).dropLast.dropLast)

namespace Token

/-- Only the lexeme loses anything when a token is put on a line. -/
theorem line_toList (token : Token) :
    token.line.toList =
      token.kind.label.toList ++ '(' :: '"' :: (solid token.lexeme ++ ['"', ')']) := by
  have hlabel : (token.kind.label.toList.filter fun c => c != ' ' && c != '\n') =
      token.kind.label.toList := by
    rw [List.filter_eq_self]
    intro c hc
    obtain ⟨hspace, hline, -⟩ := token.kind.label_plain c hc
    simp [hspace, hline]
  simp [line, display, hlabel, solid]

theorem newline_not_mem_line (token : Token) : '\n' ∉ token.line.toList := by
  simp [line]

theorem readLine_line (token : Token) :
    readLine token.line.toList = some (token.kind, solid token.lexeme) := by
  have hlabel : ∀ c ∈ token.kind.label.toList, (c != '(') = true := by
    intro c hc
    simpa using (token.kind.label_plain c hc).2.2
  rw [readLine, line_toList, List.takeWhile_append_of_pos hlabel,
    List.dropWhile_append_of_pos hlabel]
  simp [Kind.ofLabel?_label]

end Token

theorem flatMap_lineEnd_eq_intercalate (lines : List (List Char)) :
    lines.flatMap (· ++ ['\n']) = ['\n'].intercalate (lines ++ [[]]) := by
  induction lines with
  | nil => rfl
  | cons line lines ih =>
    rw [List.flatMap_cons, ih, List.cons_append, List.intercalate_cons_of_ne_nil (by simp)]

/-- Lines that are ended one by one are found again, and there is nothing behind the last one. -/
theorem splitOn_lines {lines : List (List Char)} (h : ∀ line ∈ lines, '\n' ∉ line) :
    (lines.flatMap (· ++ ['\n'])).splitOn '\n' = lines ++ [[]] := by
  rw [flatMap_lineEnd_eq_intercalate]
  refine List.splitOn_intercalate '\n' (fun line hline => ?_) (by simp)
  rcases List.mem_append.mp hline with hline | hline
  · exact h line hline
  · simp [List.mem_singleton.mp hline]

theorem splitOn_dump (tokens : List Token) :
    (dump tokens).toList.splitOn '\n' = tokens.map (fun token => token.line.toList) ++ [[]] := by
  have hdump : (dump tokens).toList =
      (tokens.map fun token => token.line.toList).flatMap (· ++ ['\n']) := by
    simp [dump, String.toList_join, List.flatMap_map]
  rw [hdump]
  apply splitOn_lines
  simp [Token.newline_not_mem_line]

def readDump (text : String) : List (Option (Kind × List Char)) :=
  (text.toList.splitOn '\n').dropLast.map readLine

theorem readDump_dump (tokens : List Token) :
    readDump (dump tokens) = tokens.map fun token => some (token.kind, solid token.lexeme) := by
  rw [readDump, splitOn_dump, List.dropLast_concat]
  simp [Token.readLine_line]

/-- A dump has one line for each token, and each line can be read. Two lists of tokens have the same
dump exactly if they are of one length and agree, token by token, on the kind and on the lexeme
without its spaces and line ends. -/
theorem dump_eq_iff (tokens others : List Token) :
    (dump tokens).toList.splitOn '\n' = tokens.map (fun token => token.line.toList) ++ [[]] ∧
      (readDump (dump tokens) = tokens.map fun token => some (token.kind, solid token.lexeme)) ∧
      (dump tokens = dump others ↔
        tokens.length = others.length ∧
          ∀ (i : Nat) (h : i < tokens.length) (h' : i < others.length),
            tokens[i].kind = others[i].kind ∧
              solid tokens[i].lexeme = solid others[i].lexeme) := by
  refine ⟨splitOn_dump tokens, readDump_dump tokens, fun h => ?_, fun h => ?_⟩
  · have hread := congrArg readDump h
    rw [readDump_dump, readDump_dump] at hread
    have hlength : tokens.length = others.length := by
      simpa using congrArg List.length hread
    refine ⟨hlength, fun i hi hi' => ?_⟩
    have hshown := List.getElem_of_eq hread (by simpa using hi)
    simpa using hshown
  · obtain ⟨hlength, hshown⟩ := h
    have hlines : tokens.map Token.line = others.map Token.line := by
      refine List.ext_getElem (by simpa using hlength) fun i hi hi' => ?_
      rw [List.length_map] at hi hi'
      obtain ⟨hkind, hlexeme⟩ := hshown i hi hi'
      simp only [List.getElem_map]
      rw [← String.toList_inj, Token.line_toList, Token.line_toList, hkind, hlexeme]
    have hdump (tokens : List Token) :
        dump tokens = String.join ((tokens.map Token.line).map (· ++ "\n")) := by
      rw [dump, List.map_map]
      rfl
    rw [hdump, hdump, hlines]

end Stencil
