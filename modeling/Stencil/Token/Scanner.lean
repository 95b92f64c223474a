import Stencil.Text.ByteLength
import Stencil.Token

/-!
From source text to tokens. Two braces open a tag and two braces close it, wherever they stand.
Text between tags is one token. Inside a tag only words, dots and colons count: other characters
are kept aside, and thrown away when the next word or the end of the tag shows that they were
noise.
-/

namespace Stencil

inductive Mode where
  | text
  | tag
deriving DecidableEq, Repr

structure Scanner where
  rest : List Char
  /-- how many bytes of the source's UTF-8 form lie before `rest` -/
  offset : Nat := 0
  mode : Mode := .text
  /-- characters read that belong to no token so far, the last one first -/
  pending : List Char := []
deriving Repr

namespace Scanner

def flush (s : Scanner) : List Token :=
  if s.pending.isEmpty then [] else [.text (String.ofList s.pending.reverse)]

def keep (s : Scanner) (c : Char) (rest : List Char) : Scanner :=
  { s with rest, offset := s.offset + c.utf8Size, pending := c :: s.pending }

/-- The tokens that the next character or characters give, and the scanner behind them. -/
def step (s : Scanner) : List Token × Scanner :=
  match s.rest with
  | [] => ([], s)
  | '{' :: '{' :: rest =>
    (s.flush ++ [.openTag], { rest, offset := s.offset + 2, mode := .tag })
  | '}' :: '}' :: rest =>
    ([.closeTag], { rest, offset := s.offset + 2, mode := .text })
  | c :: rest =>
    match s.mode with
    | .text => ([], s.keep c rest)
    | .tag =>
      if Text.isWordChar c then
        let word := c :: rest.takeWhile Text.isWordPart
        ([.ofWord (String.ofList word)],
          { rest := rest.dropWhile Text.isWordPart
            offset := s.offset + Text.byteLength word
            mode := .tag })
      else if c = '.' then
        ([.dot], { s with rest, offset := s.offset + 1 })
      else if c = ':' then
        ([.colon], { s with rest, offset := s.offset + 1 })
      else
        ([], s.keep c rest)

theorem length_dropWhile_le (p : Char → Bool) (cs : List Char) :
    (cs.dropWhile p).length ≤ cs.length :=
  (List.dropWhile_sublist p).length_le

theorem step_rest_lt (s : Scanner) (h : s.rest ≠ []) : s.step.2.rest.length < s.rest.length := by
  unfold step
  split
  · contradiction
  · next rest hr =>
    show rest.length < s.rest.length
    rw [hr, List.length_cons, List.length_cons]
    exact Nat.lt_add_of_pos_right (Nat.succ_pos 1)
  · next rest hr =>
    show rest.length < s.rest.length
    rw [hr, List.length_cons, List.length_cons]
    exact Nat.lt_add_of_pos_right (Nat.succ_pos 1)
  · next c rest _ _ hr =>
    have shorter : rest.length < s.rest.length := by rw [hr]; exact Nat.lt_succ_self _
    have := length_dropWhile_le Text.isWordPart rest
    split
    · exact shorter
    · split
      · exact Nat.lt_of_le_of_lt this shorter
      · split
        · exact shorter
        · split <;> exact shorter

/-- Reads to the end. The tokens found before this scanner come first, in `found` the last one
first. -/
def run (s : Scanner) (found : List Token) : List Token :=
  if s.rest = [] then found.reverse ++ s.flush
  else s.step.2.run (s.step.1.reverse ++ found)
termination_by s.rest.length
decreasing_by exact step_rest_lt s ‹_›

end Scanner

def tokenize (source : String) : List Token :=
  Scanner.run { rest := source.toList } []

end Stencil
