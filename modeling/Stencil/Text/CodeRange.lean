/-!
Sets of code points, written down as ranges with both ends included.
-/

namespace Stencil.Text

abbrev CodeRanges := List (Nat × Nat)

def CodeRanges.contains (ranges : CodeRanges) (c : Char) : Bool :=
  ranges.any fun range => range.1 ≤ c.toNat && c.toNat ≤ range.2

theorem CodeRanges.contains_iff {ranges : CodeRanges} {c : Char} :
    ranges.contains c = true ↔ ∃ range ∈ ranges, range.1 ≤ c.toNat ∧ c.toNat ≤ range.2 := by
  simp [CodeRanges.contains]

def CodeRanges.disjoint (first second : CodeRanges) : Bool :=
  first.all fun range => second.all fun other => range.2 < other.1 || other.2 < range.1

theorem CodeRanges.not_contains_of_disjoint {first second : CodeRanges}
    (h : first.disjoint second) {c : Char} (hc : first.contains c) : ¬ second.contains c := by
  intro hc'
  obtain ⟨range, hrange, hlow, hhigh⟩ := contains_iff.mp hc
  obtain ⟨other, hother, hlow', hhigh'⟩ := contains_iff.mp hc'
  have hapart := List.all_eq_true.mp (List.all_eq_true.mp h range hrange) other hother
  simp only [Bool.or_eq_true, decide_eq_true_eq] at hapart
  omega

end Stencil.Text
