/-!
# Classes of characters as ranges of code points

A class of characters is a list of closed intervals of code points, in
increasing order. `inRanges` decides membership by looking at the intervals
alone, so a class can be evaluated on any character without a case analysis on
its name or its category.
-/

namespace Docwright.Text

/-- The character lies in one of the closed intervals. -/
def inRanges (ranges : List (Nat × Nat)) (c : Char) : Bool :=
  ranges.any fun range => Nat.ble range.1 c.toNat && Nat.ble c.toNat range.2

@[simp] theorem inRanges_nil (c : Char) : inRanges [] c = false := rfl

/-- A character of a class is not in another one whose intervals are all apart from those
of the first. -/
theorem inRanges_eq_false_of_apart {ranges others : List (Nat × Nat)} {c : Char}
    (hapart : (ranges.all fun range => others.all fun other =>
      decide (range.2 < other.1) || decide (other.2 < range.1)) = true)
    (h : inRanges ranges c = true) : inRanges others c = false := by
  rw [inRanges, List.any_eq_true] at h
  obtain ⟨range, hrange, hin⟩ := h
  rw [inRanges, List.any_eq_false]
  intro other hother hboth
  have hpair := List.all_eq_true.1 (List.all_eq_true.1 hapart range hrange) other hother
  simp only [Nat.ble_eq, Bool.and_eq_true, Bool.or_eq_true, decide_eq_true_eq] at hin hboth hpair
  omega

end Docwright.Text
