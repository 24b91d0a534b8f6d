/-!
# Text/Ranges — sets of code points as ascending ranges

A class of characters is a list of ranges of code points in ascending order.  `contains_iff` says
what membership means, for every list whose ranges ascend.
-/

namespace ScenarioScript.Text

/-- Ranges of code points, both ends included, in ascending order. -/
abbrev Ranges := List (Nat × Nat)

namespace Ranges

/-- Is the code point in one of the ranges?  The search ends at the first range that begins
after it. -/
def contains : Ranges → Nat → Bool
  | [], _ => false
  | (first, last) :: later, n => if n < first then false else n ≤ last || contains later n

/-- No range begins before one that stands earlier in the list. -/
def Ascending (ranges : Ranges) : Prop := ranges.Pairwise fun a b => a.1 ≤ b.1

instance (ranges : Ranges) : Decidable ranges.Ascending :=
  inferInstanceAs (Decidable (List.Pairwise _ _))

/-- **Membership**: in ascending ranges the early end of the search loses nothing. -/
theorem contains_iff {ranges : Ranges} (h : ranges.Ascending) (n : Nat) :
    ranges.contains n = true ↔ ∃ r ∈ ranges, r.1 ≤ n ∧ n ≤ r.2 := by
  induction ranges with
  | nil => simp [contains]
  | cons r later ih =>
    obtain ⟨hr, hlater⟩ := List.pairwise_cons.1 h
    by_cases hn : n < r.1
    · simp only [contains, hn, if_true, Bool.false_eq_true, false_iff]
      rintro ⟨s, hs, hlo, _⟩
      rcases List.mem_cons.1 hs with rfl | hs
      · omega
      · have := hr s hs
        omega
    · simp [contains, hn, ih hlater, Nat.not_lt.1 hn]

end Ranges

end ScenarioScript.Text
