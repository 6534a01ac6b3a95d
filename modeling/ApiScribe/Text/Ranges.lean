/-
**Classes of characters given by ranges of code points.**

A class that a standard lists character by character is kept as an ascending list of closed ranges
of code points, and membership is a search through that list.

Main definitions:

* `ApiScribe.Text.Ranges` — a list of closed ranges of code points;
* `ApiScribe.Text.Ranges.has` — whether a character lies in one of the ranges.
-/

set_option autoImplicit false

namespace ApiScribe.Text

/-- Closed ranges of code points, in ascending order. -/
abbrev Ranges := List (Nat × Nat)

/-- Whether `c` lies in one of the ranges. -/
def Ranges.has (ranges : Ranges) (c : Char) : Bool :=
  ranges.any fun r => r.1 ≤ c.toNat && c.toNat ≤ r.2

/-- A character is in the class exactly if some range encloses its code point. -/
theorem Ranges.has_iff (ranges : Ranges) (c : Char) :
    ranges.has c = true ↔ ∃ r ∈ ranges, r.1 ≤ c.toNat ∧ c.toNat ≤ r.2 := by
  simp [Ranges.has]

end ApiScribe.Text
