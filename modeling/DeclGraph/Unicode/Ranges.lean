/-!
# Sets of characters as code point ranges

A character property is stored as a list of closed code point intervals, and a
character has the property when one of the intervals holds its code point.

Main results:

- `Ranges.contains_iff` reads membership as the existence of an interval.
-/

namespace DeclGraph
namespace Unicode

/-- A set of characters: closed intervals of code points, lower end first. -/
abbrev Ranges := List (Nat × Nat)

/-- Does one of the intervals hold the code point of `c`? -/
def Ranges.contains (ranges : Ranges) (c : Char) : Bool :=
  List.any ranges fun interval => interval.1 ≤ c.toNat && c.toNat ≤ interval.2

/-- A character belongs to a set of ranges exactly when one interval holds its code point. -/
theorem Ranges.contains_iff {ranges : Ranges} {c : Char} :
    ranges.contains c ↔ ∃ interval ∈ ranges, interval.1 ≤ c.toNat ∧ c.toNat ≤ interval.2 := by
  simp [Ranges.contains]

end Unicode
end DeclGraph
