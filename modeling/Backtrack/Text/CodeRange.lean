/-!
Sets of characters given as ranges of code points, the form in which a property of characters is
tabulated.
-/

namespace Backtrack.Text

/-- The code points from `first` to `last`, both included. -/
structure CodeRange where
  first : Nat
  last : Nat
deriving DecidableEq, Repr

/-- Whether a character lies in the range. -/
def CodeRange.contains (r : CodeRange) (c : Char) : Bool :=
  r.first ≤ c.toNat && c.toNat ≤ r.last

/-- Whether a character lies in one of the ranges. -/
def CodeRange.covers (ranges : List CodeRange) (c : Char) : Bool :=
  ranges.any (·.contains c)

theorem CodeRange.covers_iff {ranges : List CodeRange} {c : Char} :
    covers ranges c = true ↔ ∃ r ∈ ranges, r.first ≤ c.toNat ∧ c.toNat ≤ r.last := by
  simp [covers, contains]

end Backtrack.Text
