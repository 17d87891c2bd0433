namespace Pagewright
namespace Text

/-!
# Ranges of characters

A property of characters is given by the ranges of the code points that have
it.  Ranges are closed at both ends, and a table lists them in ascending order
with a gap between any two, so that each property has one table.
-/

/-- A table of closed ranges of code points. -/
abbrev Ranges : Type := List (Nat × Nat)

namespace Ranges

/-- Is the character in one of the ranges? -/
def covers (ranges : Ranges) (c : Char) : Bool :=
  ranges.any fun (first, last) => first ≤ c.toNat && c.toNat ≤ last

/-- Are the ranges in ascending order, with a gap between any two? -/
def isAscending : Ranges → Bool
  | [] => true
  | [(first, last)] => first ≤ last
  | (first, last) :: (next, stop) :: rest =>
      first ≤ last && last + 1 < next && isAscending ((next, stop) :: rest)

end Ranges

end Text
end Pagewright
