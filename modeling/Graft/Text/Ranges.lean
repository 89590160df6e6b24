/-!
# Sets of characters

A set of characters is a list of ranges of code points, both ends included.
-/

namespace Graft

abbrev Ranges := List (Nat × Nat)

def Ranges.has (ranges : Ranges) (c : Char) : Bool :=
  ranges.any fun range => range.1 ≤ c.toNat && c.toNat ≤ range.2

end Graft
