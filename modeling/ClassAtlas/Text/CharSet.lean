/-!
Sets of characters given by their switch points: the code points, in ascending
order, at which membership changes. A character belongs to the set when an odd
number of switch points are at or below its code point.
-/
namespace ClassAtlas.Text

structure CharSet where
  switches : Array Nat

namespace CharSet

/-- The number of switch points at or below `n`, given that it lies between `lo` and `hi`. -/
def rank (xs : Array Nat) (n lo hi : Nat) : Nat :=
  if lo < hi then
    if xs.getD ((lo + hi) / 2) 0 ≤ n then rank xs n ((lo + hi) / 2 + 1) hi
    else rank xs n lo ((lo + hi) / 2)
  else lo
termination_by hi - lo

def contains (s : CharSet) (c : Char) : Bool := rank s.switches c.toNat 0 s.switches.size % 2 == 1

end CharSet
end ClassAtlas.Text
