/-!
# CharSet — sets of characters as bounds of ranges

- A `CharSet` lists where runs of members begin and end: a character belongs to it when an odd
  number of bounds lie at or below its code.
-/

namespace GraphScript

/-- A set of characters, given by the ascending bounds at which membership changes. -/
structure CharSet where
  bounds : Array Nat

namespace CharSet

/-- The number of bounds at or below the code, counted by halving the range from `low` to `high`. -/
def rank (bounds : Array Nat) (code : Nat) : (fuel low high : Nat) → Nat
  | 0, low, _ => low
  | fuel + 1, low, high =>
    if low < high then
      let middle := (low + high) / 2
      if bounds.getD middle 0 ≤ code then rank bounds code fuel (middle + 1) high
      else rank bounds code fuel low middle
    else low

def contains (s : CharSet) (c : Char) : Bool :=
  rank s.bounds c.toNat s.bounds.size 0 s.bounds.size % 2 = 1

end CharSet

end GraphScript
