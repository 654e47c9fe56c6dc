/-!
# Place — where something stands in a text

- A `TextPlace` is a line and a column, both counted from one.
- `TextPlace.behind` is the place behind a front part of a text.
-/

namespace GraphScript

/-- A line of a text and a column in it. -/
structure TextPlace where
  line : Nat
  column : Nat
  deriving DecidableEq

namespace TextPlace

/-- The place behind what was read of a text. -/
def behind (read : List Char) : TextPlace where
  line := read.count '\n' + 1
  column := (read.reverse.takeWhile (· ≠ '\n')).length + 1

def display (p : TextPlace) : String := toString p.line ++ ":" ++ toString p.column

end TextPlace

end GraphScript
