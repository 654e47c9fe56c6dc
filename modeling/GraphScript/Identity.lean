/-!
# Identity — names that nobody chose

- An `IdSupply` draws fresh marks, one after the other, from a given sequence. Nothing is assumed
  about that sequence; a host that wants distinct ids supplies distinct marks.
-/

namespace GraphScript

/-- A sequence of marks and the number of those that are used up. -/
structure IdSupply where
  mark : Nat → String
  used : Nat := 0

namespace IdSupply

/-- The next mark with a word in front, and the supply without it. -/
def draw (supply : IdSupply) (word : String) : String × IdSupply :=
  (word ++ "_" ++ supply.mark supply.used, { supply with used := supply.used + 1 })

def drawMany (supply : IdSupply) (word : String) : Nat → List String × IdSupply
  | 0 => ([], supply)
  | n + 1 =>
    let (id, supply) := supply.draw word
    let (ids, supply) := drawMany supply word n
    (id :: ids, supply)

end IdSupply

end GraphScript
