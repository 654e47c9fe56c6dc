import GraphScript.Definition

/-!
# Catalogue — the kinds that a host offers

- A `Catalogue` lists definitions in the order of registration. A kind that is registered again
  takes the place of the earlier one, with a note.
-/

namespace GraphScript

/-- Definitions by kind. -/
abbrev Catalogue (σ : Type) := Table KindName (Definition σ)

namespace Catalogue

variable {σ : Type}

def register (c : Catalogue σ) (d : Definition σ) : Catalogue σ × List Note :=
  (c.insert d.kind d, if c.contains d.kind then [.kindReplaced d.kind] else [])

def registerAll (c : Catalogue σ) : List (Definition σ) → Catalogue σ × List Note
  | [] => (c, [])
  | d :: ds =>
    let (c, notes) := register c d
    let (c, more) := registerAll c ds
    (c, notes ++ more)

/-- The kinds of a group, in the order of registration. -/
def inCategory (c : Catalogue σ) (category : Category) : List (Definition σ) :=
  c.values.filter (·.category = category)

end Catalogue

end GraphScript
