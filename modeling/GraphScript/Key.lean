import GraphScript.Text.Blank

/-!
# Key — the keys that a scene watches
-/

namespace GraphScript

inductive Key where
  | space
  | up
  | down
  | left
  | right
  deriving DecidableEq, Repr, Inhabited

namespace Key

def name : Key → String
  | space => "SPACE"
  | up => "UP"
  | down => "DOWN"
  | left => "LEFT"
  | right => "RIGHT"

def all : List Key := [space, up, down, left, right]

/-- Read a name in any case, with blanks around it. -/
def parse? (text : String) : Option Key :=
  let wanted := (trim text).toUpper
  all.find? (·.name = wanted)

def unknownMessage (text : String) : String := "Unknown key: " ++ text

end Key

end GraphScript
