import GraphScript.Text.Quoted
import GraphScript.Tree

/-!
# Ron.Printer — data as RON text

- Every item stands on a line of its own, four spaces deeper than its container, and ends with a
  comma.
- Records are written in parentheses with bare field names, tables in braces with quoted keys.
- Numbers are positional throughout, and whole numbers end in `.0`.
-/

namespace GraphScript.Ron

def layout : Layout := { pointZero := true, signedNaN := true }

def quote (s : String) : String := Quoted.quote .both s

def line (level : Nat) : String := "\n" ++ String.ofList (List.replicate (4 * level) ' ')

mutual

/-- Write a tree that stands on the given level. -/
def prettyAt (level : Nat) : Tree → String
  | .list [] => "[]"
  | .list items => "[" ++ prettyItems (level + 1) items ++ line level ++ "]"
  | .record [] => "()"
  | .record fields => "(" ++ prettyFields (level + 1) fields ++ line level ++ ")"
  | .table [] => "\x7b\x7d"
  | .table entries => "\x7b" ++ prettyEntries (level + 1) entries ++ line level ++ "\x7d"
  | .flag b => toString b
  | .natural n => toString n
  | .number x => layout.signedText x
  | .single x => layout.signed32Text x
  | .text s => quote s
  | .choice name => name

def prettyItems (level : Nat) : List Tree → String
  | [] => ""
  | t :: ts => line level ++ prettyAt level t ++ "," ++ prettyItems level ts

def prettyFields (level : Nat) : List (String × Tree) → String
  | [] => ""
  | (k, t) :: fs => line level ++ k ++ ": " ++ prettyAt level t ++ "," ++ prettyFields level fs

def prettyEntries (level : Nat) : List (String × Tree) → String
  | [] => ""
  | (k, t) :: es =>
    line level ++ quote k ++ ": " ++ prettyAt level t ++ "," ++ prettyEntries level es

end

def pretty (t : Tree) : String := prettyAt 0 t

end GraphScript.Ron
