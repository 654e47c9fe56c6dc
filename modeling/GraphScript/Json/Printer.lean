import GraphScript.Tree

/-!
# Json.Printer — data as JSON text

- `quote` writes a text: quotation marks, backslashes and control characters are escaped.
- `compact` writes no blanks; `pretty` puts every item on a line of its own, two spaces deeper than
  its container.
- Numbers are written in `wide` and `narrow` layout, by their width; what is not finite is `null`.
-/

namespace GraphScript.Json

/-! ## Scalars -/

/-- 64-bit numbers: positional from `1e-5` to below `1e16`. -/
def wide : Layout where
  positional := some (-5, 16)
  pointZero := true
  plusSign := true
  tie := .even
  infinite := "null"
  notANumber := "null"
  signedInfinity := false

/-- 32-bit numbers: positional from `1e-6` to below `1e13`. -/
def narrow : Layout := { wide with positional := some (-6, 13) }

def hexByte (n : Nat) : String :=
  String.ofList [Nat.digitChar (n / 16), Nat.digitChar (n % 16)]

def escape (c : Char) : String :=
  match c with
  | '"' => "\\\""
  | '\\' => "\\\\"
  | '\x08' => "\\b"
  | '\x0c' => "\\f"
  | '\n' => "\\n"
  | '\r' => "\\r"
  | '\t' => "\\t"
  | c => if c.toNat < 32 then "\\u00" ++ hexByte c.toNat else c.toString

def quote (s : String) : String := "\"" ++ String.join (s.toList.map escape) ++ "\""

/-! ## Without blanks -/

mutual

def compact : Tree → String
  | .flag b => toString b
  | .natural n => toString n
  | .number x => wide.signedText x
  | .single x => narrow.signed32Text x
  | .text s => quote s
  | .choice name => quote name
  | .list items => "[" ++ compactItems items ++ "]"
  | .record fields => "\x7b" ++ compactFields fields ++ "\x7d"
  | .table entries => "\x7b" ++ compactFields entries ++ "\x7d"

def compactItems : List Tree → String
  | [] => ""
  | [t] => compact t
  | t :: ts => compact t ++ "," ++ compactItems ts

def compactFields : List (String × Tree) → String
  | [] => ""
  | [(k, t)] => quote k ++ ":" ++ compact t
  | (k, t) :: fs => quote k ++ ":" ++ compact t ++ "," ++ compactFields fs

end

/-! ## One item a line -/

def line (level : Nat) : String := "\n" ++ String.ofList (List.replicate (2 * level) ' ')

mutual

/-- Write a tree that stands on the given level. -/
def prettyAt (level : Nat) : Tree → String
  | .list [] => "[]"
  | .list items => "[" ++ prettyItems (level + 1) items ++ line level ++ "]"
  | .record [] => "\x7b\x7d"
  | .record fields => "\x7b" ++ prettyFields (level + 1) fields ++ line level ++ "\x7d"
  | .table [] => "\x7b\x7d"
  | .table entries => "\x7b" ++ prettyFields (level + 1) entries ++ line level ++ "\x7d"
  | .flag b => toString b
  | .natural n => toString n
  | .number x => wide.signedText x
  | .single x => narrow.signed32Text x
  | .text s => quote s
  | .choice name => quote name

def prettyItems (level : Nat) : List Tree → String
  | [] => ""
  | [t] => line level ++ prettyAt level t
  | t :: ts => line level ++ prettyAt level t ++ "," ++ prettyItems level ts

def prettyFields (level : Nat) : List (String × Tree) → String
  | [] => ""
  | [(k, t)] => line level ++ quote k ++ ": " ++ prettyAt level t
  | (k, t) :: fs =>
    line level ++ quote k ++ ": " ++ prettyAt level t ++ "," ++ prettyFields level fs

end

/-- Write a document, one item a line. -/
def pretty (t : Tree) : String := prettyAt 0 t

end GraphScript.Json
