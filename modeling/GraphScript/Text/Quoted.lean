import GraphScript.Text.Visible

/-!
# Quoted — texts between quotation marks

- `inspect` quotes a text for messages: quotation marks, backslashes and line ends are escaped, and
  so is every character that shows nothing of its own, by its code.
- `Marks` tells whether the apostrophe is escaped too.
-/

namespace GraphScript.Quoted

/-- Which quotation marks are escaped. -/
inductive Marks where
  | double
  | both
  deriving DecidableEq, Repr

def hex (n : Nat) : String := String.ofList (Nat.toDigits 16 n)

def escape (marks : Marks) (c : Char) : String :=
  match c with
  | '\x00' => "\\0"
  | '\t' => "\\t"
  | '\r' => "\\r"
  | '\n' => "\\n"
  | '"' => "\\\""
  | '\\' => "\\\\"
  | '\x27' => match marks with
    | .double => "\x27"
    | .both => "\\\x27"
  | c => if isVisible c then c.toString else "\\u\x7b" ++ hex c.toNat ++ "\x7d"

def quote (marks : Marks) (text : String) : String :=
  "\"" ++ String.join (text.toList.map (escape marks)) ++ "\""

/-- A text as messages show it. -/
def inspect (text : String) : String := quote .double text

end GraphScript.Quoted
