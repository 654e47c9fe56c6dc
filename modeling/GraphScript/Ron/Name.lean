import GraphScript.Text.Identifier

/-!
# Ron.Name — names in RON text

- A plain name is an identifier. Behind the mark `r#` a name may hold points, plus and minus signs
  too, and start with any of its characters.
- `name?` reads a name from the front of a text, `wholeName?` one that no such sign follows.
- `ticked` shows a name in messages, with its mark where it needs one.
-/

namespace GraphScript.Ron

/-- Characters of marked names. -/
def isWordChar (c : Char) : Bool := isIdentifierTail c || c = '.' || c = '+' || c = '-'

/-- Split off the longest front part of which all characters are of one kind. -/
def spanChars (kind : Char → Bool) (cs : List Char) : List Char × List Char :=
  (cs.takeWhile kind, cs.dropWhile kind)

/-- Does quoted content start here, whose mark would else be a name? -/
def startsQuoted : List Char → Bool
  | 'b' :: '"' :: _ => true
  | 'b' :: '\x27' :: _ => true
  | 'b' :: 'r' :: '"' :: _ => true
  | 'b' :: 'r' :: '#' :: _ => true
  | 'r' :: '"' :: _ => true
  | 'r' :: '#' :: '"' :: _ => true
  | 'r' :: '#' :: '#' :: _ => true
  | _ => false

def name? (cs : List Char) : Option (String × List Char) :=
  if startsQuoted cs then none
  else
    match cs with
    | 'r' :: '#' :: cs =>
      let (word, rest) := spanChars isWordChar cs
      if word.isEmpty then none else some (String.ofList word, rest)
    | c :: cs =>
      if isIdentifierHead c then
        let (word, rest) := spanChars isIdentifierTail cs
        some (String.ofList (c :: word), rest)
      else none
    | [] => none

/-- Read a name that ends where a word ends. -/
def wholeName? (cs : List Char) : Option (String × List Char) :=
  (name? cs).filter fun (_, rest) => !rest.head?.any isWordChar

def isPlainName (s : String) : Bool :=
  match s.toList with
  | [] => false
  | c :: cs => isIdentifierHead c && cs.all isIdentifierTail

def ticked (s : String) : String := (if isPlainName s then "`" else "`r#") ++ s ++ "`"

end GraphScript.Ron
