import GraphScript.Ron.Number
import GraphScript.Ron.Reader

/-!
# Ron.Any — what may stand where any value may

- `Reader.any` passes over whatever the notation allows. It answers with the value, where what it
  read is of one of the kinds that values have.
- Each container takes one nested place and each item in it another; what may be missing takes one.
- Parentheses hold named fields where a name and a colon come first, and items otherwise.
-/

namespace GraphScript.Ron

/-! ## Looking ahead -/

def startsField (cs : List Char) : Bool :=
  let behind := do
    let cs ← skipGap cs
    let (_, cs) ← name? cs
    skipGap cs
  behind.any (·.head? = some ':')

/-- The text behind a part, or the whole of it where there is no such part. -/
def past {α : Type} (split : List Char → Option (α × List Char)) (cs : List Char) : List Char :=
  ((split cs).map Prod.snd).getD cs

/-- Does an item follow the first one, before the closing parenthesis? Quoted content and what
stands in brackets, of which `level` are open, are stepped over; none where the text or quoted
content has no end. -/
def itemFollows? : (fuel level : Nat) → List Char → Option Bool
  | 0, _, _ => none
  | fuel + 1, level, cs => do
    let cs := past char? (← skipGap cs)
    let behindText := past text? cs
    match isOpenText cs || isOpenBytes behindText, past bytes? behindText with
    | true, _ => none
    | false, [] => none
    | false, c :: cs =>
      if c = '(' ∨ c = '[' ∨ c = '\x7b' then itemFollows? fuel (level + 1) cs
      else if c = ')' ∨ c = ']' ∨ c = '\x7d' then
        match level with
        | 0 => some false
        | level + 1 => itemFollows? fuel level cs
      else if c = ',' ∧ level = 0 then do
        let cs ← skipGap cs
        some (cs.head? ≠ some ')')
      else itemFollows? fuel level cs

def severalItems? (cs : List Char) : Option Bool := do
  let cs ← skipGap cs
  itemFollows? (cs.length + 1) 0 (past name? cs)

/-! ## Values -/

/-- What was read: a value, or something that no value can be. -/
abbrev Passed := Option Value

def keyword? (word : List Char) : Option Passed :=
  match String.ofList word with
  | "true" => some (some (.bool true))
  | "false" => some (some (.bool false))
  | "None" => some none
  | w =>
    if ["inf", "inff32", "inff64", "NaN", "NaNf32", "NaNf64"].contains w then
      some ((anyNumber? word).map fun (x, _) => .number x)
    else none

/-- The value at the front of a text that is no name and no container. -/
def scalar? (cs : List Char) : Option (Passed × List Char) :=
  match cs with
  | '"' :: _ => (text? cs).map fun (s, cs) => (some (.text s), cs)
  | 'r' :: _ => (text? cs).map fun (s, cs) => (some (.text s), cs)
  | 'b' :: '\x27' :: _ => (anyNumber? cs).map fun (x, cs) => (some (.number x), cs)
  | 'b' :: _ => (bytes? cs).map fun (s, cs) => (s.map .text, cs)
  | '\x27' :: _ => (char? cs).map fun (_, cs) => (none, cs)
  | c :: _ =>
    if c.isDigit ∨ c = '+' ∨ c = '-' ∨ c = '.' then
      (anyNumber? cs).map fun (x, cs) => (some (.number x), cs)
    else none
  | [] => none

namespace Reader

structure Parts where
  /-- Is there room for a container? -/
  mayOpen : Bool
  /-- What may be missing, one nested place deeper; the flag asks for unwrapped content. -/
  content : (unwrapped : Bool) → Reader Passed
  /-- What stands in a container, two nested places deeper. -/
  item : Reader Passed

namespace Parts

variable (p : Parts)

def enter (r : Reader Unit) : Reader Passed := do
  if p.mayOpen then
    r
    pure none
  else malformed

def passItem : Reader Unit := do
  let _ ← p.item

def passField : Reader Unit := do
  let _ ← part wholeName?
  colon
  p.passItem

def passEntry : Reader Unit := do
  p.passItem
  colon
  p.passItem

def parentheses : Reader Passed := p.enter do
  word ['(']
  let part := if startsField (← get) then p.passField else p.passItem
  items ')' () fun _ => part

def list : Reader Passed := p.enter do
  word ['[']
  items ']' () fun _ => p.passItem

def map : Reader Passed := p.enter do
  word ['\x7b']
  items '\x7d' () fun _ => p.passEntry

/-- Pass over what may be missing, behind the word that says that it is there. -/
def present : Reader Passed := do
  gap
  if ← isNext '(' then
    word ['(']
    gap
    let _ ← p.content (← extended .unwrapVariantNewtypes)
    let _ ← comma
    word [')']
    pure none
  else if ← extended .implicitSome then
    let _ ← p.content false
    pure none
  else malformed

def value : Reader Passed := do
  let cs ← get
  let (letters, behind) := spanChars isIdentifierTail cs
  match keyword? letters with
  | some v => set behind; pure v
  | none =>
    if letters = "Some".toList then set behind; p.present
    else if "()".toList.isPrefixOf cs then word "()".toList; pure none
    else
      match name? cs, cs with
      | some (_, behind), _ =>
        set behind
        gap
        if ← isNext '(' then p.parentheses else pure none
      | none, '(' :: _ => p.parentheses
      | none, '[' :: _ => p.list
      | none, '\x7b' :: _ => p.map
      | none, _ => part scalar?

/-- Pass over the unwrapped content of parentheses: a record or tuple without parentheses of its
own, or any value. -/
def unwrapped : Reader Passed := do
  let cs ← get
  if cs.head? = some ')' then pure none
  else if startsField cs then p.enter (itemsBefore ')' () fun _ => p.passField)
  else
    match severalItems? cs with
    | some true => p.enter (itemsBefore ')' () fun _ => p.passItem)
    | some false => p.value
    | none => malformed

def read (unwrapped : Bool) : Reader Passed := if unwrapped then p.unwrapped else p.value

end Parts

/-- Pass over a value or unwrapped content, with room for so many nested places. -/
def anyWithin : (room : Nat) → (unwrapped : Bool) → Reader Passed
  | 0 => Parts.read ⟨false, fun _ => malformed, malformed⟩
  | 1 => Parts.read ⟨true, anyWithin 0, malformed⟩
  | room + 2 => Parts.read ⟨true, anyWithin (room + 1), anyWithin room false⟩

def any : Reader Passed := do anyWithin (← read).room false

end Reader

end GraphScript.Ron
