import GraphScript.Ron.Any

/-!
# Ron.Format — typed data in RON

- `format` reads typed data in text order, so the first problem of the text is the answer.
- A record has its fields in parentheses, with or without its own name in front.
- `readText` answers with the data or with a `PlacedFault`.
- `message?` gives the wording of faults. A mismatch of type counts as a fault of the text, unless
  a number names a width that does not suit its place.
-/

namespace GraphScript.Ron

namespace Reader

variable {α : Type}

/-! ## Scalars -/

def text : Reader String := part text?

def flag : Reader Bool := part fun cs =>
  let (letters, rest) := spanChars isIdentifierTail cs
  match String.ofList letters with
  | "true" => some (true, rest)
  | "false" => some (false, rest)
  | _ => none

/-- A number whose width has to suit its place, if it names one. -/
def number {β : Type} (split : List Char → Option (β × List Char)) (expected : String)
    (suits : β → Bool) (denote : β → Option α) : Reader α := do
  let (b, number) ← written (part split)
  if suits b then
    match denote b with
    | some a => pure a
    | none => malformed
  else fail (.otherWidth number expected)

def natural : Reader Nat :=
  number whole? "an 64-bit unsigned integer" Whole.isNatural Whole.natural?

def float : Reader Float :=
  number real? "a 64-bit floating point number" (·.width ≠ some .narrow)
    fun r => some r.numeral.toFloat

def float32 : Reader (Signed Float32) :=
  number real? "a 32-bit floating point number" (·.width ≠ some .wide)
    fun r => some (r.numeral.signed Numeral.toFloat32)

/-- A value of any kind that values have. All of it is read before its kind is looked at. -/
def value : Reader Value := do
  match ← any with
  | some v => pure v
  | none => fail (.noVariant "Value")

/-! ## Choices -/

def choice (c : Choice α) : Reader α := do
  gap
  let name ← deeper (part wholeName?)
  match c.find name with
  | .ok a => pure a
  | .error fault => fail fault

def optional (r : Reader α) : Reader (Option α) := do
  let (letters, behind) := spanChars isIdentifierTail (← get)
  match String.ofList letters with
  | "None" => set behind; pure none
  | w =>
    if w = "Some" then
      set behind
      gap
    if w = "Some" ∧ (← isNext '(') then
      word ['(']
      gap
      let a ← deeper r
      let _ ← comma
      word [')']
      pure (some a)
    else if ← extended .implicitSome then return some (← deeper r)
    else malformed

/-! ## Containers -/

def list (r : Reader α) : Reader (List α) := do
  word ['[']
  deeper (items ']' [] fun as => return as ++ [← deeper r])

/-- A map with quoted keys; the last of equal keys wins and keeps the first place. -/
def table (r : Reader α) : Reader (Table String α) := do
  word ['\x7b']
  deeper (items '\x7d' ∅ fun table => do
    let key ← deeper text
    colon
    return table.insert key (← deeper r))

/-! ## Records -/

/-- Pass over the name of a record, which may be left out if no extension asks for it. -/
def recordName (name : String) : Reader Unit := do
  if (← get).head?.any isIdentifierTail then
    let found ← part wholeName?
    if found = name then gap else malformed
  else if ← extended .explicitStructNames then malformed
  else gap

/-- Read one field. Unknown fields are passed over. -/
def field {π : Type} (r : Record Reader π α) (parts : π) : Reader π := do
  let key ← deeper (part wholeName?)
  match r.fields.find? (·.name = key) with
  | some field =>
    if field.isSet parts then fail (.duplicateField key r.name)
    else
      colon
      return (← deeper field.read) parts
  | none =>
    colon
    let _ ← deeper any
    pure parts

def record {π : Type} (r : Record Reader π α) : Reader α := do
  recordName r.name
  word ['(']
  let parts ← deeper (itemsBefore ')' r.start (field r))
  match r.finish parts with
  | .ok a =>
    word [')']
    pure a
  | .error field => fail (.missingField field r.name)

end Reader

def format : Format Reader where
  text := Reader.text
  path := Reader.text
  flag := Reader.flag
  number := Reader.float
  single := Reader.float32
  natural := fun _ => Reader.natural
  value := Reader.value
  choice := Reader.choice
  optional := Reader.optional
  list := Reader.list
  table := Reader.table
  record := Reader.record

/-! ## Whole texts -/

/-- The number of nested places that a text may have. -/
def maxRoom : Nat := 128

/-- A fault and the place where it was met. -/
structure PlacedFault where
  fault : Fault
  place : TextPlace
  deriving DecidableEq

/-- The place where a reader stopped in a text. -/
def Stop.placed (s : Stop) (text : List Char) : PlacedFault where
  fault := s.fault
  place := .behind (text.take (text.length - s.rest.length))

def readText {α : Type} (r : Reader α) (text : String) : Except PlacedFault α :=
  match r.document ⟨maxRoom, []⟩ text.toList with
  | .ok (a, _) => .ok a
  | .error s => .error (s.placed text.toList)

/-! ## Wording -/

def choicesText : List String → String
  | [] => "there are no variants"
  | [a] => "expected " ++ ticked a ++ " instead"
  | [a, b] => "expected either " ++ ticked a ++ " or " ++ ticked b ++ " instead"
  | names =>
    "expected one of " ++ String.intercalate ", " (names.dropLast.map ticked) ++ ", or "
      ++ ticked (names.getLastD "") ++ " instead"

/-- The message for a fault; none for faults of the text. -/
def message? : Fault → Option String
  | .missingField field record =>
    some ("Unexpected missing field named " ++ ticked field ++ " in " ++ ticked record)
  | .duplicateField field record =>
    some ("Unexpected duplicate field named " ++ ticked field ++ " in " ++ ticked record)
  | .unknownChoice found kind choices =>
    some ("Unexpected variant named " ++ ticked found ++ " in enum " ++ ticked kind ++ ", "
      ++ choicesText choices)
  | .noVariant kind => some ("data did not match any variant of untagged enum " ++ kind)
  | .otherWidth number expected =>
    some ("Expected " ++ expected ++ " but found " ++ number ++ " instead")
  | _ => none

end GraphScript.Ron
