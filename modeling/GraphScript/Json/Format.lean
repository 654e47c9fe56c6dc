import GraphScript.Format
import GraphScript.Json.Draft
import GraphScript.Json.Printer
import GraphScript.Text.Quoted

/-!
# Json.Format — typed data in JSON

- `format` reads typed data from a draft in text order, so the first problem of the text is the
  answer. Inside a sorted document the same rules apply, but no fault of the text can be met and
  some mistakes have words of their own.
- A record may be an object or an array of its fields in their order.
- `message?` gives the wording of all faults but those of the text itself.
-/

namespace GraphScript.Json

/-- Which drafts are read: those of a text, or sorted documents. -/
inductive Source where
  | text
  | document
  deriving DecidableEq

/-- A place in a draft, with room for so many containers inside each other. -/
structure Place where
  draft : Draft
  room : Nat := Draft.maxDepth

abbrev Reader := ReaderT Place (Except Fault)

namespace Place

/-- The kind of the draft, in the place of something else. -/
def found (p : Place) : Result Found :=
  match p.draft with
  | .null => .ok .null
  | .bool b => .ok (.bool b)
  | .number (some (.natural n)) => .ok (.integer n)
  | .number (some (.negative n)) => .ok (.integer (-n))
  | .number (some (.float x)) => .ok (.float x)
  | .text (some s) => .ok (.text s)
  | .array _ _ => .ok .sequence
  | .object _ _ => .ok .map
  | _ => .error .malformed

/-- The draft does not fit; a fault inside it comes first. -/
def mismatch {α : Type} (p : Place) (expected : String) : Result α := do
  let found ← p.found
  .error (.invalidType found expected)

def enter (p : Place) : Result (Draft → Place) :=
  match p.room with
  | 0 => .error .malformed
  | room + 1 => .ok (⟨·, room⟩)

end Place

/-- A container that has to be closed where its content ends. -/
def closing (closed : Bool) : Result Unit := if closed then .ok () else .error .malformed

/-! ## Scalars -/

def textOf (expected : String) (p : Place) : Result String :=
  match p.draft with
  | .text (some s) => .ok s
  | _ => p.mismatch expected

def flagOf (p : Place) : Result Bool :=
  match p.draft with
  | .bool b => .ok b
  | _ => p.mismatch "a boolean"

def numberOf {α : Type} (convert : Number → α) (expected : String) (p : Place) : Result α :=
  match p.draft with
  | .number (some n) => .ok (convert n)
  | _ => p.mismatch expected

def naturalOf (expected : String) (p : Place) : Result Nat :=
  match p.draft with
  | .number (some (.natural n)) => .ok n
  | .number (some (.negative n)) => .error (.invalidValue (.integer (-n)) expected)
  | _ => p.mismatch expected

/-- A value of any kind that values have. The whole draft is looked at first. -/
def valueOf (p : Place) : Result Value :=
  if p.draft.isSound p.room then
    match p.draft with
    | .bool b => .ok (.bool b)
    | .number (some n) => .ok (.number (.plain n.toFloat))
    | .text (some s) => .ok (.text s)
    | _ => .error (.noVariant "Value")
  else .error .malformed

def optionalOf {α : Type} (read : Reader α) (p : Place) : Result (Option α) :=
  match p.draft with
  | .null => .ok none
  | _ => (read p).map some

/-! ## Choices -/

/-- The content that goes with a chosen name: none. -/
def unitOf (p : Place) : Result Unit :=
  match p.draft with
  | .null => .ok ()
  | _ => p.mismatch "unit"

/-- A name, or an object with the name as its only key. -/
def choiceOf {α : Type} (source : Source) (c : Choice α) (p : Place) : Result α :=
  match p.draft, source with
  | .text (some s), _ => c.find s
  | .object entries closed, .text => do
    let inside ← p.enter
    match entries with
    | (.text (some name), d) :: rest =>
      let a ← c.find name
      unitOf (inside d)
      closing (closed && rest.isEmpty)
      pure a
    | _ => .error .malformed
  | .object [(.text (some s), d)] _, .document => do
    let a ← c.find s
    unitOf ⟨d, p.room⟩
    pure a
  | .object _ _, .document => .error (.invalidValue .map "map with a single key")
  | _, .text => .error .malformed
  | _, .document => p.mismatch "string or map"

/-! ## Containers -/

def listOf {α : Type} (read : Reader α) (p : Place) : Result (List α) :=
  match p.draft with
  | .array items closed => do
    let inside ← p.enter
    let as ← items.mapM fun d => read (inside d)
    closing closed
    pure as
  | _ => p.mismatch "a sequence"

/-- An object with arbitrary keys; the last of equal keys wins and keeps the first place. -/
def tableOf {α : Type} (read : Reader α) (p : Place) : Result (Table String α) :=
  match p.draft with
  | .object entries closed => do
    let inside ← p.enter
    let table ← entries.foldlM (fun table (k, d) => do
      match k with
      | .text (some key) => do
        let a ← read (inside d)
        pure (table.insert key a)
      | _ => .error .malformed) (∅ : Table String α)
    closing closed
    pure table
  | _ => p.mismatch "a map"

/-! ## Records -/

/-- Read one field of an object. Unknown fields are passed over. -/
def readField {π α : Type} (r : Record Reader π α) (inside : Draft → Place) (parts : π)
    (entry : Draft × Draft) : Result π :=
  match entry.1 with
  | .text (some key) =>
    match r.fields.find? (·.name = key) with
    | some field =>
      if field.isSet parts then .error (.duplicateField key r.name)
      else (field.read (inside entry.2)).map (· parts)
    | none => if entry.2.isPassable then .ok parts else .error .malformed
  | _ => .error .malformed

/-- Read the items of an array as the fields of a record; the answer holds what is left of them. -/
def readItems {π : Type} (inside : Draft → Place) (parts : π) :
    List (Field Reader π) → List Draft → Result (π × List Draft)
  | field :: fields, d :: ds => do
    let add ← field.read (inside d)
    readItems inside (add parts) fields ds
  | _, ds => .ok (parts, ds)

def arity (name : String) (fields : Nat) : String :=
  "struct " ++ name ++ " with " ++ toString fields
    ++ (if fields = 1 then " element" else " elements")

def recordOf {π α : Type} (source : Source) (r : Record Reader π α) (p : Place) : Result α :=
  match p.draft with
  | .object entries closed => do
    let inside ← p.enter
    let parts ← entries.foldlM (readField r inside) r.start
    closing closed
    match r.finish parts with
    | .ok a => pure a
    | .error field => .error (.missingField field r.name)
  | .array items closed => do
    let inside ← p.enter
    let (parts, left) ← readItems inside r.start r.fields items
    if left.isEmpty then
      closing closed
      match r.finish parts with
      | .ok a => pure a
      | .error field =>
        .error (.invalidLength ((r.fields.map (·.name)).idxOf field) (arity r.name r.fields.length))
    else
      match source with
      | .text => .error .malformed
      | .document => .error (.invalidLength items.length "fewer elements in array")
  | _ => p.mismatch ("struct " ++ r.name)

def format (source : Source) : Format Reader where
  text := textOf "a string"
  path := textOf "path string"
  flag := flagOf
  number := numberOf Number.toFloat "f64"
  single := numberOf (.plain ·.toFloat32) "f32"
  natural := naturalOf
  value := valueOf
  choice := choiceOf source
  optional := optionalOf
  list := listOf
  table := tableOf
  record := recordOf source

/-! ## Whole texts -/

def readText {α : Type} (read : Reader α) (text : String) : Result α := do
  let (d, complete) := Draft.parse text
  let a ← read ⟨d, Draft.maxDepth⟩
  closing complete
  pure a

/-- The sorted document that a text denotes. -/
def document (text : String) : Result Draft :=
  match Draft.parse text with
  | (d, true) => (d.sorted? Draft.maxDepth).elim (.error .malformed) .ok
  | (_, false) => .error .malformed

/-! ## Wording -/

def foundText : Found → String
  | .null => "null"
  | .bool b => "boolean `" ++ toString b ++ "`"
  | .integer n => "integer `" ++ toString n ++ "`"
  | .float x => "floating point `" ++ wide.floatText x ++ "`"
  | .text s => "string " ++ Quoted.inspect s
  | .sequence => "sequence"
  | .map => "map"

def ticked (s : String) : String := "`" ++ s ++ "`"

def choicesText : List String → String
  | [] => "there are no variants"
  | [a] => "expected " ++ ticked a
  | [a, b] => "expected " ++ ticked a ++ " or " ++ ticked b
  | names => "expected one of " ++ String.intercalate ", " (names.map ticked)

/-- The message for a fault; none for faults of the text. Numbers name no width here. -/
def message? : Fault → Option String
  | .malformed | .otherWidth .. => none
  | .invalidType found expected =>
    some ("invalid type: " ++ foundText found ++ ", expected " ++ expected)
  | .invalidValue found expected =>
    some ("invalid value: " ++ foundText found ++ ", expected " ++ expected)
  | .invalidLength n expected =>
    some ("invalid length " ++ toString n ++ ", expected " ++ expected)
  | .missingField field _ => some ("missing field " ++ ticked field)
  | .duplicateField field _ => some ("duplicate field " ++ ticked field)
  | .unknownChoice found _ choices =>
    some ("unknown variant " ++ ticked found ++ ", " ++ choicesText choices)
  | .noVariant kind => some ("data did not match any variant of untagged enum " ++ kind)

end GraphScript.Json
