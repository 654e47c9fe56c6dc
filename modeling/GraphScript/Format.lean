import GraphScript.Table
import GraphScript.Value

/-!
# Format — reading typed data, whatever the notation

- A `Format` gives the readers of each kind of data in one notation. Shapes of files are written
  once, over an arbitrary format.
- `Record` describes data with named fields: which fields there are, how their contents are
  collected, and what is made of them in the end.
- `Fault` lists the causes for which reading fails.
-/

namespace GraphScript

/-! ## Faults -/

/-- What was found in the place of something else. -/
inductive Found where
  | null
  | bool (b : Bool)
  | integer (n : Int)
  | float (x : Float)
  | text (s : String)
  | sequence
  | map
  deriving DecidableEq

/-- Why data cannot be read. -/
inductive Fault where
  /-- The text does not follow its notation, or not at a place that matters. -/
  | malformed
  | invalidType (found : Found) (expected : String)
  | invalidValue (found : Found) (expected : String)
  | invalidLength (length : Nat) (expected : String)
  | missingField (field record : String)
  | duplicateField (field record : String)
  | unknownChoice (found kind : String) (choices : List String)
  /-- The data is of none of the kinds that a value may have. -/
  | noVariant (kind : String)
  /-- A number, as it is written, names a width that its place does not have. -/
  | otherWidth (number expected : String)
  deriving DecidableEq

abbrev Result (α : Type) := Except Fault α

/-! ## Shapes -/

/-- One of a fixed set of names. -/
structure Choice (α : Type) where
  kind : String
  options : List (String × α)

def Choice.names {α : Type} (c : Choice α) : List String := c.options.map Prod.fst

def Choice.find {α : Type} (c : Choice α) (name : String) : Result α :=
  match c.options.find? (·.1 = name) with
  | some (_, a) => .ok a
  | none => .error (.unknownChoice name c.kind c.names)

/-- A field of a record: what is read adds its content to a collection of type `π`. -/
structure Field (R : Type → Type) (π : Type) where
  name : String
  /-- Was the field read before? -/
  isSet : π → Bool
  read : R (π → π)

/-- A record: its fields are collected in a `π`, of which `finish` makes the data. It answers with
the name of the first field that is missing and has no default. -/
structure Record (R : Type → Type) (π α : Type) where
  name : String
  fields : List (Field R π)
  start : π
  finish : π → Except String α

/-- A field of the collection that has to be there. -/
def require {α : Type} (name : String) : Option α → Except String α
  | some a => .ok a
  | none => .error name

/-- The readers of one notation, where `R α` reads an `α`. -/
structure Format (R : Type → Type) where
  text : R String
  /-- The path of a file. -/
  path : R String
  flag : R Bool
  number : R Float
  single : R (Signed Float32)
  /-- A natural number of 64 bits; messages call it by the given name. -/
  natural : String → R Nat
  value : R Value
  choice : {α : Type} → Choice α → R α
  optional : {α : Type} → R α → R (Option α)
  list : {α : Type} → R α → R (List α)
  table : {α : Type} → R α → R (Table String α)
  record : {π α : Type} → Record R π α → R α

end GraphScript
