import GraphScript.Format
import GraphScript.Ron.Gap
import GraphScript.Ron.Name
import GraphScript.Text.Place

/-!
# Ron.Reader — readers that walk through a RON text

- A `Reader` takes what it reads off the front of the text. It stops at the first problem, so the
  first problem of the text is the answer, together with its place.
- A `Scope` says how many nested places may still be entered, and which extensions hold.
- `items` reads what stands between the marks of a container, and `document` a whole text.
-/

namespace GraphScript.Ron

/-! ## Extensions -/

/-- Changes of the notation that a header may enable. -/
inductive Extension where
  /-- Wrappers need no parentheses; no record here is one. -/
  | unwrapNewtypes
  /-- What may be missing needs no parentheses around it. -/
  | implicitSome
  /-- What may be missing can be a record or tuple without parentheses of its own. -/
  | unwrapVariantNewtypes
  /-- Records have to carry their names. -/
  | explicitStructNames
  deriving DecidableEq

def Extension.name : Extension → String
  | unwrapNewtypes => "unwrap_newtypes"
  | implicitSome => "implicit_some"
  | unwrapVariantNewtypes => "unwrap_variant_newtypes"
  | explicitStructNames => "explicit_struct_names"

def Extension.all : List Extension :=
  [unwrapNewtypes, implicitSome, unwrapVariantNewtypes, explicitStructNames]

/-! ## Readers -/

/-- What holds at a place of the text. -/
structure Scope where
  /-- The number of nested places that may be entered. -/
  room : Nat
  extensions : List Extension := []

/-- A fault and what was left of the text when it was met. -/
structure Stop where
  fault : Fault
  rest : List Char

/-- What reads an `α` off the front of a text. -/
abbrev Reader := ReaderT Scope (StateT (List Char) (Except Stop))

namespace Reader

variable {α : Type}

def fail (fault : Fault) : Reader α := do throw ⟨fault, ← get⟩

def malformed : Reader α := fail .malformed

/-- Take a part off the front of the text. -/
def part (split : List Char → Option (α × List Char)) : Reader α := do
  match split (← get) with
  | some (a, cs) => set cs; pure a
  | none => malformed

def gap : Reader Unit := part fun cs => (skipGap cs).map ((), ·)

/-- Pass over a word that has to stand here. -/
def word (w : List Char) : Reader Unit :=
  part fun cs => if w.isPrefixOf cs then some ((), cs.drop w.length) else none

/-- The part that a reader takes off the front of the text, as it is written. -/
def written (r : Reader α) : Reader (α × String) := do
  let cs ← get
  let a ← r
  return (a, String.ofList (cs.take (cs.length - (← get).length)))

def isNext (c : Char) : Reader Bool := return (← get).head? = some c

/-- Pass over a comma with the gaps around it, if there is one. -/
def comma : Reader Bool := do
  gap
  if ← isNext ',' then
    word [',']
    gap
    pure true
  else pure false

def colon : Reader Unit := do
  gap
  word [':']
  gap

def extended (x : Extension) : Reader Bool := return (← read).extensions.contains x

def deeper (r : Reader α) : Reader α := do
  match (← read).room with
  | 0 => malformed
  | room + 1 => withReader (fun s => { s with room }) r

/-! ## Containers -/

/-- Read at most `fuel` items, with commas between them and perhaps behind the last one, up to the
closing mark. Each item changes what was collected; `free` says whether an item may stand here. -/
def itemsWithin (close : Char) (item : α → Reader α) : (fuel : Nat) → (free : Bool) → α → Reader α
  | 0, _, _ => malformed
  | fuel + 1, free, a => do
    gap
    if ← isNext close then pure a
    else if free then
      let a ← item a
      itemsWithin close item fuel (← comma) a
    else malformed

/-- Read items up to the closing mark. An item is a character long at least. -/
def itemsBefore (close : Char) (start : α) (item : α → Reader α) : Reader α := do
  itemsWithin close item ((← get).length + 1) true start

def items (close : Char) (start : α) (item : α → Reader α) : Reader α := do
  let a ← itemsBefore close start item
  word [close]
  pure a

/-! ## Whole texts -/

def extension : Reader Extension := do
  let name ← part wholeName?
  match Extension.all.find? (·.name = name) with
  | some x => pure x
  | none => malformed

def words : List String → Reader Unit
  | [] => pure ()
  | w :: ws => do
    word w.toList
    gap
    words ws

/-- The extensions of a header, which names one at least. -/
def header : Reader (List Extension) := do
  words ["#", "!", "[", "enable", "("]
  let xs ← itemsBefore ')' [] fun xs => return xs ++ [← extension]
  words [")", "]"]
  if xs.isEmpty then malformed else pure xs

def headers : (fuel : Nat) → Reader (List Extension)
  | 0 => pure []
  | fuel + 1 => do
    if ← isNext '#' then return (← header) ++ (← headers fuel) else pure []

/-- Read a whole text: headers and what `r` reads. -/
def document (r : Reader α) : Reader α := do
  gap
  let extensions ← headers (← get).length
  let a ← withReader (fun s => { s with extensions }) r
  gap
  if (← get).isEmpty then pure a else malformed

end Reader

end GraphScript.Ron
