import GraphScript.Number.Signed
import GraphScript.Port
import GraphScript.Text.Blank

/-!
# Value — what ports, properties and variables carry

- A `Value` is a truth value, a number, a text or the id of an entity.
- Views (`asNumber?`, `asText?`, `asEntity?`, `isTruthy`) say how a value is read where another type
  is expected.
- `looseEq` and `looseCompare` compare through these views; `identical` does not.
-/

namespace GraphScript

/-- The name under which the world knows an entity. -/
abbrev EntityId := String

/-- A value that flows through a graph. -/
inductive Value where
  | bool (b : Bool)
  | number (x : Signed Float)
  | text (s : String)
  | entity (id : EntityId)
  deriving DecidableEq

/-- The order of two numbers; none where one of them is not a number. -/
def compareNumbers (x y : Float) : Option Ordering :=
  if x < y then some .lt else if x == y then some .eq else if y < x then some .gt else none

namespace Value

/-- Zero is the value of whatever was never set. -/
instance : Inhabited Value := ⟨number (.plain 0)⟩

def portType : Value → PortType
  | bool _ => .boolean
  | number _ => .number
  | text _ => .string
  | entity _ => .entity

/-! ## Views -/

/-- Zero, not-a-number and the empty text count as false. -/
def isTruthy : Value → Bool
  | bool b => b
  | number x => !(x.float == 0) && !x.float.isNaN
  | text s => !s.isEmpty
  | entity id => !id.isEmpty

/-- Truth values count as one and zero, and texts as the number they spell. -/
def asNumber? : Value → Option Float
  | number x => some x.float
  | bool b => some (if b then 1 else 0)
  | text s => (Numeral.parse? (trim s)).map Numeral.toFloat
  | entity _ => none

/-- Texts, and the ids of entities. -/
def asText? : Value → Option String
  | text s => some s
  | entity id => some id
  | _ => none

/-- Entities, and texts that may be ids. -/
def asEntity? : Value → Option EntityId
  | entity id => some id
  | text s => if s.isEmpty then none else some s
  | _ => none

def asFilledText? (v : Value) : Option String := v.asText?.filter (!·.isEmpty)

/-! ## Comparison -/

/-- Two texts are compared as texts, all else as numbers. -/
def looseEq (a b : Value) : Bool :=
  match a.asText?, b.asText? with
  | some s, some t => s = t
  | _, _ =>
    match a.asNumber?, b.asNumber? with
    | some x, some y => x == y
    | _, _ => false

/-- Texts are ordered by their characters, all else as numbers; entities have no order. -/
def looseCompare (a b : Value) : Option Ordering :=
  match a, b with
  | text s, text t => some (compare s t)
  | a, b => do
    let x ← a.asNumber?
    let y ← b.asNumber?
    compareNumbers x y

/-- The same kind of value with the same content; numbers are compared as numbers. -/
def identical : Value → Value → Bool
  | bool a, bool b => a = b
  | number x, number y => x.float == y.float
  | text s, text t => s = t
  | entity s, entity t => s = t
  | _, _ => false

/-! ## Written form -/

def display : Value → String
  | bool b => toString b
  | number x => Layout.plain.floatText x.float
  | text s => s
  | entity id => "#" ++ id

end Value

end GraphScript
