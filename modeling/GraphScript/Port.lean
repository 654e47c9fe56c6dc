/-!
# Port — the connection points of nodes and what may be linked

- A port carries either control flow or data of one type.
- `PortType.canConnectTo` says which outputs may feed which inputs.
-/

namespace GraphScript

abbrev PortId := String

inductive PortType where
  | control
  | string
  | number
  | boolean
  | entity
  | any
  deriving DecidableEq, Repr, Inhabited

namespace PortType

def all : List PortType := [.control, .string, .number, .boolean, .entity, .any]

def name : PortType → String
  | control => "control"
  | string => "string"
  | number => "number"
  | boolean => "boolean"
  | entity => "entity"
  | any => "any"

def isControl (t : PortType) : Bool := t = control

/-- Control links with control only. Data links with data of the same type, with `any` on either
side, and texts link with entities, whose ids travel as texts. -/
def canConnectTo : (source target : PortType) → Bool
  | control, target => target = control
  | _, control => false
  | any, _ => true
  | _, any => true
  | string, entity => true
  | entity, string => true
  | source, target => source = target

end PortType

end GraphScript
