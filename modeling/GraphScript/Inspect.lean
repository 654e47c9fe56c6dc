import GraphScript.Catalogue
import GraphScript.Text.Quoted

/-!
# Inspect — what a developer sees of the library's data

- `Value.inspect`, `Port.inspect`, `Slot.inspect`, `World.inspect` and `Definition.inspect` show a
  datum with the names of its parts. Parts that cannot be shown are hinted at by two dots.
- `Inspect.record`, `wrapped`, `list` and `table` hold the brackets.
-/

namespace GraphScript

/-! ## Brackets -/

namespace Inspect

def row (texts : List String) : String := String.intercalate ", " texts

/-- A named group of named parts. -/
def record (name : String) (parts : List (String × String)) : String :=
  name ++ " \x7b " ++ row (parts.map fun (part, text) => part ++ ": " ++ text) ++ " \x7d"

/-- A named group of which more is known than shown. -/
def openRecord (name : String) (parts : List (String × String)) : String :=
  let texts := parts.map fun (part, text) => part ++ ": " ++ text
  name ++ " \x7b " ++ row (texts ++ [".."]) ++ " \x7d"

/-- A named group of one part that has no name. -/
def wrapped (name text : String) : String := name ++ "(" ++ text ++ ")"

def list (texts : List String) : String := "[" ++ row texts ++ "]"

def table (entries : List (String × String)) : String :=
  "\x7b" ++ row (entries.map fun (key, text) => key ++ ": " ++ text) ++ "\x7d"

def optional : Option String → String
  | some text => wrapped "Some" text
  | none => "None"

def number (x : Float) : String := Layout.inspected.floatText x

end Inspect

/-! ## Values and ports -/

def EntityId.inspect (id : EntityId) : String := Inspect.wrapped "EntityId" (Quoted.inspect id)

def Value.inspect : Value → String
  | bool b => Inspect.wrapped "Bool" (toString b)
  | number x => Inspect.wrapped "Number" (Inspect.number x.float)
  | text s => Inspect.wrapped "Text" (Quoted.inspect s)
  | entity id => Inspect.wrapped "Entity" id.inspect

def PortType.inspect (t : PortType) : String := t.name.capitalize

def Port.inspect (p : Port) : String :=
  Inspect.record "Port"
    [("id", Inspect.wrapped "PortId" (Quoted.inspect p.id)), ("name", Quoted.inspect p.name),
     ("port_type", p.type.inspect),
     ("default_value", Inspect.optional (p.fallback.map Value.inspect))]

/-! ## Kinds, memories and worlds -/

variable {σ : Type}

/-- A kind of node; what it does cannot be shown. -/
def Definition.inspect (d : Definition σ) : String :=
  Inspect.openRecord "NodeDefinition"
    [("kind", Quoted.inspect d.kind), ("category", d.category.name),
     ("inputs", Inspect.list (d.inputs.map Port.inspect)),
     ("outputs", Inspect.list (d.outputs.map Port.inspect)),
     ("frame_trigger", toString d.frameTrigger), ("side_effects", toString d.sideEffects)]

/-- A slot; its memory is not shown. -/
def Slot.inspect (s : Slot) : String :=
  Inspect.record "NodeState" [("occupied", toString !s.isEmpty)]

/-- A world; its host is not shown. -/
def World.inspect (w : World σ) : String :=
  Inspect.openRecord "RuntimeContext"
    [("entities", Inspect.table (w.entities.entries.map fun (id, handle) =>
        (EntityId.inspect id, Inspect.wrapped "EntityHandle" (toString handle)))),
     ("variables", Inspect.table (w.vars.entries.map fun (name, value) =>
        (Quoted.inspect name, value.inspect))),
     ("time", Inspect.number w.time), ("delta_time", Inspect.number w.delta)]

end GraphScript
