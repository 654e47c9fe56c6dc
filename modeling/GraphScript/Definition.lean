import GraphScript.Memory
import GraphScript.Note
import GraphScript.World

/-!
# Definition — what a kind of node declares and does

- `Inputs` and `Outputs` carry values by port.
- A `Definition` declares the ports of a kind and says what one run of a node does: `run` takes an
  `Activation` to an `Outcome`.
-/

namespace GraphScript

/-! ## Inputs -/

/-- The values that arrive at the input ports of a node. -/
structure Inputs where
  values : Table PortId Value := ∅

namespace Inputs

instance : Inhabited Inputs := ⟨{}⟩

/-- Let a value arrive; one that arrived before at the same port is replaced. -/
def insert (i : Inputs) (port : PortId) (value : Value) : Inputs := ⟨i.values.insert port value⟩

def get? (i : Inputs) (port : PortId) : Option Value := i.values.get? port

/-- The value at a port, or else the property of that name. -/
def value? (i : Inputs) (port : PortId) (node : Node) : Option Value :=
  (i.get? port).or (node.property? port)

/-- The number at a port, or else in the property of that name. What arrived hides the property,
even if it is no number. -/
def numberOr (i : Inputs) (port : PortId) (node : Node) (fallback : Float) : Float :=
  ((i.value? port node).bind Value.asNumber?).getD fallback

def boolOr (i : Inputs) (port : PortId) (node : Node) (fallback : Bool) : Bool :=
  ((i.value? port node).map Value.isTruthy).getD fallback

/-- The first of input and property that is a text and not empty. -/
def textOr (i : Inputs) (port : PortId) (node : Node) (fallback : String) : String :=
  (((i.get? port).bind Value.asFilledText?).or (node.text? port)).getD fallback

def entity? (i : Inputs) (port : PortId) (node : Node) (property : String) : Option EntityId :=
  ((i.get? port).bind Value.asEntity?).or ((node.property? property).bind Value.asEntity?)

end Inputs

/-! ## Outputs -/

/-- The values that a run leaves at the output ports. -/
structure Outputs where
  values : Table PortId Value := ∅

namespace Outputs

instance : Inhabited Outputs := ⟨{}⟩

def set (o : Outputs) (port : PortId) (value : Value) : Outputs := ⟨o.values.insert port value⟩

/-- Fire a control port and nothing else. -/
def fire (port : PortId) : Outputs := (({} : Outputs).set port (.bool true))

def get? (o : Outputs) (port : PortId) : Option Value := o.values.get? port

end Outputs

/-! ## Definitions -/

inductive Category where
  | event
  | logic
  | world
  | movement
  | collision
  | scene
  | audio
  | ui
  | utility
  deriving DecidableEq, Repr

namespace Category

/-- All groups, in the order in which messages list them. -/
def all : List Category :=
  [event, logic, world, movement, collision, scene, audio, ui, utility]

def name : Category → String
  | event => "Event"
  | logic => "Logic"
  | world => "World"
  | movement => "Movement"
  | collision => "Collision"
  | scene => "Scene"
  | audio => "Audio"
  | ui => "Ui"
  | utility => "Utility"

end Category

structure Port where
  id : PortId
  type : PortType
  name : String := id
  /-- The value that the editor shows where nothing is linked. -/
  fallback : Option Value := none
  deriving DecidableEq

def Port.control (id : PortId) : Port := { id, type := .control }

/-- What a run of a node starts from. -/
structure Activation (σ : Type) where
  world : World σ
  inputs : Inputs
  node : Node
  memory : Slot

/-- What a run of a node ends in. Without outputs nothing follows the run. -/
structure Outcome (σ : Type) where
  world : World σ
  memory : Slot
  outputs : Option Outputs
  notes : List Note := []

structure Definition (σ : Type) where
  kind : KindName
  category : Category
  label : String := kind
  description : String := ""
  inputs : List Port := []
  outputs : List Port := []
  /-- Nodes of the kind may start a pass, and may run several times in it. -/
  frameTrigger : Bool := false
  /-- A run may change more than its own outputs. -/
  sideEffects : Bool := false
  run : Activation σ → Outcome σ

namespace Activation

variable {σ : Type}

def finish (a : Activation σ) (outputs : Option Outputs) (notes : List Note := []) : Outcome σ :=
  { world := a.world, memory := a.memory, outputs, notes }

/-- The memory of the wanted type, or its initial value with a note if another memory was there. -/
def restore {α : Type} [Stored α] (a : Activation σ) : α × List Note :=
  let (memory, replaced) := (Slot.getOrDefault a.memory : α × Bool)
  (memory, if replaced then [.memoryReplaced (Stored.typeName α)] else [])

end Activation

namespace Definition

variable {σ : Type}

/-- The input that was declared first under the id. -/
def input? (d : Definition σ) (port : PortId) : Option Port := d.inputs.find? (·.id = port)

def output? (d : Definition σ) (port : PortId) : Option Port := d.outputs.find? (·.id = port)

def hasControlInput (d : Definition σ) : Bool := d.inputs.any (·.type.isControl)

def isControlOutput (d : Definition σ) (port : PortId) : Bool :=
  (d.output? port).any (·.type.isControl)

/-- Do nodes of this kind start a pass? -/
def isStart (d : Definition σ) : Bool := d.frameTrigger && !d.hasControlInput

end Definition

end GraphScript
