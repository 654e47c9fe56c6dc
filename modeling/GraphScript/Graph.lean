import GraphScript.Identity
import GraphScript.Table
import GraphScript.Value

/-!
# Graph — authored nodes and the connections between them

- A `Graph` is two lists in the order of declaration; ids may repeat and connections may dangle.
- `node?` finds the node that was declared first under an id; `connectionsFrom` and
  `connectionsTo` select connections by their ends.
- `Graph.agrees` compares graphs by content: numbers as numbers, properties without their order.
-/

namespace GraphScript

/-! ## Nodes -/

abbrev NodeId := String

abbrev KindName := String

/-- Where the editor shows a node. -/
structure Position where
  x : Signed Float32 := .plain 0
  y : Signed Float32 := .plain 0
  deriving DecidableEq, Inhabited

structure NodeData where
  label : String := ""
  properties : Table String Value := ∅
  deriving Inhabited

structure Node where
  id : NodeId
  kind : KindName
  position : Position := {}
  data : NodeData := {}
  deriving Inhabited

namespace Node

/-- A node without properties, labelled with its kind. -/
def ofKind (id : NodeId) (kind : KindName) : Node := { id, kind, data := { label := kind } }

def withLabel (n : Node) (label : String) : Node := { n with data := { n.data with label } }

def withProperty (n : Node) (key : String) (value : Value) : Node :=
  { n with data := { n.data with properties := n.data.properties.insert key value } }

def property? (n : Node) (key : String) : Option Value := n.data.properties.get? key

def number? (n : Node) (key : String) : Option Float := (n.property? key).bind Value.asNumber?

/-- A property read as a text that is not empty. -/
def text? (n : Node) (key : String) : Option String := (n.property? key).bind Value.asFilledText?

end Node

/-! ## Connections -/

abbrev ConnectionId := String

/-- A directed link from an output of one node to an input of another. -/
structure Connection where
  id : ConnectionId
  fromNode : NodeId
  fromPort : PortId
  toNode : NodeId
  toPort : PortId
  deriving DecidableEq, Inhabited

/-! ## Graphs -/

structure Graph where
  nodes : List Node := []
  connections : List Connection := []
  deriving Inhabited

namespace Graph

/-- The node that was declared first under the id. -/
def node? (g : Graph) (id : NodeId) : Option Node := g.nodes.find? (·.id = id)

def connectionsFrom (g : Graph) (id : NodeId) : List Connection :=
  g.connections.filter (·.fromNode = id)

def connectionsTo (g : Graph) (id : NodeId) : List Connection :=
  g.connections.filter (·.toNode = id)

def addNode (g : Graph) (n : Node) : Graph := { g with nodes := g.nodes ++ [n] }

def addConnection (g : Graph) (c : Connection) : Graph :=
  { g with connections := g.connections ++ [c] }

/-- Link two ports by a connection with a drawn id. -/
def connect (g : Graph) (supply : IdSupply) (fromNode : NodeId) (fromPort : PortId)
    (toNode : NodeId) (toPort : PortId) : ConnectionId × Graph × IdSupply :=
  let (id, supply) := supply.draw "edge"
  (id, g.addConnection ⟨id, fromNode, fromPort, toNode, toPort⟩, supply)

end Graph

/-! ## Agreement -/

/-- Equal numbers or equal text of the same kind. -/
def Position.agrees (p q : Position) : Bool :=
  p.x.float32 == q.x.float32 && p.y.float32 == q.y.float32

/-- The same keys with identical values, in any order. -/
def propertiesAgree (a b : Table String Value) : Bool :=
  a.size = b.size && a.entries.all fun (key, value) =>
    match b.get? key with
    | some other => value.identical other
    | none => false

def Node.agrees (m n : Node) : Bool :=
  m.id = n.id && m.kind = n.kind && m.position.agrees n.position && m.data.label = n.data.label
    && propertiesAgree m.data.properties n.data.properties

/-- The same nodes and the same connections in the same order. -/
def Graph.agrees (g h : Graph) : Bool :=
  g.nodes.length = h.nodes.length && (g.nodes.zip h.nodes).all (fun (m, n) => m.agrees n)
    && g.connections = h.connections

end GraphScript
